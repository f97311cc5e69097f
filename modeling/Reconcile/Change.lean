/-
Reconcile.Change — how the sides of a comparison differ.

A change kind is five bits: the lowest two say what changed, the next two
on which side of a common ancestor, the last that both sides made the
same change. Any direction bit means that the comparison was made against
an ancestor.
-/
import Reconcile.Bytes

namespace Reconcile

/-- How the sides of a comparison differ, as a set of bits. -/
@[ext]
structure ChangeKind where
  bits : BitVec 5
  deriving DecidableEq, Repr

namespace ChangeKind

/-! ## The named kinds -/

/-- Nothing changed. -/
def none : ChangeKind := ⟨0#5⟩

/-- A side is new. -/
def addition : ChangeKind := ⟨1#5⟩

/-- A side is gone. -/
def deletion : ChangeKind := ⟨2#5⟩

/-- Both sides exist and differ. -/
def change : ChangeKind := ⟨3#5⟩

/-- The left side moved away from the ancestor. -/
def left : ChangeKind := ⟨4#5⟩

/-- The right side moved away from the ancestor. -/
def right : ChangeKind := ⟨8#5⟩

/-- Both sides moved away from the ancestor. -/
def conflicting : ChangeKind := ⟨12#5⟩

/-- Both sides moved away from the ancestor in the same way. -/
def pseudoConflict : ChangeKind := ⟨16#5⟩

/-! ## Parts -/

/-- The bits of either kind. -/
def union (a b : ChangeKind) : ChangeKind := ⟨a.bits ||| b.bits⟩

instance : OrOp ChangeKind := ⟨union⟩

/-- Whether every bit of `b` is in `a`. -/
def contains (a b : ChangeKind) : Bool := a.bits &&& b.bits == b.bits

/-- What changed: an addition, a deletion, a change, or nothing. -/
def changeType (k : ChangeKind) : ChangeKind := ⟨k.bits &&& change.bits⟩

/-- On which side of the ancestor it changed, if there is one. -/
def direction (k : ChangeKind) : ChangeKind := ⟨k.bits &&& conflicting.bits⟩

/-- Whether the comparison was made against an ancestor. -/
def isThreeWay (k : ChangeKind) : Bool := k.direction ≠ none

/-- Whether both sides moved away from the ancestor. -/
def isConflicting (k : ChangeKind) : Bool := k.direction = conflicting

/-- The bits as a number. -/
def toNat (k : ChangeKind) : Nat := k.bits.toNat

/-- The kind with the given bits; higher bits have no meaning and are dropped. -/
def ofNat (n : Nat) : ChangeKind := ⟨BitVec.ofNat 5 n⟩

/-! ## Wording -/

/-- The words for a kind: what changed, then where, then whether both
sides agree. -/
def text (k : ChangeKind) : String :=
  let what :=
    if k.changeType = addition then "addition"
    else if k.changeType = deletion then "deletion"
    else if k.changeType = change then "change"
    else "no-change"
  let where' :=
    if k.direction = left then "+left"
    else if k.direction = right then "+right"
    else if k.direction = conflicting then "+conflicting"
    else ""
  what ++ where' ++ if k.contains pseudoConflict then "+pseudo" else ""

/-! ## Classification -/

/-- What changed between two sides, given whether there is an ancestor. -/
def whatChanged (hasAncestor : Bool) (left right : Option ByteArray) :
    ChangeKind :=
  match left, right with
  | some _, some _ => change
  | .none, .none => none
  | _, _ => if hasAncestor then deletion else addition

/-- Which sides moved away from the ancestor, and whether they agree. -/
def whereChanged (ancestor : ByteArray) (left right : Option ByteArray) :
    ChangeKind :=
  match decide (left = some ancestor), decide (right = some ancestor) with
  | false, false =>
    if left = right then conflicting ||| pseudoConflict else conflicting
  | false, true => ChangeKind.left
  | true, false => ChangeKind.right
  | true, true => none

/-- The change kind of a comparison, from what its sides hold. Without an
ancestor only the two sides are compared; with one, each side is compared
with it, and a comparison in which neither moved has no change at all. -/
def classify (ancestor left right : Option ByteArray) : ChangeKind :=
  match ancestor with
  | .none => if left = right then none else whatChanged false left right
  | some base =>
    if left = some base ∧ right = some base then none
    else whatChanged true left right ||| whereChanged base left right

end ChangeKind

end Reconcile
