/-
Reconcile.Merge — three-way merge of texts.

The scripts that lead from the ancestor to the left and to the right text
are walked together. Where both keep the ancestor, so does the merge;
between such places a stretch was changed on one side, and that side is
taken, or on both, and then the stretch is a conflict unless two of its
three texts agree.

* `Merge.blocks` is the merge as a list of blocks.
* `Merge.render` writes conflicts between markers.
* `Merge.conflictRegions` finds the marked stretches in a text.
* `Merge.ofTexts` merges, with shortcuts where a side did not change.
-/
import Reconcile.Text.Lines
import Reconcile.Script.Shortest
import Reconcile.Script.Compact

namespace Reconcile.Merge

open Reconcile.Text (lines joinLines startsWith)

/-! ## Stretches -/

section Walk

variable {α : Type}

/-- The lines of a stretch between two places that both sides keep. A
missing part was not touched at all, which is different from an empty
one. -/
structure Stretch (α : Type) where
  ancestor : Option (List α) := none
  left : Option (List α) := none
  right : Option (List α) := none

/-- A part with further lines. -/
def grow (part : Option (List α)) (more : List α) : Option (List α) :=
  some (part.getD [] ++ more)

/-- A part of a merge: lines that are settled, or a conflict. -/
inductive Block (α : Type) where
  | settled (lines : List α)
  | conflict (ancestor left right : List α)
  deriving DecidableEq, Repr

/-- A stretch that was changed on both sides is settled if the sides agree
or one of them is the ancestor. -/
def Block.ofSides [DecidableEq α] (ancestor left right : List α) : Block α :=
  if left = right then .settled left
  else if ancestor = left then .settled right
  else if ancestor = right then .settled left
  else .conflict ancestor left right

/-- What becomes of a stretch. -/
def Stretch.close [DecidableEq α] (s : Stretch α) : List (Block α) :=
  match s.ancestor, s.left, s.right with
  | none, some l, none => [.settled l]
  | none, none, some r => [.settled r]
  | _, none, none => []
  | a, l, r => [.ofSides (a.getD []) (l.getD []) (r.getD [])]

/-! ## Walking two scripts -/

/-- An edit without its first lines, in front of a script; nothing is put
there if no line is left. -/
def rest (e : Edit α) (count : Nat) (script : Script α) : Script α :=
  Script.single e.kind (e.lines.drop count) ++ script

theorem weight_rest_le (e : Edit α) (count : Nat) (script : Script α) :
    Script.weight (rest e count script) ≤ e.lines.length - count + 1 + Script.weight script := by
  unfold rest Script.single
  split
  · simp only [List.nil_append]; omega
  · simp [Script.weight]

theorem weight_rest_lt (e : Edit α) (script : Script α) :
    Script.weight (rest e e.lines.length script) < e.lines.length + 1 + Script.weight script := by
  unfold rest Script.single
  simp only [List.drop_length, List.isEmpty_nil, if_true, List.nil_append]
  omega

/-- How many lines two edits can be cut to. -/
def overlap (l r : Edit α) : Nat := min l.lines.length r.lines.length

theorem weight_rest_overlap_lt (l r : Edit α) (left right : Script α) :
    Script.weight (rest l (overlap l r) left) +
        Script.weight (rest r (overlap l r) right) <
      Script.weight (l :: left) + Script.weight (r :: right) := by
  have hl := weight_rest_le l (overlap l r) left
  have hr := weight_rest_le r (overlap l r) right
  simp only [Script.weight]
  rcases Nat.le_total l.lines.length r.lines.length with h | h
  · have he : overlap l r = l.lines.length := Nat.min_eq_left h
    have := weight_rest_lt l left
    rw [he] at hl hr ⊢
    omega
  · have he : overlap l r = r.lines.length := Nat.min_eq_right h
    have := weight_rest_lt r right
    rw [he] at hl hr ⊢
    omega

variable [DecidableEq α]

/-- What two edits of equal length that are not insertions make of the
stretch before them: lines that both keep end it, lines that only one keeps
are part of the ancestor and of that side, and lines that both delete leave
both sides empty. -/
def meet (s : Stretch α) (l r : Edit α) (count : Nat) :
    List (Block α) × Stretch α :=
  match l.kind, r.kind with
  | .keep, .keep => (s.close ++ [.settled (l.lines.take count)], {})
  | .keep, _ =>
    ([], { s with
      ancestor := grow s.ancestor (r.lines.take count)
      left := grow s.left (l.lines.take count) })
  | _, .keep =>
    ([], { s with
      ancestor := grow s.ancestor (l.lines.take count)
      right := grow s.right (r.lines.take count) })
  | _, _ =>
    ([], ⟨grow s.ancestor (l.lines.take count), grow s.left [],
      grow s.right []⟩)

/-- Walk the scripts of the two sides together, given the stretch that is
being put together. Insertions come first, the left one before the right
one; other edits are cut to the same length and met. -/
def walk (s : Stretch α) (left right : Script α) : List (Block α) :=
  match left, right with
  | [], [] => s.close
  | l :: left, [] =>
    if l.kind = .insert then
      walk { s with left := grow s.left l.lines } left []
    else s.close
  | [], r :: right =>
    if r.kind = .insert then
      walk { s with right := grow s.right r.lines } [] right
    else s.close
  | l :: left, r :: right =>
    if l.kind = .insert then
      walk { s with left := grow s.left l.lines } left (r :: right)
    else if r.kind = .insert then
      walk { s with right := grow s.right r.lines } (l :: left) right
    else
      (meet s l r (overlap l r)).1 ++
        walk (meet s l r (overlap l r)).2 (rest l (overlap l r) left)
          (rest r (overlap l r) right)
termination_by Script.weight left + Script.weight right
decreasing_by
  all_goals first
    | exact weight_rest_overlap_lt l r left right
    | (simp only [Script.weight]; omega)

/-- The merge of two lists of lines that come from a common ancestor. -/
def blocks (ancestor left right : List α) : List (Block α) :=
  walk {} (Script.shortest ancestor left).compact
    (Script.shortest ancestor right).compact

end Walk

/-! ## Writing a merge -/

/-- Whether a block is a conflict. -/
def Block.isConflict {α : Type} : Block α → Bool
  | settled _ => false
  | conflict .. => true

/-- The line that opens a conflict. -/
def openingMarker : String := "<<<<<<< ours\n"

/-- The line in front of the ancestor's part of a conflict. -/
def ancestorMarker : String := "||||||| original\n"

/-- The line in front of the right part of a conflict. -/
def rightMarker : String := "=======\n"

/-- The line that closes a conflict. -/
def closingMarker : String := ">>>>>>> theirs\n"

/-- A block as text. The parts of a conflict are copied as they are, so a
part whose last line has no line feed has the next marker right after it. -/
def Block.render : Block String → String
  | settled ls => joinLines ls
  | conflict a l r =>
    openingMarker ++ joinLines l ++ ancestorMarker ++ joinLines a ++
      rightMarker ++ joinLines r ++ closingMarker

/-- A merge as text. -/
def render (bs : List (Block String)) : String :=
  String.join (bs.map Block.render)

/-! ## Finding conflicts in a text -/

/-- The lines of a conflict, from its opening to its closing marker,
counted from one. -/
structure Region where
  first : Nat
  last : Nat
  deriving DecidableEq, Repr

/-- Whether a line opens a conflict. -/
def opens (line : String) : Bool := startsWith "<<<<<<<" line

/-- Whether a line closes a conflict. -/
def closes (line : String) : Bool := startsWith ">>>>>>>" line

/-- The marked regions of the lines from number `n` on, given where the
last opening marker stands that has not been closed. -/
def regionsFrom (n : Nat) (opened : Option Nat) : List String → List Region
  | [] => []
  | line :: more =>
    if opens line then regionsFrom (n + 1) (some n) more
    else if closes line then
      match opened with
      | some first => ⟨first, n⟩ :: regionsFrom (n + 1) none more
      | none => regionsFrom (n + 1) none more
    else regionsFrom (n + 1) opened more

/-- The marked regions of a text. -/
def conflictRegions (text : String) : List Region :=
  regionsFrom 1 none (lines text)

/-! ## Merging texts -/

/-- A merged text. -/
structure Merged where
  content : String
  hasConflicts : Bool
  conflicts : List Region
  deriving DecidableEq, Repr

/-- A merge without conflicts. -/
def Merged.clean (content : String) : Merged := ⟨content, false, []⟩

/-- The merge of two texts by their scripts. -/
def full (ancestor left right : String) : Merged :=
  let bs := blocks (lines ancestor) (lines left) (lines right)
  let text := render bs
  if bs.any Block.isConflict then ⟨text, true, conflictRegions text⟩
  else .clean text

/-- The merge of two texts. Where the left text is the ancestor or the
right one, the answer is the right text; where the right one is the
ancestor, it is the left text. -/
def ofTexts (ancestor left right : String) : Merged :=
  if left = ancestor ∨ left = right then .clean right
  else if right = ancestor then .clean left
  else full ancestor left right

/-- The merge of bytes, `none` if any of the three is no text. -/
def ofBytes (ancestor left right : ByteArray) : Option Merged := do
  return ofTexts (← String.fromUTF8? ancestor) (← String.fromUTF8? left)
    (← String.fromUTF8? right)

end Reconcile.Merge
