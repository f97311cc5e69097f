/-
Reconcile.Script.Shortest — a shortest edit script between two lists, in
linear space.

The lists are searched from both ends at once. On each diagonal of the
edit graph (`x` lines of the old list against `y = x - k` of the new) a
`Frontier` remembers how far a search got with a given number of edits;
when the two searches meet, the lists are split there and the halves are
solved on their own.
-/
import Reconcile.Script

namespace Reconcile.Script

/-! ## How far a search got -/

/-- The furthest old position reached on each diagonal. -/
structure Frontier where
  /-- The diagonal `-origin` is stored first. -/
  origin : Nat
  positions : Array Nat

namespace Frontier

/-- A search that has not started, with room for `span` edits. -/
def start (span : Nat) : Frontier :=
  ⟨span + 1, Array.replicate (2 * span + 3) 0⟩

/-- The furthest position on a diagonal. -/
def reach (f : Frontier) (k : Int) : Nat := f.positions.getD (k + f.origin).toNat 0

/-- Record the furthest position on a diagonal. -/
def record (f : Frontier) (k : Int) (x : Nat) : Frontier :=
  { f with positions := f.positions.setIfInBounds (k + f.origin).toNat x }

/-- Where the `d`-th edit enters a diagonal: by an insertion from the one
above or by a deletion from the one below, whichever got further. -/
def enter (f : Frontier) (d : Nat) (k : Int) : Nat :=
  if k = -d ∨ (k ≠ d ∧ f.reach (k - 1) < f.reach (k + 1)) then f.reach (k + 1)
  else f.reach (k - 1) + 1

end Frontier

section Search

variable {α : Type} [DecidableEq α]

/-- How many lines from `x` and `y` on are equal. -/
def equalRun (old new : Array α) (x y : Nat) : Nat :=
  if h : x < old.size ∧ y < new.size then
    if old[x] = new[y] then equalRun old new (x + 1) (y + 1) + 1 else 0
  else 0
termination_by old.size - x

/-- A run of equal lines on a diagonal, from one old position to another. -/
structure Snake where
  diagonal : Int
  start : Nat
  stop : Nat

/-- One round of a search: extend each diagonal from `d` down to `-d` by
one edit and the equal lines after it, until a diagonal meets the search
from the other end. The count says how many diagonals are left. -/
def round (old new : Array α) (d : Nat) (meets : Int → Nat → Bool) :
    Nat → Frontier → Frontier × Option Snake
  | 0, f => (f, none)
  | left + 1, f =>
    let k : Int := 2 * (left : Int) - d
    let x := f.enter d k
    let y : Int := x - k
    let stop := if 0 ≤ y then x + equalRun old new x y.toNat else x
    let f := f.record k stop
    if meets k stop then (f, some ⟨k, x, stop⟩)
    else round old new d meets left f

/-- Search from both ends with `d` edits, `d + 1` edits and so on, until
the searches meet; the answer is how many lines of either list lie before
the meeting point. -/
def meetingPoint (old new oldBack newBack : Array α) :
    Nat → Nat → Frontier → Frontier → Option (Nat × Nat)
  | 0, _, _, _ => none
  | rounds + 1, d, ahead, back =>
    let n := old.size
    let m := new.size
    let delta : Int := (n : Int) - m
    let odd := delta % 2 ≠ 0
    let meetsBack (k : Int) (x : Nat) : Bool :=
      odd ∧ (k - delta).natAbs < d ∧ n ≤ x + back.reach (delta - k)
    match round old new d meetsBack (d + 1) ahead with
    | (_, some s) =>
      let y : Int := s.start - s.diagonal
      if 0 ≤ y then some (s.start, y.toNat) else none
    | (ahead, none) =>
      let meetsAhead (k : Int) (x : Nat) : Bool :=
        ¬odd ∧ (k - delta).natAbs ≤ d ∧ n ≤ x + ahead.reach (delta - k)
      match round oldBack newBack d meetsAhead (d + 1) back with
      | (_, some s) =>
        let y : Int := s.stop - s.diagonal
        if s.stop ≤ n ∧ 0 ≤ y ∧ y ≤ m then
          some (n - s.stop, m - y.toNat)
        else none
      | (back, none) =>
        meetingPoint old new oldBack newBack rounds (d + 1) ahead back

/-- How many lines of either list to solve first, where that leaves two
smaller problems. -/
def splitPoint (old new : List α) : Option (Nat × Nat) :=
  let a := old.toArray
  let b := new.toArray
  let span := old.length + new.length
  (meetingPoint a b a.reverse b.reverse (span + 1) 0
    (.start span) (.start span)).filter
      fun (x, y) => 0 < x + y ∧ x ≤ old.length ∧ y ≤ new.length ∧ x + y < span

/-! ## The script -/

theorem splitPoint_bounds {old new : List α} {x y : Nat}
    (h : splitPoint old new = some (x, y)) :
    0 < x + y ∧ x ≤ old.length ∧ y ≤ new.length ∧
      x + y < old.length + new.length := by
  simp only [splitPoint, Option.filter_eq_some_iff, decide_eq_true_eq] at h
  exact h.2

/-- A shortest script between two lists: what they begin and end with in
common is kept, and what is left is split where the two searches meet. -/
def shortest (old new : List α) : Script α :=
  let front := commonPrefix old new
  let old₁ := old.drop front.length
  let new₁ := new.drop front.length
  let back := commonSuffix old₁ new₁
  let old₂ := old₁.take (old₁.length - back.length)
  let new₂ := new₁.take (new₁.length - back.length)
  let middle :=
    if old₂.isEmpty then single .insert new₂
    else if new₂.isEmpty then single .delete old₂
    else
      match _h : splitPoint old₂ new₂ with
      | some (x, y) =>
        shortest (old₂.take x) (new₂.take y) ++
          shortest (old₂.drop x) (new₂.drop y)
      | none => [⟨.delete, old₂⟩, ⟨.insert, new₂⟩]
  single .keep front ++ middle ++ single .keep back
termination_by old.length + new.length
decreasing_by
  all_goals
    have hb := splitPoint_bounds _h
    have ho : old₂.length ≤ old.length := by simp [old₂, old₁]; omega
    have hn : new₂.length ≤ new.length := by simp [new₂, new₁]; omega
    simp only [List.length_take, List.length_drop]
    omega

end Search

end Reconcile.Script
