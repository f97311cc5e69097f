/-
Reconcile.Script.Compact — edits moved as far down as they go, joined
with edits of the same kind on the way.

An edit can move past kept lines as long as the lines it leaves behind
equal those it takes in. Each deletion, and after that each insertion, is
moved up as far as it goes and then down again; wherever two edits of one
kind meet they become one.
-/
import Reconcile.Script

namespace Reconcile.Script

variable {α : Type}

/-! ## Pieces of a script -/

/-- Put kept lines in front of a script, joined with what it keeps first. -/
def keepFirst (lines : List α) (script : Script α) : Script α :=
  if lines.isEmpty then script
  else
    match script with
    | ⟨.keep, more⟩ :: rest => ⟨.keep, lines ++ more⟩ :: rest
    | _ => ⟨.keep, lines⟩ :: script

/-- Put kept lines at the end of a script that is held in reverse, joined
with what it keeps last. -/
def keepLast (lines : List α) (script : Script α) : Script α :=
  if lines.isEmpty then script
  else
    match script with
    | ⟨.keep, more⟩ :: rest => ⟨.keep, more ++ lines⟩ :: rest
    | _ => ⟨.keep, lines⟩ :: script

/-- Where an edit of a known kind stands in a script: what is before it,
nearest first, its lines, and what is after it. -/
structure Spot (α : Type) where
  before : Script α
  lines : List α
  after : Script α

/-- The last lines of a list moved to its front. -/
def turnUp (count : Nat) (lines : List α) : List α :=
  lines.drop (lines.length - count) ++ lines.take (lines.length - count)

/-- The first lines of a list moved to its end. -/
def turnDown (count : Nat) (lines : List α) : List α :=
  lines.drop count ++ lines.take count

/-- The kept lines `kept`, less the last `count` of them, in front of a
script that is held in reverse. -/
def withoutLast (count : Nat) (kept : List α) (before : Script α) : Script α :=
  single .keep (kept.take (kept.length - count)) ++ before

/-- The kept lines `kept`, less the first `count` of them, in front of a
script. -/
def withoutFirst (count : Nat) (kept : List α) (after : Script α) : Script α :=
  single .keep (kept.drop count) ++ after

theorem weight_single_append_lt {lines kept : List α} (script : Script α)
    (h : lines = [] ∨ lines.length < kept.length) :
    weight (single .keep lines ++ script) < kept.length + 1 + weight script := by
  rcases h with rfl | h
  · simp [single]
  · unfold single
    split
    · simp
    · simp [weight]; omega

/-! ## Moving an edit -/

section Slide

variable [DecidableEq α]

/-- Move an edit up as far as it goes: past kept lines that end like it,
past edits of the opposite kind, and into an edit of its own kind. -/
def slideUp (kind : EditKind) (before : Script α) (lines : List α)
    (after : Script α) : Spot α :=
  match before with
  | [] => ⟨[], lines, after⟩
  | e :: before =>
    if e.kind = kind then slideUp kind before (e.lines ++ lines) after
    else if e.kind = .keep then
      if e.lines ≠ [] ∧ commonSuffix e.lines lines = [] then
        ⟨e :: before, lines, after⟩
      else
        slideUp kind
          (withoutLast (commonSuffix e.lines lines).length e.lines before)
          (turnUp (commonSuffix e.lines lines).length lines)
          (keepFirst (commonSuffix e.lines lines) after)
    else slideUp kind before lines (e :: after)
termination_by weight before
decreasing_by
  · simp only [weight]; omega
  · next h =>
    apply weight_single_append_lt
    by_cases hl : e.lines = []
    · exact .inl (by simp [hl])
    · have hs : commonSuffix e.lines lines ≠ [] := fun hs => h ⟨hl, hs⟩
      have := List.length_pos_iff.mpr hs
      have := List.length_pos_iff.mpr hl
      exact .inr (by simp only [List.length_take]; omega)
  · simp only [weight]; omega

/-- Move an edit down as far as it goes: past kept lines that begin like
it, past edits of the opposite kind, and into an edit of its own kind. -/
def slideDown (kind : EditKind) (before : Script α) (lines : List α)
    (after : Script α) : Spot α :=
  match after with
  | [] => ⟨before, lines, []⟩
  | e :: after =>
    if e.kind = kind then slideDown kind before (lines ++ e.lines) after
    else if e.kind = .keep then
      if e.lines ≠ [] ∧ commonPrefix e.lines lines = [] then
        ⟨before, lines, e :: after⟩
      else
        slideDown kind
          (keepLast (commonPrefix e.lines lines) before)
          (turnDown (commonPrefix e.lines lines).length lines)
          (withoutFirst (commonPrefix e.lines lines).length e.lines after)
    else slideDown kind (e :: before) lines after
termination_by weight after
decreasing_by
  · simp only [weight]; omega
  · next h =>
    apply weight_single_append_lt
    by_cases hl : e.lines = []
    · exact .inl (by simp [hl])
    · have hs : commonPrefix e.lines lines ≠ [] := fun hs => h ⟨hl, hs⟩
      have := List.length_pos_iff.mpr hs
      have := List.length_pos_iff.mpr hl
      exact .inr (by simp only [List.length_drop]; omega)
  · simp only [weight]; omega

/-- Where an edit settles when it is moved up and then down. -/
def slide (kind : EditKind) (before : Script α) (lines : List α)
    (after : Script α) : Spot α :=
  let up := slideUp kind before lines after
  slideDown kind up.before up.lines up.after

end Slide

/-! ## Each pass ends

Moving an edit never puts another edit of its kind behind it, so every
step of a pass leaves fewer of them, or fewer edits of other kinds.
-/

/-- How many edits of a kind a script has. -/
def countKind (kind : EditKind) (script : Script α) : Nat :=
  script.countP (·.kind = kind)

theorem countKind_cons (kind : EditKind) (e : Edit α) (script : Script α) :
    countKind kind (e :: script) =
      countKind kind script + if e.kind = kind then 1 else 0 := by
  simp [countKind, List.countP_cons]

theorem countKind_keepFirst {kind : EditKind} (hk : kind ≠ .keep)
    (lines : List α) (script : Script α) :
    countKind kind (keepFirst lines script) = countKind kind script := by
  unfold keepFirst
  split
  · rfl
  · split <;> simp [countKind_cons, Ne.symm hk]

theorem countKind_withoutFirst {kind : EditKind} (hk : kind ≠ .keep)
    (count : Nat) (kept : List α) (script : Script α) :
    countKind kind (withoutFirst count kept script) =
      countKind kind script := by
  unfold withoutFirst single
  split <;> simp [countKind_cons, Ne.symm hk]

/-- The first edit of a kind in a script. What is before it, and before the
script, is held in reverse. -/
def nextSpot (kind : EditKind) (before : Script α) :
    Script α → Option (Spot α)
  | [] => none
  | e :: after =>
    if e.kind = kind then some ⟨before, e.lines, after⟩
    else nextSpot kind (e :: before) after

theorem countKind_nextSpot {kind : EditKind} {before after : Script α}
    {spot : Spot α} (h : nextSpot kind before after = some spot) :
    countKind kind spot.after < countKind kind after := by
  induction after generalizing before with
  | nil => simp [nextSpot] at h
  | cons e after ih =>
    rw [nextSpot] at h
    rw [countKind_cons]
    split at h
    · next hk =>
      cases h
      rw [if_pos hk]
      exact Nat.lt_succ_self _
    · exact Nat.lt_of_lt_of_le (ih h) (Nat.le_add_right _ _)

section Pass

variable [DecidableEq α]

theorem countKind_slideUp {kind : EditKind} (hk : kind ≠ .keep)
    (before : Script α) (lines : List α) (after : Script α) :
    countKind kind (slideUp kind before lines after).after =
      countKind kind after := by
  fun_induction slideUp kind before lines after with
  | case1 => rfl
  | case2 _ _ _ _ _ ih => exact ih
  | case3 => rfl
  | case4 _ _ _ _ _ _ _ ih => rw [ih, countKind_keepFirst hk]
  | case5 _ _ _ _ h _ ih => rw [ih, countKind_cons, if_neg h, Nat.add_zero]

theorem countKind_slideDown {kind : EditKind} (hk : kind ≠ .keep)
    (before : Script α) (lines : List α) (after : Script α) :
    countKind kind (slideDown kind before lines after).after ≤
      countKind kind after := by
  fun_induction slideDown kind before lines after with
  | case1 => exact Nat.le_refl _
  | case2 _ _ _ _ _ ih => rw [countKind_cons]; omega
  | case3 => exact Nat.le_refl _
  | case4 _ _ _ _ _ _ _ ih =>
    rw [countKind_withoutFirst hk] at ih
    rw [countKind_cons]
    omega
  | case5 _ _ _ _ _ _ ih => rw [countKind_cons]; omega

theorem countKind_slide {kind : EditKind} (hk : kind ≠ .keep)
    (before : Script α) (lines : List α) (after : Script α) :
    countKind kind (slide kind before lines after).after ≤
      countKind kind after :=
  countKind_slideUp hk before lines after ▸ countKind_slideDown hk _ _ _

/-- Move every edit of one kind, other than the kept lines, down as far
as it goes. What is before the current edit is held in reverse. -/
def settle (kind : EditKind) (hk : kind ≠ .keep) (before : Script α)
    (after : Script α) : Script α :=
  match _h : nextSpot kind before after with
  | none => before.reverse ++ after
  | some spot =>
    settle kind hk
      (⟨kind, (slide kind spot.before spot.lines spot.after).lines⟩ ::
        (slide kind spot.before spot.lines spot.after).before)
      (slide kind spot.before spot.lines spot.after).after
termination_by countKind kind after
decreasing_by
  exact Nat.lt_of_le_of_lt (countKind_slide hk _ _ _) (countKind_nextSpot _h)

/-- Move the deletions, then the insertions, down as far as they go. -/
def compact (script : Script α) : Script α :=
  settle .insert (by decide) [] (settle .delete (by decide) [] script)

end Pass

end Reconcile.Script
