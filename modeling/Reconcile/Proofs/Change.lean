/-
Reconcile.Proofs.Change — what a classification says.

`Classifies` says of a kind, part by part, when it is the kind of a comparison:
each direction on its own, whether both sides agree, and what changed. A kind has
no other parts (`eq_of_parts`), so there is one such kind, and a classification is
that kind (`classifies_iff`). What is said of one side is said of the other one, so
to exchange the sides exchanges the directions (`classify_swap`).
-/
import Reconcile.Change

namespace Reconcile.ChangeKind

/-! ## The parts of a kind -/

/-- The kinds of a single bit that say where something changed. -/
def flags : List ChangeKind := [left, right, pseudoConflict]

theorem exists_bit {flag : ChangeKind} (hflag : flag ∈ flags) :
    ∃ i, ∀ k : ChangeKind, k.contains flag = k.bits.getLsbD i := by
  simp only [flags, List.mem_cons, List.not_mem_nil, or_false] at hflag
  rcases hflag with rfl | rfl | rfl
  · exact ⟨2, by rintro ⟨bits⟩; revert bits; decide⟩
  · exact ⟨3, by rintro ⟨bits⟩; revert bits; decide⟩
  · exact ⟨4, by rintro ⟨bits⟩; revert bits; decide⟩

theorem contains_or {flag : ChangeKind} (hflag : flag ∈ flags) (a b : ChangeKind) :
    (a ||| b).contains flag = (a.contains flag || b.contains flag) := by
  obtain ⟨i, hbit⟩ := exists_bit hflag
  rw [hbit, hbit, hbit, ← BitVec.getLsbD_or]
  rfl

theorem changeType_or (a b : ChangeKind) :
    (a ||| b).changeType = a.changeType ||| b.changeType := by
  ext1
  exact BitVec.and_or_distrib_right

@[simp] theorem or_none (k : ChangeKind) : k ||| none = k := by
  ext1
  exact BitVec.or_zero

/-- A kind is put together from its parts. -/
theorem eq_union_parts (k : ChangeKind) :
    k = k.changeType ||| (if k.contains left then left else none) |||
      (if k.contains right then right else none) |||
      (if k.contains pseudoConflict then pseudoConflict else none) := by
  obtain ⟨bits⟩ := k
  revert bits
  decide

theorem eq_of_parts {a b : ChangeKind} (htype : a.changeType = b.changeType)
    (hflags : ∀ flag ∈ flags, a.contains flag = b.contains flag) : a = b := by
  rw [eq_union_parts a, eq_union_parts b, htype, hflags left (by decide),
    hflags right (by decide), hflags pseudoConflict (by decide)]

/-- The kind with the two directions exchanged. -/
def mirrored (k : ChangeKind) : ChangeKind :=
  ⟨k.bits &&& ~~~conflicting.bits⟩ |||
    (if k.contains right then left else none) |||
    (if k.contains left then right else none)

theorem parts_mirrored (k : ChangeKind) :
    k.mirrored.changeType = k.changeType ∧
      k.mirrored.contains left = k.contains right ∧
      k.mirrored.contains right = k.contains left ∧
      k.mirrored.contains pseudoConflict = k.contains pseudoConflict ∧
      (k.mirrored = none ↔ k = none) := by
  obtain ⟨bits⟩ := k
  revert bits
  decide

/-! ## What a classification has to say -/

/-- Nothing has changed: both sides are what the ancestor is, or there is none and
they are the same. -/
def Unchanged (ancestor l r : Option ByteArray) : Prop :=
  l = ancestor ∧ r = ancestor ∨ ancestor = .none ∧ l = r

/-- `k` says how a comparison has changed. A direction is in it exactly if there is an
ancestor from which that side differs, in its bytes or by being missing. -/
structure Classifies (ancestor l r : Option ByteArray) (k : ChangeKind) : Prop where
  left_iff : k.contains left = true ↔ ancestor.isSome ∧ l ≠ ancestor
  right_iff : k.contains right = true ↔ ancestor.isSome ∧ r ≠ ancestor
  pseudoConflict_iff : k.contains pseudoConflict = true ↔
    k.contains left = true ∧ k.contains right = true ∧ l = r
  none_iff : k = none ↔ Unchanged ancestor l r
  change : ¬ Unchanged ancestor l r → l.isSome → r.isSome →
    k.changeType = .change
  addition : ¬ Unchanged ancestor l r → l.isSome ≠ r.isSome → ancestor = .none →
    k.changeType = .addition
  deletion : ¬ Unchanged ancestor l r → l.isSome ≠ r.isSome → ancestor.isSome →
    k.changeType = .deletion
  neither : ¬ Unchanged ancestor l r → l = .none → r = .none → k.changeType = none

section Classifies

variable {ancestor l r : Option ByteArray} {k : ChangeKind}

theorem unchanged_swap : Unchanged ancestor r l ↔ Unchanged ancestor l r := by
  simp only [Unchanged, and_comm, eq_comm]

/-- What is said of one side is said of the other one. -/
theorem Classifies.mirrored (h : Classifies ancestor l r k) :
    Classifies ancestor r l k.mirrored := by
  obtain ⟨htype, hleft, hright, hpseudo, hnone⟩ := parts_mirrored k
  have hswap : ¬ Unchanged ancestor r l → ¬ Unchanged ancestor l r :=
    mt unchanged_swap.mpr
  constructor
  · rw [hleft, h.right_iff]
  · rw [hright, h.left_iff]
  · rw [hpseudo, hleft, hright, h.pseudoConflict_iff, and_left_comm, eq_comm (a := l)]
  · rw [hnone, h.none_iff, unchanged_swap]
  · intro hchanged hr hl
    exact htype.trans (h.change (hswap hchanged) hl hr)
  · intro hchanged hone habsent
    exact htype.trans (h.addition (hswap hchanged) hone.symm habsent)
  · intro hchanged hone hpresent
    exact htype.trans (h.deletion (hswap hchanged) hone.symm hpresent)
  · intro hchanged hr hl
    exact htype.trans (h.neither (hswap hchanged) hl hr)

/-- What changed is said in full. -/
theorem Classifies.changeType_eq (h : Classifies ancestor l r k)
    (hchanged : ¬ Unchanged ancestor l r) :
    k.changeType = whatChanged ancestor.isSome l r := by
  have hone : l.isSome ≠ r.isSome →
      k.changeType =
        if ancestor.isSome then ChangeKind.deletion else ChangeKind.addition := by
    intro hone
    cases ancestor with
    | none => exact h.addition hchanged hone rfl
    | some _ => exact h.deletion hchanged hone rfl
  cases l with
  | none =>
    cases r with
    | none => exact h.neither hchanged rfl rfl
    | some _ => exact hone (by simp)
  | some _ =>
    cases r with
    | none => exact hone (by simp)
    | some _ => exact h.change hchanged rfl rfl

/-- **There is one such kind.** -/
theorem Classifies.unique {k' : ChangeKind} (h : Classifies ancestor l r k)
    (h' : Classifies ancestor l r k') : k = k' := by
  by_cases hchanged : Unchanged ancestor l r
  · rw [h.none_iff.mpr hchanged, h'.none_iff.mpr hchanged]
  · have hleft : k.contains left = k'.contains left := by
      rw [Bool.eq_iff_iff, h.left_iff, h'.left_iff]
    have hright : k.contains right = k'.contains right := by
      rw [Bool.eq_iff_iff, h.right_iff, h'.right_iff]
    have hpseudo : k.contains pseudoConflict = k'.contains pseudoConflict := by
      rw [Bool.eq_iff_iff, h.pseudoConflict_iff, h'.pseudoConflict_iff, hleft, hright]
    refine eq_of_parts ?_ (by simp [flags, hleft, hright, hpseudo])
    rw [h.changeType_eq hchanged, h'.changeType_eq hchanged]

end Classifies

/-! ## Classification -/

/-- On which sides a comparison has changed; there are no directions without an
ancestor. -/
def directions (ancestor l r : Option ByteArray) : ChangeKind :=
  match ancestor with
  | .none => none
  | some base => whereChanged base l r

theorem parts_whatChanged (hasAncestor : Bool) (l r : Option ByteArray) :
    (whatChanged hasAncestor l r).changeType = whatChanged hasAncestor l r ∧
      ∀ flag ∈ flags, (whatChanged hasAncestor l r).contains flag = false := by
  have hkinds : ∀ what ∈ [none, addition, deletion, change],
      what.changeType = what ∧ ∀ flag ∈ flags, what.contains flag = false := by
    decide
  apply hkinds
  cases l <;> cases r <;> cases hasAncestor <;> simp [whatChanged]

/-- Directions say nothing of what changed. -/
theorem parts_directions (ancestor l r : Option ByteArray) :
    let place := directions ancestor l r
    place.changeType = none ∧
      (place.contains left = true ↔ ancestor.isSome ∧ l ≠ ancestor) ∧
      (place.contains right = true ↔ ancestor.isSome ∧ r ≠ ancestor) ∧
      (place.contains pseudoConflict = true ↔
        place.contains left = true ∧ place.contains right = true ∧ l = r) := by
  have hnone : none.changeType = none ∧ ∀ flag ∈ flags, none.contains flag = false := by
    decide
  simp only [flags, List.forall_mem_cons] at hnone
  cases ancestor with
  | none => simp [directions, hnone]
  | some base =>
    have hparts : ∀ place ∈ [left, right, conflicting, conflicting ||| pseudoConflict],
        place.changeType = none := by decide
    simp only [List.forall_mem_cons] at hparts
    by_cases hl : l = some base <;> by_cases hr : r = some base <;>
      by_cases hsame : l = r <;>
      simp_all [directions, whereChanged]
    all_goals decide

section Classify

variable {ancestor l r : Option ByteArray}

theorem classify_of_unchanged (h : Unchanged ancestor l r) :
    classify ancestor l r = none := by
  obtain ⟨rfl, rfl⟩ | ⟨rfl, rfl⟩ := h
  · cases r <;> simp [classify]
  · simp [classify]

/-- What changed and where are worked out apart from each other. -/
theorem classify_of_changed (h : ¬ Unchanged ancestor l r) :
    classify ancestor l r =
      whatChanged ancestor.isSome l r ||| directions ancestor l r := by
  cases ancestor with
  | none =>
    have hdiffer : l ≠ r := fun hsame => h (.inr ⟨rfl, hsame⟩)
    simp [classify, directions, hdiffer]
  | some base =>
    have hmoved : ¬ (l = some base ∧ r = some base) := fun hboth => h (.inl hboth)
    simp [classify, directions, hmoved]

/-- Without a change no side differs from the ancestor, if there is one. -/
theorem Unchanged.directions_eq (h : Unchanged ancestor l r) :
    directions ancestor l r = none := by
  obtain ⟨rfl, rfl⟩ | ⟨rfl, rfl⟩ := h
  · cases r <;> simp [directions, whereChanged]
  · simp [directions]

/-- Where a comparison has changed is what its directions are. -/
theorem contains_classify {flag : ChangeKind} (hflag : flag ∈ flags) :
    (classify ancestor l r).contains flag =
      (directions ancestor l r).contains flag := by
  by_cases h : Unchanged ancestor l r
  · rw [classify_of_unchanged h, h.directions_eq]
  · rw [classify_of_changed h, contains_or hflag,
      (parts_whatChanged ancestor.isSome l r).2 flag hflag, Bool.false_or]

theorem changeType_classify (h : ¬ Unchanged ancestor l r) :
    (classify ancestor l r).changeType = whatChanged ancestor.isSome l r := by
  rw [classify_of_changed h, changeType_or, (parts_directions ancestor l r).1,
    or_none, (parts_whatChanged ancestor.isSome l r).1]

theorem eq_of_classify_eq_none (h : classify .none l r = none) : l = r := by
  refine Classical.byContradiction fun hdiffer => ?_
  have hwhat : whatChanged false l r = none := by
    simpa [classify, hdiffer] using h
  cases l with
  | none =>
    cases r with
    | none => exact hdiffer rfl
    | some _ => exact absurd hwhat (by simp only [whatChanged]; decide)
  | some _ =>
    cases r <;> exact absurd hwhat (by simp only [whatChanged]; decide)

/-- No change is said of nothing else: a comparison whose sides are both missing, and
whose ancestor is not, has its directions. -/
theorem classify_eq_none_iff :
    classify ancestor l r = none ↔ Unchanged ancestor l r := by
  refine ⟨fun h => ?_, classify_of_unchanged⟩
  cases ancestor with
  | none => exact .inr ⟨rfl, eq_of_classify_eq_none h⟩
  | some base =>
    obtain ⟨-, hleft, hright, -⟩ := parts_directions (some base) l r
    have hstays : ∀ flag ∈ flags, (directions (some base) l r).contains flag = false := by
      intro flag hflag
      rw [← contains_classify hflag, h]
      revert flag
      decide
    simp only [flags, List.forall_mem_cons] at hstays
    simp only [hstays, Option.isSome_some, true_and, Bool.false_eq_true, false_iff,
      ne_eq, Classical.not_not] at hleft hright
    exact .inl ⟨hleft, hright⟩

theorem classifies_classify (ancestor l r : Option ByteArray) :
    Classifies ancestor l r (classify ancestor l r) := by
  obtain ⟨-, hleft, hright, hpseudo⟩ := parts_directions ancestor l r
  constructor
  · rw [contains_classify (by decide), hleft]
  · rw [contains_classify (by decide), hright]
  · rw [contains_classify (by decide), contains_classify (by decide),
      contains_classify (by decide), hpseudo]
  · exact classify_eq_none_iff
  · intro h hl hr
    obtain ⟨_, rfl⟩ := Option.isSome_iff_exists.mp hl
    obtain ⟨_, rfl⟩ := Option.isSome_iff_exists.mp hr
    rw [changeType_classify h, whatChanged]
  · intro h hone habsent
    rw [changeType_classify h, habsent]
    cases l <;> cases r <;> simp_all [whatChanged]
  · intro h hone hpresent
    rw [changeType_classify h, hpresent]
    cases l <;> cases r <;> simp_all [whatChanged]
  · rintro h rfl rfl
    rw [changeType_classify h, whatChanged]

/-- **Classification is exact**: a kind is that of a comparison if it says of each
part what holds of the comparison. -/
theorem classifies_iff {k : ChangeKind} :
    Classifies ancestor l r k ↔ k = classify ancestor l r := by
  constructor
  · intro h
    exact h.unique (classifies_classify ancestor l r)
  · rintro rfl
    exact classifies_classify ancestor l r

/-- To exchange the sides exchanges the directions, and nothing else. -/
theorem classify_swap :
    classify ancestor r l = (classify ancestor l r).mirrored :=
  (classifies_classify ancestor r l).unique (classifies_classify ancestor l r).mirrored

end Classify

end Reconcile.ChangeKind
