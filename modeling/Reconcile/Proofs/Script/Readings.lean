/-
Reconcile.Proofs.Script.Readings — a script leads from the one list to the
other, and none of its edits is without lines.

`Between s a b` says so of the script `s`. The shortest script is one
(`between_shortest`), whatever the two searches make of the lists: where they
meet is only where the lists are cut. Moving an edit past its neighbour leads from
a script to another of the same two lists (`Between.join`, `Between.exchange`,
`Between.passUp`, `Between.passDown`), and compaction does nothing else
(`Between.compact`).
-/
import Reconcile.Script.Compact
import Reconcile.Script.Shortest

namespace Reconcile

/-! ## Common ends -/

section CommonEnds

variable {α : Type} [DecidableEq α]

theorem commonPrefix_prefix_left (as bs : List α) : commonPrefix as bs <+: as := by
  induction as generalizing bs with
  | nil => simp [commonPrefix]
  | cons a as ih =>
    cases bs with
    | nil => simp [commonPrefix]
    | cons b bs =>
      rw [commonPrefix]
      split
      · exact List.cons_prefix_cons.mpr ⟨rfl, ih bs⟩
      · exact List.nil_prefix

theorem commonPrefix_comm (as bs : List α) :
    commonPrefix as bs = commonPrefix bs as := by
  induction as generalizing bs with
  | nil => cases bs <;> rfl
  | cons a as ih =>
    cases bs with
    | nil => rfl
    | cons b bs =>
      rw [commonPrefix, commonPrefix, ih]
      by_cases h : a = b
      · simp [h]
      · simp [h, Ne.symm h]

theorem commonPrefix_prefix_right (as bs : List α) : commonPrefix as bs <+: bs := by
  rw [commonPrefix_comm]
  exact commonPrefix_prefix_left bs as

theorem commonPrefix_self (as : List α) : commonPrefix as as = as := by
  induction as with
  | nil => rfl
  | cons a as ih => rw [commonPrefix, if_pos rfl, ih]

theorem commonSuffix_suffix_left (as bs : List α) : commonSuffix as bs <:+ as := by
  rw [commonSuffix, ← List.reverse_prefix, List.reverse_reverse]
  exact commonPrefix_prefix_left _ _

theorem commonSuffix_suffix_right (as bs : List α) : commonSuffix as bs <:+ bs := by
  rw [commonSuffix, ← List.reverse_prefix, List.reverse_reverse]
  exact commonPrefix_prefix_right _ _

end CommonEnds

namespace Script

variable {α : Type}

/-! ## Readings of a script -/

/-- What an edit does not insert, it reads. -/
theorem old_of_ne_insert {e : Edit α} (h : e.kind ≠ .insert) : e.old = e.lines := by
  obtain ⟨kind, lines⟩ := e
  cases kind <;> simp_all [Edit.old]

@[simp] theorem old_nil : old ([] : Script α) = [] := rfl

@[simp] theorem new_nil : new ([] : Script α) = [] := rfl

@[simp] theorem old_cons (e : Edit α) (s : Script α) : old (e :: s) = e.old ++ old s :=
  rfl

@[simp] theorem new_cons (e : Edit α) (s : Script α) : new (e :: s) = e.new ++ new s :=
  rfl

@[simp] theorem old_append (s t : Script α) : old (s ++ t) = old s ++ old t :=
  List.flatMap_append

@[simp] theorem new_append (s t : Script α) : new (s ++ t) = new s ++ new t :=
  List.flatMap_append

@[simp] theorem old_single (kind : EditKind) (lines : List α) :
    old (single kind lines) = (⟨kind, lines⟩ : Edit α).old := by
  unfold single
  split
  · rename_i h
    rw [List.isEmpty_iff.mp h]
    cases kind <;> rfl
  · simp

@[simp] theorem new_single (kind : EditKind) (lines : List α) :
    new (single kind lines) = (⟨kind, lines⟩ : Edit α).new := by
  unfold single
  split
  · rename_i h
    rw [List.isEmpty_iff.mp h]
    cases kind <;> rfl
  · simp

theorem kind_of_mem_single {kind : EditKind} {lines : List α} {e : Edit α}
    (h : e ∈ single kind lines) : e.kind = kind := by
  unfold single at h
  split at h
  · simp at h
  · rw [List.mem_singleton.mp h]

theorem old_keepFirst (lines : List α) (s : Script α) :
    old (keepFirst lines s) = lines ++ old s := by
  unfold keepFirst
  split
  · rename_i h
    rw [List.isEmpty_iff.mp h, List.nil_append]
  · split <;> simp [Edit.old]

theorem new_keepFirst (lines : List α) (s : Script α) :
    new (keepFirst lines s) = lines ++ new s := by
  unfold keepFirst
  split
  · rename_i h
    rw [List.isEmpty_iff.mp h, List.nil_append]
  · split <;> simp [Edit.new]

theorem old_reverse_keepLast (lines : List α) (s : Script α) :
    old (keepLast lines s).reverse = old s.reverse ++ lines := by
  unfold keepLast
  split
  · rename_i h
    rw [List.isEmpty_iff.mp h, List.append_nil]
  · split <;> simp [Edit.old]

theorem new_reverse_keepLast (lines : List α) (s : Script α) :
    new (keepLast lines s).reverse = new s.reverse ++ lines := by
  unfold keepLast
  split
  · rename_i h
    rw [List.isEmpty_iff.mp h, List.append_nil]
  · split <;> simp [Edit.new]

/-! ## Scripts without empty edits -/

/-- Every edit of a script has lines. -/
def Filled (s : Script α) : Prop := ∀ e ∈ s, e.lines ≠ []

theorem filled_nil : Filled ([] : Script α) := by simp [Filled]

@[simp] theorem filled_cons {e : Edit α} {s : Script α} :
    Filled (e :: s) ↔ e.lines ≠ [] ∧ Filled s := by
  simp [Filled]

@[simp] theorem filled_append {s t : Script α} :
    Filled (s ++ t) ↔ Filled s ∧ Filled t := by
  simp [Filled, or_imp, forall_and]

@[simp] theorem filled_reverse {s : Script α} : Filled s.reverse ↔ Filled s := by
  simp [Filled]

@[simp] theorem filled_single (kind : EditKind) (lines : List α) :
    Filled (single kind lines) := by
  unfold single
  split
  · exact filled_nil
  · rename_i h
    simpa [Filled] using h

theorem Filled.keepFirst {lines : List α} {s : Script α} (h : Filled s) :
    Filled (keepFirst lines s) := by
  unfold Script.keepFirst
  split
  · exact h
  · rename_i hlines
    have hne : lines ≠ [] := fun heq => hlines (by simp [heq])
    split
    · rw [filled_cons] at h ⊢
      exact ⟨by simp [hne], h.2⟩
    · exact filled_cons.mpr ⟨hne, h⟩

theorem Filled.keepLast {lines : List α} {s : Script α} (h : Filled s) :
    Filled (keepLast lines s) := by
  unfold Script.keepLast
  split
  · exact h
  · rename_i hlines
    have hne : lines ≠ [] := fun heq => hlines (by simp [heq])
    split
    · rw [filled_cons] at h ⊢
      exact ⟨by simp [hne], h.2⟩
    · exact filled_cons.mpr ⟨hne, h⟩

/-- A script leads from one list to another, and each of its edits has lines. -/
structure Between (s : Script α) (a b : List α) : Prop where
  old : s.old = a
  new : s.new = b
  filled : s.Filled

theorem Between.append {s t : Script α} {a b c d : List α} (h : Between s a b)
    (g : Between t c d) : Between (s ++ t) (a ++ c) (b ++ d) where
  old := by rw [old_append, h.old, g.old]
  new := by rw [new_append, h.new, g.new]
  filled := filled_append.mpr ⟨h.filled, g.filled⟩

theorem between_keep (lines : List α) : Between (single .keep lines) lines lines :=
  ⟨old_single _ _, new_single _ _, filled_single _ _⟩

theorem between_delete (lines : List α) : Between (single .delete lines) lines [] :=
  ⟨old_single _ _, new_single _ _, filled_single _ _⟩

theorem between_insert (lines : List α) : Between (single .insert lines) [] lines :=
  ⟨old_single _ _, new_single _ _, filled_single _ _⟩

/-! ## The shortest script -/

section Shortest

variable [DecidableEq α]

/-- A list is cut at an end that it has in common with another one. -/
theorem commonPrefix_append_left (as bs : List α) :
    commonPrefix as bs ++ as.drop (commonPrefix as bs).length = as :=
  List.prefix_iff_eq_append.mp (commonPrefix_prefix_left as bs)

theorem commonPrefix_append_right (as bs : List α) :
    commonPrefix as bs ++ bs.drop (commonPrefix as bs).length = bs :=
  List.prefix_iff_eq_append.mp (commonPrefix_prefix_right as bs)

theorem append_commonSuffix_left (as bs : List α) :
    as.take (as.length - (commonSuffix as bs).length) ++ commonSuffix as bs = as :=
  List.suffix_iff_eq_append.mp (commonSuffix_suffix_left as bs)

theorem append_commonSuffix_right (as bs : List α) :
    bs.take (bs.length - (commonSuffix as bs).length) ++ commonSuffix as bs = bs :=
  List.suffix_iff_eq_append.mp (commonSuffix_suffix_right as bs)

/-- **The shortest script** leads from the one list to the other. -/
theorem between_shortest (old new : List α) :
    Between (shortest old new) old new := by
  fun_induction shortest old new with
  | case1 old new front old₁ new₁ back old₂ new₂ middle ihFront ihBack =>
    have hmiddle : Between middle old₂ new₂ := by
      simp only [middle]
      split
      · rename_i hold
        rw [List.isEmpty_iff.mp hold]
        exact between_insert new₂
      split
      · rename_i hnew
        rw [List.isEmpty_iff.mp hnew]
        exact between_delete old₂
      rename_i hold hnew
      split
      · rename_i x y hsplit
        have hboth := (ihFront x y hsplit).append (ihBack x y hsplit)
        rwa [List.take_append_drop, List.take_append_drop] at hboth
      · refine ⟨by simp [Edit.old], by simp [Edit.new], ?_⟩
        simpa [Filled, List.isEmpty_iff] using And.intro hold hnew
    have hall := ((between_keep front).append hmiddle).append (between_keep back)
    have hold : front ++ old₂ ++ back = old := by
      rw [List.append_assoc, append_commonSuffix_left, commonPrefix_append_left]
    have hnew : front ++ new₂ ++ back = new := by
      rw [List.append_assoc, append_commonSuffix_right, commonPrefix_append_right]
    rwa [hold, hnew] at hall

/-- A list is its own shortest script, kept as it is. -/
theorem shortest_self (lines : List α) : shortest lines lines = single .keep lines := by
  rw [shortest]
  simp [commonPrefix_self, commonSuffix, single]

end Shortest

/-! ## Moving an edit -/

section Moves

variable {before after : Script α} {kind : EditKind} {a b : List α}

/-- Two edits of one kind next to each other are one. -/
theorem Between.join {first more : List α}
    (h : Between (before ++ ⟨kind, first⟩ :: ⟨kind, more⟩ :: after) a b) :
    Between (before ++ ⟨kind, first ++ more⟩ :: after) a b := by
  obtain ⟨hold, hnew, hfilled⟩ := h
  refine ⟨?_, ?_, ?_⟩
  · rw [← hold]
    cases kind <;> simp [Edit.old]
  · rw [← hnew]
    cases kind <;> simp [Edit.new]
  · simp_all

/-- A deletion and an insertion next to each other can be exchanged. -/
theorem Between.exchange {e f : Edit α} (he : e.kind ≠ .keep) (hf : f.kind ≠ .keep)
    (hne : e.kind ≠ f.kind) (h : Between (before ++ e :: f :: after) a b) :
    Between (before ++ f :: e :: after) a b := by
  obtain ⟨hold, hnew, hfilled⟩ := h
  obtain ⟨ekind, elines⟩ := e
  obtain ⟨fkind, flines⟩ := f
  refine ⟨?_, ?_, ?_⟩
  · rw [← hold]
    cases ekind <;> cases fkind <;> simp_all [Edit.old]
  · rw [← hnew]
    cases ekind <;> cases fkind <;> simp_all [Edit.new]
  · simp_all

/-- An edit moves up past kept lines that end like it. -/
theorem Between.passUp (hk : kind ≠ .keep) {kept lines common : List α}
    (h : Between (before ++ ⟨.keep, kept ++ common⟩ :: ⟨kind, lines ++ common⟩ :: after)
      a b) :
    Between (before ++ single .keep kept ++ ⟨kind, common ++ lines⟩ ::
      keepFirst common after) a b := by
  obtain ⟨hold, hnew, hfilled⟩ := h
  simp only [filled_append, filled_cons] at hfilled
  refine ⟨?_, ?_, ?_⟩
  · rw [← hold]
    cases kind <;> simp_all [Edit.old, old_keepFirst]
  · rw [← hnew]
    cases kind <;> simp_all [Edit.new, new_keepFirst]
  · simp only [filled_append, filled_cons, filled_single, and_true]
    refine ⟨hfilled.1, ?_, hfilled.2.2.2.keepFirst⟩
    simpa [and_comm] using hfilled.2.2.1

/-- An edit moves down past kept lines that begin like it. What is before it is
held in reverse. -/
theorem Between.passDown (hk : kind ≠ .keep) {kept lines common : List α}
    (h : Between (before.reverse ++ ⟨kind, common ++ lines⟩ ::
      ⟨.keep, common ++ kept⟩ :: after) a b) :
    Between ((keepLast common before).reverse ++ ⟨kind, lines ++ common⟩ ::
      (single .keep kept ++ after)) a b := by
  obtain ⟨hold, hnew, hfilled⟩ := h
  simp only [filled_append, filled_cons, filled_reverse] at hfilled
  refine ⟨?_, ?_, ?_⟩
  · rw [← hold]
    cases kind <;> simp_all [Edit.old, old_reverse_keepLast]
  · rw [← hnew]
    cases kind <;> simp_all [Edit.new, new_reverse_keepLast]
  · simp only [filled_append, filled_cons, filled_single, filled_reverse, true_and]
    refine ⟨hfilled.1.keepLast, ?_, hfilled.2.2.2⟩
    simpa [and_comm] using hfilled.2.1

end Moves

/-! ## Compaction -/

/-- A script with an edit at a spot. -/
def Spot.script (kind : EditKind) (spot : Spot α) : Script α :=
  spot.before.reverse ++ ⟨kind, spot.lines⟩ :: spot.after

@[simp] theorem reverse_single (kind : EditKind) (lines : List α) :
    (single kind lines).reverse = single kind lines := by
  unfold single
  split <;> rfl

theorem withoutLast_append (kept common : List α) (before : Script α) :
    withoutLast common.length (kept ++ common) before = single .keep kept ++ before := by
  simp [withoutLast]

theorem withoutFirst_append (common kept : List α) (after : Script α) :
    withoutFirst common.length (common ++ kept) after = single .keep kept ++ after := by
  simp [withoutFirst]

theorem turnUp_append (lines common : List α) :
    turnUp common.length (lines ++ common) = common ++ lines := by
  simp [turnUp]

theorem turnDown_append (common lines : List α) :
    turnDown common.length (common ++ lines) = lines ++ common := by
  simp [turnDown]

/-- The edit at the next spot is the script itself, cut there. -/
theorem script_nextSpot {kind : EditKind} {before after : Script α} {spot : Spot α}
    (h : nextSpot kind before after = some spot) :
    spot.script kind = before.reverse ++ after := by
  induction after generalizing before with
  | nil => simp [nextSpot] at h
  | cons e after ih =>
    rw [nextSpot] at h
    split at h
    · rename_i hkind
      obtain rfl := Option.some.inj h
      simp [Spot.script, ← hkind]
    · simpa using ih h

section Compact

variable [DecidableEq α] {kind : EditKind} {a b : List α}

theorem Between.slideUp (hk : kind ≠ .keep) {before : Script α} {lines : List α}
    {after : Script α} (h : Between (Spot.script kind ⟨before, lines, after⟩) a b) :
    Between ((slideUp kind before lines after).script kind) a b := by
  fun_induction Script.slideUp kind before lines after with
  | case1 => exact h
  | case2 lines after e before hkind ih =>
    obtain ⟨ekind, elines⟩ := e
    obtain rfl : ekind = kind := hkind
    simp only [Spot.script, List.reverse_cons, List.append_assoc,
      List.singleton_append] at h
    exact ih h.join
  | case3 => exact h
  | case4 lines after e before hkind hkeep hcommon ih =>
    obtain ⟨ekind, elines⟩ := e
    obtain rfl : ekind = .keep := hkeep
    obtain ⟨kept, hkept⟩ := commonSuffix_suffix_left elines lines
    obtain ⟨moved, hmoved⟩ := commonSuffix_suffix_right elines lines
    simp only at ih ⊢
    generalize commonSuffix elines lines = common at hkept hmoved ih ⊢
    subst hkept hmoved
    rw [withoutLast_append, turnUp_append] at ih ⊢
    apply ih
    simp only [Spot.script, List.reverse_cons, List.reverse_append, reverse_single,
      List.append_assoc, List.singleton_append] at h ⊢
    simpa using h.passUp hk
  | case5 lines after e before hkind hkeep ih =>
    simp only [Spot.script, List.reverse_cons, List.append_assoc,
      List.singleton_append] at h
    exact ih (h.exchange hkeep hk hkind)

theorem Between.slideDown (hk : kind ≠ .keep) {before : Script α} {lines : List α}
    {after : Script α} (h : Between (Spot.script kind ⟨before, lines, after⟩) a b) :
    Between ((slideDown kind before lines after).script kind) a b := by
  fun_induction Script.slideDown kind before lines after with
  | case1 => exact h
  | case2 before lines e after hkind ih =>
    obtain ⟨ekind, elines⟩ := e
    obtain rfl : ekind = kind := hkind
    exact ih h.join
  | case3 => exact h
  | case4 before lines e after hkind hkeep hcommon ih =>
    obtain ⟨ekind, elines⟩ := e
    obtain rfl : ekind = .keep := hkeep
    obtain ⟨kept, hkept⟩ := commonPrefix_prefix_left elines lines
    obtain ⟨moved, hmoved⟩ := commonPrefix_prefix_right elines lines
    simp only at ih ⊢
    generalize commonPrefix elines lines = common at hkept hmoved ih ⊢
    subst hkept hmoved
    rw [withoutFirst_append, turnDown_append] at ih ⊢
    exact ih (h.passDown hk)
  | case5 before lines e after hkind hkeep ih =>
    refine ih ?_
    simp only [Spot.script, List.reverse_cons, List.append_assoc,
      List.singleton_append]
    exact h.exchange hk hkeep (Ne.symm hkind)

theorem Between.slide (hk : kind ≠ .keep) {spot : Spot α}
    (h : Between (spot.script kind) a b) :
    Between ((slide kind spot.before spot.lines spot.after).script kind) a b :=
  (h.slideUp hk).slideDown hk

theorem Between.settle (hk : kind ≠ .keep) {before after : Script α}
    (h : Between (before.reverse ++ after) a b) :
    Between (settle kind hk before after) a b := by
  fun_induction Script.settle kind hk before after with
  | case1 => exact h
  | case2 before after spot hspot ih =>
    rw [← script_nextSpot hspot] at h
    refine ih ?_
    have hslid := h.slide hk
    simpa [Spot.script] using hslid

/-- **Compaction** leads to a script between the same lists. -/
theorem Between.compact {s : Script α} (h : Between s a b) : Between s.compact a b :=
  Between.settle (by decide) (Between.settle (by decide) h)

theorem between_compact_shortest (old new : List α) :
    Between (shortest old new).compact old new :=
  (between_shortest old new).compact

/-- A script without an edit of a kind has none of it to move. -/
theorem settle_of_none (hk : kind ≠ .keep) {s : Script α}
    (h : ∀ e ∈ s, e.kind ≠ kind) : settle kind hk [] s = s := by
  have hnone : ∀ before, nextSpot kind before s = none := by
    induction s with
    | nil => exact fun _ => rfl
    | cons e s ih =>
      intro before
      rw [nextSpot, if_neg (h e (by simp))]
      exact ih (fun e he => h e (by simp [he])) _
  unfold settle
  split
  · rfl
  · rename_i hspot
    simp [hnone] at hspot

/-- The script from a list to itself keeps its lines and does nothing else. -/
theorem compact_shortest_self (lines : List α) :
    (shortest lines lines).compact = single .keep lines := by
  have hkeep : ∀ kind, kind ≠ .keep → ∀ e ∈ single .keep lines, e.kind ≠ kind := by
    intro kind hk e he
    rw [kind_of_mem_single he]
    exact Ne.symm hk
  rw [shortest_self, Script.compact, settle_of_none _ (hkeep .delete (by decide)),
    settle_of_none _ (hkeep .insert (by decide))]

end Compact

end Script

end Reconcile
