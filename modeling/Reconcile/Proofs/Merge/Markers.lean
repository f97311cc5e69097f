/-
Reconcile.Proofs.Merge.Markers — which stretches of a text are marked.

The scan for markers remembers the last line that opened a conflict and forgets it
when a line closes one. `Encloses` says the same without a scan: two lines, of which
the first opens and the last closes, and no line between them does either. What is
found are exactly these stretches, in the order of the text
(`marked_regions_are_enclosed`), however many markers have no partner.

* `mem_regionsFrom_iff` — what the scan finds from a line on, given what it
  remembers.
* `pairwise_regionsFrom` — every region ends before the next one begins.
-/
import Reconcile.Proofs.Merge.Regions

namespace Reconcile.Merge

open Reconcile.Text (lines startsWith)

/-! ## Lines by their numbers -/

/-- The line of a number, when the lines are counted from `n` on. -/
def lineFrom? (n : Nat) (ls : List String) (k : Nat) : Option String :=
  if n ≤ k then ls[k - n]? else none

/-- The line of a text by its number, counted from one. -/
def line? (text : String) (k : Nat) : Option String := lineFrom? 1 (lines text) k

section Numbers

variable {line other : String} {ls : List String} {n k : Nat}

@[simp] theorem lineFrom?_nil : lineFrom? n [] k = none := by simp [lineFrom?]

theorem lineFrom?_of_lt (h : k < n) : lineFrom? n ls k = none := if_neg (Nat.not_le.mpr h)

@[simp] theorem lineFrom?_self : lineFrom? n (line :: ls) n = some line := by
  simp [lineFrom?]

theorem lineFrom?_later (h : n < k) :
    lineFrom? n (line :: ls) k = lineFrom? (n + 1) ls k := by
  have hindex : k - n = k - (n + 1) + 1 := by omega
  rw [lineFrom?, lineFrom?, if_pos (Nat.le_of_lt h), if_pos (Nat.succ_le_of_lt h),
    hindex, List.getElem?_cons_succ]

theorem of_lineFrom? (h : lineFrom? n ls k = some line) : n ≤ k ∧ k < n + ls.length := by
  unfold lineFrom? at h
  split at h
  · have hlt := (List.getElem?_eq_some_iff.mp h).1
    omega
  · simp at h

/-- A line is the first one, or comes after it. -/
theorem lineFrom?_cons_iff :
    lineFrom? n (line :: ls) k = some other ↔
      (k = n ∧ line = other) ∨ lineFrom? (n + 1) ls k = some other := by
  rcases Nat.lt_trichotomy k n with hlt | rfl | hgt
  · simp [lineFrom?_of_lt hlt, lineFrom?_of_lt (Nat.lt_succ_of_lt hlt), Nat.ne_of_lt hlt]
  · simp [lineFrom?_of_lt (Nat.lt_succ_self k)]
  · simp [lineFrom?_later hgt, Nat.ne_of_gt hgt]

end Numbers

/-! ## Stretches between markers -/

/-- The first of the lines from `n` on that is taken for a marker closes, and has the
number `last`. -/
structure ClosedAt (n : Nat) (ls : List String) (last : Nat) : Prop where
  closing : ∃ line, lineFrom? n ls last = some line ∧ closes line = true
  before : ∀ k line, k < last → lineFrom? n ls k = some line → Unmarked line

/-- A region whose first line opens and whose last line closes, with no line between
them that does either. The lines are counted from `n` on. -/
structure Encloses (n : Nat) (ls : List String) (r : Region) : Prop where
  opening : ∃ line, lineFrom? n ls r.first = some line ∧ opens line = true
  closing : ∃ line, lineFrom? n ls r.last = some line ∧ closes line = true
  ordered : r.first < r.last
  between : ∀ k line, r.first < k → k < r.last → lineFrom? n ls k = some line →
    Unmarked line

section Scan

variable {line : String} {ls : List String} {n last : Nat} {opened : Option Nat}
  {r : Region}

theorem not_closedAt_nil : ¬ ClosedAt n [] last := fun h => by simpa using h.closing

theorem not_encloses_nil : ¬ Encloses n [] r := fun h => by simpa using h.opening

/-- The first line closes, or it is not taken for a marker and a later one is the first
that closes. -/
theorem closedAt_cons_iff :
    ClosedAt n (line :: ls) last ↔
      (closes line = true ∧ last = n) ∨ (Unmarked line ∧ ClosedAt (n + 1) ls last) := by
  constructor
  · rintro ⟨⟨closing, hlast, hcloses⟩, hbefore⟩
    rcases lineFrom?_cons_iff.mp hlast with ⟨hhere, rfl⟩ | hlast
    · exact .inl ⟨hcloses, hhere⟩
    · have hlt : n < last := (of_lineFrom? hlast).1
      exact .inr ⟨hbefore n line hlt lineFrom?_self, ⟨closing, hlast, hcloses⟩,
        fun k other hk hother => hbefore k other hk (lineFrom?_cons_iff.mpr (.inr hother))⟩
  · rintro (⟨hcloses, rfl⟩ | ⟨hunmarked, ⟨closing, hlast, hcloses⟩, hbefore⟩)
    · refine ⟨⟨line, lineFrom?_self, hcloses⟩, fun k other hk hother => ?_⟩
      simp [lineFrom?_of_lt hk] at hother
    · refine ⟨⟨closing, lineFrom?_cons_iff.mpr (.inr hlast), hcloses⟩,
        fun k other hk hother => ?_⟩
      rcases lineFrom?_cons_iff.mp hother with ⟨-, rfl⟩ | hother
      · exact hunmarked
      · exact hbefore k other hk hother

/-- A region begins at the first line, if that opens, or after it. -/
theorem encloses_cons_iff :
    Encloses n (line :: ls) r ↔
      (r.first = n ∧ opens line = true ∧ ClosedAt (n + 1) ls r.last) ∨
        Encloses (n + 1) ls r := by
  constructor
  · rintro ⟨⟨opening, hfirst, hopens⟩, ⟨closing, hlast, hcloses⟩, hordered, hbetween⟩
    have hle : n ≤ r.first := (of_lineFrom? hfirst).1
    rw [lineFrom?_later (Nat.lt_of_le_of_lt hle hordered)] at hlast
    have hbetween' : ∀ k other, r.first < k → k < r.last →
        lineFrom? (n + 1) ls k = some other → Unmarked other :=
      fun k other hk hk' hother =>
        hbetween k other hk hk' (lineFrom?_cons_iff.mpr (.inr hother))
    rcases lineFrom?_cons_iff.mp hfirst with ⟨hhere, rfl⟩ | hfirst
    · refine .inl ⟨hhere, hopens, ⟨closing, hlast, hcloses⟩, fun k other hk hother => ?_⟩
      have hlt : n < k := (of_lineFrom? hother).1
      exact hbetween' k other (hhere ▸ hlt) hk hother
    · exact .inr ⟨⟨opening, hfirst, hopens⟩, ⟨closing, hlast, hcloses⟩, hordered, hbetween'⟩
  · rintro (⟨rfl, hopens, ⟨closing, hlast, hcloses⟩, hbefore⟩ |
      ⟨⟨opening, hfirst, hopens⟩, ⟨closing, hlast, hcloses⟩, hordered, hbetween⟩)
    · refine ⟨⟨line, lineFrom?_self, hopens⟩,
        ⟨closing, lineFrom?_cons_iff.mpr (.inr hlast), hcloses⟩, (of_lineFrom? hlast).1,
        fun k other hk hk' hother => ?_⟩
      rw [lineFrom?_later hk] at hother
      exact hbefore k other hk' hother
    · have hlt : n < r.first := (of_lineFrom? hfirst).1
      refine ⟨⟨opening, lineFrom?_cons_iff.mpr (.inr hfirst), hopens⟩,
        ⟨closing, lineFrom?_cons_iff.mpr (.inr hlast), hcloses⟩, hordered,
        fun k other hk hk' hother => ?_⟩
      rw [lineFrom?_later (Nat.lt_trans hlt hk)] at hother
      exact hbetween k other hk hk' hother

/-- **The scan from a line on** finds the regions that begin there, and the one that
begins at the line it remembers. -/
theorem mem_regionsFrom_iff :
    r ∈ regionsFrom n opened ls ↔
      (opened = some r.first ∧ ClosedAt n ls r.last) ∨ Encloses n ls r := by
  induction ls generalizing n opened with
  | nil => simp [regionsFrom, not_closedAt_nil, not_encloses_nil]
  | cons line ls ih =>
    rw [encloses_cons_iff, closedAt_cons_iff]
    rcases marker_cases line with hopens | hcloses | hunmarked
    · -- the line that was remembered before is forgotten
      rw [regionsFrom_opens hopens, ih]
      simp [Unmarked, hopens, closes_of_opens hopens, eq_comm]
    · cases opened with
      | none =>
        rw [regionsFrom_closes_none hcloses, ih]
        simp [opens_of_closes hcloses]
      | some first =>
        have hregion : r = ⟨first, n⟩ ↔ some first = some r.first ∧ r.last = n := by
          cases r
          simp [eq_comm]
        rw [regionsFrom_closes hcloses, List.mem_cons, ih, hregion]
        simp [Unmarked, hcloses, opens_of_closes hcloses]
    · rw [regionsFrom_unmarked hunmarked, ih]
      simp [hunmarked, hunmarked.1, hunmarked.2]

/-- Every region ends before the next one begins. -/
theorem pairwise_regionsFrom :
    (regionsFrom n opened ls).Pairwise fun r later => r.last < later.first := by
  induction ls generalizing n opened with
  | nil => exact .nil
  | cons line ls ih =>
    rcases marker_cases line with hopens | hcloses | hunmarked
    · rw [regionsFrom_opens hopens]
      exact ih
    · cases opened with
      | none =>
        rw [regionsFrom_closes_none hcloses]
        exact ih
      | some first =>
        rw [regionsFrom_closes hcloses]
        refine List.pairwise_cons.mpr ⟨fun later hlater => ?_, ih⟩
        exact first_of_mem_regionsFrom (Nat.le_refl (n + 1)) (by simp) hlater
    · rw [regionsFrom_unmarked hunmarked]
      exact ih

end Scan

/-! ## The marked regions of a text -/

/-- **The marked regions of a text** are those that two markers enclose, and no
others: the last line closes, the first one before it opens, and no line between them
does either. They are listed in the order of the text, each one over before the next
one begins, and they are within its lines. -/
theorem marked_regions_are_enclosed (text : String) :
    (∀ r, r ∈ conflictRegions text ↔
      (∃ line, line? text r.last = some line ∧ startsWith ">>>>>>>" line = true) ∧
      (∃ line, line? text r.first = some line ∧ startsWith "<<<<<<<" line = true) ∧
      r.first < r.last ∧
      ∀ k line, r.first < k → k < r.last → line? text k = some line →
        startsWith "<<<<<<<" line = false ∧ startsWith ">>>>>>>" line = false) ∧
    ((conflictRegions text).Pairwise fun r later => r.last < later.first) ∧
    ∀ r ∈ conflictRegions text,
      1 ≤ r.first ∧ r.first < r.last ∧ r.last ≤ (lines text).length := by
  have hmem : ∀ r, r ∈ conflictRegions text ↔ Encloses 1 (lines text) r := fun r => by
    simp [conflictRegions, mem_regionsFrom_iff]
  refine ⟨fun r => ?_, pairwise_regionsFrom, fun r hr => ?_⟩
  · rw [hmem]
    constructor
    · exact fun h => ⟨h.closing, h.opening, h.ordered, h.between⟩
    · rintro ⟨hclosing, hopening, hordered, hbetween⟩
      exact ⟨hopening, hclosing, hordered, hbetween⟩
  · obtain ⟨⟨_, hfirst, -⟩, ⟨_, hlast, -⟩, hordered, -⟩ := (hmem r).mp hr
    have hlength := (of_lineFrom? hlast).2
    exact ⟨(of_lineFrom? hfirst).1, hordered, by omega⟩

/-- A closing marker without an opening one, and an opening marker after another, have
no part in a region. -/
theorem marked_regions_of_unbalanced_text :
    let text := ">>>>>>> a\n<<<<<<< b\n<<<<<<< c\r\n=======\r\n>>>>>>>\r\n>>>>>>>\n<<<<<<<"
    conflictRegions text = [⟨3, 5⟩] ∧ line? text 4 = some "=======\r\n" ∧
      startsWith "<<<<<<<" "=======\r\n" = false ∧
      startsWith ">>>>>>>" "=======\r\n" = false := by
  intro text
  have hregions : conflictRegions text = [⟨3, 5⟩] := by decide +kernel
  have hline : line? text 4 = some "=======\r\n" := by decide +kernel
  obtain ⟨-, -, -, hbetween⟩ :=
    ((marked_regions_are_enclosed text).1 ⟨3, 5⟩).mp (by simp [hregions])
  exact ⟨hregions, hline, hbetween 4 _ (by decide) (by decide) hline⟩

end Reconcile.Merge
