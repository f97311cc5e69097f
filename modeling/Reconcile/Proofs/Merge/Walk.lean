/-
Reconcile.Proofs.Merge.Walk — how the scripts of two sides are walked together.

`Walked` has a constructor for each thing that a walk can do with the edits in
front: take in what either side inserts, or take in lines of the ancestor that
both sides keep, one of them deletes, or both delete. An edit that is too long
for its opposite is cut. `walked_walk` says that the walk of two scripts
that lead from the same list does nothing else; proofs about a merge are
inductions on `Walked`, with the cutting out of the way.

* `close_cases` — what becomes of a stretch.
* `Walked.mirrored` — the walk with the sides exchanged.
* `Parted`, `blocks_parted` — a merge is made of the three texts that are
  merged: stretches that may have changed, with lines that all three share in
  between.
* `Parted.within` — a merge has no line that is in none of them.
-/
import Reconcile.Merge
import Reconcile.Proofs.Script.Readings

namespace Reconcile.Merge

open Script (Filled single)

variable {α : Type}

/-! ## Stretches -/

namespace Stretch

/-- The ancestor's lines of a stretch. -/
def ancestorLines (s : Stretch α) : List α := s.ancestor.getD []

/-- The lines that the left side has made of them. -/
def leftLines (s : Stretch α) : List α := s.left.getD []

/-- The lines that the right side has made of them. -/
def rightLines (s : Stretch α) : List α := s.right.getD []

end Stretch

@[simp] theorem getD_grow (part : Option (List α)) (more : List α) :
    (grow part more).getD [] = part.getD [] ++ more := rfl

/-! ## The sides exchanged -/

/-- A stretch with its sides exchanged. -/
def Stretch.mirrored (s : Stretch α) : Stretch α :=
  ⟨s.ancestor, s.right, s.left⟩

/-- A block with its sides exchanged. -/
def Block.mirrored : Block α → Block α
  | settled ls => settled ls
  | conflict a l r => conflict a r l

theorem mirrored_mirrored (b : Block α) : b.mirrored.mirrored = b := by
  cases b <;> rfl

@[simp] theorem mirrored_settled (ls : List α) :
    (Block.settled ls).mirrored = .settled ls := rfl

/-! ## Edits that meet -/

/-- Where the scripts lead from the same list, two edits in front that are no
insertions begin with the same lines of it. -/
theorem meeting_lines {l r : Edit α} {left right : Script α}
    (hl : l.kind ≠ .insert) (hr : r.kind ≠ .insert)
    (hold : Script.old (l :: left) = Script.old (r :: right)) :
    ∃ common lmore rmore, l.lines = common ++ lmore ∧ r.lines = common ++ rmore ∧
      overlap l r = common.length ∧ lmore ++ left.old = rmore ++ right.old := by
  rw [Script.old_cons, Script.old_cons, Script.old_of_ne_insert hl,
    Script.old_of_ne_insert hr] at hold
  have hcommon : l.lines.take (overlap l r) = r.lines.take (overlap l r) := by
    have htake := congrArg (List.take (overlap l r)) hold
    rwa [List.take_append_of_le_length (show overlap l r ≤ _ from Nat.min_le_left _ _),
      List.take_append_of_le_length (show overlap l r ≤ _ from Nat.min_le_right _ _)]
      at htake
  have hleft := List.take_append_drop (overlap l r) l.lines
  have hright := List.take_append_drop (overlap l r) r.lines
  rw [← hcommon] at hright
  refine ⟨_, _, _, hleft.symm, hright.symm, ?_, ?_⟩
  · rw [List.length_take, overlap, Nat.min_eq_left (Nat.min_le_left _ _)]
  · rwa [← hleft, ← hright, List.append_assoc, List.append_assoc,
      List.append_cancel_left_eq] at hold

/-- What is left of an edit is read before the rest of the script. -/
theorem old_rest {e : Edit α} (h : e.kind ≠ .insert) {common more : List α}
    (hlines : e.lines = common ++ more) (s : Script α) :
    Script.old (rest e common.length s) = more ++ s.old := by
  rw [rest, Script.old_append, Script.old_single, hlines, List.drop_left,
    Script.old_of_ne_insert (show (⟨e.kind, more⟩ : Edit α).kind ≠ .insert from h)]

variable [DecidableEq α]

/-- What becomes of a stretch: nothing, the lines of one of its sides, or a
conflict between its sides, which do not agree. -/
theorem close_cases (s : Stretch α) :
    s.close = [] ∨ s.close = [.settled s.leftLines] ∨
      s.close = [.settled s.rightLines] ∨
      (s.close = [.conflict s.ancestorLines s.leftLines s.rightLines] ∧
        s.leftLines ≠ s.rightLines) := by
  have hsides : ∀ a l r : List α,
      Block.ofSides a l r = .settled l ∨ Block.ofSides a l r = .settled r ∨
        (Block.ofSides a l r = .conflict a l r ∧ l ≠ r) := by
    intro a l r
    unfold Block.ofSides
    split
    · exact .inl rfl
    split
    · exact .inr (.inl rfl)
    split
    · exact .inl rfl
    · rename_i h _ _
      exact .inr (.inr ⟨rfl, h⟩)
  obtain ⟨a, l, r⟩ := s
  have hall := hsides (a.getD []) (l.getD []) (r.getD [])
  cases a <;> cases l <;> cases r <;>
    simp_all [Stretch.close, Stretch.ancestorLines, Stretch.leftLines,
      Stretch.rightLines]

@[simp] theorem mirrored_ofSides (a l r : List α) :
    (Block.ofSides a l r).mirrored = Block.ofSides a r l := by
  by_cases hlr : l = r
  · simp [Block.ofSides, hlr]
  by_cases hl : a = l
  · simp [Block.ofSides, hl, hlr, Ne.symm hlr]
  by_cases hr : a = r
  · simp [Block.ofSides, hr, hlr, Ne.symm hlr]
  · simp [Block.ofSides, Block.mirrored, hl, hr, hlr, Ne.symm hlr]

theorem close_mirrored (s : Stretch α) :
    s.mirrored.close = s.close.map Block.mirrored := by
  obtain ⟨a, l, r⟩ := s
  cases a <;> cases l <;> cases r <;> simp [Stretch.mirrored, Stretch.close]

/-! ## Walking -/

/-- What walking two scripts can do with the edits in front, given the stretch
that is being put together. -/
inductive Walked : Stretch α → Script α → Script α → List (Block α) → Prop where
  | done (s : Stretch α) : Walked s [] [] s.close
  | insertedLeft {s : Stretch α} {lines : List α} {left right : Script α}
      {bs : List (Block α)}
      (h : Walked { s with left := grow s.left lines } left right bs) :
      Walked s (⟨.insert, lines⟩ :: left) right bs
  | insertedRight {s : Stretch α} {lines : List α} {left right : Script α}
      {bs : List (Block α)}
      (h : Walked { s with right := grow s.right lines } left right bs) :
      Walked s left (⟨.insert, lines⟩ :: right) bs
  /-- Lines that both sides keep end a stretch. -/
  | kept {s : Stretch α} {lines : List α} {left right : Script α}
      {bs : List (Block α)} (hlines : lines ≠ []) (h : Walked {} left right bs) :
      Walked s (⟨.keep, lines⟩ :: left) (⟨.keep, lines⟩ :: right)
        (s.close ++ .settled lines :: bs)
  | deletedRight {s : Stretch α} {lines : List α} {left right : Script α}
      {bs : List (Block α)}
      (h : Walked { s with
        ancestor := grow s.ancestor lines
        left := grow s.left lines } left right bs) :
      Walked s (⟨.keep, lines⟩ :: left) (⟨.delete, lines⟩ :: right) bs
  | deletedLeft {s : Stretch α} {lines : List α} {left right : Script α}
      {bs : List (Block α)}
      (h : Walked { s with
        ancestor := grow s.ancestor lines
        right := grow s.right lines } left right bs) :
      Walked s (⟨.delete, lines⟩ :: left) (⟨.keep, lines⟩ :: right) bs
  | deletedBoth {s : Stretch α} {lines : List α} {left right : Script α}
      {bs : List (Block α)}
      (h : Walked ⟨grow s.ancestor lines, grow s.left [], grow s.right []⟩
        left right bs) :
      Walked s (⟨.delete, lines⟩ :: left) (⟨.delete, lines⟩ :: right) bs
  /-- An edit is cut in two; the second part may be missing. -/
  | cutLeft {s : Stretch α} {kind : EditKind} {first more : List α}
      {left right : Script α} {bs : List (Block α)}
      (h : Walked s (⟨kind, first⟩ :: (single kind more ++ left)) right bs) :
      Walked s (⟨kind, first ++ more⟩ :: left) right bs
  | cutRight {s : Stretch α} {kind : EditKind} {first more : List α}
      {left right : Script α} {bs : List (Block α)}
      (h : Walked s left (⟨kind, first⟩ :: (single kind more ++ right)) bs) :
      Walked s left (⟨kind, first ++ more⟩ :: right) bs

/-- Edits that meet are cut to the lines that they share, and those are taken in. -/
theorem walked_meet {s : Stretch α} {l r : Edit α} {left right : Script α}
    {bs : List (Block α)} (hl : l.kind ≠ .insert) (hr : r.kind ≠ .insert)
    (hold : Script.old (l :: left) = Script.old (r :: right))
    (hfull : overlap l r ≠ 0)
    (h : Walked (meet s l r (overlap l r)).2 (rest l (overlap l r) left)
      (rest r (overlap l r) right) bs) :
    Walked s (l :: left) (r :: right) ((meet s l r (overlap l r)).1 ++ bs) := by
  obtain ⟨common, lmore, rmore, hlmore, hrmore, hcount, -⟩ := meeting_lines hl hr hold
  rw [hcount] at h hfull ⊢
  obtain ⟨lkind, llines⟩ := l
  obtain ⟨rkind, rlines⟩ := r
  obtain rfl : llines = common ++ lmore := hlmore
  obtain rfl : rlines = common ++ rmore := hrmore
  have hcommon : common ≠ [] := by simpa using hfull
  refine .cutLeft (.cutRight ?_)
  -- the part of `meet` that belongs to the two kinds
  cases lkind <;> cases rkind <;>
    simp only [meet, rest, List.take_left, List.drop_left, ne_eq, not_true_eq_false] at *
  case keep.keep => simpa using Walked.kept hcommon h
  case keep.delete => exact .deletedRight h
  case delete.keep => exact .deletedLeft h
  case delete.delete => exact .deletedBoth h

/-- **The walk** of two scripts from the same list. -/
theorem walked_walk {s : Stretch α} {left right : Script α}
    (hold : left.old = right.old) (hleft : left.Filled) (hright : right.Filled) :
    Walked s left right (walk s left right) := by
  -- an edit that is no insertion has lines of the list, so the other script is not over
  have hmore : ∀ {e : Edit α} {t : Script α}, e.kind ≠ .insert → e.lines ≠ [] →
      Script.old (e :: t) ≠ [] := by
    intro e t hk hne
    simp [Script.old_of_ne_insert hk, hne]
  fun_induction walk s left right with
  | case1 s => exact .done s
  | case2 s l left hl ih =>
    obtain ⟨kind, lines⟩ := l
    obtain rfl : kind = .insert := hl
    exact .insertedLeft (ih hold (Script.filled_cons.mp hleft).2 hright)
  | case3 s l left hl => exact absurd hold (hmore hl (Script.filled_cons.mp hleft).1)
  | case4 s r right hr ih =>
    obtain ⟨kind, lines⟩ := r
    obtain rfl : kind = .insert := hr
    exact .insertedRight (ih hold hleft (Script.filled_cons.mp hright).2)
  | case5 s r right hr => exact absurd hold.symm (hmore hr (Script.filled_cons.mp hright).1)
  | case6 s l left r right hl ih =>
    obtain ⟨kind, lines⟩ := l
    obtain rfl : kind = .insert := hl
    exact .insertedLeft (ih hold (Script.filled_cons.mp hleft).2 hright)
  | case7 s l left r right hl hr ih =>
    obtain ⟨kind, lines⟩ := r
    obtain rfl : kind = .insert := hr
    exact .insertedRight (ih hold hleft (Script.filled_cons.mp hright).2)
  | case8 s l left r right hl hr ih =>
    have hfull : overlap l r ≠ 0 := by
      have hl := List.length_pos_iff.mpr (Script.filled_cons.mp hleft).1
      have hr := List.length_pos_iff.mpr (Script.filled_cons.mp hright).1
      simp only [overlap]
      omega
    refine walked_meet hl hr hold hfull (ih ?_ ?_ ?_)
    · obtain ⟨common, lmore, rmore, hlmore, hrmore, hcount, hmore⟩ :=
        meeting_lines hl hr hold
      rw [hcount, old_rest hl hlmore, old_rest hr hrmore, hmore]
    · exact Script.filled_append.mpr
        ⟨Script.filled_single _ _, (Script.filled_cons.mp hleft).2⟩
    · exact Script.filled_append.mpr
        ⟨Script.filled_single _ _, (Script.filled_cons.mp hright).2⟩

/-- The walk is the same with the sides exchanged. -/
theorem Walked.mirrored {s : Stretch α} {left right : Script α} {bs : List (Block α)}
    (h : Walked s left right bs) :
    Walked s.mirrored right left (bs.map Block.mirrored) := by
  induction h with
  | done s => exact close_mirrored s ▸ Walked.done _
  | insertedLeft _ ih => exact .insertedRight ih
  | insertedRight _ ih => exact .insertedLeft ih
  | @kept s _ _ _ _ hlines _ ih =>
    have hkept := Walked.kept (s := s.mirrored) hlines ih
    simpa [close_mirrored] using hkept
  | deletedRight _ ih => exact .deletedLeft ih
  | deletedLeft _ ih => exact .deletedRight ih
  | deletedBoth _ ih => exact .deletedBoth ih
  | cutLeft _ ih => exact .cutRight ih
  | cutRight _ ih => exact .cutLeft ih

/-! ## A merge over the three lists -/

/-- A merge lies over the three lists that are merged: stretches, with lines in
between that are at the same place in all of them. -/
inductive Parted : List α → List α → List α → List (Block α) → Prop where
  | last (s : Stretch α) : Parted s.ancestorLines s.leftLines s.rightLines s.close
  | kept (s : Stretch α) {lines a l r : List α} {bs : List (Block α)}
      (hlines : lines ≠ []) (h : Parted a l r bs) :
      Parted (s.ancestorLines ++ (lines ++ a)) (s.leftLines ++ (lines ++ l))
        (s.rightLines ++ (lines ++ r)) (s.close ++ .settled lines :: bs)

theorem Walked.parted {s : Stretch α} {left right : Script α} {bs : List (Block α)}
    (h : Walked s left right bs) :
    Parted (s.ancestorLines ++ left.old) (s.leftLines ++ left.new)
      (s.rightLines ++ right.new) bs := by
  induction h with
  | done s => simpa using Parted.last s
  | kept hlines _ ih => exact .kept _ hlines ih
  | cutLeft _ ih =>
    rename_i kind _ _ _ _ _ _
    cases kind <;> simpa [Edit.old, Edit.new] using ih
  | cutRight _ ih =>
    rename_i kind _ _ _ _ _ _
    cases kind <;> simpa [Edit.old, Edit.new] using ih
  | _ =>
    rename_i ih
    simpa [Stretch.ancestorLines, Stretch.leftLines, Stretch.rightLines, Edit.old,
      Edit.new] using ih

/-- **The blocks of a merge** lie over the three lists. -/
theorem blocks_parted (a l r : List α) : Parted a l r (blocks a l r) := by
  obtain ⟨hlold, hlnew, hlfilled⟩ := Script.between_compact_shortest a l
  obtain ⟨hrold, hrnew, hrfilled⟩ := Script.between_compact_shortest a r
  have hwalked := walked_walk (s := {}) (hlold.trans hrold.symm) hlfilled hrfilled
  have hparted := hwalked.parted
  rwa [hlold, hlnew, hrnew] at hparted

/-- A block of a merge has lines of the three lists only: settled ones come from one of
the sides, and the parts of a conflict each from its own list. -/
def Block.Within (a l r : List α) : Block α → Prop
  | settled ls => ls <:+: l ∨ ls <:+: r
  | conflict ancestor left right => ancestor <:+: a ∧ left <:+: l ∧ right <:+: r

omit [DecidableEq α] in
theorem Block.Within.mono {a l r a' l' r' : List α} {b : Block α} (h : b.Within a l r)
    (ha : a <:+: a') (hl : l <:+: l') (hr : r <:+: r') : b.Within a' l' r' := by
  cases b with
  | settled ls => exact h.imp (·.trans hl) (·.trans hr)
  | conflict ancestor left right =>
    exact ⟨h.1.trans ha, h.2.1.trans hl, h.2.2.trans hr⟩

theorem within_close (s : Stretch α) :
    ∀ b ∈ s.close, b.Within s.ancestorLines s.leftLines s.rightLines := by
  intro b hb
  rcases close_cases s with hclose | hclose | hclose | ⟨hclose, -⟩ <;>
    simp only [hclose, List.not_mem_nil, List.mem_singleton] at hb <;> subst hb
  · exact .inl (List.infix_refl _)
  · exact .inr (List.infix_refl _)
  · exact ⟨List.infix_refl _, List.infix_refl _, List.infix_refl _⟩

theorem Parted.within {a l r : List α} {bs : List (Block α)} (h : Parted a l r bs) :
    ∀ b ∈ bs, b.Within a l r := by
  induction h with
  | last s => exact within_close s
  | @kept s ls a l r bs _ _ ih =>
    have hfront : ∀ part more : List α, part <:+: part ++ (ls ++ more) :=
      fun _ _ => (List.prefix_append _ _).isInfix
    have hback : ∀ part more : List α, more <:+: part ++ (ls ++ more) :=
      fun _ _ => ((List.suffix_append _ _).trans (List.suffix_append _ _)).isInfix
    rw [List.forall_mem_append, List.forall_mem_cons]
    refine ⟨fun b hb => ?_, .inl ⟨s.leftLines, l, by simp⟩, fun b hb => ?_⟩
    · exact (within_close s b hb).mono (hfront _ _) (hfront _ _) (hfront _ _)
    · exact (ih b hb).mono (hback _ _) (hback _ _) (hback _ _)

/-- Where both sides are empty, so is the merge. -/
theorem Parted.settled_nil {a l r : List α} {bs : List (Block α)} (h : Parted a l r bs)
    (hl : l = []) (hr : r = []) : ∀ b ∈ bs, b = .settled [] := by
  cases h with
  | last s =>
    intro b hb
    rcases close_cases s with hclose | hclose | hclose | ⟨-, hne⟩
    · simp [hclose] at hb
    · simpa [hclose, hl] using hb
    · simpa [hclose, hr] using hb
    · exact absurd (hl.trans hr.symm) hne
  | kept s hlines h => simp [hlines] at hl

end Reconcile.Merge
