/-
Reconcile.Proofs.Merge.Shortcuts — merging where one side did not change, or
both changed alike.

A merge looks at its texts first: where two of the three are equal the answer is
known, and no script is searched for. The walk of the scripts comes to the same
answer, line feeds and all (`shortcuts_agree`).

* `blocks_unchanged_left`, `blocks_unchanged_right` — a script that keeps
  everything lets the other side through.
* `blocks_same_sides` — a script walked with itself takes every change once.
  The walk takes in what the left side inserts before it looks at the right
  side, so what the induction carries are the insertions that the right side
  has yet to make.
-/
import Reconcile.Proofs.Merge.Walk
import Reconcile.Proofs.Text.Lines

namespace Reconcile.Merge

open Reconcile.Text (lines joinLines)

variable {α : Type}

/-! ## Merges without a conflict -/

/-- Blocks that are all settled and have these lines when put together. -/
def Settles (bs : List (Block α)) (ls : List α) : Prop :=
  ∃ parts : List (List α), bs = parts.map .settled ∧ parts.flatten = ls

theorem settles_nil : Settles ([] : List (Block α)) [] := ⟨[], rfl, rfl⟩

theorem settles_settled (ls : List α) : Settles [.settled ls] ls :=
  ⟨[ls], rfl, by simp⟩

theorem Settles.append {bs cs : List (Block α)} {ls ms : List α} (h : Settles bs ls)
    (g : Settles cs ms) : Settles (bs ++ cs) (ls ++ ms) := by
  obtain ⟨parts, rfl, rfl⟩ := h
  obtain ⟨more, rfl, rfl⟩ := g
  exact ⟨parts ++ more, by simp, by simp⟩

theorem Settles.cons {bs : List (Block α)} {ls : List α} (h : Settles bs ls)
    (first : List α) : Settles (.settled first :: bs) (first ++ ls) :=
  (settles_settled first).append h

/-- Blocks settle the same with the sides exchanged. -/
theorem Settles.of_mirrored {bs : List (Block α)} {ls : List α}
    (h : Settles (bs.map Block.mirrored) ls) : Settles bs ls := by
  obtain ⟨parts, hparts, hflat⟩ := h
  refine ⟨parts, ?_, hflat⟩
  have hback := congrArg (List.map Block.mirrored) hparts
  simpa [Function.comp_def, mirrored_mirrored] using hback

variable [DecidableEq α]

/-- A stretch that the left side did not change becomes the right one. -/
theorem settles_close_of_left {s : Stretch α} (h : s.ancestorLines = s.leftLines) :
    Settles s.close s.rightLines := by
  obtain ⟨a, l, r⟩ := s
  have hside : ∀ x y : List α, Block.ofSides x x y = .settled y := by
    intro x y
    by_cases hxy : x = y <;> simp [Block.ofSides, hxy]
  cases a <;> cases l <;> cases r <;>
    simp_all [Stretch.close, Stretch.ancestorLines, Stretch.leftLines,
      Stretch.rightLines, settles_nil, settles_settled]

/-- A stretch that both sides changed alike becomes what they made of it. -/
theorem settles_close_of_same {s : Stretch α} (h : s.leftLines = s.rightLines) :
    Settles s.close s.leftLines := by
  obtain ⟨a, l, r⟩ := s
  cases a <;> cases l <;> cases r <;>
    simp_all [Stretch.close, Stretch.leftLines, Stretch.rightLines, Block.ofSides,
      settles_nil, settles_settled]

/-! ## A side without changes -/

/-- A left script that keeps every line lets the right side through. -/
theorem Walked.settles_right {s : Stretch α} {left right : Script α}
    {bs : List (Block α)} (h : Walked s left right bs)
    (hkeep : ∀ e ∈ left, e.kind = .keep) (hs : s.ancestorLines = s.leftLines) :
    Settles bs (s.rightLines ++ right.new) := by
  induction h with
  | done s => simpa using settles_close_of_left hs
  | insertedLeft => simp at hkeep
  | insertedRight _ ih =>
    simpa [Stretch.rightLines, Edit.new] using ih hkeep hs
  | kept _ _ ih =>
    exact (settles_close_of_left hs).append
      ((ih (fun e he => hkeep e (by simp [he])) rfl).cons _)
  | deletedRight _ ih =>
    refine ih (fun e he => hkeep e (by simp [he])) ?_
    simpa [Stretch.ancestorLines, Stretch.leftLines] using hs
  | deletedLeft => simp at hkeep
  | deletedBoth => simp at hkeep
  | cutLeft _ ih =>
    have hkind := hkeep _ List.mem_cons_self
    refine ih (fun e he => ?_) hs
    rcases List.mem_cons.mp he with rfl | he
    · exact hkind
    · rcases List.mem_append.mp he with he | he
      · exact (Script.kind_of_mem_single he).trans hkind
      · exact hkeep e (by simp [he])
  | cutRight _ ih =>
    rename_i kind _ _ _ _ _ _
    cases kind <;> simpa [Edit.new] using ih hkeep hs

/-- A merge into which the left side brings nothing is the right side. -/
theorem blocks_unchanged_left (a r : List α) : Settles (blocks a a r) r := by
  obtain ⟨hold, hnew, hfilled⟩ := Script.between_compact_shortest a r
  rw [blocks, Script.compact_shortest_self]
  have hwalked := walked_walk (s := {}) ((Script.old_single .keep a).trans hold.symm)
    (Script.filled_single _ _) hfilled
  have hsettles := hwalked.settles_right
    (fun e he => Script.kind_of_mem_single he) rfl
  rwa [hnew] at hsettles

/-- A merge into which the right side brings nothing is the left side. -/
theorem blocks_unchanged_right (a l : List α) : Settles (blocks a l a) l := by
  obtain ⟨hold, hnew, hfilled⟩ := Script.between_compact_shortest a l
  rw [blocks, Script.compact_shortest_self]
  have hwalked := walked_walk (s := {}) (hold.trans (Script.old_single .keep a).symm)
    hfilled (Script.filled_single _ _)
  have hsettles := hwalked.mirrored.settles_right
    (fun e he => Script.kind_of_mem_single he) rfl
  rw [hnew] at hsettles
  exact hsettles.of_mirrored

/-! ## Sides that changed alike -/

/-- What a script inserts, piece by piece. -/
def inserting (pieces : List (List α)) : Script α := pieces.map (⟨.insert, ·⟩)

theorem walk_insert_left (s : Stretch α) (ls : List α) (left right : Script α) :
    walk s (⟨.insert, ls⟩ :: left) right =
      walk { s with left := grow s.left ls } left right := by
  cases right <;> rw [walk] <;> simp

theorem walk_insert_right (s : Stretch α) (ls : List α) {left : Script α}
    (hleft : ∀ e ∈ left.head?, e.kind ≠ .insert) (right : Script α) :
    walk s left (⟨.insert, ls⟩ :: right) =
      walk { s with right := grow s.right ls } left right := by
  cases left with
  | nil => rw [walk]; simp
  | cons l left =>
    have hl : l.kind ≠ .insert := hleft l rfl
    rw [walk]
    simp [hl]

/-- Where the left script inserts nothing first, the right one goes ahead with all
that it inserts. -/
theorem walk_inserting_right (pieces : List (List α)) {s : Stretch α} (left : Script α)
    (hleft : ∀ e ∈ left.head?, e.kind ≠ .insert)
    (hs : s.leftLines = s.rightLines ++ pieces.flatten) (right : Script α) :
    ∃ t : Stretch α, t.leftLines = s.leftLines ∧ t.rightLines = s.leftLines ∧
      walk s left (inserting pieces ++ right) = walk t left right := by
  induction pieces generalizing s with
  | nil => exact ⟨s, rfl, by simpa using hs.symm, rfl⟩
  | cons piece pieces ih =>
    have hgrown : Stretch.leftLines { s with right := grow s.right piece } =
        Stretch.rightLines { s with right := grow s.right piece } ++ pieces.flatten := by
      simpa [Stretch.leftLines, Stretch.rightLines] using hs
    obtain ⟨t, hleftLines, hrightLines, hwalk⟩ := ih hgrown
    exact ⟨t, hleftLines, hrightLines, (walk_insert_right s piece hleft _).trans hwalk⟩

theorem walk_meet_self (s : Stretch α) {e : Edit α} (he : e.kind ≠ .insert)
    (script : Script α) :
    walk s (e :: script) (e :: script) =
      (meet s e e e.lines.length).1 ++ walk (meet s e e e.lines.length).2 script script := by
  have hover : overlap e e = e.lines.length := Nat.min_self _
  have hrest : rest e e.lines.length script = script := by simp [rest, Script.single]
  rw [walk]
  simp only [he, if_false, hover, hrest]

/-- A script walked with itself takes every change once. The right side may be
behind with some of what it inserts. -/
theorem walk_same_settles (script : Script α) {s : Stretch α} (pieces : List (List α))
    (hs : s.leftLines = s.rightLines ++ pieces.flatten) :
    Settles (walk s script (inserting pieces ++ script)) (s.leftLines ++ script.new) := by
  induction script generalizing s pieces with
  | nil =>
    obtain ⟨t, hleft, hright, hwalk⟩ :=
      walk_inserting_right pieces [] (by simp) hs []
    rw [hwalk, walk, Script.new_nil, List.append_nil, ← hleft]
    exact settles_close_of_same (hleft.trans hright.symm)
  | cons e script ih =>
    obtain ⟨kind, ls⟩ := e
    by_cases hkind : kind = .insert
    · subst hkind
      have hgrown : Stretch.leftLines { s with left := grow s.left ls } =
          Stretch.rightLines { s with left := grow s.left ls } ++
            (pieces ++ [ls]).flatten := by
        simp only [Stretch.leftLines, Stretch.rightLines] at hs ⊢
        simp [hs]
      have hlater := ih (pieces ++ [ls]) hgrown
      rw [walk_insert_left]
      simpa [inserting, Stretch.leftLines, Edit.new] using hlater
    -- the right side catches up, and the two edits in front are the same one
    obtain ⟨t, hleft, hright, hwalk⟩ :=
      walk_inserting_right pieces (⟨kind, ls⟩ :: script) (by simpa using hkind) hs
        (⟨kind, ls⟩ :: script)
    have hsame : t.leftLines = t.rightLines := hleft.trans hright.symm
    rw [hwalk, walk_meet_self t hkind, ← hleft]
    cases kind with
    | insert => exact absurd rfl hkind
    | keep =>
      have hrest : Settles (walk {} script script) (Script.new script) := ih [] rfl
      simpa [meet, Edit.new] using (settles_close_of_same hsame).append (hrest.cons ls)
    | delete =>
      have hrest := ih (s := ⟨grow t.ancestor ls, grow t.left [], grow t.right []⟩) []
        (by simpa [Stretch.leftLines, Stretch.rightLines] using hsame)
      simpa [meet, Edit.new, inserting, Stretch.leftLines] using hrest

/-- A merge of two sides that are the same is either of them. -/
theorem blocks_same_sides (a l : List α) : Settles (blocks a l l) l := by
  have hsettles := walk_same_settles (Script.shortest a l).compact (s := {}) [] rfl
  rwa [(Script.between_compact_shortest a l).new] at hsettles

/-! ## Merging texts -/

@[simp] theorem render_cons (b : Block String) (bs : List (Block String)) :
    render (b :: bs) = b.render ++ render bs := by
  simp [render]

theorem render_settled (parts : List (List String)) :
    render (parts.map .settled) = joinLines parts.flatten := by
  induction parts with
  | nil => rfl
  | cons part parts ih =>
    rw [List.map_cons, render_cons, ih, List.flatten_cons, Text.joinLines_append]
    rfl

theorem full_of_settles {a l r text : String}
    (h : Settles (blocks (lines a) (lines l) (lines r)) (lines text)) :
    full a l r = .clean text := by
  obtain ⟨parts, hblocks, hflat⟩ := h
  have hnone : (parts.map Block.settled).any (Block.isConflict (α := String)) = false := by
    simp [Block.isConflict]
  rw [full, hblocks, render_settled, hflat, Text.join_lines]
  simp [hnone]

theorem full_unchanged_left (a r : String) : full a a r = .clean r :=
  full_of_settles (blocks_unchanged_left _ _)

theorem full_unchanged_right (a l : String) : full a l a = .clean l :=
  full_of_settles (blocks_unchanged_right _ _)

theorem full_same_sides (a l : String) : full a l l = .clean l :=
  full_of_settles (blocks_same_sides _ _)

/-- Looking at the texts first makes no difference. -/
theorem ofTexts_eq_full (a l r : String) : ofTexts a l r = full a l r := by
  unfold ofTexts
  split
  · rename_i h
    rcases h with rfl | rfl
    · rw [full_unchanged_left]
    · rw [full_same_sides]
  split
  · rename_i h
    rw [h, full_unchanged_right]
  · rfl

/-- **Merging where nothing has to be searched for.** A merge with the shortcuts
is the merge by scripts, for any three texts; and the merge by scripts has no
conflict and gives the winning side, character for character, where the left
side is the ancestor, the right side is the ancestor, or the sides are the
same. -/
theorem shortcuts_agree :
    (∀ a l r, ofTexts a l r = full a l r) ∧
      (∀ a r, full a a r = .clean r) ∧
      (∀ a l, full a l a = .clean l) ∧
      (∀ a l, full a l l = .clean l) :=
  ⟨ofTexts_eq_full, full_unchanged_left, full_unchanged_right, full_same_sides⟩

end Reconcile.Merge
