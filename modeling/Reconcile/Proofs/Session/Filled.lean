/-
Reconcile.Proofs.Session.Filled — inputs that have content on both sides.

An input that has content on both sides keeps it, whatever is saved, as long
as nothing but what a pane shows is saved (`Filled`). That matters for how a
side is saved: an empty pane stands for a missing side if the other side is
missing, so what is saved of one side hangs on the other one. With content on
both sides it does not (`Filled.pendingBytes_eq`), and a flush comes to a save
that is tried with what the pane shows (`FlushedSide.attempted`,
`FlushedSides.attempted`).
-/
import Reconcile.Proofs.Model.Sides
import Reconcile.Proofs.Session.Runs

namespace Reconcile

/-! ## Inputs with two sides -/

namespace Model

variable {σ : Type} {m : Model σ} {alike : σ → σ → Prop}

/-- Both sides of an input have content. -/
def Full (m : Model σ) (s : σ) (place : Place) : Prop :=
  ∀ side : Side, (m.content s side.pane place).isSome

theorem Full.save (hm : m.Independent alike) {s t : σ} {side : Side}
    {input place : Place} {bytes : Option ByteArray} (h : m.Full s place)
    (hbytes : bytes.isSome) (hsave : m.save s side input bytes = .ok t) :
    m.Full t place := by
  intro other
  rcases hm.content_save hsave other place with hkept | hnew
  · rw [hkept]
    exact h other
  · rwa [hnew]

namespace Attempt

/-- The flag of a side after its save. -/
def flag (a : Attempt) (was : Bool) : Bool :=
  match a with
  | saved => false
  | skipped | refused => was

/-- What a save answers, if it answers anything. -/
def answer : Attempt → Option Unit
  | refused => none
  | skipped | saved => some ()

theorem answer_comm (a b : Attempt) :
    (a.answer.bind fun _ => b.answer) = b.answer.bind fun _ => a.answer := by
  cases a <;> cases b <;> rfl

end Attempt

end Model

namespace Session

variable {σ : Type} {m : Model σ} {alike : σ → σ → Prop} {state : σ}
  {s t : Session σ} {input : Place} {side : Side}

/-- With content on both sides, what is saved is what is shown. -/
theorem pendingBytes_of_full (h : m.Full s.state input) (side : Side) :
    s.pendingBytes m input side = s.panes.side side := by
  have hother := h (side.oriented s.mirrored).opposite
  rw [pendingBytes_eq, savedBytes]
  refine if_neg fun hmissing => ?_
  rw [hmissing.2] at hother
  simp at hother

/-- Everything that was there with both sides still is, and so is what is
bound and shown. -/
structure Filled (m : Model σ) (state : σ) (s : Session σ) : Prop where
  full : ∀ {place : Place}, m.Full state place → m.Full s.state place
  bound : ∀ {input : Place}, s.input = some input → m.Full state input
  shown : ∀ {input : Place}, s.input = some input →
    ∀ side, (s.panes.side side).isSome

/-- What is filled, bound and shown hangs on three fields alone. -/
theorem Filled.of_eq (h : Filled m state s) (hstate : t.state = s.state)
    (hinput : t.input = s.input) (hpanes : t.panes = s.panes) :
    Filled m state t where
  full := by
    rw [hstate]
    exact h.full
  bound := by
    rw [hinput]
    exact h.bound
  shown := by
    rw [hinput, hpanes]
    exact h.shown

/-- A refresh shows both sides of the bound input. -/
theorem Filled.refresh (hfull : ∀ {place : Place}, m.Full state place →
      m.Full s.state place)
    (hbound : ∀ {input : Place}, s.input = some input → m.Full state input) :
    Filled m state (s.refresh m) := by
  have hshown : ∀ {input : Place}, s.input = some input →
      ∀ side, ((s.currentPanes m).side side).isSome := by
    intro input hin side
    rw [side_currentPanes hin]
    exact hfull (hbound hin) _
  rw [refresh_eq]
  exact ⟨hfull, hbound, hshown⟩

theorem Filled.applyEdit (h : Filled m state s) (side : Side)
    (bytes : ByteArray) : Filled m state (s.applyEdit side bytes) := by
  rw [applyEdit_eq]
  refine ⟨h.full, h.bound, fun hin other => ?_⟩
  rcases Side.eq_or_eq_opposite other side with rfl | rfl
  · simp
  · simp only [Paned.side_setSide_opposite]
    exact h.shown hin _

theorem Filled.pendingBytes_eq (h : Filled m state s) (hin : s.input = some input)
    (side : Side) : s.pendingBytes m input side = s.panes.side side :=
  pendingBytes_of_full (h.full (h.bound hin)) side

theorem Filled.flushedSide (hm : m.Independent alike) (h : Filled m state s)
    (hin : s.input = some input) {r : Except SaveError Unit}
    (ends : FlushedSide m input side s t r) : Filled m state t := by
  cases ends with
  | skipped => exact h
  | saved hpending after hsave =>
    have hshown : (s.pendingBytes m input side).isSome := by
      rw [h.pendingBytes_eq hin]
      exact h.shown hin side
    exact ⟨fun hplace => (h.full hplace).save hm hshown hsave, h.bound, h.shown⟩
  | refused => exact h.of_eq rfl rfl rfl

theorem Filled.clearDirty (h : Filled m state s) : Filled m state s.clearDirty := by
  rw [clearDirty_eq]
  exact h.of_eq rfl rfl rfl

theorem Filled.rebind (h : Filled m state s) {input : Option Place}
    (hinput : ∀ {place : Place}, input = some place → m.Full state place) :
    Filled m state (s.rebind m input) := by
  have hnext : ((s.release m).clearDirty.acquire m input).state = s.state ∧
      ((s.release m).clearDirty.acquire m input).input = input := by
    rw [acquire_eq, clearDirty_eq, release_eq]
    exact ⟨rfl, rfl⟩
  refine Filled.refresh (fun hplace => ?_) fun hin => ?_
  · rw [hnext.1]
    exact h.full hplace
  · exact hinput (hnext.2.symm.trans hin)

theorem Filled.copy (h : Filled m state s) (d : Direction) :
    Filled m state (s.copy m d).1 := by
  unfold Session.copy
  cases s.input with
  | none => exact h
  | some input =>
    simp only
    split
    · exact h.applyEdit _ _
    · exact h

theorem Filled.setAncestorVisible (h : Filled m state s) (value : Bool) :
    Filled m state (s.setAncestorVisible value).1 := by
  rw [setAncestorVisible_eq]
  exact h.of_eq rfl rfl rfl

theorem Filled.setIgnoreAncestor (h : Filled m state s) (value : Bool) :
    Filled m state (s.setIgnoreAncestor value) := by
  unfold Session.setIgnoreAncestor
  cases value with
  | false => exact h.of_eq rfl rfl rfl
  | true => exact (h.setAncestorVisible false).of_eq rfl rfl rfl

theorem Filled.dispose (h : Filled m state s) : Filled m state (s.dispose m) := by
  unfold Session.dispose
  rw [release_eq]
  exact ⟨h.full, fun hin => by simp at hin, fun hin => by simp at hin⟩

/-! ## Pending edits -/

/-- What is to be saved of a side, if anything. -/
def wanted (m : Model σ) (input : Place) (side : Side) (s : Session σ) :
    Option (Option ByteArray) :=
  if s.pending m input side then some (s.panes.side side) else none

/-- With both sides shown, nothing but content is to be saved. -/
theorem Filled.isSome_of_wanted (h : Filled m state s) (hin : s.input = some input)
    (side : Side) {bytes : Option ByteArray}
    (hwanted : s.wanted m input side = some bytes) : bytes.isSome := by
  unfold wanted at hwanted
  split at hwanted
  · rw [← Option.some.inj hwanted]
    exact h.shown hin side
  · simp at hwanted

/-- A flush of a side tries the save that is wanted. -/
theorem FlushedSide.attempted (h : Filled m state s) (hin : s.input = some input)
    {r : Except SaveError Unit} (ends : FlushedSide m input side s t r) :
    let tried := m.attempt input (side.oriented s.mirrored)
      (s.wanted m input side) s.state
    t = { s with
      state := tried.1
      dirty := s.dirty.set side (tried.2.flag (s.dirty.get side))
      calls := t.calls } ∧
    r.toOption = tried.2.answer := by
  have hbytes := h.pendingBytes_eq hin side
  cases ends with
  | skipped hpending =>
    simp [wanted, hpending, Model.attempt, Model.Attempt.flag,
      Model.Attempt.answer, Except.toOption]
  | saved hpending after hsave =>
    rw [hbytes] at hsave
    simp [wanted, hpending, Model.attempt_ok hsave, Model.Attempt.flag,
      Model.Attempt.answer, Except.toOption]
  | refused hpending e hsave =>
    rw [hbytes] at hsave
    simp [wanted, hpending, Model.attempt_error hsave, Model.Attempt.flag,
      Model.Attempt.answer, Except.toOption]

theorem FlushedSide.wanted_opposite (hm : m.KeepsEditable)
    {r : Except SaveError Unit} (ends : FlushedSide m input side s t r) :
    t.wanted m input side.opposite = s.wanted m input side.opposite := by
  have hpanes : t.panes = s.panes := ends.settled.panes_eq
  rw [wanted, wanted, ends.pending_opposite hm, hpanes]

/-- A flush of both sides tries the two saves that are wanted, the one that
is shown on the left first. -/
theorem FlushedSides.attempted (hm : m.Independent alike) (h : Filled m state s)
    (hin : s.input = some input) {r : Except SaveError Unit}
    (ends : FlushedSides m input s t r) :
    let shown := Side.left.oriented s.mirrored
    let first := m.attempt input shown (s.wanted m input .left) s.state
    let second := m.attempt input shown.opposite (s.wanted m input .right) first.1
    t = { s with
      state := second.1
      dirty := ⟨first.2.flag s.dirty.left, second.2.flag s.dirty.right⟩
      calls := t.calls } ∧
    r.toOption = first.2.answer.bind fun _ => second.2.answer := by
  intro shown first second
  cases ends with
  | @both u _ left right flushedLeft flushedRight =>
    have hfilled := h.flushedSide hm hin flushedLeft
    have hwanted := flushedLeft.wanted_opposite hm.editable_save
    obtain ⟨hu, hleft⟩ := flushedLeft.attempted h hin
    have hinput : u.input = some input := by
      rw [hu]
      exact hin
    have hstate : u.state = first.1 := by rw [hu]
    have hside : Side.right.oriented u.mirrored = shown.opposite := by
      rw [hu]
      exact Side.opposite_oriented s.mirrored .left
    obtain ⟨ht, hright⟩ := flushedRight.attempted hfilled hinput
    have htried : m.attempt input (Side.right.oriented u.mirrored)
        (u.wanted m input .right) u.state = second := by
      rw [hside, hstate]
      exact congrArg (fun w => m.attempt input shown.opposite w first.1) hwanted
    rw [htried] at ht hright
    refine ⟨?_, by rw [firstError_toOption, hleft, hright]⟩
    rw [ht, hu]
    rfl

theorem Filled.flushedSides (hm : m.Independent alike) (h : Filled m state s)
    (hin : s.input = some input) {r : Except SaveError Unit}
    (ends : FlushedSides m input s t r) : Filled m state t := by
  cases ends with
  | @both u _ _ _ flushedLeft flushedRight =>
    have hinput : u.input = some input := by
      rw [flushedLeft.settled.input_eq]
      exact hin
    exact (h.flushedSide hm hin flushedLeft).flushedSide hm hinput flushedRight

end Session

end Reconcile
