/-
Reconcile.Proofs.Session.MirrorImage — sessions that are each other's mirror
image.

Of two sessions over the same inputs, one shows the right model on the left
and the left one on the right. They are each other's mirror image
(`MirrorImage`) if the flags, the panes and the tools of the sides are
exchanged and all else is the same. Here every part of an operation is shown
to keep that, if what it does to the left of one it does to the right of the
other.

There is one place where this is more than a matter of names: both sides are
flushed from the left of the view to the right, so the two sessions save the
sides of the model in opposite orders (`together_flushSides`). That makes no
difference if the sides are saved independently of each other
(`Model.Independent`), and if they have content (`Filled`).
-/
import Reconcile.Proofs.Session.Filled

namespace Reconcile

/-! ## Left and right exchanged -/

theorem Sided.swap_set {α : Type} (x : Sided α) (side : Side) (a : α) :
    (x.set side a).swap = x.swap.set side.opposite a := by
  cases side <;> rfl

theorem Paned.mirrored_setSide {α : Type} (x : Paned α) (side : Side) (a : α) :
    (x.setSide side a).mirrored = x.mirrored.setSide side.opposite a := by
  cases side <;> rfl

theorem Paned.side_mirrored {α : Type} (x : Paned α) (side : Side) :
    x.mirrored.side side = x.side side.opposite := by
  cases side <;> rfl

namespace Session

variable {σ : Type} {m : Model σ} {alike : σ → σ → Prop} {state : σ}
  {s t : Session σ} {input : Place} {side : Side}

/-- Two sessions are each other's mirror image. -/
structure MirrorImage (alike : σ → σ → Prop) (s t : Session σ) : Prop where
  state : alike s.state t.state
  policy : t.settings.viewer.savePolicy = s.settings.viewer.savePolicy
  input : t.input = s.input
  dirty : t.dirty = s.dirty.swap
  threeWay : t.threeWay = s.threeWay
  ancestorVisible : t.ancestorVisible = s.ancestorVisible
  ancestorToggle : t.ancestorToggle = s.ancestorToggle
  mirrored : t.mirrored = !s.mirrored
  copyEnabled : t.copyEnabled = s.copyEnabled.swap
  panes : t.panes = s.panes.mirrored
  registry : t.registry = s.registry
  confirmer : t.confirmer = s.confirmer

/-! ## What is shown -/

section Shown

variable (hm : m.Independent alike) (h : MirrorImage alike s t)

include hm h

theorem MirrorImage.view_content (pane : Pane) (input : Place) :
    (t.view m).content t.state pane input
      = (s.view m).content s.state pane.mirrored input := by
  rw [view, view, Model.content_oriented, Model.content_oriented, h.mirrored,
    Pane.oriented_not, hm.content_eq h.state]

theorem MirrorImage.view_editable (side : Side) (input : Place) :
    (t.view m).editable t.state side input
      = (s.view m).editable s.state side.opposite input := by
  rw [view, view, Model.editable_oriented, Model.editable_oriented, h.mirrored,
    Side.oriented_not, hm.editable_eq h.state]

theorem MirrorImage.currentThreeWay_eq :
    t.currentThreeWay m = s.currentThreeWay m := by
  unfold currentThreeWay
  rw [h.input]
  cases s.input with
  | none => rfl
  | some input =>
    simp only [isThreeWay, hm.hunk_eq h.state, hm.kind_eq h.state,
      hm.content_eq h.state]

theorem MirrorImage.currentPanes_eq :
    t.currentPanes m = (s.currentPanes m).mirrored := by
  unfold currentPanes
  rw [h.input]
  cases s.input with
  | none => rfl
  | some input =>
    simp only [Paned.ofFn, Paned.mirrored, h.view_content hm]
    rfl

theorem MirrorImage.currentEditable_eq (side : Side) :
    t.currentEditable m side = s.currentEditable m side.opposite := by
  unfold currentEditable
  rw [h.input]
  cases s.input with
  | none => rfl
  | some input => exact h.view_editable hm side input

theorem MirrorImage.refresh : MirrorImage alike (s.refresh m) (t.refresh m) := by
  have hthreeWay := h.currentThreeWay_eq hm
  have hpanes := h.currentPanes_eq hm
  have hleft := h.currentEditable_eq hm .left
  have hright := h.currentEditable_eq hm .right
  rw [refresh_eq, refresh_eq]
  exact { h with
    threeWay := hthreeWay
    panes := hpanes
    copyEnabled := Sided.ext hleft hright }

end Shown

/-! ## Flags, edits and the bound input -/

theorem MirrorImage.setDirty (h : MirrorImage alike s t) (side : Side)
    (value : Bool) :
    MirrorImage alike (s.setDirty side value) (t.setDirty side.opposite value) := by
  have hdirty : t.dirty.set side.opposite value
      = (s.dirty.set side value).swap := by
    rw [h.dirty, Sided.swap_set]
  rw [setDirty_eq, setDirty_eq]
  exact { h with dirty := hdirty }

theorem MirrorImage.clearDirty (h : MirrorImage alike s t) :
    MirrorImage alike s.clearDirty t.clearDirty := by
  rw [clearDirty_eq, clearDirty_eq]
  exact { h with dirty := rfl }

theorem MirrorImage.applyEdit (h : MirrorImage alike s t) (side : Side)
    (bytes : ByteArray) :
    MirrorImage alike (s.applyEdit side bytes)
      (t.applyEdit side.opposite bytes) := by
  have hdirty : t.dirty.set side.opposite true = (s.dirty.set side true).swap := by
    rw [h.dirty, Sided.swap_set]
  have hpanes : t.panes.setSide side.opposite (some bytes)
      = (s.panes.setSide side (some bytes)).mirrored := by
    rw [h.panes, Paned.mirrored_setSide]
  rw [applyEdit_eq, applyEdit_eq]
  exact { h with dirty := hdirty, panes := hpanes }

theorem MirrorImage.release (h : MirrorImage alike s t) :
    MirrorImage alike (s.release m) (t.release m) := by
  have hregistry : t.releasedRegistry = s.releasedRegistry := by
    unfold releasedRegistry
    rw [h.input, h.registry]
  rw [release_eq, release_eq]
  exact { h with registry := hregistry }

theorem MirrorImage.acquire (h : MirrorImage alike s t) (input : Option Place) :
    MirrorImage alike (s.acquire m input) (t.acquire m input) := by
  have hregistry : acquiredRegistry t.registry input
      = acquiredRegistry s.registry input := by
    rw [h.registry]
  rw [acquire_eq, acquire_eq]
  exact { h with input := rfl, registry := hregistry }

theorem MirrorImage.rebind (hm : m.Independent alike)
    (h : MirrorImage alike s t) (input : Option Place) :
    MirrorImage alike (s.rebind m input) (t.rebind m input) :=
  (h.release.clearDirty.acquire input).refresh hm

theorem MirrorImage.turn (hm : m.Independent alike) (h : MirrorImage alike s t)
    (value : Bool) :
    MirrorImage alike (s.turn m value) (t.turn m !value) := by
  have hturned : MirrorImage alike { s with mirrored := value }
      { t with mirrored := !value } :=
    { h with mirrored := rfl }
  exact hturned.refresh hm

/-! ## Pending edits -/

/-- In the mirror image the other side is wanted. -/
theorem MirrorImage.wanted_eq (hm : m.Independent alike)
    (h : MirrorImage alike s t) (input : Place) (side : Side) :
    t.wanted m input side = s.wanted m input side.opposite := by
  have hpending : t.pending m input side = s.pending m input side.opposite := by
    simp only [pending, h.view_editable hm, h.dirty, Sided.get_swap]
  rw [wanted, wanted, hpending, h.panes, Paned.side_mirrored]

/-- The mirror image has both sides if the session has. -/
theorem MirrorImage.filled (hm : m.Independent alike)
    (h : MirrorImage alike s t) (hfilled : Filled m state s) :
    Filled m state t where
  full hplace side := by
    rw [hm.content_eq h.state]
    exact hfilled.full hplace side
  bound hin := hfilled.bound (h.input.symm.trans hin)
  shown hin side := by
    rw [h.panes, Paned.side_mirrored]
    exact hfilled.shown (h.input.symm.trans hin) _

/-- Two sessions that are each other's mirror image after something that both
have answered, with the same answer unless both failed. -/
structure Together {α : Type} (m : Model σ) (alike : σ → σ → Prop) (state : σ)
    (x y : Session σ × Except SaveError α) : Prop where
  image : MirrorImage alike x.1 y.1
  filled : Filled m state x.1
  answer : y.2.toOption = x.2.toOption

/-- Both have failed, or both have answered the same. -/
theorem Together.ends {α : Type} {x y : Session σ × Except SaveError α}
    (h : Together m alike state x y) :
    (∃ e e', x.2 = .error e ∧ y.2 = .error e') ∨
      ∃ a, x.2 = .ok a ∧ y.2 = .ok a := by
  have hanswer := h.answer
  cases hx : x.2 with
  | error e =>
    cases hy : y.2 with
    | error e' => exact .inl ⟨e, e', rfl, rfl⟩
    | ok b => simp [hx, hy, Except.toOption] at hanswer
  | ok a =>
    cases hy : y.2 with
    | error e' => simp [hx, hy, Except.toOption] at hanswer
    | ok b =>
      rw [hx, hy] at hanswer
      obtain rfl : b = a := Option.some.inj hanswer
      exact .inr ⟨b, rfl, rfl⟩

theorem together_flushSide (hm : m.Independent alike)
    (h : MirrorImage alike s t) (hfilled : Filled m state s)
    (hin : s.input = some input) (side : Side) :
    Together m alike state (s.flushSide m input side)
      (t.flushSide m input side.opposite) := by
  have hends := flushSide_ends m input side s
  have hends' := flushSide_ends m input side.opposite t
  have hside : side.opposite.oriented t.mirrored = side.oriented s.mirrored := by
    rw [h.mirrored, Side.oriented_not, Side.opposite_opposite]
  have hwanted : t.wanted m input side.opposite = s.wanted m input side := by
    rw [h.wanted_eq hm, Side.opposite_opposite]
  obtain ⟨hs, hr⟩ := hends.attempted hfilled hin
  obtain ⟨ht, hr'⟩ := hends'.attempted (h.filled hm hfilled) (h.input.trans hin)
  rw [hside, hwanted] at ht hr'
  -- One save is tried, of the same side of the model.
  obtain ⟨hsame, halike⟩ := Model.attempt_alike hm h.state input
    (side.oriented s.mirrored) (hfilled.isSome_of_wanted hin side)
  have hdirty : t.dirty.get side.opposite = s.dirty.get side := by
    rw [h.dirty, Sided.get_swap, Side.opposite_opposite]
  rw [hsame] at ht hr'
  refine ⟨?_, hfilled.flushedSide hm hin hends, by rw [hr', hr]⟩
  rw [hs, ht, hdirty, h.dirty, ← Sided.swap_set]
  exact { h with state := halike, dirty := rfl }

/-- **Both sides** are flushed alike. The mirror image begins with the side
of the model that comes last here. -/
theorem together_flushSides (hm : m.Independent alike)
    (h : MirrorImage alike s t) (hfilled : Filled m state s)
    (hin : s.input = some input) :
    Together m alike state (s.flushSides m input) (t.flushSides m input) := by
  have hends := flushSides_ends m input s
  have hends' := flushSides_ends m input t
  have hside : Side.left.oriented t.mirrored
      = (Side.left.oriented s.mirrored).opposite := by
    rw [h.mirrored, Side.oriented_not, Side.opposite_oriented]
  have hleft : t.wanted m input .left = s.wanted m input .right :=
    h.wanted_eq hm input .left
  have hright : t.wanted m input .right = s.wanted m input .left :=
    h.wanted_eq hm input .right
  obtain ⟨hs, hr⟩ := hends.attempted hm hfilled hin
  obtain ⟨ht, hr'⟩ :=
    hends'.attempted hm (h.filled hm hfilled) (h.input.trans hin)
  rw [hside, hleft, hright, Side.opposite_opposite] at ht hr'
  -- In the other order, and then in a state that is alike.
  obtain ⟨hsame, hsame', halike⟩ := Model.attempt_comm hm s.state input
    (Side.left.oriented s.mirrored) (hfilled.isSome_of_wanted hin .left)
    (hfilled.isSome_of_wanted hin .right)
  obtain ⟨hfirst, hafter⟩ := Model.attempt_alike hm h.state input
    (Side.left.oriented s.mirrored).opposite (hfilled.isSome_of_wanted hin .right)
  obtain ⟨hsecond, hend⟩ := Model.attempt_alike hm hafter input
    (Side.left.oriented s.mirrored) (hfilled.isSome_of_wanted hin .left)
  rw [hsecond, hsame, hfirst, ← hsame'] at ht hr'
  refine ⟨?_, hfilled.flushedSides hm hin hends, ?_⟩
  · rw [hs, ht]
    exact { h with
      state := hm.equivalence.trans halike hend
      dirty := by rw [h.dirty]; rfl }
  · rw [hr', hr]
    exact Model.Attempt.answer_comm _ _

theorem together_flush (hm : m.Independent alike) (h : MirrorImage alike s t)
    (hfilled : Filled m state s) (side : Side) :
    Together m alike state (s.flush m side) (t.flush m side.opposite) := by
  unfold flush
  rw [h.input]
  cases hin : s.input with
  | none => exact ⟨h, hfilled, rfl⟩
  | some input => exact together_flushSide hm h hfilled hin side

theorem together_flushAll (hm : m.Independent alike) (h : MirrorImage alike s t)
    (hfilled : Filled m state s) :
    Together m alike state (s.flushAll m) (t.flushAll m) := by
  unfold flushAll
  rw [h.input]
  cases hin : s.input with
  | none => exact ⟨h, hfilled, rfl⟩
  | some input => exact together_flushSides hm h hfilled hin

/-! ## The question -/

theorem MirrorImage.isDirty_eq (h : MirrorImage alike s t) :
    t.isDirty = s.isDirty := by
  rw [isDirty, isDirty, h.dirty]
  exact Bool.or_comm _ _

/-- The question differs in its flags, but those do not matter for the
answer. -/
theorem MirrorImage.decision_eq (h : MirrorImage alike s t) (input : Place)
    (kind : PromptKind) :
    (t.decision m input kind).2 = (s.decision m input kind).2 := by
  unfold decision
  rw [h.policy, h.confirmer]
  cases s.settings.viewer.savePolicy with
  | silentFlush => rfl
  | alwaysFlush => rfl
  | confirm => cases s.confirmer <;> rfl

theorem MirrorImage.decision (h : MirrorImage alike s t) (input : Place)
    (kind : PromptKind) :
    MirrorImage alike (s.decision m input kind).1
      (t.decision m input kind).1 := by
  have hconfirmer : t.confirmerAfter = s.confirmerAfter := by
    unfold confirmerAfter
    rw [h.policy, h.confirmer]
  rw [Session.decision_eq, Session.decision_eq]
  exact { h with confirmer := hconfirmer }

theorem together_resolve (hm : m.Independent alike) (h : MirrorImage alike s t)
    (hfilled : Filled m state s) (hin : s.input = some input)
    (kind : PromptKind) :
    Together m alike state (s.resolve m input kind) (t.resolve m input kind) := by
  have himage := h.decision (m := m) input kind
  have hanswer := h.decision_eq (m := m) input kind
  have hasked : (s.decision m input kind).1.input = some input ∧
      Filled m state (s.decision m input kind).1 := by
    rw [Session.decision_eq]
    exact ⟨hin, hfilled.of_eq rfl rfl rfl⟩
  unfold resolve
  rw [h.isDirty_eq]
  cases s.isDirty with
  | false => exact ⟨h, hfilled, rfl⟩
  | true =>
    simp only [if_true]
    generalize s.decision m input kind = x at himage hanswer hasked ⊢
    generalize t.decision m input kind = y at himage hanswer ⊢
    obtain ⟨s', answer⟩ := x
    obtain ⟨t', answer'⟩ := y
    obtain rfl : answer' = answer := hanswer
    cases answer' with
    | save =>
      have hflushed := together_flushSides hm himage hasked.2 hasked.1
      simp only
      generalize s'.flushSides m input = x at hflushed ⊢
      generalize t'.flushSides m input = y at hflushed ⊢
      have hends := hflushed.ends
      obtain ⟨u, r⟩ := x
      obtain ⟨v, r'⟩ := y
      rcases hends with ⟨e, e', rfl, rfl⟩ | ⟨_, rfl, rfl⟩
      · exact ⟨hflushed.image, hflushed.filled, rfl⟩
      · exact ⟨hflushed.image.clearDirty, hflushed.filled.clearDirty, rfl⟩
    | discard => exact ⟨himage.clearDirty, hasked.2.clearDirty, rfl⟩
    | cancel => exact ⟨himage, hasked.2, rfl⟩

theorem together_resolveBound (hm : m.Independent alike)
    (h : MirrorImage alike s t) (hfilled : Filled m state s)
    (kind : PromptKind) :
    Together m alike state (s.resolveBound m kind) (t.resolveBound m kind) := by
  unfold resolveBound
  rw [h.input]
  cases hin : s.input with
  | none => exact ⟨h, hfilled, rfl⟩
  | some input => exact together_resolve hm h hfilled hin kind

end Session

end Reconcile
