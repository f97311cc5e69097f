/-
Reconcile.Proofs.Session.CleanSides — a clean flag never hides an edit.

Wherever a run of operations leads, a side without a flag shows what is
stored (`clean_side_shows_stored`): a host that only ever sets flags, and
that asks about them, never loses sight of an edit. The invariant is
`Synced`. An operation keeps it in one of three ways:

* it flags every side whose pane it writes (`synced_applyEdit`);
* it saves what a pane shows before it clears the flag, and leaves the
  other side alone (`FlushedSide.synced`) — an empty pane saved as a
  missing side still counts as empty;
* it clears flags that cover unsaved edits, be it because they are dropped
  or because the side may not be edited, but then it ends with a refresh,
  which makes every pane agree with what is stored (`synced_refresh`).
-/
import Reconcile.Proofs.Session.KnownInputs

namespace Reconcile

/-- An operation neither clears a flag by itself nor changes the inputs
behind the viewer. -/
def Operation.HidesNothing {σ : Type} (m : Model σ) : Operation σ → Prop
  | .setDirty _ value => value = true
  | .elsewhere change => ∀ s pane place,
      m.content (change s) pane place = m.content s pane place
  | _ => True

namespace Session

variable {σ : Type} {m : Model σ} {known : σ → Place → Prop}

/-! ## The invariant -/

/-- The pane of a side shows what the bound input holds there; a missing
pane and missing content count as empty. -/
def Agrees (m : Model σ) (s : Session σ) (side : Side) : Prop :=
  ∀ input, s.input = some input →
    (s.panes.side side).getD .empty
      = ((s.view m).content s.state side.pane input).getD .empty

/-- The sides without a flag show what is stored. -/
def Synced (m : Model σ) (s : Session σ) : Prop :=
  ∀ side, s.dirty.get side = false → s.Agrees m side

theorem synced_refresh (s : Session σ) : (s.refresh m).Synced m := by
  intro side _ input hin
  rw [refresh_eq] at hin ⊢
  have hpane := side_currentPanes (m := m) (s := s) hin side
  simp only [view, Model.content_oriented, ← Side.pane_oriented]
  rw [hpane]

theorem synced_applyEdit {s : Session σ} (h : s.Synced m) (side : Side)
    (bytes : ByteArray) : (s.applyEdit side bytes).Synced m := by
  intro other hclean
  rw [applyEdit_eq] at hclean ⊢
  rcases Side.eq_or_eq_opposite other side with rfl | rfl
  · simp at hclean
  · simp only [Sided.get_set_opposite] at hclean
    intro input hin
    simp only [Paned.side_setSide_opposite]
    exact h _ hclean input hin

theorem synced_flag {s : Session σ} (h : s.Synced m) (side : Side) :
    (s.setDirty side true).Synced m := by
  intro other hclean
  rw [setDirty_eq] at hclean ⊢
  rcases Side.eq_or_eq_opposite other side with rfl | rfl
  · simp at hclean
  · simp only [Sided.get_set_opposite] at hclean
    exact h _ hclean

/-! ## Pending edits -/

theorem FlushedSide.synced (hm : m.Keeps known) {input : Place} {side : Side}
    {s t : Session σ} {r : Except SaveError Unit}
    (ends : FlushedSide m input side s t r) (hin : s.input = some input)
    (hknown : known s.state input) (h : s.Synced m) : t.Synced m := by
  cases ends with
  | skipped => exact h
  | refused => exact h
  | saved _ state hsave =>
    intro other hclean place hplace
    obtain rfl : input = place := Option.some.inj (hin.symm.trans hplace)
    simp only [view, Model.content_oriented, ← Side.pane_oriented]
    rcases Side.eq_or_eq_opposite other side with rfl | rfl
    · rw [hm.content_saved hsave hknown, pendingBytes_eq, getD_savedBytes]
    · simp only [Sided.get_set_opposite] at hclean
      have hother := h _ hclean input hin
      rw [view, Model.content_oriented, ← Side.pane_oriented] at hother
      rw [Side.opposite_oriented] at hother ⊢
      rw [hm.content_opposite hsave hknown, hother]

theorem FlushedSides.synced (hm : m.Keeps known) {input : Place}
    {s t : Session σ} {r : Except SaveError Unit}
    (ends : FlushedSides m input s t r) (hin : s.input = some input)
    (hknown : known s.state input) (h : s.Synced m) : t.Synced m := by
  cases ends with
  | @both u _ _ _ left right =>
    have huin : u.input = some input := left.settled.input_eq.trans hin
    have huknown : known u.state input := by
      obtain ⟨made, -, hstate, -⟩ := left.settled.calls
      rw [hstate]
      exact hm.known_carryOut hknown
    exact right.synced hm huin huknown (left.synced hm hin hknown h)

/-- Edits that are left pending after all are still flagged. -/
theorem ResolvedBound.synced (hm : m.Keeps known) {kind : PromptKind}
    {s t : Session σ} {r : Except SaveError Resolution}
    (ends : ResolvedBound m kind s t r)
    (hheld : ∀ done, r = .ok done → done = .cancelled)
    (hknown : ∀ {place}, s.input = some place → known s.state place)
    (h : s.Synced m) : t.Synced m := by
  cases ends with
  | unbound => exact h
  | @bound input _ _ hin resolved =>
    have hasked : (s.decision m input kind).1.Synced m := by
      rw [decision_eq]
      exact h
    have hframe := decision_eq m input kind s
    cases resolved with
    | clean => exact h
    | saved => exact absurd (hheld _ rfl) (by decide)
    | failed _ _ flushed =>
      refine flushed.synced hm ?_ ?_ hasked
      · rw [hframe]
        exact hin
      · rw [hframe]
        exact hknown hin
    | discarded => exact absurd (hheld _ rfl) (by decide)
    | cancelled => exact hasked

/-! ## Operations and runs -/

theorem synced_step (hm : m.Keeps known) {s : Session σ} {op : Operation σ}
    (hop : op.HidesNothing m)
    (hknown : ∀ {place}, s.input = some place → known s.state place)
    (h : s.Synced m) : (s.step m op).1.Synced m := by
  have hends := step_ends m s op
  generalize (s.step m op).1 = u, (s.step m op).2 = reply at hends ⊢
  cases hends with
  | aside ha =>
    rw [ha.frame]
    exact h
  | flagged side value =>
    obtain rfl : value = true := hop
    exact synced_flag h side
  | edited side bytes => exact synced_applyEdit h side bytes
  | copied d => exact synced_applyEdit h _ _
  | flushed hin ends => exact ends.synced hm hin (hknown hin) h
  | flushedAll hin ends => exact ends.synced hm hin (hknown hin) h
  | refreshed => exact synced_refresh s
  | bound _ ends =>
    cases ends with
    | failed resolved => exact resolved.synced hm (by simp) hknown h
    | cancelled resolved => exact resolved.synced hm (by simp) hknown h
    | switched => exact synced_refresh _
  | turned _ ends =>
    cases ends with
    | failed resolved => exact resolved.synced hm (by simp) hknown h
    | cancelled resolved => exact resolved.synced hm (by simp) hknown h
    | switched => exact synced_refresh _
  | changed _ ends =>
    cases ends with
    | unbound => exact h
    | saving => exact h
    | failed hin _ resolved =>
      exact (ResolvedBound.bound hin resolved).synced hm (by simp) hknown h
    | dropped => exact synced_refresh _
    | shown => exact synced_refresh _
  | disposed =>
    intro side _ input hin
    simp [dispose] at hin
  | elsewhere change =>
    intro side hclean input hin
    have hbefore := h side hclean input hin
    rw [view, Model.content_oriented] at hbefore ⊢
    rw [hop]
    exact hbefore

/-- **A clean flag never hides an edit.** The model keeps what is saved to it
at the places it knows, only such places are bound, the host clears no flag,
and nobody changes the inputs behind the viewer. Then, whatever has happened
since the start, a side of the bound input that has no flag shows what is
stored for it. -/
theorem clean_side_shows_stored (hm : m.Keeps known) {settings : Settings}
    {state : σ} {confirmer : Confirmer} {start : Session σ}
    (hstart : start? settings state confirmer = .ok start)
    {ops : List (Operation σ)}
    (hops : ∀ op ∈ ops, op.Knows known state ∧ op.HidesNothing m)
    {input : Place} (hin : (start.run m ops).input = some input) (side : Side)
    (hclean : (start.run m ops).dirty.get side = false) :
    ((start.run m ops).panes.side side).getD .empty
      = (((start.run m ops).view m).content (start.run m ops).state side.pane
          input).getD .empty := by
  have hsynced : KnownInputs known state (start.run m ops) ∧
      (start.run m ops).Synced m := by
    refine run_induction (P := fun s => KnownInputs known state s ∧ s.Synced m)
      ⟨knownInputs_start hstart, ?_⟩ ?_
    · intro side _ input hin
      simp [(start?_eq hstart).1] at hin
    · intro t op hop ⟨hknown, ht⟩
      exact ⟨knownInputs_step hm (hops op hop).1 hknown,
        synced_step hm (hops op hop).2 hknown.bound_known ht⟩
  exact hsynced.2 side hclean input hin

/-- A document of which a save is refused once and then accepted. -/
theorem saved_side_shows_stored :
    let m := (Model.shelf Document).guarded
    let state : Model.Guarded (Shelf Document) :=
      ⟨⟨[{ contents := ⟨none, some ⟨#[97]⟩, none⟩ }], ⟨true, true⟩⟩, ⟨none, none⟩⟩
    let refuse (e : Option SaveError) : Operation (Model.Guarded (Shelf Document)) :=
      .elsewhere fun g => { g with refusals := ⟨e, none⟩ }
    let ops := [.bind (some 0), .applyEdit .left ⟨#[98]⟩,
      refuse (some (.readOnly .left)), .flush .left, refuse none, .flush .left]
    ∃ start, start? {} state (.fixed .save) = .ok start ∧
      (start.run m ops).input = some 0 ∧
      (start.run m ops).dirty.get .left = false ∧
      ((start.run m ops).panes.side .left).getD .empty
        = (((start.run m ops).view m).content (start.run m ops).state .left
            0).getD .empty := by
  intro m state refuse ops
  obtain ⟨start, hstart, hin, hclean⟩ : ∃ start,
      start? {} state (.fixed .save) = .ok start ∧
      (start.run m ops).input = some 0 ∧
      (start.run m ops).dirty.get .left = false :=
    ⟨_, rfl, by decide +kernel, by decide +kernel⟩
  have hops : ∀ op ∈ ops,
      op.Knows (fun g place => place < g.state.items.length) state ∧
        op.HidesNothing m := by
    simp [ops, refuse, Operation.Knows, Operation.HidesNothing, state, m,
      Model.guarded]
  exact ⟨start, hstart, hin, hclean,
    clean_side_shows_stored (Model.keeps_guarded keeps_shelf) hstart hops hin
      .left hclean⟩

end Session

end Reconcile
