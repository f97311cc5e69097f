/-
Reconcile.Proofs.Session.Forgetful — what a session does not look at.

What a session does, and what it answers, does not depend on the calls that
were made before. On its settings, and on who answers for the user, it depends
only when there is a question to ask. `Recast` exchanges these three. Where asking
comes to the same (`Recast.AsksAlike`), an operation does the same before and
after the exchange (`step_recast`), and so does a run (`run_recast`,
`replies_recast`).

`preceded` leaves settings and answers as they are and puts calls in front of
the log.
-/
import Reconcile.Proofs.Session.Asking
import Reconcile.Proofs.Session.Runs

namespace Reconcile.Session

variable {σ : Type}

/-- Other settings, someone else to answer, and another log. Calls that do not
ask are appended to the other log as well. -/
structure Recast where
  settings : Settings → Settings
  confirmer : Confirmer → Confirmer
  calls : List Call → List Call
  carries : ∀ (earlier : List Call) {more : List Call},
    (∀ c ∈ more, c.asks = false) → calls (earlier ++ more) = calls earlier ++ more

/-- The session after such an exchange. -/
def recast (f : Recast) (s : Session σ) : Session σ :=
  { s with
    settings := f.settings s.settings
    confirmer := f.confirmer s.confirmer
    calls := f.calls s.calls }

/-- What to do with pending edits is decided alike before and after the
exchange. -/
def Recast.AsksAlike (m : Model σ) (f : Recast) (s : Session σ) : Prop :=
  ∀ input kind, (s.recast f).decision m input kind
    = (s.decision m input kind).map (recast f) id

section Fields

variable (f : Recast) (s : Session σ)

@[simp] theorem recast_state : (s.recast f).state = s.state := rfl

@[simp] theorem recast_input : (s.recast f).input = s.input := rfl

@[simp] theorem recast_dirty : (s.recast f).dirty = s.dirty := rfl

@[simp] theorem recast_panes : (s.recast f).panes = s.panes := rfl

@[simp] theorem recast_registry : (s.recast f).registry = s.registry := rfl

@[simp] theorem recast_mirrored : (s.recast f).mirrored = s.mirrored := rfl

@[simp] theorem recast_isDirty : (s.recast f).isDirty = s.isDirty := rfl

@[simp] theorem recast_view (m : Model σ) : (s.recast f).view m = s.view m := rfl

end Fields

/-! ## The parts of an operation -/

section Parts

variable (m : Model σ) (f : Recast) (s : Session σ)

theorem recast_appended {more : List Call} (h : ∀ c ∈ more, c.asks = false) :
    recast f { s with calls := s.calls ++ more }
      = { s.recast f with calls := f.calls s.calls ++ more } := by
  simp [recast, f.carries s.calls h]

theorem emit_recast {c : Call} (h : c.asks = false) :
    (s.recast f).emit c = (s.emit c).recast f :=
  (recast_appended f s (by simpa using h)).symm

theorem setDirty_recast (side : Side) (value : Bool) :
    (s.recast f).setDirty side value = (s.setDirty side value).recast f := by
  rw [setDirty_eq, setDirty_eq]
  refine (recast_appended f { s with dirty := s.dirty.set side value }
    fun c hc => ?_).symm
  obtain ⟨l, rfl⟩ := eq_event_of_mem_flagCalls hc
  rfl

theorem clearDirty_recast : (s.recast f).clearDirty = s.clearDirty.recast f := by
  rw [clearDirty, setDirty_recast, setDirty_recast, clearDirty]

theorem applyEdit_recast (side : Side) (bytes : ByteArray) :
    (s.recast f).applyEdit side bytes = (s.applyEdit side bytes).recast f := by
  have hpane : (s.recast f).setContents side bytes
      = (s.setContents side bytes).recast f :=
    emit_recast f { s with panes := s.panes.setSide side (some bytes) } rfl
  rw [applyEdit, hpane, setDirty_recast, applyEdit]

theorem refresh_recast : (s.recast f).refresh m = (s.refresh m).recast f := by
  rw [refresh_eq, refresh_eq]
  exact (recast_appended f
    { s with
      threeWay := s.currentThreeWay m
      panes := s.currentPanes m
      copyEnabled := ⟨s.currentEditable m .left, s.currentEditable m .right⟩ }
    fun c hc => Call.asks_of_shows (shows_of_mem_refreshCalls hc)).symm

theorem release_recast : (s.recast f).release m = (s.release m).recast f := by
  rw [release_eq, release_eq]
  exact (recast_appended f { s with registry := s.releasedRegistry }
    fun c hc => Call.asks_of_rebinds (rebinds_of_mem_releaseCalls hc)).symm

theorem acquire_recast (input : Option Place) :
    (s.recast f).acquire m input = (s.acquire m input).recast f := by
  rw [acquire_eq, acquire_eq]
  exact (recast_appended f
    { s with input := input, registry := acquiredRegistry s.registry input }
    fun c hc => Call.asks_of_rebinds (rebinds_of_mem_acquireCalls hc)).symm

theorem turn_recast (value : Bool) :
    (s.recast f).turn m value = (s.turn m value).recast f :=
  refresh_recast m f { s with mirrored := value }

theorem rebind_recast (input : Option Place) :
    (s.recast f).rebind m input = (s.rebind m input).recast f := by
  rw [rebind, release_recast, clearDirty_recast, acquire_recast, refresh_recast,
    rebind]

theorem copy_recast (d : Direction) :
    (s.recast f).copy m d = (s.copy m d).map (recast f) id := by
  unfold copy
  cases h : s.input with
  | none => simp [h]
  | some input =>
    by_cases he : (s.view m).editable s.state d.target input = true
    · simp [h, he, applyEdit_recast]
    · simp [h, he]

theorem showHeaders_recast (input : Place) :
    (s.recast f).showHeaders m input = (s.showHeaders m input).recast f := by
  rw [showHeaders_eq, showHeaders_eq]
  exact (recast_appended f s fun c hc =>
    Call.asks_of_shows (shows_of_mem_headerCalls hc)).symm

theorem labelsChanged_recast (inputs : List Place) :
    (s.recast f).labelsChanged m inputs = (s.labelsChanged m inputs).recast f := by
  unfold labelsChanged
  cases h : s.input with
  | none => simp [h]
  | some input =>
    by_cases hin : input ∈ inputs
    · simp [h, hin, showHeaders_recast]
    · simp [h, hin]

theorem setAncestorVisible_recast (value : Bool) :
    (s.recast f).setAncestorVisible value
      = (s.setAncestorVisible value).map (recast f) id := by
  rw [setAncestorVisible_eq, setAncestorVisible_eq]
  refine Prod.ext (recast_appended f { s with ancestorVisible := s.visibleAfter value }
    fun c hc => ?_).symm rfl
  exact Call.asks_of_shows (shows_of_mem_ancestorCalls hc)

theorem setIgnoreAncestor_recast (value : Bool) :
    (s.recast f).setIgnoreAncestor value = (s.setIgnoreAncestor value).recast f := by
  cases value with
  | false => rfl
  | true =>
    simp only [setIgnoreAncestor, if_true, setAncestorVisible_recast]
    rfl

theorem dispose_recast : (s.recast f).dispose m = (s.dispose m).recast f := by
  simp only [dispose, release_recast]
  rfl

/-! ## Pending edits -/

theorem flushSide_recast (input : Place) (side : Side) :
    (s.recast f).flushSide m input side
      = (s.flushSide m input side).map (recast f) id := by
  have hbytes : (s.recast f).pendingBytes m input side
      = s.pendingBytes m input side := rfl
  unfold flushSide
  by_cases h : ((s.view m).editable s.state side input && s.dirty.get side) = true
  · simp only [recast_view, recast_state, recast_dirty, recast_mirrored, h, hbytes,
      if_true, emit_recast f s (c := .save _ _ _) rfl]
    cases hsave : (s.view m).save s.state side input
        (s.pendingBytes m input side) with
    | ok state =>
      have hcleared := setDirty_recast f
        { s.emit (s.saveCall m input side) with state } side false
      exact Prod.ext hcleared rfl
    | error e => exact Prod.ext (emit_recast f _ rfl) rfl
  · simp only [recast_view, recast_state, recast_dirty, h]
    simp

theorem flushSides_recast (input : Place) :
    (s.recast f).flushSides m input
      = (s.flushSides m input).map (recast f) id := by
  simp only [flushSides, flushSide_recast, Prod.map_fst, Prod.map_snd, id_eq]
  cases (s.flushSide m input .left).2 <;> rfl

theorem flush_recast (side : Side) :
    (s.recast f).flush m side = (s.flush m side).map (recast f) id := by
  unfold flush
  cases h : s.input with
  | none => simp [h]
  | some input => simp only [recast_input, h, flushSide_recast]

theorem flushAll_recast :
    (s.recast f).flushAll m = (s.flushAll m).map (recast f) id := by
  unfold flushAll
  cases h : s.input with
  | none => simp [h]
  | some input => simp only [recast_input, h, flushSides_recast]

end Parts

/-! ## Operations that may ask -/

section Asking

variable {m : Model σ} {f : Recast} {s : Session σ}

theorem resolve_recast (h : f.AsksAlike m s) (input : Place) (kind : PromptKind) :
    (s.recast f).resolve m input kind
      = (s.resolve m input kind).map (recast f) id := by
  simp only [resolve, recast_isDirty, h input kind]
  by_cases hdirty : s.isDirty = true
  · simp only [hdirty, if_true]
    obtain ⟨t, answer⟩ := s.decision m input kind
    cases answer with
    | save =>
      simp only [Prod.map_apply, id_eq, flushSides_recast]
      obtain ⟨u, result⟩ := t.flushSides m input
      cases result <;> simp [clearDirty_recast]
    | discard => simp [clearDirty_recast]
    | cancel => simp
  · simp [hdirty]

theorem resolveBound_recast (h : f.AsksAlike m s) (kind : PromptKind) :
    (s.recast f).resolveBound m kind
      = (s.resolveBound m kind).map (recast f) id := by
  unfold resolveBound
  cases hin : s.input with
  | none => simp [hin]
  | some input => simp only [recast_input, hin, resolve_recast h]

theorem bind_recast (h : f.AsksAlike m s) (input : Option Place) :
    (s.recast f).bind m input = (s.bind m input).map (recast f) id := by
  unfold bind
  by_cases hin : s.input = input
  · simp [hin]
  · simp only [recast_input, hin, if_false, resolveBound_recast h]
    have hnext := fun t : Session σ => rebind_recast m f t input
    simp only [rebind] at hnext
    obtain ⟨t, result⟩ := s.resolveBound m .inputSwitch
    cases result with
    | error e => rfl
    | ok resolution =>
      cases resolution with
      | cancelled => rfl
      | clean | saved | discarded => simp [hnext]

theorem setMirrored_recast (h : f.AsksAlike m s) (value : Bool) :
    (s.recast f).setMirrored m value
      = (s.setMirrored m value).map (recast f) id := by
  unfold setMirrored
  by_cases hturned : s.mirrored = value
  · simp [hturned]
  · simp only [recast_mirrored, hturned, if_false, resolveBound_recast h]
    obtain ⟨t, result⟩ := s.resolveBound m .inputSwitch
    have hnext := turn_recast m f t value
    simp only [turn] at hnext
    cases result with
    | error e => rfl
    | ok resolution =>
      cases resolution with
      | cancelled => rfl
      | clean | saved | discarded => exact Prod.ext hnext rfl

theorem externalChange_recast (h : f.AsksAlike m s) :
    (s.recast f).externalChange m
      = (s.externalChange m).map (recast f) id := by
  unfold externalChange
  cases hin : s.input with
  | none => simp [hin]
  | some input =>
    simp only [recast_input, hin, recast_registry, resolve_recast h]
    by_cases hsaving : s.registry.isSaving = true
    · simp [hsaving]
    · simp only [hsaving]
      obtain ⟨t, result⟩ := s.resolve m input .externalChange
      cases result with
      | error e => rfl
      | ok resolution =>
        cases resolution with
        | cancelled => simp [clearDirty_recast, refresh_recast]
        | clean | saved | discarded => simp [refresh_recast]

theorem inputChanged_recast (h : f.AsksAlike m s) (input : Place) :
    (s.recast f).inputChanged m input
      = (s.inputChanged m input).map (recast f) id := by
  unfold inputChanged
  by_cases hin : s.input = some input
  · simp only [recast_input, hin, if_true, externalChange_recast h]
  · simp [hin]

/-! ## Operations and runs -/

/-- **An operation** does and answers the same after the exchange. -/
theorem step_recast (h : f.AsksAlike m s) (op : Operation σ) :
    (s.recast f).step m op = (s.step m op).map (recast f) id := by
  cases op with
  | bind input =>
    simp only [step, bind_recast h]
    rfl
  | setDirty side value => simp [step, setDirty_recast]
  | applyEdit side bytes => simp [step, applyEdit_recast]
  | copy d =>
    simp only [step, copy_recast]
    rfl
  | flush side =>
    simp only [step, flush_recast]
    rfl
  | flushAll =>
    simp only [step, flushAll_recast]
    rfl
  | refresh => simp [step, refresh_recast]
  | externalChange =>
    simp only [step, externalChange_recast h]
    rfl
  | inputChanged input =>
    simp only [step, inputChanged_recast h]
    rfl
  | labelsChanged inputs => simp [step, labelsChanged_recast]
  | setMirrored value =>
    simp only [step, setMirrored_recast h]
    rfl
  | setAncestorVisible value =>
    simp only [step, setAncestorVisible_recast]
    rfl
  | setIgnoreAncestor value => simp [step, setIgnoreAncestor_recast]
  | dispose => simp [step, dispose_recast]
  | addListener | removeListener | beginSave | endSave | elsewhere => rfl

/-- **A run** leads to the same session, but for what is exchanged. -/
theorem run_recast {ops : List (Operation σ)}
    (h : Throughout m (f.AsksAlike m) s ops) :
    (s.recast f).run m ops = (s.run m ops).recast f := by
  induction ops generalizing s with
  | nil => rfl
  | cons op ops ih =>
    obtain ⟨hs, hrest⟩ := throughout_cons.mp h
    rw [run_cons, run_cons, step_recast hs]
    exact ih hrest

theorem replies_recast {ops : List (Operation σ)}
    (h : Throughout m (f.AsksAlike m) s ops) :
    (s.recast f).replies m ops = s.replies m ops := by
  induction ops generalizing s with
  | nil => rfl
  | cons op ops ih =>
    obtain ⟨hs, hrest⟩ := throughout_cons.mp h
    rw [replies, replies, step_recast hs]
    exact congrArg ((s.step m op).2 :: ·) (ih hrest)

end Asking

/-! ## The log -/

/-- Calls in front of the log. -/
def Recast.after (earlier : List Call) : Recast where
  settings := id
  confirmer := id
  calls := (earlier ++ ·)
  carries _ _ _ := (List.append_assoc ..).symm

/-- What was called before has no bearing on what is decided. -/
theorem Recast.asksAlike_after (m : Model σ) (earlier : List Call) (s : Session σ) :
    (Recast.after earlier).AsksAlike m s := by
  intro input kind
  have hsettings : (s.recast (.after earlier)).settings = s.settings := rfl
  simp only [decision, hsettings]
  cases s.settings.viewer.savePolicy with
  | silentFlush => rfl
  | alwaysFlush => rfl
  | confirm =>
    refine Prod.ext ?_ rfl
    simp [recast, Recast.after, emit, question]

/-- The session with some calls made before all of its own. -/
def preceded (earlier : List Call) (s : Session σ) : Session σ :=
  { s with calls := earlier ++ s.calls }

theorem run_preceded (m : Model σ) (earlier : List Call) (s : Session σ)
    (ops : List (Operation σ)) :
    (s.preceded earlier).run m ops = (s.run m ops).preceded earlier :=
  run_recast fun _ _ => Recast.asksAlike_after m earlier _

theorem replies_preceded (m : Model σ) (earlier : List Call) (s : Session σ)
    (ops : List (Operation σ)) :
    (s.preceded earlier).replies m ops = s.replies m ops :=
  replies_recast fun _ _ => Recast.asksAlike_after m earlier _

end Reconcile.Session
