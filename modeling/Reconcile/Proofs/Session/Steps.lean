/-
Reconcile.Proofs.Session.Steps — what one operation does to a session.

The operations that may replace what is shown begin by dealing with pending
edits. `ResolvedBound`, `Switching` and `ChangedOutside` say how they end,
with a constructor for every ending, and `Stepped` does so for all
operations. `step_log` is what these have in common: first pending edits are
dealt with, or nothing is done at all; the calls that come after that save
nothing.

* `GoesOn` — what the parts that do not deal with pending edits have in common; that
  they do not save (`Follows`) is a part of it.
* `calls_step`, `callsOf` — the log only grows, and what an operation adds
  to it.
* `state_step` — the state behind the inputs changes by the recorded saves
  and by nothing else.
* `KeptBySmallSteps` — what a quiet step and a flush of one side keep, every
  operation keeps.
* `KeptBySettling` — what holds from before to after the parts of which dealing
  with pending edits is made, holds of all of it.
-/
import Reconcile.Proofs.Session.Settling
import Reconcile.Session.Operation

namespace Reconcile.Session

variable {σ : Type}

/-! ## Replacing what is shown -/

/-- How dealing with the pending edits of whatever is bound can end. -/
inductive ResolvedBound (m : Model σ) (kind : PromptKind) (s : Session σ) :
    Session σ → Except SaveError Resolution → Prop where
  | unbound (h : s.input = none) : ResolvedBound m kind s s (.ok .clean)
  | bound {input : Place} {t : Session σ} {r : Except SaveError Resolution}
      (h : s.input = some input) (resolved : Resolved m input kind s t r) :
      ResolvedBound m kind s t r

theorem resolveBound_ends (m : Model σ) (kind : PromptKind) (s : Session σ) :
    ResolvedBound m kind s (s.resolveBound m kind).1 (s.resolveBound m kind).2 := by
  unfold resolveBound
  cases h : s.input with
  | none => exact .unbound h
  | some input => exact .bound h (resolve_ends m input kind s)

/-- How an operation that replaces what is shown can end; `next` is what it
does once no edits are pending. -/
inductive Switching (m : Model σ) (next : Session σ → Session σ)
    (s : Session σ) : Session σ → Except SaveError SwitchOutcome → Prop where
  | failed {t : Session σ} {e : SaveError}
      (resolved : ResolvedBound m .inputSwitch s t (.error e)) :
      Switching m next s t (.error e)
  | cancelled {t : Session σ}
      (resolved : ResolvedBound m .inputSwitch s t (.ok .cancelled)) :
      Switching m next s t (.ok .cancelled)
  | switched {t : Session σ} {r : Resolution}
      (resolved : ResolvedBound m .inputSwitch s t (.ok r))
      (hr : r ≠ .cancelled) :
      Switching m next s (next t) (.ok .switched)

/-- The operations that replace what is shown do so alike. -/
theorem switching_ends (m : Model σ) (next : Session σ → Session σ)
    (s : Session σ) {t : Session σ × Except SaveError SwitchOutcome}
    (h : t = match s.resolveBound m .inputSwitch with
      | (u, .error e) => (u, .error e)
      | (u, .ok .cancelled) => (u, .ok .cancelled)
      | (u, .ok _) => (next u, .ok .switched)) :
    Switching m next s t.1 t.2 := by
  have hends := resolveBound_ends m .inputSwitch s
  subst h
  generalize s.resolveBound m .inputSwitch = p at hends ⊢
  obtain ⟨u, r⟩ := p
  match r with
  | .error e => exact .failed hends
  | .ok .cancelled => exact .cancelled hends
  | .ok .clean => exact .switched hends (by decide)
  | .ok .saved => exact .switched hends (by decide)
  | .ok .discarded => exact .switched hends (by decide)

theorem bind_ends {m : Model σ} {input : Option Place} {s : Session σ}
    (h : s.input ≠ input) :
    Switching m (rebind m input) s (s.bind m input).1 (s.bind m input).2 :=
  switching_ends m (rebind m input) s (if_neg h)

/-- A session without an input has nothing to deal with. -/
theorem bind_of_unbound {m : Model σ} {s : Session σ} (h : s.input = none)
    (input : Place) :
    s.bind m (some input) = (s.rebind m (some input), .ok .switched) := by
  simp [bind, resolveBound, h, rebind]

/-- What turning the view does once pending edits are dealt with. -/
def turn (m : Model σ) (value : Bool) (s : Session σ) : Session σ :=
  { s with mirrored := value }.refresh m

theorem setMirrored_ends {m : Model σ} {value : Bool} {s : Session σ}
    (h : s.mirrored ≠ value) :
    Switching m (turn m value) s (s.setMirrored m value).1
      (s.setMirrored m value).2 :=
  switching_ends m (turn m value) s (if_neg h)

/-- The view of a session without edits is turned at once. -/
theorem setMirrored_of_clean {m : Model σ} {s : Session σ}
    (hclean : s.dirty = ⟨false, false⟩) {value : Bool}
    (h : s.mirrored ≠ value) :
    s.setMirrored m value = (s.turn m value, .ok .switched) := by
  have hdirty : s.isDirty = false := isDirty_eq_false_iff.mpr hclean
  have hresolved : s.resolveBound m .inputSwitch = (s, .ok .clean) := by
    unfold resolveBound resolve
    cases s.input <;> simp [hdirty]
  rw [setMirrored, if_neg h, hresolved]
  rfl

/-- How a change from outside can end. -/
inductive ChangedOutside (m : Model σ) (s : Session σ) :
    Session σ → Except SaveError Unit → Prop where
  | unbound (h : s.input = none) : ChangedOutside m s s (.ok ())
  /-- The change is the viewer's own. -/
  | saving (h : s.registry.isSaving = true) : ChangedOutside m s s (.ok ())
  | failed {input : Place} {t : Session σ} {e : SaveError}
      (h : s.input = some input) (idle : s.registry.isSaving = false)
      (resolved : Resolved m input .externalChange s t (.error e)) :
      ChangedOutside m s t (.error e)
  /-- To cancel drops the edits. -/
  | dropped {input : Place} {t : Session σ}
      (h : s.input = some input) (idle : s.registry.isSaving = false)
      (resolved : Resolved m input .externalChange s t (.ok .cancelled)) :
      ChangedOutside m s (t.clearDirty.refresh m) (.ok ())
  | shown {input : Place} {t : Session σ} {r : Resolution}
      (h : s.input = some input) (idle : s.registry.isSaving = false)
      (resolved : Resolved m input .externalChange s t (.ok r))
      (hr : r ≠ .cancelled) :
      ChangedOutside m s (t.refresh m) (.ok ())

theorem externalChange_ends (m : Model σ) (s : Session σ) :
    ChangedOutside m s (s.externalChange m).1 (s.externalChange m).2 := by
  unfold externalChange
  cases h : s.input with
  | none => exact .unbound h
  | some input =>
    cases hsave : s.registry.isSaving with
    | true => exact .saving hsave
    | false =>
      have hends := resolve_ends m input .externalChange s
      simp only [Bool.false_eq_true, if_false]
      generalize s.resolve m input .externalChange = p at hends ⊢
      obtain ⟨t, r⟩ := p
      match r with
      | .error e => exact .failed h hsave hends
      | .ok .cancelled => exact .dropped h hsave hends
      | .ok .clean => exact .shown h hsave hends (by decide)
      | .ok .saved => exact .shown h hsave hends (by decide)
      | .ok .discarded => exact .shown h hsave hends (by decide)

/-! ## Before and after pending edits are dealt with -/

/-- `t` is `s` after some of the pending edits of whatever is bound are
dealt with. -/
def Dealt (m : Model σ) (s t : Session σ) : Prop :=
  t = s ∨ ∃ input, s.input = some input ∧ Settled m input s t

theorem Dealt.refl (m : Model σ) (s : Session σ) : Dealt m s s := .inl rfl

/-- Nothing but the state, the flags, the confirmer and the log changes. -/
theorem Dealt.frame {m : Model σ} {s t : Session σ} (h : Dealt m s t) :
    t = { s with
      state := t.state
      dirty := t.dirty
      confirmer := t.confirmer
      calls := t.calls } := by
  rcases h with rfl | ⟨input, -, h⟩
  · rfl
  · exact h.frame

theorem Dealt.dirty_of_dirty {m : Model σ} {s t : Session σ} (h : Dealt m s t)
    {side : Side} (hd : t.dirty.get side = true) : s.dirty.get side = true := by
  rcases h with rfl | ⟨input, -, h⟩
  · exact hd
  · exact h.flags hd

theorem Dealt.calls_prefix {m : Model σ} {s t : Session σ} (h : Dealt m s t) :
    s.calls <+: t.calls := by
  rcases h with rfl | ⟨input, -, h⟩
  · exact List.prefix_rfl
  · obtain ⟨made, hcalls, -⟩ := h.calls
    exact ⟨made, hcalls.symm⟩

theorem ResolvedBound.dealt {m : Model σ} {kind : PromptKind} {s t : Session σ}
    {r : Except SaveError Resolution} (h : ResolvedBound m kind s t r) :
    Dealt m s t := by
  cases h with
  | unbound => exact .refl m s
  | bound h resolved => exact .inr ⟨_, h, resolved.settled⟩

/-- If an input is bound and its edits are not left pending, both flags are
false. -/
theorem ResolvedBound.dirty_eq {m : Model σ} {kind : PromptKind}
    {s t : Session σ} {r : Resolution} (h : ResolvedBound m kind s t (.ok r))
    (hr : r ≠ .cancelled) {input : Place} (hin : t.input = some input) :
    t.dirty = ⟨false, false⟩ := by
  cases h with
  | unbound h => simp [h] at hin
  | bound _ resolved => exact resolved.dirty_eq hr

/-- `t` is `s` after something that does not deal with pending edits: nothing is asked,
saved, or told of a failure, and what is stored, configured and answered stays. -/
structure GoesOn (s t : Session σ) : Prop where
  state : t.state = s.state
  settings : t.settings = s.settings
  confirmer : t.confirmer = s.confirmer
  calls : ∃ more, t.calls = s.calls ++ more ∧ ∀ c ∈ more, c.deals = false

theorem GoesOn.trans {s t u : Session σ} (h : GoesOn s t) (g : GoesOn t u) :
    GoesOn s u :=
  ⟨g.state.trans h.state, g.settings.trans h.settings, g.confirmer.trans h.confirmer,
    Call.appended_trans h.calls g.calls⟩

theorem goesOn_setDirty (side : Side) (value : Bool) (s : Session σ) :
    GoesOn s (s.setDirty side value) := by
  rw [setDirty_eq]
  refine ⟨rfl, rfl, rfl, s.flagCalls side value, rfl, fun c hc => ?_⟩
  obtain ⟨l, rfl⟩ := eq_event_of_mem_flagCalls hc
  rfl

theorem goesOn_clearDirty (s : Session σ) : GoesOn s s.clearDirty :=
  (goesOn_setDirty .left false s).trans (goesOn_setDirty .right false _)

theorem goesOn_applyEdit (side : Side) (bytes : ByteArray) (s : Session σ) :
    GoesOn s (s.applyEdit side bytes) := by
  have hpane : GoesOn s (s.setContents side bytes) :=
    ⟨rfl, rfl, rfl, [.setContents side bytes], rfl, by simp [Call.deals]⟩
  exact hpane.trans (goesOn_setDirty side true _)

theorem goesOn_refresh (m : Model σ) (s : Session σ) : GoesOn s (s.refresh m) := by
  rw [refresh_eq]
  exact ⟨rfl, rfl, rfl, s.refreshCalls m, rfl,
    fun c hc => Call.deals_of_shows (shows_of_mem_refreshCalls hc)⟩

theorem goesOn_turn (m : Model σ) (value : Bool) (s : Session σ) :
    GoesOn s (s.turn m value) := by
  have h := goesOn_refresh m { s with mirrored := value }
  exact ⟨h.state, h.settings, h.confirmer, h.calls⟩

theorem goesOn_release (m : Model σ) (s : Session σ) : GoesOn s (s.release m) := by
  rw [release_eq]
  exact ⟨rfl, rfl, rfl, s.releaseCalls m, rfl,
    fun c hc => Call.deals_of_rebinds (rebinds_of_mem_releaseCalls hc)⟩

theorem goesOn_acquire (m : Model σ) (input : Option Place) (s : Session σ) :
    GoesOn s (s.acquire m input) := by
  rw [acquire_eq]
  exact ⟨rfl, rfl, rfl, s.acquireCalls m input, rfl,
    fun c hc => Call.deals_of_rebinds (rebinds_of_mem_acquireCalls hc)⟩

theorem goesOn_rebind (m : Model σ) (input : Option Place) (s : Session σ) :
    GoesOn s (s.rebind m input) :=
  (((goesOn_release m s).trans (goesOn_clearDirty _)).trans
    (goesOn_acquire m input _)).trans (goesOn_refresh m _)

theorem goesOn_dispose (m : Model σ) (s : Session σ) : GoesOn s (s.dispose m) := by
  have h := goesOn_release m s
  exact ⟨h.state, h.settings, h.confirmer, h.calls⟩

/-- What an operation makes of a session in which it has dealt with pending
edits: the log goes on without a save, and the state stays. -/
structure Follows (t u : Session σ) : Prop where
  calls : ∃ more, u.calls = t.calls ++ more ∧ ∀ c ∈ more, c.isSave = false
  state : u.state = t.state

/-- No side is flagged that was not flagged before. -/
def NoNewFlag (t u : Session σ) : Prop :=
  ∀ side, u.dirty.get side = true → t.dirty.get side = true

theorem Follows.refl (t : Session σ) : Follows t t :=
  ⟨⟨[], by simp, by simp⟩, rfl⟩

theorem Follows.trans {s t u : Session σ} (h : Follows s t) (g : Follows t u) :
    Follows s u :=
  ⟨Call.appended_trans h.calls g.calls, g.state.trans h.state⟩

theorem GoesOn.follows {s t : Session σ} (h : GoesOn s t) : Follows s t := by
  obtain ⟨more, hcalls, hmore⟩ := h.calls
  exact ⟨⟨more, hcalls, fun c hc => Call.isSave_of_deals (hmore c hc)⟩, h.state⟩

theorem follows_clearDirty (s : Session σ) : Follows s s.clearDirty :=
  (goesOn_clearDirty s).follows

theorem follows_refresh (m : Model σ) (s : Session σ) :
    Follows s (s.refresh m) :=
  (goesOn_refresh m s).follows

theorem follows_turn (m : Model σ) (value : Bool) (s : Session σ) :
    Follows s (s.turn m value) :=
  (goesOn_turn m value s).follows

theorem follows_release (m : Model σ) (s : Session σ) : Follows s (s.release m) :=
  (goesOn_release m s).follows

theorem follows_acquire (m : Model σ) (input : Option Place) (s : Session σ) :
    Follows s (s.acquire m input) :=
  (goesOn_acquire m input s).follows

theorem follows_rebind (m : Model σ) (input : Option Place) (s : Session σ) :
    Follows s (s.rebind m input) :=
  (goesOn_rebind m input s).follows

theorem follows_setDirty (side : Side) (value : Bool) (s : Session σ) :
    Follows s (s.setDirty side value) :=
  (goesOn_setDirty side value s).follows

theorem follows_applyEdit (side : Side) (bytes : ByteArray) (s : Session σ) :
    Follows s (s.applyEdit side bytes) :=
  (goesOn_applyEdit side bytes s).follows

theorem follows_dispose (m : Model σ) (s : Session σ) :
    Follows s (s.dispose m) :=
  (goesOn_dispose m s).follows

/-- A switch leaves what dealing with pending edits leaves. -/
theorem Switching.keeps_state {m : Model σ} {s t : Session σ} {P : σ → Prop} {next : Session σ → Session σ}
    {r : Except SaveError SwitchOutcome} (ends : Switching m next s t r)
    (hnext : ∀ u, Follows u (next u))
    (h : ∀ {u : Session σ} {r : Except SaveError Resolution},
      ResolvedBound m .inputSwitch s u r → P u.state) : P t.state := by
  cases ends with
  | failed resolved => exact h resolved
  | cancelled resolved => exact h resolved
  | switched resolved _ =>
    rw [(hnext _).state]
    exact h resolved

/-! ## What an operation can do -/

/-- `t` is `s` after something that has no bearing on what is bound, shown,
flagged or stored. Calls that show may be made. -/
structure Aside (s t : Session σ) : Prop where
  frame : t = { s with
    ancestorVisible := t.ancestorVisible
    ancestorToggle := t.ancestorToggle
    listeners := t.listeners
    registry := t.registry
    calls := t.calls }
  calls : ∃ more, t.calls = s.calls ++ more ∧ ∀ c ∈ more, c.shows = true

theorem Aside.goesOn {s t : Session σ} (h : Aside s t) : GoesOn s t := by
  obtain ⟨more, hcalls, hmore⟩ := h.calls
  exact ⟨by rw [h.frame], by rw [h.frame], by rw [h.frame], more, hcalls,
    fun c hc => Call.deals_of_shows (hmore c hc)⟩

theorem Aside.follows {s t : Session σ} (h : Aside s t) : Follows s t :=
  h.goesOn.follows

theorem Aside.refl (s : Session σ) : Aside s s := ⟨rfl, [], by simp, by simp⟩

theorem Aside.of_calls_eq {s t : Session σ}
    (h : t = { s with
      ancestorVisible := t.ancestorVisible
      ancestorToggle := t.ancestorToggle
      listeners := t.listeners
      registry := t.registry }) : Aside s t := by
  have hcalls : t.calls = s.calls := by rw [h]
  refine ⟨?_, [], by simp [hcalls], by simp⟩
  rw [h]

theorem aside_setAncestorVisible (value : Bool) (s : Session σ) :
    Aside s (s.setAncestorVisible value).1 := by
  rw [setAncestorVisible_eq]
  exact ⟨rfl, _, rfl, fun c hc => shows_of_mem_ancestorCalls hc⟩

theorem aside_setIgnoreAncestor (value : Bool) (s : Session σ) :
    Aside s (s.setIgnoreAncestor value) := by
  cases value with
  | false => exact .of_calls_eq rfl
  | true =>
    have h := aside_setAncestorVisible false s
    refine ⟨?_, h.calls⟩
    simp only [setIgnoreAncestor, if_true]
    rw [h.frame]

theorem aside_labelsChanged (m : Model σ) (inputs : List Place) (s : Session σ) :
    Aside s (s.labelsChanged m inputs) := by
  unfold labelsChanged
  cases h : s.input with
  | none => exact .refl s
  | some input =>
    simp only
    split
    · rw [showHeaders_eq]
      exact ⟨rfl, _, rfl, fun c hc => shows_of_mem_headerCalls hc⟩
    · exact .refl s

/-- Everything that an operation can do to a session. -/
inductive Stepped (m : Model σ) (s : Session σ) :
    Operation σ → Session σ → Reply → Prop where
  | aside {op : Operation σ} {t : Session σ} {reply : Reply} (h : Aside s t) :
      Stepped m s op t reply
  | flagged (side : Side) (value : Bool) :
      Stepped m s (.setDirty side value) (s.setDirty side value) .done
  | edited (side : Side) (bytes : ByteArray) :
      Stepped m s (.applyEdit side bytes) (s.applyEdit side bytes) .done
  | copied (d : Direction) (h : s.currentEditable m d.target = true) :
      Stepped m s (.copy d)
        (s.applyEdit d.target ((s.panes.side d.source).getD .empty)) (.flag true)
  | flushed {side : Side} {input : Place} (h : s.input = some input)
      {t : Session σ} {r : Except SaveError Unit}
      (ends : FlushedSide m input side s t r) :
      Stepped m s (.flush side) t (.ofUnit r)
  | flushedAll {input : Place} (h : s.input = some input)
      {t : Session σ} {r : Except SaveError Unit}
      (ends : FlushedSides m input s t r) :
      Stepped m s .flushAll t (.ofUnit r)
  | refreshed : Stepped m s .refresh (s.refresh m) .done
  | bound {input : Option Place} (h : s.input ≠ input)
      {t : Session σ} {r : Except SaveError SwitchOutcome}
      (ends : Switching m (rebind m input) s t r) :
      Stepped m s (.bind input) t (.ofOutcome r)
  | turned {value : Bool} (h : s.mirrored ≠ value)
      {t : Session σ} {r : Except SaveError SwitchOutcome}
      (ends : Switching m (turn m value) s t r) :
      Stepped m s (.setMirrored value) t (.ofOutcome r)
  | changed {op : Operation σ} {t : Session σ} {r : Except SaveError Unit}
      (h : op = .externalChange ∨ ∃ input, op = .inputChanged input ∧
        s.input = some input)
      (ends : ChangedOutside m s t r) : Stepped m s op t (.ofUnit r)
  | disposed : Stepped m s .dispose (s.dispose m) .done
  | elsewhere (change : σ → σ) :
      Stepped m s (.elsewhere change) { s with state := change s.state } .done

theorem step_ends (m : Model σ) (s : Session σ) (op : Operation σ) :
    Stepped m s op (s.step m op).1 (s.step m op).2 := by
  cases op with
  | bind input =>
    by_cases h : s.input = input
    · rw [step, bind, if_pos h]
      exact .aside (.refl s)
    · exact .bound h (bind_ends h)
  | setDirty side value => exact .flagged side value
  | applyEdit side bytes => exact .edited side bytes
  | copy d =>
    simp only [step, copy]
    cases h : s.input with
    | none => exact .aside (.refl s)
    | some input =>
      by_cases he : (s.view m).editable s.state d.target input = true
      · simp only [he, if_true]
        exact .copied d (by simpa [currentEditable, h] using he)
      · simp only [he]
        exact .aside (.refl s)
  | flush side =>
    simp only [step, flush]
    cases h : s.input with
    | none => exact .aside (.refl s)
    | some input => exact .flushed h (flushSide_ends m input side s)
  | flushAll =>
    simp only [step, flushAll]
    cases h : s.input with
    | none => exact .aside (.refl s)
    | some input => exact .flushedAll h (flushSides_ends m input s)
  | refresh => exact .refreshed
  | externalChange => exact .changed (.inl rfl) (externalChange_ends m s)
  | inputChanged input =>
    by_cases h : s.input = some input
    · rw [step, inputChanged, if_pos h]
      exact .changed (.inr ⟨input, rfl, h⟩) (externalChange_ends m s)
    · rw [step, inputChanged, if_neg h]
      exact .aside (.refl s)
  | labelsChanged inputs => exact .aside (aside_labelsChanged m inputs s)
  | setMirrored value =>
    by_cases h : s.mirrored = value
    · rw [step, setMirrored, if_pos h]
      exact .aside (.refl s)
    · exact .turned h (setMirrored_ends h)
  | setAncestorVisible value => exact .aside (aside_setAncestorVisible value s)
  | setIgnoreAncestor value => exact .aside (aside_setIgnoreAncestor value s)
  | addListener l => exact .aside (.of_calls_eq rfl)
  | removeListener l => exact .aside (.of_calls_eq rfl)
  | dispose => exact .disposed
  | beginSave => exact .aside (.of_calls_eq rfl)
  | endSave guard => exact .aside (.of_calls_eq rfl)
  | elsewhere change => exact .elsewhere change

/-! ## The log of an operation -/

theorem Switching.log {m : Model σ} {next : Session σ → Session σ}
    {s u : Session σ} {r : Except SaveError SwitchOutcome}
    (h : Switching m next s u r)
    (hnext : ∀ t, Follows t (next t) ∧ NoNewFlag t (next t)) :
    ∃ t, Dealt m s t ∧ Follows t u ∧ NoNewFlag t u := by
  cases h with
  | failed resolved => exact ⟨u, resolved.dealt, .refl u, fun _ h => h⟩
  | cancelled resolved => exact ⟨u, resolved.dealt, .refl u, fun _ h => h⟩
  | switched resolved _ => exact ⟨_, resolved.dealt, hnext _⟩

theorem ChangedOutside.log {m : Model σ} {s u : Session σ}
    {r : Except SaveError Unit} (h : ChangedOutside m s u r) :
    ∃ t, Dealt m s t ∧ Follows t u ∧ NoNewFlag t u := by
  cases h with
  | unbound => exact ⟨s, .refl m s, .refl s, fun _ h => h⟩
  | saving => exact ⟨s, .refl m s, .refl s, fun _ h => h⟩
  | failed h _ resolved =>
    exact ⟨u, .inr ⟨_, h, resolved.settled⟩, .refl u, fun _ h => h⟩
  | dropped h _ resolved =>
    refine ⟨_, .inr ⟨_, h, resolved.settled⟩,
      (follows_clearDirty _).trans (follows_refresh m _), fun side hd => ?_⟩
    rw [clearDirty_eq, refresh_eq] at hd
    cases side <;> simp [Sided.get] at hd
  | shown h _ resolved _ =>
    refine ⟨_, .inr ⟨_, h, resolved.settled⟩, follows_refresh m _,
      fun side hd => ?_⟩
    rwa [refresh_eq] at hd

/-- **What an operation writes to the log**: pending edits are dealt with
first, and what comes after saves nothing. Only an operation that has dealt
with no edit can flag a side. The one operation of which this does not speak
is someone else's. -/
theorem step_log (m : Model σ) (s : Session σ) (op : Operation σ)
    (hop : ∀ change, op ≠ .elsewhere change) :
    ∃ t, Dealt m s t ∧ Follows t (s.step m op).1 ∧
      (t = s ∨ NoNewFlag t (s.step m op).1) := by
  have hself : ∀ u : Session σ, Follows s u →
      ∃ t, Dealt m s t ∧ Follows t u ∧ (t = s ∨ NoNewFlag t u) :=
    fun u h => ⟨s, .refl m s, h, .inl rfl⟩
  have hdealt : ∀ u : Session σ, Dealt m s u →
      ∃ t, Dealt m s t ∧ Follows t u ∧ (t = s ∨ NoNewFlag t u) :=
    fun u h => ⟨u, h, .refl u, .inr fun _ h => h⟩
  have hlog : ∀ u : Session σ,
      (∃ t, Dealt m s t ∧ Follows t u ∧ NoNewFlag t u) →
      ∃ t, Dealt m s t ∧ Follows t u ∧ (t = s ∨ NoNewFlag t u) := by
    intro u ⟨t, ht, hfollows, hflags⟩
    exact ⟨t, ht, hfollows, .inr hflags⟩
  have hends := step_ends m s op
  generalize (s.step m op).1 = u, (s.step m op).2 = reply at hends ⊢
  cases hends with
  | aside h => exact hself _ h.follows
  | flagged side value => exact hself _ (follows_setDirty side value s)
  | edited side bytes => exact hself _ (follows_applyEdit side bytes s)
  | copied d _ => exact hself _ (follows_applyEdit _ _ s)
  | flushed h ends => exact hdealt _ (.inr ⟨_, h, ends.settled⟩)
  | flushedAll h ends => exact hdealt _ (.inr ⟨_, h, ends.settled⟩)
  | refreshed => exact hself _ (follows_refresh m s)
  | bound _ ends =>
    refine hlog _ (ends.log fun t => ⟨follows_rebind m _ t, fun side hd => ?_⟩)
    rw [rebind_eq] at hd
    cases side <;> simp [Sided.get] at hd
  | turned _ ends =>
    refine hlog _ (ends.log fun t => ⟨follows_turn m _ t, fun side hd => ?_⟩)
    rwa [turn, refresh_eq] at hd
  | changed _ ends => exact hlog _ ends.log
  | disposed => exact hself _ (follows_dispose m s)
  | elsewhere change => exact absurd rfl (hop change)

/-- The calls that an operation makes. -/
def callsOf (m : Model σ) (s : Session σ) (op : Operation σ) : List Call :=
  (s.step m op).1.calls.drop s.calls.length

theorem callsOf_eq {m : Model σ} {s : Session σ} {op : Operation σ}
    {made : List Call} (h : (s.step m op).1.calls = s.calls ++ made) :
    s.callsOf m op = made := by
  rw [callsOf, h, List.drop_left]

/-- What an operation writes, in terms of the calls that it makes: those up
to the point where pending edits are dealt with, and those after it. -/
theorem callsOf_split (m : Model σ) (s : Session σ) (op : Operation σ)
    (hop : ∀ change, op ≠ .elsewhere change) :
    ∃ dealing more, s.callsOf m op = dealing ++ more ∧
      (s.step m op).1.calls = s.calls ++ (dealing ++ more) ∧
      (s.step m op).1.state = m.carryOut s.state dealing ∧
      (∀ c ∈ dealing, ∃ input, s.input = some input ∧ s.SettlingCall input c) ∧
      (∀ c ∈ more, c.isSave = false) ∧
      (dealing = [] ∨ ∀ side,
        m.succeeded (side.oriented s.mirrored) s.state dealing
          + ((s.step m op).1.dirty.get side).toNat ≤ (s.dirty.get side).toNat) := by
  obtain ⟨t, hdealt, hfollows, hflags⟩ := step_log m s op hop
  obtain ⟨more, hmore, hquiet⟩ := hfollows.calls
  rcases hdealt with rfl | ⟨input, hinput, hsettled⟩
  · exact ⟨[], more, callsOf_eq hmore, by simpa using hmore, hfollows.state,
      by simp, hquiet, .inl rfl⟩
  obtain ⟨dealing, hcalls, hstate, hdealing, hpaid⟩ := hsettled.calls
  have hall : (s.step m op).1.calls = s.calls ++ (dealing ++ more) := by
    rw [hmore, hcalls, List.append_assoc]
  refine ⟨dealing, more, callsOf_eq hall, hall, hfollows.state.trans hstate,
    fun c hc => ⟨input, hinput, hdealing c hc⟩, hquiet, ?_⟩
  rcases hflags with rfl | hflags
  · exact .inl (by simpa using hcalls)
  · refine .inr fun side => ?_
    refine Nat.le_trans (Nat.add_le_add_left ?_ _) (hpaid side)
    cases hu : (s.step m op).1.dirty.get side with
    | false => exact Nat.zero_le _
    | true => simp [hflags side hu]

/-- The log only grows. -/
theorem calls_step (m : Model σ) (s : Session σ) (op : Operation σ) :
    (s.step m op).1.calls = s.calls ++ s.callsOf m op := by
  by_cases hop : ∃ change, op = .elsewhere change
  · obtain ⟨change, rfl⟩ := hop
    simp [callsOf, step]
  · obtain ⟨dealing, more, hsplit, hall, -⟩ :=
      callsOf_split m s op fun change h => hop ⟨change, h⟩
    rw [hall, hsplit]

/-- The state behind the inputs changes by the recorded saves alone. -/
theorem state_step (m : Model σ) (s : Session σ) (op : Operation σ)
    (hop : ∀ change, op ≠ .elsewhere change) :
    (s.step m op).1.state = m.carryOut s.state (s.callsOf m op) := by
  obtain ⟨dealing, more, hsplit, -, hstate, -, hquiet, -⟩ :=
    callsOf_split m s op hop
  rw [hsplit, Model.carryOut_append, Model.carryOut_eq_self hquiet, hstate]

/-! ## Dealing with pending edits -/

/-- What holds from before to after a flag is set, a side is flushed, or the
question is asked, and from before the first to after the last of these. -/
structure KeptBySettling (m : Model σ) (R : Session σ → Session σ → Prop) :
    Prop where
  refl : ∀ s, R s s
  trans : ∀ {s t u : Session σ}, R s t → R t u → R s u
  flag : ∀ (s : Session σ) (side : Side) (value : Bool), R s (s.setDirty side value)
  flushedSide : ∀ {input : Place} {side : Side} {s t : Session σ}
    {r : Except SaveError Unit}, FlushedSide m input side s t r → R s t
  decision : ∀ (input : Place) (kind : PromptKind) (s : Session σ),
    R s (s.decision m input kind).1

namespace KeptBySettling

variable {m : Model σ} {R : Session σ → Session σ → Prop} {s t : Session σ}

theorem clearDirty (h : KeptBySettling m R) (s : Session σ) : R s s.clearDirty :=
  h.trans (h.flag s .left false) (h.flag _ .right false)

theorem flushedSides (h : KeptBySettling m R) {input : Place}
    {r : Except SaveError Unit} (ends : FlushedSides m input s t r) : R s t := by
  cases ends with
  | both left right => exact h.trans (h.flushedSide left) (h.flushedSide right)

theorem resolved (h : KeptBySettling m R) {input : Place} {kind : PromptKind}
    {r : Except SaveError Resolution} (ends : Resolved m input kind s t r) :
    R s t := by
  have hasked := h.decision input kind s
  cases ends with
  | clean => exact h.refl s
  | saved _ _ flushed =>
    exact h.trans (h.trans hasked (h.flushedSides flushed)) (h.clearDirty _)
  | failed _ _ flushed => exact h.trans hasked (h.flushedSides flushed)
  | discarded => exact h.trans hasked (h.clearDirty _)
  | cancelled => exact hasked

theorem resolvedBound (h : KeptBySettling m R) {kind : PromptKind}
    {r : Except SaveError Resolution} (ends : ResolvedBound m kind s t r) :
    R s t := by
  cases ends with
  | unbound => exact h.refl s
  | bound _ resolved => exact h.resolved resolved

end KeptBySettling

/-! ## Small steps

An operation goes on quietly, or it flushes a side, or it does one after the
other. So what both of these keep, every operation keeps. -/

theorem follows_decision (m : Model σ) (input : Place) (kind : PromptKind)
    (s : Session σ) : Follows s (s.decision m input kind).1 := by
  rw [decision_eq]
  refine ⟨⟨s.questionCalls m input kind, rfl, fun c hc => ?_⟩, rfl⟩
  obtain ⟨p, rfl⟩ := prompt_of_mem_questionCalls hc
  rfl

/-- What is kept when a session goes on without a save, and when a side is
flushed, however that ends. -/
structure KeptBySmallSteps (m : Model σ) (P : Session σ → Prop) : Prop where
  follows : ∀ {t u : Session σ}, Follows t u → P t → P u
  flushedSide : ∀ {input : Place} {side : Side} {t u : Session σ}
    {r : Except SaveError Unit}, FlushedSide m input side t u r → P t → P u

namespace KeptBySmallSteps

variable {m : Model σ} {P : Session σ → Prop} {s t : Session σ}

/-- So it is kept when pending edits are dealt with. -/
theorem settling (h : KeptBySmallSteps m P) : KeptBySettling m fun s t => P s → P t where
  refl _ := id
  trans first next := next ∘ first
  flag s side value := h.follows (follows_setDirty side value s)
  flushedSide := h.flushedSide
  decision input kind s := h.follows (follows_decision m input kind s)

theorem switching (h : KeptBySmallSteps m P) {next : Session σ → Session σ}
    (hnext : ∀ u, Follows u (next u)) {r : Except SaveError SwitchOutcome}
    (ends : Switching m next s t r) (hs : P s) : P t := by
  cases ends with
  | failed resolved => exact h.settling.resolvedBound resolved hs
  | cancelled resolved => exact h.settling.resolvedBound resolved hs
  | switched resolved _ => exact h.follows (hnext _) (h.settling.resolvedBound resolved hs)

theorem changedOutside (h : KeptBySmallSteps m P) {r : Except SaveError Unit}
    (ends : ChangedOutside m s t r) (hs : P s) : P t := by
  cases ends with
  | unbound => exact hs
  | saving => exact hs
  | failed _ _ resolved => exact h.settling.resolved resolved hs
  | dropped _ _ resolved =>
    exact h.follows ((follows_clearDirty _).trans (follows_refresh m _))
      (h.settling.resolved resolved hs)
  | shown _ _ resolved _ =>
    exact h.follows (follows_refresh m _) (h.settling.resolved resolved hs)

/-- **What small steps keep**, every operation keeps, but for what is done
by someone else. -/
theorem step (h : KeptBySmallSteps m P) {op : Operation σ}
    (hop : ∀ change, op ≠ .elsewhere change) (hs : P s) :
    P (s.step m op).1 := by
  have hends := step_ends m s op
  generalize (s.step m op).1 = u, (s.step m op).2 = reply at hends ⊢
  cases hends with
  | aside haside => exact h.follows haside.follows hs
  | flagged side value => exact h.follows (follows_setDirty side value s) hs
  | edited side bytes => exact h.follows (follows_applyEdit side bytes s) hs
  | copied d _ => exact h.follows (follows_applyEdit _ _ s) hs
  | flushed _ ends => exact h.flushedSide ends hs
  | flushedAll _ ends => exact h.settling.flushedSides ends hs
  | refreshed => exact h.follows (follows_refresh m s) hs
  | bound _ ends => exact h.switching (follows_rebind m _) ends hs
  | turned _ ends => exact h.switching (follows_turn m _) ends hs
  | changed _ ends => exact h.changedOutside ends hs
  | disposed => exact h.follows (follows_dispose m s) hs
  | elsewhere change => exact absurd rfl (hop change)

end KeptBySmallSteps

end Reconcile.Session
