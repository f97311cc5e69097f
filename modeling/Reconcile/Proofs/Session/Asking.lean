/-
Reconcile.Proofs.Session.Asking — when the question about pending edits is
asked.

The parts of an operation that show, bind, flag and save do not ask
(`Unasked`). So an operation that finds edits of a bound input pending, and would
lose them (`Asks`), asks once and before everything else (`step_asked`), and
any other operation does not ask (`step_unasked`). Whether there is a question at
all is up to the policy (`Resolved.unasked`). An answer other than to save leaves
what is stored (`Resolved.state_of_declined`).
-/
import Reconcile.Proofs.Session.Steps

namespace Reconcile

/-- Whether a call asks about pending edits. -/
def Call.asks : Call → Bool
  | prompt _ => true
  | _ => false

theorem Call.asks_of_deals {c : Call} (h : c.deals = false) : c.asks = false := by
  cases c <;> simp_all [deals, asks]

theorem Call.asks_of_shows {c : Call} (h : c.shows = true) : c.asks = false :=
  asks_of_deals (deals_of_shows h)

theorem Call.asks_of_rebinds {c : Call} (h : c.rebinds = true) :
    c.asks = false :=
  asks_of_deals (deals_of_rebinds h)

namespace Session

variable {σ : Type} {m : Model σ} {s t u : Session σ}

/-- `t` is `s` after something that does not ask. -/
structure Unasked (s t : Session σ) : Prop where
  settings : t.settings = s.settings
  confirmer : t.confirmer = s.confirmer
  calls : ∃ more, t.calls = s.calls ++ more ∧ ∀ c ∈ more, c.asks = false

theorem Unasked.refl (s : Session σ) : Unasked s s :=
  ⟨rfl, rfl, [], by simp, by simp⟩

theorem Unasked.trans (h : Unasked s t) (g : Unasked t u) : Unasked s u :=
  ⟨g.settings.trans h.settings, g.confirmer.trans h.confirmer,
    Call.appended_trans h.calls g.calls⟩

/-- No call is made. -/
theorem Unasked.of_calls_eq (settings : t.settings = s.settings)
    (confirmer : t.confirmer = s.confirmer) (calls : t.calls = s.calls) :
    Unasked s t :=
  ⟨settings, confirmer, [], by simp [calls], by simp⟩

/-- What does not deal with pending edits does not ask about them. -/
theorem GoesOn.unasked (h : GoesOn s t) : Unasked s t := by
  obtain ⟨more, hcalls, hmore⟩ := h.calls
  exact ⟨h.settings, h.confirmer, more, hcalls,
    fun c hc => Call.asks_of_deals (hmore c hc)⟩

theorem unasked_refresh (m : Model σ) (s : Session σ) :
    Unasked s (s.refresh m) :=
  (goesOn_refresh m s).unasked

theorem unasked_turn (m : Model σ) (value : Bool) (s : Session σ) :
    Unasked s (s.turn m value) :=
  (goesOn_turn m value s).unasked

theorem unasked_clearDirty (s : Session σ) : Unasked s s.clearDirty :=
  (goesOn_clearDirty s).unasked

theorem unasked_applyEdit (side : Side) (bytes : ByteArray) (s : Session σ) :
    Unasked s (s.applyEdit side bytes) :=
  (goesOn_applyEdit side bytes s).unasked

theorem unasked_rebind (m : Model σ) (input : Option Place) (s : Session σ) :
    Unasked s (s.rebind m input) :=
  (goesOn_rebind m input s).unasked

theorem FlushedSide.unasked {input : Place} {side : Side}
    {r : Except SaveError Unit} (ends : FlushedSide m input side s t r) :
    Unasked s t := by
  cases ends with
  | skipped => exact .refl s
  | saved _ state _ =>
    refine ⟨rfl, rfl, _, rfl, fun c hc => ?_⟩
    rcases List.mem_cons.mp hc with rfl | hc
    · rfl
    · obtain ⟨l, rfl⟩ := eq_event_of_mem_flagCalls hc
      rfl
  | refused => exact ⟨rfl, rfl, _, rfl, by simp [saveCall, Call.asks]⟩

theorem FlushedSides.unasked {input : Place} {r : Except SaveError Unit}
    (ends : FlushedSides m input s t r) : Unasked s t := by
  cases ends with
  | both left right => exact left.unasked.trans right.unasked

/-- If edits are pending, what comes after the question does not ask again. -/
theorem Resolved.asked {input : Place} {kind : PromptKind}
    {r : Except SaveError Resolution} (ends : Resolved m input kind s t r)
    (hdirty : s.isDirty = true) : Unasked (s.decision m input kind).1 t := by
  cases ends with
  | clean hclean => simp [hdirty] at hclean
  | saved _ _ flushed => exact flushed.unasked.trans (unasked_clearDirty _)
  | failed _ _ flushed => exact flushed.unasked
  | discarded => exact unasked_clearDirty _
  | cancelled => exact .refl _

theorem Resolved.unasked_of_clean {input : Place} {kind : PromptKind}
    {r : Except SaveError Resolution} (ends : Resolved m input kind s t r)
    (hclean : s.isDirty = false) : Unasked s t := by
  cases ends with
  | clean => exact .refl s
  | saved hdirty | failed hdirty | discarded hdirty | cancelled hdirty =>
    simp [hclean] at hdirty

/-- A policy that does not ask saves. -/
theorem decision_of_unasking (h : s.settings.viewer.savePolicy ≠ .confirm)
    (input : Place) (kind : PromptKind) :
    s.decision m input kind = (s, .save) := by
  unfold decision
  cases hp : s.settings.viewer.savePolicy with
  | confirm => exact absurd hp h
  | silentFlush | alwaysFlush => rfl

theorem Resolved.unasked (h : s.settings.viewer.savePolicy ≠ .confirm)
    {input : Place} {kind : PromptKind} {r : Except SaveError Resolution}
    (ends : Resolved m input kind s t r) : Unasked s t := by
  cases hdirty : s.isDirty with
  | false => exact ends.unasked_of_clean hdirty
  | true =>
    have hasked := ends.asked hdirty
    rwa [decision_of_unasking h] at hasked

theorem ResolvedBound.unasked (h : s.settings.viewer.savePolicy ≠ .confirm)
    {kind : PromptKind} {r : Except SaveError Resolution}
    (ends : ResolvedBound m kind s t r) : Unasked s t := by
  cases ends with
  | unbound => exact .refl s
  | bound _ resolved => exact resolved.unasked h

theorem Switching.unasked {next : Session σ → Session σ}
    {r : Except SaveError SwitchOutcome} (ends : Switching m next s t r)
    (h : s.settings.viewer.savePolicy ≠ .confirm)
    (hnext : ∀ u, Unasked u (next u)) :
    Unasked s t := by
  cases ends with
  | failed resolved => exact resolved.unasked h
  | cancelled resolved => exact resolved.unasked h
  | switched resolved _ => exact (resolved.unasked h).trans (hnext _)

/-- A switch that goes through although edits are pending has saved them, if
nobody is asked. -/
theorem Switching.flushed {next : Session σ → Session σ} {o : SwitchOutcome}
    (ends : Switching m next s t (.ok o))
    (h : s.settings.viewer.savePolicy ≠ .confirm) {input : Place}
    (hin : s.input = some input) (hdirty : s.isDirty = true)
    (hnext : ∀ u, Follows u (next u)) :
    ∃ u, FlushedSides m input s u (.ok ()) ∧ t.state = u.state := by
  have hdecision := decision_of_unasking (m := m) h input .inputSwitch
  have hbound : ∀ {u : Session σ} {r : Resolution},
      ResolvedBound m .inputSwitch s u (.ok r) →
      ∃ v, FlushedSides m input s v (.ok ()) ∧ u = v.clearDirty ∧ r = .saved := by
    intro u r resolved
    cases resolved with
    | unbound hnone => simp [hin] at hnone
    | bound hbound resolved =>
      obtain rfl := Option.some.inj (hin.symm.trans hbound)
      cases resolved with
      | clean hclean => simp [hdirty] at hclean
      | saved _ _ flushed =>
        rw [hdecision] at flushed
        exact ⟨_, flushed, rfl, rfl⟩
      | discarded _ answer => simp [hdecision] at answer
      | cancelled _ answer => simp [hdecision] at answer
  cases ends with
  | cancelled resolved =>
    obtain ⟨_, -, -, hr⟩ := hbound resolved
    simp at hr
  | switched resolved _ =>
    obtain ⟨u, flushed, rfl, -⟩ := hbound resolved
    exact ⟨u, flushed, (hnext _).state.trans (follows_clearDirty u).state⟩

/-! ## Which operations ask -/

/-- The operations that would lose pending edits, with the reason that is
given. -/
inductive Asks (s : Session σ) : Operation σ → PromptKind → Prop where
  | bind {input : Option Place} (h : s.input ≠ input) :
      Asks s (.bind input) .inputSwitch
  | setMirrored {value : Bool} (h : s.mirrored ≠ value) :
      Asks s (.setMirrored value) .inputSwitch
  | externalChange (idle : s.registry.isSaving = false) :
      Asks s .externalChange .externalChange
  | inputChanged {input : Place} (bound : s.input = some input)
      (idle : s.registry.isSaving = false) :
      Asks s (.inputChanged input) .externalChange

/-- `t` is `s` after something that begins with the question if an input is
bound and edits are pending, and else does not ask. -/
inductive AskedOnce (m : Model σ) (kind : PromptKind) (s t : Session σ) : Prop where
  | nothingPending (h : s.input = none ∨ s.isDirty = false) (quiet : Unasked s t)
  | pending {input : Place} (bound : s.input = some input)
      (dirty : s.isDirty = true) (after : Unasked (s.decision m input kind).1 t)

theorem AskedOnce.trans {kind : PromptKind} (h : AskedOnce m kind s t)
    (g : Unasked t u) : AskedOnce m kind s u := by
  cases h with
  | nothingPending h quiet => exact .nothingPending h (quiet.trans g)
  | pending bound dirty after => exact .pending bound dirty (after.trans g)

theorem Resolved.askedOnce {input : Place} {kind : PromptKind}
    {r : Except SaveError Resolution} (ends : Resolved m input kind s t r)
    (hin : s.input = some input) : AskedOnce m kind s t := by
  cases hdirty : s.isDirty with
  | false => exact .nothingPending (.inr hdirty) (ends.unasked_of_clean hdirty)
  | true => exact .pending hin hdirty (ends.asked hdirty)

theorem Switching.askedOnce {next : Session σ → Session σ}
    {r : Except SaveError SwitchOutcome} (ends : Switching m next s t r)
    (hnext : ∀ u, Unasked u (next u)) : AskedOnce m .inputSwitch s t := by
  have hresolved : ∀ {u : Session σ} {r : Except SaveError Resolution},
      ResolvedBound m .inputSwitch s u r → AskedOnce m .inputSwitch s u := by
    intro u r resolved
    cases resolved with
    | unbound h => exact .nothingPending (.inl h) (.refl s)
    | bound h resolved => exact resolved.askedOnce h
  cases ends with
  | failed resolved => exact hresolved resolved
  | cancelled resolved => exact hresolved resolved
  | switched resolved _ => exact (hresolved resolved).trans (hnext _)

theorem ChangedOutside.askedOnce {r : Except SaveError Unit}
    (ends : ChangedOutside m s t r) (hidle : s.registry.isSaving = false) :
    AskedOnce m .externalChange s t := by
  cases ends with
  | unbound h => exact .nothingPending (.inl h) (.refl s)
  | saving h => simp [hidle] at h
  | failed h _ resolved => exact resolved.askedOnce h
  | dropped h _ resolved =>
    exact (resolved.askedOnce h).trans
      ((unasked_clearDirty _).trans (unasked_refresh m _))
  | shown h _ resolved _ => exact (resolved.askedOnce h).trans (unasked_refresh m _)

/-- **An operation that would lose pending edits** asks once, and first. -/
theorem step_asked {op : Operation σ} {kind : PromptKind} (h : s.Asks op kind)
    (m : Model σ) : AskedOnce m kind s (s.step m op).1 := by
  cases h with
  | bind h => exact (bind_ends h).askedOnce (unasked_rebind m _)
  | setMirrored h => exact (setMirrored_ends h).askedOnce (unasked_turn m _)
  | externalChange idle => exact (externalChange_ends m s).askedOnce idle
  | inputChanged bound idle =>
    rw [step, inputChanged, if_pos bound]
    exact (externalChange_ends m s).askedOnce idle

/-- **Any other operation** does not ask. -/
theorem step_unasked {op : Operation σ} (h : ∀ kind, ¬ s.Asks op kind)
    (m : Model σ) : Unasked s (s.step m op).1 := by
  have hends := step_ends m s op
  generalize (s.step m op).1 = t, (s.step m op).2 = reply at hends ⊢
  cases hends with
  | aside haside => exact haside.goesOn.unasked
  | flagged side value => exact (goesOn_setDirty side value s).unasked
  | edited side bytes => exact unasked_applyEdit side bytes s
  | copied d _ => exact unasked_applyEdit _ _ s
  | flushed _ ends => exact ends.unasked
  | flushedAll _ ends => exact ends.unasked
  | refreshed => exact unasked_refresh m s
  | bound hin => exact absurd (.bind hin) (h _)
  | turned hturned => exact absurd (.setMirrored hturned) (h _)
  | changed hop ends =>
    cases hsaving : s.registry.isSaving with
    | true =>
      cases ends with
      | unbound => exact .refl s
      | saving => exact .refl s
      | failed _ idle | dropped _ idle | shown _ idle => simp [hsaving] at idle
    | false =>
      rcases hop with rfl | ⟨input, rfl, hin⟩
      · exact absurd (.externalChange hsaving) (h _)
      · exact absurd (.inputChanged hin hsaving) (h _)
  | disposed => exact (goesOn_dispose m s).unasked
  | elsewhere change => exact .of_calls_eq rfl rfl rfl

theorem decision_settings (m : Model σ) (input : Place) (kind : PromptKind)
    (s : Session σ) : (s.decision m input kind).1.settings = s.settings := by
  rw [decision_eq]

theorem decision_confirmer (m : Model σ) (input : Place) (kind : PromptKind)
    (s : Session σ) :
    (s.decision m input kind).1.confirmer = s.confirmer ∨
      (s.decision m input kind).1.confirmer = s.confirmer.next := by
  rw [decision_eq]
  unfold confirmerAfter
  split
  · exact .inl rfl
  · exact .inl rfl
  · exact .inr rfl

theorem AskedOnce.answers {kind : PromptKind} (h : AskedOnce m kind s t) :
    t.settings = s.settings ∧
      (t.confirmer = s.confirmer ∨ t.confirmer = s.confirmer.next) := by
  cases h with
  | nothingPending _ quiet => exact ⟨quiet.settings, .inl quiet.confirmer⟩
  | pending _ _ after =>
    rw [after.settings, after.confirmer]
    exact ⟨decision_settings m _ kind s, decision_confirmer m _ kind s⟩

/-- The settings stay, and whoever answers is asked at most once. -/
theorem step_answers (m : Model σ) (s : Session σ) (op : Operation σ) :
    (s.step m op).1.settings = s.settings ∧
      ((s.step m op).1.confirmer = s.confirmer ∨
        (s.step m op).1.confirmer = s.confirmer.next) := by
  by_cases h : ∃ kind, s.Asks op kind
  · obtain ⟨kind, h⟩ := h
    exact (step_asked h m).answers
  · have hquiet := step_unasked (not_exists.mp h) m
    exact ⟨hquiet.settings, .inl hquiet.confirmer⟩

/-- **Under the policy to ask**, the question about the edits is the first call of
an operation that would lose them, and no other call asks. -/
theorem asks_first (hpolicy : s.settings.viewer.savePolicy = .confirm)
    {op : Operation σ} {kind : PromptKind} (h : s.Asks op kind) {input : Place}
    (hin : s.input = some input) (hdirty : s.isDirty = true) (m : Model σ) :
    ∃ more, s.callsOf m op = .prompt (s.question m input kind) :: more ∧
      ∀ c ∈ more, c.asks = false := by
  cases step_asked h m with
  | nothingPending hnone => simp [hin, hdirty] at hnone
  | pending bound _ after =>
    obtain rfl := Option.some.inj (hin.symm.trans bound)
    obtain ⟨more, hcalls, hmore⟩ := after.calls
    rw [decision_eq] at hcalls
    refine ⟨more, callsOf_eq ?_, hmore⟩
    rw [hcalls, questionCalls, hpolicy, List.append_assoc]
    rfl

/-- Under that policy, an operation asks exactly if an input is bound, edits are
pending, and the operation would lose them. -/
theorem asks_iff (hpolicy : s.settings.viewer.savePolicy = .confirm)
    (m : Model σ) (op : Operation σ) :
    (∃ c ∈ s.callsOf m op, c.asks = true) ↔
      (∃ input, s.input = some input) ∧ s.isDirty = true ∧ ∃ kind, s.Asks op kind := by
  constructor
  · rintro ⟨c, hc, hasks⟩
    have hquiet : ¬ Unasked s (s.step m op).1 := by
      intro h
      obtain ⟨more, hcalls, hmore⟩ := h.calls
      rw [callsOf_eq hcalls] at hc
      simp [hmore c hc] at hasks
    by_cases h : ∃ kind, s.Asks op kind
    · obtain ⟨kind, hop⟩ := h
      cases step_asked hop m with
      | nothingPending _ quiet => exact absurd quiet hquiet
      | pending bound dirty => exact ⟨⟨_, bound⟩, dirty, kind, hop⟩
    · exact absurd (step_unasked (not_exists.mp h) m) hquiet
  · rintro ⟨⟨input, hin⟩, hdirty, kind, hop⟩
    obtain ⟨more, hcalls, -⟩ := asks_first hpolicy hop hin hdirty m
    rw [hcalls]
    exact ⟨_, List.mem_cons_self, rfl⟩

/-! ## Answers -/

/-- An answer other than to save leaves what is stored. -/
theorem Resolved.state_of_declined {input : Place} {kind : PromptKind}
    (h : (s.decision m input kind).2 ≠ .save) {r : Except SaveError Resolution}
    (ends : Resolved m input kind s t r) : t.state = s.state := by
  have hasked := (follows_decision m input kind s).state
  cases ends with
  | clean => rfl
  | saved _ answer => exact absurd answer h
  | failed _ answer => exact absurd answer h
  | discarded => rw [clearDirty_eq]; exact hasked
  | cancelled => exact hasked

end Session

end Reconcile
