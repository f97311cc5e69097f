/-
Reconcile.Proofs.Session.Watched — exactly the bound input is watched.

Two collaborators report on the bound input: the registry tells of its changes,
and the model of its labels. Each has to be asked when an input is bound and
asked to stop when it is not bound any more, and a switch that fails or is
called off must do neither.

`Watches held s` says that both report on the one input that is `held`, and
on no other. To let go of an input leads from there to nothing, and to take one
from nothing to it (`Watches.release`, `Watches.acquire`); whatever else an
operation does keeps what is held (`KeepsWatch`, `step_keepsWatch`). So after
every run what is held is what is bound: `bound_input_is_watched`.
-/
import Reconcile.Proofs.Session.EventStream

namespace Reconcile

/-! ## What is asked for -/

/-- What a viewer can be told about an input. -/
inductive Report where
  | changes
  | labels

/-- Whether a call asks for reports on an input, or to be spared them. -/
def Report.asked? (place : Place) : Report → Call → Option Bool
  | changes, .attach input _ => if input = place then some true else none
  | changes, .detach input _ => if input = place then some false else none
  | labels, .watchLabels input _ => if input = place then some true else none
  | labels, .unwatchLabels input _ => if input = place then some false else none
  | _, _ => none

theorem Report.asked?_eq_none {c : Call} (h : c.rebinds = false) (k : Report)
    (place : Place) : k.asked? place c = none := by
  cases c <;> cases k <;> simp_all [Call.rebinds, Report.asked?]

theorem Report.filterMap_asked? {calls : List Call}
    (h : ∀ c ∈ calls, c.rebinds = false) (k : Report) (place : Place) :
    calls.filterMap (k.asked? place) = [] :=
  List.filterMap_eq_nil_iff.mpr fun c hc => k.asked?_eq_none (h c hc) place

theorem Call.rebinds_of_shows {c : Call} (h : c.shows = true) :
    c.rebinds = false := by
  cases c <;> simp_all [shows, rebinds]

theorem Call.rebinds_of_settles {c : Call} (h : c.settles = true) :
    c.rebinds = false := by
  cases c <;> simp_all [settles, rebinds]

namespace Session

variable {σ : Type} {m : Model σ} {s t u : Session σ} {held : Option Place}

/-- The registry watches what is held, once, and nothing else. What was asked
about an input alternates, beginning with a request for reports, and the last
word is such a request exactly if that input is held. -/
structure Watches (held : Option Place) (s : Session σ) : Prop where
  watched : s.registry.watched = held.toList
  asked : ∀ (k : Report) (place : Place),
    Leads (s.calls.filterMap (k.asked? place)) false (decide (held = some place))

/-! ## What has no bearing on it -/

/-- `t` is `s` after something that leaves alone what is bound and watched. -/
structure KeepsWatch (s t : Session σ) : Prop where
  input : t.input = s.input
  watched : t.registry.watched = s.registry.watched
  calls : ∃ more, t.calls = s.calls ++ more ∧ ∀ c ∈ more, c.rebinds = false

theorem KeepsWatch.refl (s : Session σ) : KeepsWatch s s :=
  ⟨rfl, rfl, [], by simp, by simp⟩

theorem KeepsWatch.trans (h : KeepsWatch s t) (g : KeepsWatch t u) :
    KeepsWatch s u :=
  ⟨g.input.trans h.input, g.watched.trans h.watched,
    Call.appended_trans h.calls g.calls⟩

theorem Watches.keep (h : Watches held s) (keeps : KeepsWatch s t) :
    Watches held t := by
  obtain ⟨more, hcalls, hmore⟩ := keeps.calls
  refine ⟨keeps.watched.trans h.watched, fun k place => ?_⟩
  rw [hcalls, List.filterMap_append, k.filterMap_asked? hmore, List.append_nil]
  exact h.asked k place

theorem keepsWatch_setDirty (side : Side) (value : Bool) (s : Session σ) :
    KeepsWatch s (s.setDirty side value) := by
  rw [setDirty_eq]
  refine ⟨rfl, rfl, _, rfl, fun c hc => ?_⟩
  obtain ⟨l, rfl⟩ := eq_event_of_mem_flagCalls hc
  rfl

theorem keepsWatch_clearDirty (s : Session σ) : KeepsWatch s s.clearDirty :=
  (keepsWatch_setDirty .left false s).trans (keepsWatch_setDirty .right false _)

theorem keepsWatch_applyEdit (side : Side) (bytes : ByteArray) (s : Session σ) :
    KeepsWatch s (s.applyEdit side bytes) := by
  have hpane : KeepsWatch s (s.setContents side bytes) :=
    ⟨rfl, rfl, [.setContents side bytes], rfl, by simp [Call.rebinds]⟩
  exact hpane.trans (keepsWatch_setDirty side true _)

theorem keepsWatch_refresh (m : Model σ) (s : Session σ) :
    KeepsWatch s (s.refresh m) := by
  rw [refresh_eq]
  exact ⟨rfl, rfl, _, rfl,
    fun c hc => Call.rebinds_of_shows (shows_of_mem_refreshCalls hc)⟩

theorem keepsWatch_setAncestorVisible (value : Bool) (s : Session σ) :
    KeepsWatch s (s.setAncestorVisible value).1 := by
  rw [setAncestorVisible_eq]
  exact ⟨rfl, rfl, _, rfl,
    fun c hc => Call.rebinds_of_shows (shows_of_mem_ancestorCalls hc)⟩

theorem keepsWatch_labelsChanged (m : Model σ) (inputs : List Place)
    (s : Session σ) : KeepsWatch s (s.labelsChanged m inputs) := by
  unfold labelsChanged
  split
  · exact .refl s
  · split
    · rw [showHeaders_eq]
      exact ⟨rfl, rfl, _, rfl,
        fun c hc => Call.rebinds_of_shows (shows_of_mem_headerCalls hc)⟩
    · exact .refl s

theorem Settled.keepsWatch {input : Place} (h : Settled m input s t) :
    KeepsWatch s t := by
  obtain ⟨made, hcalls, -, hmade, -⟩ := h.calls
  exact ⟨h.input_eq, by rw [h.frame], made, hcalls,
    fun c hc => Call.rebinds_of_settles (hmade c hc).1⟩

theorem Dealt.keepsWatch (h : Dealt m s t) : KeepsWatch s t := by
  rcases h with rfl | ⟨input, -, h⟩
  · exact .refl t
  · exact h.keepsWatch

theorem ChangedOutside.keepsWatch {r : Except SaveError Unit}
    (ends : ChangedOutside m s t r) : KeepsWatch s t := by
  cases ends with
  | unbound => exact .refl s
  | saving => exact .refl s
  | failed _ _ resolved => exact resolved.settled.keepsWatch
  | dropped _ _ resolved =>
    exact (resolved.settled.keepsWatch.trans (keepsWatch_clearDirty _)).trans
      (keepsWatch_refresh m _)
  | shown _ _ resolved _ =>
    exact resolved.settled.keepsWatch.trans (keepsWatch_refresh m _)

theorem keepsWatch_setMirrored (m : Model σ) (value : Bool) (s : Session σ) :
    KeepsWatch s (s.setMirrored m value).1 := by
  by_cases h : s.mirrored = value
  · rw [setMirrored, if_pos h]
    exact .refl s
  · have hends := setMirrored_ends (m := m) h
    generalize (s.setMirrored m value).1 = t, (s.setMirrored m value).2 = r
      at hends ⊢
    cases hends with
    | failed resolved => exact resolved.dealt.keepsWatch
    | cancelled resolved => exact resolved.dealt.keepsWatch
    | @switched u _ resolved _ =>
      have hturned : KeepsWatch u { u with mirrored := value } :=
        ⟨rfl, rfl, [], by simp, by simp⟩
      exact (resolved.dealt.keepsWatch.trans hturned).trans (keepsWatch_refresh m _)

/-- **What is watched changes with the bound input only**: no operation but
to bind an input, and to dispose of the viewer, has a bearing on it. -/
theorem step_keepsWatch (m : Model σ) (s : Session σ) {op : Operation σ}
    (hbind : ∀ input, op ≠ .bind input) (hlive : op ≠ .dispose) :
    KeepsWatch s (s.step m op).1 := by
  cases op with
  | bind input => exact absurd rfl (hbind input)
  | setDirty side value => exact keepsWatch_setDirty side value s
  | applyEdit side bytes => exact keepsWatch_applyEdit side bytes s
  | copy d =>
    simp only [step, copy]
    split
    · exact .refl s
    · split
      · exact keepsWatch_applyEdit _ _ s
      · exact .refl s
  | flush side =>
    simp only [step, flush]
    split
    · exact .refl s
    · exact (flushSide_ends m _ side s).settled.keepsWatch
  | flushAll =>
    simp only [step, flushAll]
    split
    · exact .refl s
    · exact (flushSides_ends m _ s).settled.keepsWatch
  | refresh => exact keepsWatch_refresh m s
  | externalChange => exact (externalChange_ends m s).keepsWatch
  | inputChanged input =>
    simp only [step, inputChanged]
    split
    · exact (externalChange_ends m s).keepsWatch
    · exact .refl s
  | labelsChanged inputs => exact keepsWatch_labelsChanged m inputs s
  | setMirrored value => exact keepsWatch_setMirrored m value s
  | setAncestorVisible value => exact keepsWatch_setAncestorVisible value s
  | setIgnoreAncestor value =>
    have hlocked : ∀ u : Session σ, KeepsWatch u { u with ancestorToggle := !value } :=
      fun u => ⟨rfl, rfl, [], by simp, by simp⟩
    cases value with
    | false => exact hlocked s
    | true => exact (keepsWatch_setAncestorVisible false s).trans (hlocked _)
  | addListener l => exact ⟨rfl, rfl, [], by simp [step], by simp⟩
  | removeListener l => exact ⟨rfl, rfl, [], by simp [step], by simp⟩
  | dispose => exact absurd rfl hlive
  | beginSave => exact ⟨rfl, rfl, [], by simp [step], by simp⟩
  | endSave guard =>
    refine ⟨rfl, ?_, [], by simp [step], by simp⟩
    simp only [step, WatchRegistry.endSave]
    split <;> rfl
  | elsewhere change => exact ⟨rfl, rfl, [], by simp [step], by simp⟩

/-! ## Letting go and taking -/

/-- To let go of the bound input is said once to each of those who report on
it, and nothing is said about any other input. -/
theorem asked_releaseCalls (m : Model σ) (s : Session σ) (k : Report)
    (place : Place) :
    (s.releaseCalls m).filterMap (k.asked? place)
      = if s.input = some place then [false] else [] := by
  unfold releaseCalls
  cases s.input with
  | none => simp
  | some input =>
    by_cases h : input = place <;> cases k <;>
      simp [List.filterMap_cons, Report.asked?, h]

theorem asked_acquireCalls (m : Model σ) (s : Session σ) (input : Option Place)
    (k : Report) (place : Place) :
    (s.acquireCalls m input).filterMap (k.asked? place)
      = if input = some place then [true] else [] := by
  cases input with
  | none => simp [acquireCalls]
  | some input =>
    by_cases h : input = place <;> cases k <;>
      simp [acquireCalls, List.filterMap_cons, Report.asked?, h]

theorem Watches.release (m : Model σ) (h : Watches s.input s) :
    Watches none (s.release m) := by
  rw [release_eq]
  refine ⟨?_, fun k place => ?_⟩
  · have hwatched := h.watched
    unfold releasedRegistry
    cases hin : s.input with
    | none => simpa [hin] using hwatched
    | some input => simp [WatchRegistry.remove, hwatched, hin]
  · rw [List.filterMap_append]
    refine (h.asked k place).trans ?_
    rw [asked_releaseCalls]
    by_cases hin : s.input = some place
    · have hends : Leads [false] true false := leads_change (by decide)
      simpa [hin] using hends
    · simpa [hin] using leads_nil false

theorem Watches.acquire (m : Model σ) (h : Watches none s) (input : Option Place) :
    Watches input (s.acquire m input) := by
  rw [acquire_eq]
  refine ⟨?_, fun k place => ?_⟩
  · have hwatched : s.registry.watched = [] := h.watched
    cases input <;> simp [acquiredRegistry, WatchRegistry.add, hwatched]
  · rw [List.filterMap_append]
    refine (h.asked k place).trans ?_
    rw [asked_acquireCalls]
    by_cases hin : input = some place
    · have hbegins : Leads [true] false true := leads_change (by decide)
      simpa [hin] using hbegins
    · simpa [hin] using leads_nil false

theorem Watches.rebind (m : Model σ) (h : Watches s.input s) (input : Option Place) :
    Watches input (s.rebind m input) :=
  (((h.release m).keep (keepsWatch_clearDirty _)).acquire m input).keep
    (keepsWatch_refresh m _)

theorem Watches.dispose (m : Model σ) (h : Watches s.input s) :
    Watches none (s.dispose m) :=
  ⟨(h.release m).watched, (h.release m).asked⟩

/-! ## Runs -/

theorem watches_bind (m : Model σ) (h : Watches s.input s) (input : Option Place) :
    Watches (s.bind m input).1.input (s.bind m input).1 := by
  by_cases hsame : s.input = input
  · rw [bind, if_pos hsame]
    exact h
  · have hkept : ∀ {u : Session σ}, KeepsWatch s u → Watches u.input u := by
      intro u keeps
      rw [keeps.input]
      exact h.keep keeps
    have hends := bind_ends (m := m) hsame
    generalize (s.bind m input).1 = t, (s.bind m input).2 = r at hends ⊢
    cases hends with
    | failed resolved => exact hkept resolved.dealt.keepsWatch
    | cancelled resolved => exact hkept resolved.dealt.keepsWatch
    | @switched u _ resolved _ =>
      have hbound : (u.rebind m input).input = input := by rw [rebind_eq]
      rw [hbound]
      exact (hkept resolved.dealt.keepsWatch).rebind m input

theorem watches_step (m : Model σ) (h : Watches s.input s) (op : Operation σ) :
    Watches (s.step m op).1.input (s.step m op).1 := by
  by_cases hbind : ∃ input, op = .bind input
  · obtain ⟨input, rfl⟩ := hbind
    exact watches_bind m h input
  · by_cases hlive : op = .dispose
    · subst hlive
      exact h.dispose m
    · have keeps := step_keepsWatch m s (fun input heq => hbind ⟨input, heq⟩) hlive
      rw [keeps.input]
      exact h.keep keeps

theorem watches_start {settings : Settings} {state : σ} {confirmer : Confirmer}
    {start : Session σ} (h : start? settings state confirmer = .ok start) :
    Watches start.input start := by
  unfold start? at h
  split at h
  · simp at h
  · obtain rfl := Except.ok.inj h
    exact ⟨rfl, fun _ _ => leads_nil false⟩

/-- **Exactly the bound input is watched**, after whatever has been done to a
viewer: the registry holds it once, and holds nothing else. For every input,
the calls that ask for reports on its changes and those that ask to be spared
them alternate, the first one asks, and so does the last one exactly if the
input is bound; and so it is with the reports on its labels. -/
theorem bound_input_is_watched (m : Model σ) {settings : Settings} {state : σ}
    {confirmer : Confirmer} {start : Session σ}
    (hstart : start? settings state confirmer = .ok start)
    (ops : List (Operation σ)) :
    Watches (start.run m ops).input (start.run m ops) :=
  run_induction (P := fun s => Watches s.input s) (watches_start hstart)
    fun _ op _ h => watches_step m h op

/-- Two documents that are equal, the right sides of which cannot be saved at
first. The view is turned while the first one is bound; to bind the second one
is called off, then fails, then goes through, and is vacuous at last. The viewer
is disposed of, and the first one is bound again. -/
theorem watched_across_disposal :
    let m := (Model.shelf Document).guarded
    let document : Document := { contents := ⟨none, some ⟨#[97]⟩, some ⟨#[98]⟩⟩ }
    let guarded : Model.Guarded (Shelf Document) :=
      ⟨⟨[document, document], ⟨true, true⟩⟩, ⟨none, some (.rejected .right "locked")⟩⟩
    let ops : List (Operation (Model.Guarded (Shelf Document))) :=
      [.bind (some 0), .setMirrored true, .applyEdit .left ⟨#[99]⟩,
        .bind (some 1), .bind (some 1),
        .elsewhere (fun g => { g with refusals := ⟨none, none⟩ }),
        .bind (some 1), .bind (some 1), .dispose, .bind (some 0)]
    ∃ start s, start? {} guarded (.scripted [.cancel, .save]) = .ok start ∧
      s = start.run m ops ∧
      start.replies m ops =
        [.outcome .switched, .outcome .switched, .done, .outcome .cancelled,
          .failed (.rejected .right "locked"), .done, .outcome .switched,
          .outcome .unchanged, .done, .outcome .switched] ∧
      s.registry.watched = [0] ∧
      s.calls.filterMap (Report.changes.asked? 0) = [true, false, true] ∧
      s.calls.filterMap (Report.labels.asked? 1) = [true, false] ∧
      Watches (some 0) s := by
  intro m document guarded ops
  obtain ⟨start, hstart, hreplies, hinput, hchanges, hlabels⟩ :
      ∃ start, start? {} guarded (.scripted [.cancel, .save]) = .ok start ∧
      start.replies m ops =
        [.outcome .switched, .outcome .switched, .done, .outcome .cancelled,
          .failed (.rejected .right "locked"), .done, .outcome .switched,
          .outcome .unchanged, .done, .outcome .switched] ∧
      (start.run m ops).input = some 0 ∧
      (start.run m ops).calls.filterMap (Report.changes.asked? 0)
        = [true, false, true] ∧
      (start.run m ops).calls.filterMap (Report.labels.asked? 1) = [true, false] :=
    ⟨_, rfl, by decide +kernel⟩
  have hwatches := bound_input_is_watched m hstart ops
  rw [hinput] at hwatches
  exact ⟨start, _, hstart, rfl, hreplies, hwatches.watched, hchanges, hlabels,
    hwatches⟩

end Session

end Reconcile
