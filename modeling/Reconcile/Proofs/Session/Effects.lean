/-
Reconcile.Proofs.Session.Effects — what the parts of an operation write.

Every part of an operation writes a few fields of the session and appends
calls to its log. Here each of them gets one equation, of the form

    s.part = { s with field := …, calls := s.calls ++ … }

so that a proof about an operation reads its fields off the equation and
never unfolds the part again. The calls that are appended have names of
their own (`flagCalls`, `refreshCalls`, …); the last section sorts them.

* `setDirty_eq`, `clearDirty_eq`, `applyEdit_eq` — flags and edits.
* `refresh_eq` — the panes, the three-way flag and the tools, all three
  determined by the bound input, the mirroring and the state behind it.
* `release_eq`, `acquire_eq` — the bound input and the registry.
* `setAncestorVisible_eq` — the ancestor pane.
-/
import Reconcile.Proofs.Model.Laws
import Reconcile.Session

namespace Reconcile.Session

variable {σ : Type}

/-! ## Announcements -/

/-- The calls that announce an event. -/
def announced (s : Session σ) (e : Event) : List Call :=
  (s.listeners.fire e).map fun (l, e) => .event l e

theorem emit_eq (s : Session σ) (c : Call) :
    s.emit c = { s with calls := s.calls ++ [c] } := rfl

/-! ## Flags and edits -/

/-- The calls that setting a dirty flag makes. -/
def flagCalls (s : Session σ) (side : Side) (value : Bool) : List Call :=
  if s.dirty.get side = value then [] else s.announced (.dirtyState value)

theorem setDirty_eq (side : Side) (value : Bool) (s : Session σ) :
    s.setDirty side value =
      { s with
        dirty := s.dirty.set side value
        calls := s.calls ++ s.flagCalls side value } := by
  unfold setDirty flagCalls
  by_cases h : s.dirty.get side = value
  · simp only [h, if_true, List.append_nil]
    rw [← h, Sided.set_get]
  · simp only [h, if_false]
    rfl

/-- The calls that clearing both dirty flags makes. -/
def clearCalls (s : Session σ) : List Call :=
  s.flagCalls .left false ++ s.flagCalls .right false

theorem clearDirty_eq (s : Session σ) :
    s.clearDirty =
      { s with
        dirty := ⟨false, false⟩
        calls := s.calls ++ s.clearCalls } := by
  have hright : ∀ calls : List Call,
      flagCalls { s with dirty := s.dirty.set .left false, calls } .right false
        = s.flagCalls .right false := fun _ => rfl
  rw [clearDirty, setDirty_eq, setDirty_eq, hright]
  simp [clearCalls, Sided.set, List.append_assoc]

theorem applyEdit_eq (side : Side) (bytes : ByteArray) (s : Session σ) :
    s.applyEdit side bytes =
      { s with
        panes := s.panes.setSide side (some bytes)
        dirty := s.dirty.set side true
        calls := s.calls ++ .setContents side bytes :: s.flagCalls side true } := by
  have hflag : flagCalls (s.setContents side bytes) side true
      = s.flagCalls side true := rfl
  rw [applyEdit, setDirty_eq, hflag]
  simp [setContents, emit, List.append_assoc]

/-! ## Refreshing -/

/-- Whether the bound input is shown three-way. -/
def currentThreeWay (m : Model σ) (s : Session σ) : Bool :=
  match s.input with
  | none => false
  | some input => isThreeWay m s.state input

/-- What the bound input has in its panes, seen through the mirroring. -/
def currentPanes (m : Model σ) (s : Session σ) : Paned (Option ByteArray) :=
  match s.input with
  | none => ⟨none, none, none⟩
  | some input => .ofFn fun p => (s.view m).content s.state p input

theorem side_currentPanes {m : Model σ} {s : Session σ} {input : Place}
    (h : s.input = some input) (side : Side) :
    (s.currentPanes m).side side
      = m.content s.state (side.oriented s.mirrored).pane input := by
  rw [Side.pane_oriented, ← Model.content_oriented]
  cases side <;> simp [currentPanes, h, Paned.ofFn, Paned.side, view, Side.pane]

/-- Whether a side of the view may be written. -/
def currentEditable (m : Model σ) (s : Session σ) (side : Side) : Bool :=
  match s.input with
  | none => false
  | some input => (s.view m).editable s.state side input

/-- The calls that taking in the three-way flag makes. -/
def layoutCalls (s : Session σ) (value : Bool) : List Call :=
  .ancestorAvailable value ::
    if s.threeWay = value then []
    else s.announced (.threeWay value) ++
      if s.ancestorVisible then [.relayout] else []

theorem setThreeWay_eq (value : Bool) (s : Session σ) :
    s.setThreeWay value =
      { s with threeWay := value, calls := s.calls ++ s.layoutCalls value } := by
  unfold setThreeWay layoutCalls
  by_cases h : s.threeWay = value
  · simp [h, emit]
  · by_cases hv : s.ancestorVisible = true <;>
      simp [h, hv, emit, fire, announced]

/-- The call that showing a header makes, if there is anything to show. -/
def headerCall (m : Model σ) (input : Place) (s : Session σ) (pane : Pane) :
    Option Call :=
  if (((s.view m).header s.state pane input).label.isSome ||
      ((s.view m).header s.state pane input).image.isSome) then
    some (.header pane ((s.view m).header s.state pane input))
  else none

theorem showHeader_eq (m : Model σ) (input : Place) (s : Session σ) (pane : Pane) :
    s.showHeader m input pane =
      { s with calls := s.calls ++ (s.headerCall m input pane).toList } := by
  simp only [showHeader, headerCall]
  split <;> simp [emit]

/-- The calls that showing the headers of some panes makes. -/
def headerCalls (m : Model σ) (input : Place) (s : Session σ)
    (panes : List Pane) : List Call :=
  panes.filterMap (s.headerCall m input)

/-- A header depends on no call, so showing several shows the ones that the
session has to begin with. -/
theorem foldl_showHeader_eq (m : Model σ) (input : Place) :
    ∀ (panes : List Pane) (s : Session σ),
      panes.foldl (showHeader m input) s =
        { s with calls := s.calls ++ s.headerCalls m input panes }
  | [], s => by simp [headerCalls]
  | pane :: panes, s => by
    rw [List.foldl_cons, foldl_showHeader_eq m input panes, showHeader_eq]
    have hcalls : ∀ calls : List Call,
        headerCalls m input { s with calls } panes
          = s.headerCalls m input panes := fun _ => rfl
    rw [hcalls]
    cases h : s.headerCall m input pane <;>
      simp [headerCalls, h, List.append_assoc]

theorem showHeaders_eq (m : Model σ) (input : Place) (s : Session σ) :
    s.showHeaders m input =
      { s with calls := s.calls ++ s.headerCalls m input Pane.all } :=
  foldl_showHeader_eq m input Pane.all s

/-- The calls that taking in whether a copy is possible makes. -/
def toolCalls (s : Session σ) (d : Direction) (value : Bool) : List Call :=
  .copyEnabled d value ::
    if s.copyEnabled.get d.target = value then []
    else s.announced (.copyEnabled d value)

theorem setCopyEnabled_eq (d : Direction) (value : Bool) (s : Session σ) :
    s.setCopyEnabled d value =
      { s with
        copyEnabled := s.copyEnabled.set d.target value
        calls := s.calls ++ s.toolCalls d value } := by
  unfold setCopyEnabled toolCalls
  by_cases h : s.copyEnabled.get d.target = value
  · simp only [h, if_true]
    rw [← h, Sided.set_get]
    rfl
  · simp [h, emit, fire, announced]

theorem updateTools_eq (m : Model σ) (s : Session σ) :
    s.updateTools m =
      { s with
        copyEnabled := ⟨s.currentEditable m .left, s.currentEditable m .right⟩
        calls := s.calls ++ (s.toolCalls .leftToRight (s.currentEditable m .right) ++
          s.toolCalls .rightToLeft (s.currentEditable m .left)) } := by
  obtain ⟨settings, state, input, dirty, threeWay, ancestorVisible,
    ancestorToggle, mirrored, copyEnabled, listeners, panes, registry,
    confirmer, calls⟩ := s
  -- Which copies are possible hangs on the bound input alone, so with it in
  -- hand both sides are the same record.
  cases input <;>
    simp only [updateTools, Direction.all, List.foldl_cons, List.foldl_nil,
      setCopyEnabled_eq, List.append_assoc] <;>
    rfl

/-- The calls that a refresh makes. -/
def refreshCalls (m : Model σ) (s : Session σ) : List Call :=
  s.layoutCalls (s.currentThreeWay m) ++ .content (s.currentPanes m) ::
    ((s.input.map fun input => s.headerCalls m input Pane.all).getD [] ++
      (s.toolCalls .leftToRight (s.currentEditable m .right) ++
        s.toolCalls .rightToLeft (s.currentEditable m .left)))

/-- **A refresh** takes the three-way flag, the panes and the tools from
the bound input and the state behind it, and keeps everything else. -/
theorem refresh_eq (m : Model σ) (s : Session σ) :
    s.refresh m =
      { s with
        threeWay := s.currentThreeWay m
        panes := s.currentPanes m
        copyEnabled := ⟨s.currentEditable m .left, s.currentEditable m .right⟩
        calls := s.calls ++ s.refreshCalls m } := by
  obtain ⟨settings, state, input, dirty, threeWay, ancestorVisible,
    ancestorToggle, mirrored, copyEnabled, listeners, panes, registry,
    confirmer, calls⟩ := s
  cases input with
  | none =>
    simp only [refresh, setThreeWay_eq, showPanes, emit_eq, updateTools_eq,
      List.append_assoc]
    rfl
  | some input =>
    simp only [refresh, setThreeWay_eq, showPanes, emit_eq, showHeaders_eq,
      updateTools_eq, List.append_assoc]
    rfl

/-! ## Binding -/

/-- The registry when the bound input is no longer watched. -/
def releasedRegistry (s : Session σ) : WatchRegistry :=
  match s.input with
  | none => s.registry
  | some input => s.registry.remove input

/-- The calls that letting go of the bound input makes. -/
def releaseCalls (m : Model σ) (s : Session σ) : List Call :=
  match s.input with
  | none => []
  | some input =>
    [.unwatchLabels input (m.name s.state input),
      .detach input (m.name s.state input)]

theorem release_eq (m : Model σ) (s : Session σ) :
    s.release m =
      { s with
        registry := s.releasedRegistry
        calls := s.calls ++ s.releaseCalls m } := by
  obtain ⟨settings, state, input, dirty, threeWay, ancestorVisible,
    ancestorToggle, mirrored, copyEnabled, listeners, panes, registry,
    confirmer, calls⟩ := s
  cases input <;> simp [release, releasedRegistry, releaseCalls, emit]

/-- A registry when an input, or none, is watched as well. -/
def acquiredRegistry (registry : WatchRegistry) : Option Place → WatchRegistry
  | none => registry
  | some place => registry.add place

/-- The calls that taking an input makes. -/
def acquireCalls (m : Model σ) (s : Session σ) : Option Place → List Call
  | none => []
  | some place =>
    [.attach place (m.name s.state place),
      .watchLabels place (m.name s.state place)]

theorem acquire_eq (m : Model σ) (input : Option Place) (s : Session σ) :
    s.acquire m input =
      { s with
        input := input
        registry := acquiredRegistry s.registry input
        calls := s.calls ++ s.acquireCalls m input } := by
  cases input <;> simp [acquire, acquiredRegistry, acquireCalls, emit]

/-- What replacing the bound input does once pending edits are dealt with. -/
def rebind (m : Model σ) (input : Option Place) (s : Session σ) : Session σ :=
  (((s.release m).clearDirty).acquire m input).refresh m

/-- The calls that replacing the bound input makes. -/
def rebindCalls (m : Model σ) (s : Session σ) (input : Option Place) : List Call :=
  s.releaseCalls m ++ (s.clearCalls ++
    (s.acquireCalls m input ++ refreshCalls m { s with input := input }))

/-- **Replacing the bound input** clears both flags and shows what the new
input holds. -/
theorem rebind_eq (m : Model σ) (input : Option Place) (s : Session σ) :
    s.rebind m input =
      { s with
        input := input
        dirty := ⟨false, false⟩
        registry := acquiredRegistry s.releasedRegistry input
        threeWay := currentThreeWay m { s with input := input }
        panes := currentPanes m { s with input := input }
        copyEnabled :=
          ⟨currentEditable m { s with input := input } .left,
            currentEditable m { s with input := input } .right⟩
        calls := s.calls ++ s.rebindCalls m input } := by
  simp only [rebind, release_eq, clearDirty_eq, acquire_eq, refresh_eq,
    List.append_assoc]
  rfl

/-! ## Labels and the ancestor pane -/

/-- Showing headers adds to the log and does nothing else. -/
theorem labelsChanged_eq (m : Model σ) (inputs : List Place) (s : Session σ) :
    ∃ calls, s.labelsChanged m inputs = { s with calls := calls } := by
  unfold labelsChanged
  split
  · exact ⟨s.calls, rfl⟩
  · split
    · exact ⟨_, showHeaders_eq m _ s⟩
    · exact ⟨s.calls, rfl⟩

/-- Whether the ancestor pane is shown once it is asked to be, or not to be. -/
def visibleAfter (value : Bool) (s : Session σ) : Bool :=
  if value && !s.ancestorToggle then s.ancestorVisible else value

/-- The calls that taking in whether the ancestor pane is shown makes. -/
def ancestorCalls (s : Session σ) (value : Bool) : List Call :=
  if s.ancestorVisible = value then []
  else s.announced (.ancestorVisible value) ++
    if s.threeWay then [.relayout] else []

/-- What showing or hiding the ancestor pane comes to. -/
theorem setAncestorVisible_eq (value : Bool) (s : Session σ) :
    s.setAncestorVisible value =
      ({ s with
          ancestorVisible := s.visibleAfter value
          calls := s.calls ++ s.ancestorCalls (s.visibleAfter value) },
        !(value && !s.ancestorToggle) && s.ancestorVisible != value) := by
  obtain ⟨settings, state, input, dirty, threeWay, ancestorVisible,
    ancestorToggle, mirrored, copyEnabled, listeners, panes, registry,
    confirmer, calls⟩ := s
  -- With the four flags in hand both sides are the same record, but for how
  -- the calls are put together.
  cases value <;> cases ancestorVisible <;> cases ancestorToggle <;>
    cases threeWay <;>
    simp [setAncestorVisible, visibleAfter, ancestorCalls, emit, fire, announced]

end Reconcile.Session

/-! ## Sorting calls

Three groups of calls tell the parts of an operation apart: what shows the
bound input, what changes it, and what deals with pending edits. Events
belong to the first and the last. -/

namespace Reconcile.Call

/-- Whether a call asks the model to save. -/
def isSave : Call → Bool
  | save .. => true
  | _ => false

/-- Whether a call can be part of showing the bound input. -/
def shows : Call → Bool
  | content .. | header .. | ancestorAvailable .. | copyEnabled ..
  | relayout | event .. => true
  | _ => false

/-- Whether a call has to do with which input is bound. -/
def rebinds : Call → Bool
  | watchLabels .. | unwatchLabels .. | attach .. | detach .. => true
  | _ => false

/-- Whether a call can be part of dealing with pending edits. -/
def settles : Call → Bool
  | prompt .. | save .. | notify .. | event .. => true
  | _ => false

/-- A log that grows twice by calls of a kind has grown by calls of that kind. -/
theorem appended_trans {P : Call → Prop} {first between last : List Call}
    (h : ∃ more, between = first ++ more ∧ ∀ c ∈ more, P c)
    (g : ∃ more, last = between ++ more ∧ ∀ c ∈ more, P c) :
    ∃ more, last = first ++ more ∧ ∀ c ∈ more, P c := by
  obtain ⟨made, rfl, hmade⟩ := h
  obtain ⟨more, rfl, hmore⟩ := g
  refine ⟨made ++ more, List.append_assoc first made more, fun c hc => ?_⟩
  rcases List.mem_append.mp hc with hc | hc
  · exact hmade c hc
  · exact hmore c hc

/-- Whether a call deals with pending edits: it asks about them, has them saved, or
tells that this has failed. -/
def deals : Call → Bool
  | prompt .. | save .. | notify .. => true
  | _ => false

theorem deals_of_shows {c : Call} (h : c.shows = true) : c.deals = false := by
  cases c <;> simp_all [shows, deals]

theorem deals_of_rebinds {c : Call} (h : c.rebinds = true) : c.deals = false := by
  cases c <;> simp_all [rebinds, deals]

theorem isSave_of_deals {c : Call} (h : c.deals = false) : c.isSave = false := by
  cases c <;> simp_all [deals, isSave]

end Reconcile.Call

namespace Reconcile.Session

variable {σ : Type} {m : Model σ} {s : Session σ} {c : Call}

theorem eq_event_of_mem_announced {e : Event} (h : c ∈ s.announced e) :
    ∃ l, c = .event l e := by
  simp only [announced, Listeners.fire, List.map_map, List.mem_map] at h
  obtain ⟨l, -, rfl⟩ := h
  exact ⟨l, rfl⟩

/-- So it is with a change that may call for a new layout, but for the call
that asks for that. -/
theorem eq_event_or_relayout_of_mem {e : Event} {shown : Bool}
    (h : c ∈ s.announced e ++ if shown then [.relayout] else []) :
    (∃ l, c = .event l e) ∨ c = .relayout := by
  rcases List.mem_append.mp h with h | h
  · exact .inl (eq_event_of_mem_announced h)
  · cases shown with
    | true => exact .inr (List.mem_singleton.mp h)
    | false => simp at h

theorem eq_event_of_mem_flagCalls {side : Side} {value : Bool}
    (h : c ∈ s.flagCalls side value) : ∃ l, c = .event l (.dirtyState value) := by
  unfold flagCalls at h
  split at h
  · simp at h
  · exact eq_event_of_mem_announced h

theorem eq_event_of_mem_clearCalls (h : c ∈ s.clearCalls) :
    ∃ l, c = .event l (.dirtyState false) := by
  rcases List.mem_append.mp h with h | h <;> exact eq_event_of_mem_flagCalls h

theorem shows_of_mem_layoutCalls {value : Bool} (h : c ∈ s.layoutCalls value) :
    c.shows = true := by
  rcases List.mem_cons.mp h with rfl | h
  · rfl
  · split at h
    · simp at h
    · rcases eq_event_or_relayout_of_mem h with ⟨l, rfl⟩ | rfl <;> rfl

theorem shows_of_mem_ancestorCalls {value : Bool} (h : c ∈ s.ancestorCalls value) :
    c.shows = true := by
  unfold ancestorCalls at h
  split at h
  · simp at h
  · rcases eq_event_or_relayout_of_mem h with ⟨l, rfl⟩ | rfl <;> rfl

theorem shows_of_mem_headerCalls {input : Place} {panes : List Pane}
    (h : c ∈ s.headerCalls m input panes) : c.shows = true := by
  obtain ⟨pane, -, h⟩ := List.mem_filterMap.mp h
  unfold headerCall at h
  split at h
  · obtain rfl := Option.some.inj h
    rfl
  · simp at h

theorem shows_of_mem_toolCalls {d : Direction} {value : Bool}
    (h : c ∈ s.toolCalls d value) : c.shows = true := by
  rcases List.mem_cons.mp h with rfl | h
  · rfl
  · split at h
    · simp at h
    · obtain ⟨l, rfl⟩ := eq_event_of_mem_announced h
      rfl

/-- A refresh does nothing but show. -/
theorem shows_of_mem_refreshCalls (h : c ∈ s.refreshCalls m) :
    c.shows = true := by
  rcases List.mem_append.mp h with h | h
  · exact shows_of_mem_layoutCalls h
  rcases List.mem_cons.mp h with rfl | h
  · rfl
  rcases List.mem_append.mp h with h | h
  · cases hi : s.input with
    | none => simp [hi] at h
    | some input =>
      simp only [hi, Option.map_some, Option.getD_some] at h
      exact shows_of_mem_headerCalls h
  rcases List.mem_append.mp h with h | h <;> exact shows_of_mem_toolCalls h

theorem rebinds_of_mem_releaseCalls (h : c ∈ s.releaseCalls m) :
    c.rebinds = true := by
  unfold releaseCalls at h
  split at h
  · simp at h
  · simp only [List.mem_cons, List.not_mem_nil, or_false] at h
    rcases h with rfl | rfl <;> rfl

theorem rebinds_of_mem_acquireCalls {input : Option Place}
    (h : c ∈ s.acquireCalls m input) : c.rebinds = true := by
  cases input with
  | none => simp [acquireCalls] at h
  | some place =>
    simp only [acquireCalls, List.mem_cons, List.not_mem_nil, or_false] at h
    rcases h with rfl | rfl <;> rfl

end Reconcile.Session
