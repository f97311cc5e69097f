/-
Reconcile.Proofs.Session.EventStream — what a listener hears adds up to what
there is to see.

A viewer announces changes and never a state, so a listener has to put the
state together from what it hears. That works because no move changes a flag
without announcing it, or announces it without a change (`move_accounted`):
for each flag the values that are heard lead from the old one to the new one,
each different from the one before (`Leads`). The two dirty flags have one
kind of event between them, so there what is raised and what is cleared is
counted. Both are about the way from one session to another and add up
(`AccountedBy.trans`), so they hold of a whole run: `events_account_for_state`.
-/
import Mathlib.Data.List.Chain
import Reconcile.Proofs.Session.Moves

namespace Reconcile

/-! ## What is heard -/

/-- The event that a call announces to a listener. -/
def Call.heardBy? (l : Listener) : Call → Option Event
  | event other e => if other = l then some e else none
  | _ => none

/-- What a viewer announces under a key of its own, so that the last value
heard is the one that holds. -/
inductive Observable where
  | threeWay
  | ancestorVisible
  | copyEnabled (d : Direction)

/-- The value that an event gives for an observable. -/
def Observable.value? : Observable → Event → Option Bool
  | threeWay, .threeWay value => some value
  | ancestorVisible, .ancestorVisible value => some value
  | copyEnabled d, .copyEnabled e value => if e = d then some value else none
  | _, _ => none

/-- The value before anything is heard. -/
def Observable.configured (settings : Settings) : Observable → Bool
  | ancestorVisible => settings.viewer.ancestorVisible
  | _ => false

/-- Values lead from one to another: each is different from the one before,
and the last one is the other. -/
structure Leads (values : List Bool) (before after : Bool) : Prop where
  last : values.getLast?.getD before = after
  alternate : (before :: values).IsChain (· ≠ ·)

theorem leads_nil (value : Bool) : Leads [] value value := ⟨rfl, by simp⟩

theorem leads_change {before after : Bool} (h : before ≠ after) :
    Leads [after] before after := ⟨rfl, by simpa using h⟩

theorem Leads.trans {first more : List Bool} {before between after : Bool}
    (h : Leads first before between) (g : Leads more between after) :
    Leads (first ++ more) before after where
  last := by
    rw [List.getLast?_append, ← g.last, ← h.last]
    cases more.getLast? <;> rfl
  alternate := by
    have hlast : (before :: first).getLast? = some between := by
      rw [List.getLast?_cons, h.last]
    -- Where the two parts meet, the last value of the first one is `between`,
    -- and the second one starts with another value.
    obtain ⟨hmeet, hmore⟩ := List.isChain_cons.mp g.alternate
    rw [← List.cons_append]
    refine List.isChain_append.mpr ⟨h.alternate, hmore, fun x hx => ?_⟩
    obtain rfl := Option.mem_unique hx hlast
    exact hmeet

namespace Session

variable {σ : Type} {m : Model σ} {s t u : Session σ} {l : Listener}

/-- What a listener has heard, in order. -/
def heard (l : Listener) (s : Session σ) : List Event :=
  s.calls.filterMap (Call.heardBy? l)

/-- The value of an observable. -/
def read (s : Session σ) : Observable → Bool
  | .threeWay => s.threeWay
  | .ancestorVisible => s.ancestorVisible
  | .copyEnabled d => s.canCopy d

/-- A listener is registered, once. -/
def Listening (l : Listener) (s : Session σ) : Prop :=
  s.listeners.order.count l = 1

/-- The event that is heard when a flag is set, if that is a change. -/
def onChange (before after : Bool) (e : Event) : List Event :=
  if before = after then [] else [e]

theorem heard_announced (h : Listening l s) (e : Event) :
    (s.announced e).filterMap (Call.heardBy? l) = [e] := by
  have hheard : (s.announced e).filterMap (Call.heardBy? l)
      = List.replicate (s.listeners.order.count l) e := by
    unfold announced Listeners.fire
    induction s.listeners.order with
    | nil => rfl
    | cons other rest ih =>
      by_cases hl : other = l
      · simp_all [Call.heardBy?, List.replicate_succ]
      · simp_all [Call.heardBy?]
  rw [hheard, h]
  rfl

/-- A new layout is not heard. -/
theorem heard_announced_append (h : Listening l s) (e : Event) (shown : Bool) :
    (s.announced e ++ if shown then [Call.relayout] else []).filterMap
      (Call.heardBy? l) = [e] := by
  rw [List.filterMap_append, heard_announced h]
  cases shown <;> rfl

theorem heard_of_tells {calls : List Call} (h : ∀ c ∈ calls, c.tells = false) :
    calls.filterMap (Call.heardBy? l) = [] := by
  refine List.filterMap_eq_nil_iff.mpr fun c hc => ?_
  have := h c hc
  cases c <;> simp_all [Call.tells, Call.heardBy?]

theorem heard_flagCalls (h : Listening l s) (side : Side) (value : Bool) :
    (s.flagCalls side value).filterMap (Call.heardBy? l)
      = onChange (s.dirty.get side) value (.dirtyState value) := by
  unfold flagCalls onChange
  split
  · rfl
  · exact heard_announced h _

theorem heard_layoutCalls (h : Listening l s) (value : Bool) :
    (s.layoutCalls value).filterMap (Call.heardBy? l)
      = onChange s.threeWay value (.threeWay value) := by
  rw [layoutCalls, onChange, List.filterMap_cons_none rfl]
  split
  · rfl
  · exact heard_announced_append h _ _

theorem heard_toolCalls (h : Listening l s) (d : Direction) (value : Bool) :
    (s.toolCalls d value).filterMap (Call.heardBy? l)
      = onChange (s.canCopy d) value (.copyEnabled d value) := by
  rw [toolCalls, onChange, List.filterMap_cons_none rfl, canCopy]
  split
  · rfl
  · exact heard_announced h _

theorem heard_ancestorCalls (h : Listening l s) (value : Bool) :
    (s.ancestorCalls value).filterMap (Call.heardBy? l)
      = onChange s.ancestorVisible value (.ancestorVisible value) := by
  unfold ancestorCalls onChange
  split
  · rfl
  · exact heard_announced_append h _ _

/-- The events that are heard of a refresh. -/
def refreshEvents (m : Model σ) (s : Session σ) : List Event :=
  onChange s.threeWay (s.currentThreeWay m) (.threeWay (s.currentThreeWay m)) ++
    (onChange (s.canCopy .leftToRight) (s.currentEditable m .right)
        (.copyEnabled .leftToRight (s.currentEditable m .right)) ++
      onChange (s.canCopy .rightToLeft) (s.currentEditable m .left)
        (.copyEnabled .rightToLeft (s.currentEditable m .left)))

theorem heard_refreshCalls (h : Listening l s) :
    (s.refreshCalls m).filterMap (Call.heardBy? l) = s.refreshEvents m := by
  have hheaders : ((s.input.map fun input => s.headerCalls m input Pane.all).getD
      []).filterMap (Call.heardBy? l) = [] :=
    heard_of_tells fun c hc => tells_of_mem_currentHeaders hc
  rw [refreshCalls, List.filterMap_append, heard_layoutCalls h,
    List.filterMap_cons_none rfl, List.filterMap_append, hheaders, List.nil_append,
    List.filterMap_append, heard_toolCalls h, heard_toolCalls h]
  rfl

/-! ## What is heard accounts for what has changed -/

/-- What a listener hears on the way from one session to another accounts for
what has changed: as many dirty flags more are set as were announced to be,
less those announced to be cleared, and every observable is led from its old
value to its new one. -/
structure AccountedBy (l : Listener) (events : List Event) (s t : Session σ) :
    Prop where
  heard : t.heard l = s.heard l ++ events
  dirty : s.dirty.toList.count true + events.count (.dirtyState true)
    = t.dirty.toList.count true + events.count (.dirtyState false)
  leads : ∀ k : Observable,
    Leads (events.filterMap k.value?) (s.read k) (t.read k)

/-- Nothing is heard, and nothing has changed. -/
theorem AccountedBy.nil (heard : t.heard l = s.heard l) (dirty : t.dirty = s.dirty)
    (read : ∀ k, t.read k = s.read k) : AccountedBy l [] s t where
  heard := by rw [heard, List.append_nil]
  dirty := by rw [dirty]; rfl
  leads k := by rw [read k]; exact leads_nil _

theorem AccountedBy.trans {first more : List Event} (h : AccountedBy l first s t)
    (g : AccountedBy l more t u) : AccountedBy l (first ++ more) s u where
  heard := by rw [g.heard, h.heard, List.append_assoc]
  dirty := by
    have hdirty := h.dirty
    have gdirty := g.dirty
    rw [List.count_append, List.count_append]
    omega
  leads k := by
    rw [List.filterMap_append]
    exact (h.leads k).trans (g.leads k)

/-- The values that are heard of a flag lead to its new one. -/
theorem leads_onChange {k : Observable} {e : Event} {before after : Bool}
    (h : k.value? e = some after) :
    Leads ((onChange before after e).filterMap k.value?) before after := by
  unfold onChange
  split
  · rename_i hsame
    rw [hsame]
    exact leads_nil after
  · rename_i hne
    rw [List.filterMap_cons_some h]
    exact leads_change hne

/-- Of another one they say nothing. -/
theorem filterMap_onChange {k : Observable} {e : Event} (before after : Bool)
    (h : k.value? e = none) : (onChange before after e).filterMap k.value? = [] := by
  unfold onChange
  split
  · rfl
  · rw [List.filterMap_cons_none h, List.filterMap_nil]

theorem count_onChange {e : Event} {value : Bool} (before after : Bool)
    (h : e ≠ .dirtyState value) :
    (onChange before after e).count (.dirtyState value) = 0 := by
  unfold onChange
  split
  · rfl
  · exact List.count_singleton.trans (if_neg (by simpa using h))

/-- A dirty flag that is set is one more, and one that is cleared one less. -/
theorem count_set_dirty (dirty : Sided Bool) (side : Side) (value : Bool) :
    dirty.toList.count true + (onChange (dirty.get side) value
        (.dirtyState value)).count (.dirtyState true)
      = (dirty.set side value).toList.count true + (onChange (dirty.get side) value
        (.dirtyState value)).count (.dirtyState false) := by
  obtain ⟨left, right⟩ := dirty
  cases side <;> cases value <;> cases left <;> cases right <;> rfl

theorem accounted_setDirty (h : Listening l s) (side : Side) (value : Bool) :
    AccountedBy l (onChange (s.dirty.get side) value (.dirtyState value)) s
      (s.setDirty side value) := by
  rw [setDirty_eq]
  refine ⟨?_, count_set_dirty s.dirty side value, fun k => ?_⟩
  · rw [Session.heard, List.filterMap_append, heard_flagCalls h]
    rfl
  · rw [filterMap_onChange _ _ (by cases k <;> rfl)]
    cases k <;> exact leads_nil _

theorem accounted_refresh (m : Model σ) (h : Listening l s) :
    AccountedBy l (s.refreshEvents m) s (s.refresh m) := by
  have hheard := heard_refreshCalls (m := m) h
  rw [refresh_eq]
  refine ⟨?_, ?_, fun k => ?_⟩
  · rw [Session.heard, List.filterMap_append, hheard]
    rfl
  · simp [refreshEvents, List.count_append, count_onChange]
  · rw [refreshEvents, List.filterMap_append, List.filterMap_append]
    cases k with
    | threeWay =>
      rw [filterMap_onChange (s.canCopy .leftToRight) _ rfl,
        filterMap_onChange (s.canCopy .rightToLeft) _ rfl, List.append_nil,
        List.append_nil]
      exact leads_onChange rfl
    | ancestorVisible =>
      rw [filterMap_onChange _ _ rfl, filterMap_onChange _ _ rfl,
        filterMap_onChange _ _ rfl]
      exact leads_nil _
    | copyEnabled d =>
      rw [filterMap_onChange s.threeWay _ rfl, List.nil_append]
      cases d with
      | leftToRight =>
        rw [filterMap_onChange (s.canCopy .rightToLeft) _ rfl, List.append_nil]
        exact leads_onChange rfl
      | rightToLeft =>
        rw [filterMap_onChange (s.canCopy .leftToRight) _ rfl, List.nil_append]
        exact leads_onChange rfl

theorem accounted_setAncestorVisible (h : Listening l s) (value : Bool) :
    AccountedBy l (onChange s.ancestorVisible (s.visibleAfter value)
      (.ancestorVisible (s.visibleAfter value))) s (s.setAncestorVisible value).1 := by
  rw [setAncestorVisible_eq]
  refine ⟨?_, ?_, fun k => ?_⟩
  · rw [Session.heard, List.filterMap_append, heard_ancestorCalls h]
    rfl
  · simp [count_onChange]
  · cases k with
    | ancestorVisible => exact leads_onChange rfl
    | _ =>
      rw [filterMap_onChange _ _ rfl]
      exact leads_nil _

/-- **A move is accounted for** by what a listener hears of it. -/
theorem move_accounted (move : Move m s t) (h : Listening l s) :
    Listening l t ∧ ∃ events, AccountedBy l events s t := by
  cases move with
  | quiet hquiet =>
    obtain ⟨more, hcalls, hmore⟩ := hquiet.calls
    have hheard : t.heard l = s.heard l := by
      rw [Session.heard, hcalls, List.filterMap_append, heard_of_tells hmore,
        List.append_nil, Session.heard]
    rw [hquiet.frame] at hheard ⊢
    exact ⟨h, [], .nil hheard rfl fun k => by cases k <;> rfl⟩
  | flag side value =>
    refine ⟨?_, _, accounted_setDirty h side value⟩
    rw [setDirty_eq]
    exact h
  | refresh =>
    refine ⟨?_, _, accounted_refresh m h⟩
    rw [refresh_eq]
    exact h
  | ancestorPane value =>
    refine ⟨?_, _, accounted_setAncestorVisible h value⟩
    rw [setAncestorVisible_eq]
    exact h

/-! ## Runs -/

/-- A listener that is registered already stays so when another one comes or
goes, and is not registered twice when it comes again. -/
theorem listening_add (h : Listening l s) (other : Listener) :
    Listening l { s with listeners := (s.listeners.add other).1 } := by
  have hmem : l ∈ s.listeners.order := List.count_pos_iff.mp (by rw [h]; decide)
  unfold Listening Listeners.add
  split
  · exact h
  · rename_i hnew
    have hne : other ≠ l := fun heq => hnew (heq ▸ hmem)
    rw [List.count_append, h, List.count_singleton, if_neg (by simpa using hne)]

theorem listening_remove (h : Listening l s) {other : Listener} (hne : other ≠ l) :
    Listening l { s with listeners := (s.listeners.remove other).1 } := by
  unfold Listening Listeners.remove
  split
  · exact (List.count_filter (by simpa using hne.symm)).trans h
  · exact h

theorem step_accounted (m : Model σ) (h : Listening l s) {op : Operation σ}
    (hlive : op ≠ .dispose) (hkeeps : op ≠ .removeListener l) :
    Listening l (s.step m op).1 ∧ ∃ events, AccountedBy l events s (s.step m op).1 := by
  by_cases hop : op.KeepsListeners
  -- The invariant carries the way that lies behind, so that moves add up.
  · refine (step_moves m s hop).keeps
      (P := fun t => Listening l t ∧ ∃ events, AccountedBy l events s t)
      (fun move ⟨ht, events, haccounted⟩ => ?_)
      ⟨h, [], .nil rfl rfl fun _ => rfl⟩
    obtain ⟨hu, more, hmore⟩ := move_accounted move ht
    exact ⟨hu, events ++ more, haccounted.trans hmore⟩
  · have hquiet : AccountedBy l [] s (s.step m op).1 := by
      obtain ⟨listeners, hstep⟩ := step_listeners m s hop hlive
      rw [hstep]
      exact .nil rfl rfl fun k => by cases k <;> rfl
    refine ⟨?_, [], hquiet⟩
    cases op with
    | addListener other => exact listening_add h other
    | removeListener other =>
      exact listening_remove h fun heq => hkeeps (congrArg _ heq)
    | dispose => exact absurd rfl hlive
    | _ => exact absurd trivial hop

theorem run_accounted (m : Model σ) (h : Listening l s) {ops : List (Operation σ)}
    (hops : ∀ op ∈ ops, op ≠ .dispose ∧ op ≠ .removeListener l) :
    ∃ events, AccountedBy l events s (s.run m ops) := by
  refine (run_induction (m := m)
    (P := fun t => Listening l t ∧ ∃ events, AccountedBy l events s t)
    ⟨h, [], .nil rfl rfl fun _ => rfl⟩
    fun t op hop ⟨ht, events, haccounted⟩ => ?_).2
  obtain ⟨hu, more, hmore⟩ := step_accounted m ht (hops op hop).1 (hops op hop).2
  exact ⟨hu, events ++ more, haccounted.trans hmore⟩

/-- **What a listener hears adds up to what there is to see.** Take a listener
that is registered before anything happens and is never taken off, in a viewer
that is not disposed of, whatever else is done to it and however that ends.
The dirty flags that it has heard of being set are those it has heard of being
cleared, and as many more as there are dirty sides; of everything else that is
announced the last value heard is the one that holds, or else the one that was
configured, and no value is heard twice in a row. -/
theorem events_account_for_state (m : Model σ) {settings : Settings} {state : σ}
    {confirmer : Confirmer} {start : Session σ}
    (hstart : start? settings state confirmer = .ok start) (l : Listener)
    {ops : List (Operation σ)}
    (hops : ∀ op ∈ ops, op ≠ .dispose ∧ op ≠ .removeListener l) :
    let s := start.run m (.addListener l :: ops)
    (s.heard l).count (.dirtyState true)
      = (s.heard l).count (.dirtyState false) + s.dirty.toList.count true ∧
    ∀ k : Observable,
      Leads ((s.heard l).filterMap k.value?) (k.configured settings) (s.read k) := by
  intro s
  obtain ⟨-, hdirty, -⟩ := start?_eq hstart
  obtain ⟨hthreeWay, hcopy, hvisible, hlisteners, hcalls⟩ := start?_told hstart
  have hlistening : Listening l (start.step m (.addListener l)).1 := by
    simp [step, Listening, Listeners.add, hlisteners]
  obtain ⟨events, haccounted⟩ :
      ∃ events, AccountedBy l events (start.step m (.addListener l)).1 s :=
    run_accounted m hlistening hops
  have hheard : s.heard l = events := by
    have hnone : (start.step m (.addListener l)).1.heard l = [] := by
      simp [step, Session.heard, hcalls]
    rw [haccounted.heard, hnone, List.nil_append]
  have hread : ∀ k, (start.step m (.addListener l)).1.read k = k.configured settings := by
    intro k
    cases k with
    | threeWay => exact hthreeWay
    | ancestorVisible => exact hvisible
    | copyEnabled d =>
      cases d <;> simp [step, read, canCopy, hcopy, Sided.get, Observable.configured,
        Direction.target, Direction.source, Side.opposite]
  have hclean : (start.step m (.addListener l)).1.dirty.toList.count true = 0 := by
    simp [step, hdirty, Sided.toList]
  rw [hheard]
  refine ⟨?_, fun k => ?_⟩
  · have hbalance := haccounted.dirty
    rwa [hclean, Nat.zero_add, Nat.add_comm] at hbalance
  · have hleads := haccounted.leads k
    rwa [hread] at hleads

/-- A document with an ancestor, of which the left side cannot be saved. Both
sides are edited, saving them works out for the right one only, turning the
view is called off, and unbinding the document fails. -/
theorem events_of_refused_and_cancelled :
    let m := (Model.shelf Document).guarded
    let guarded : Model.Guarded (Shelf Document) :=
      ⟨⟨[{ contents := ⟨some ⟨#[97]⟩, none, none⟩ }], ⟨true, true⟩⟩,
        ⟨some (.rejected .left "locked"), none⟩⟩
    let ops : List (Operation (Model.Guarded (Shelf Document))) :=
      [.bind (some 0), .applyEdit .left ⟨#[98]⟩, .applyEdit .right ⟨#[99]⟩,
        .flushAll, .setMirrored true, .bind none, .setAncestorVisible false]
    ∃ start s, start? { viewer := { ancestorVisible := true } } guarded
        (.scripted [.cancel, .save]) = .ok start ∧
      s = start.run m (.addListener 0 :: ops) ∧
      replies m (start.step m (.addListener 0)).1 ops =
        [.outcome .switched, .done, .done, .failed (.rejected .left "locked"),
          .outcome .cancelled, .failed (.rejected .left "locked"), .flag true] ∧
      s.heard 0 =
        [.threeWay true, .copyEnabled .leftToRight true,
          .copyEnabled .rightToLeft true, .dirtyState true, .dirtyState true,
          .dirtyState false, .ancestorVisible false] ∧
      (s.heard 0).count (.dirtyState true)
        = (s.heard 0).count (.dirtyState false) + s.dirty.toList.count true ∧
      ∀ k : Observable,
        Leads ((s.heard 0).filterMap k.value?)
          (k.configured { viewer := { ancestorVisible := true } }) (s.read k) := by
  intro m guarded ops
  obtain ⟨start, hstart, hreplies, hheard⟩ :
      ∃ start, start? { viewer := { ancestorVisible := true } } guarded
        (.scripted [.cancel, .save]) = .ok start ∧
      replies m (start.step m (.addListener 0)).1 ops =
        [.outcome .switched, .done, .done, .failed (.rejected .left "locked"),
          .outcome .cancelled, .failed (.rejected .left "locked"), .flag true] ∧
      (start.run m (.addListener 0 :: ops)).heard 0 =
        [.threeWay true, .copyEnabled .leftToRight true,
          .copyEnabled .rightToLeft true, .dirtyState true, .dirtyState true,
          .dirtyState false, .ancestorVisible false] :=
    ⟨_, rfl, by decide +kernel⟩
  have hops : ∀ op ∈ ops, op ≠ .dispose ∧ op ≠ .removeListener 0 := by
    simp only [ops, List.mem_cons, List.not_mem_nil, or_false, forall_eq_or_imp,
      forall_eq]
    exact ⟨⟨nofun, nofun⟩, ⟨nofun, nofun⟩, ⟨nofun, nofun⟩, ⟨nofun, nofun⟩,
      ⟨nofun, nofun⟩, ⟨nofun, nofun⟩, nofun, nofun⟩
  obtain ⟨hdirty, hleads⟩ := events_account_for_state m hstart 0 hops
  exact ⟨start, _, hstart, rfl, hreplies, hheard, hdirty, hleads⟩

end Session

end Reconcile
