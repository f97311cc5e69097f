/-
Reconcile.Proofs.Session.FollowsInput — what a viewer shows follows the bound
input.

Three things are derived from the bound input: whether it is compared three-way
(`Model.ComparesThreeWay` lists the reasons), which copies are possible, and
what is in the panes. The first two hold at all times (`follows_step`,
`follows_run`). A refresh takes them from the state, and nothing that happens
between two refreshes has a bearing on them, as long as saves and changes made
by others leave what the inputs are as it is (`Model.Steady`,
`Operation.KeepsFacts`). Whoever draws the viewer is told of both by a refresh
and by nothing else (`told_move`).

The panes are another matter, since they are edited. They show what is stored
right after an operation that has replaced what is shown (`Renews.showsInput`).

`view_follows_bound_input` is all of this, for every run.
-/
import Reconcile.Proofs.Session.Moves

namespace Reconcile

/-! ## What an input calls for -/

/-- A kind was found by comparing with an ancestor if it has a direction bit. -/
theorem ChangeKind.isThreeWay_iff (k : ChangeKind) :
    k.isThreeWay = true ↔ k.contains .left = true ∨ k.contains .right = true := by
  obtain ⟨bits⟩ := k
  revert bits
  decide

/-- Why an input is compared three-way. Its ancestor counts only if there is
no change kind to go by. -/
inductive Model.ComparesThreeWay {σ : Type} (m : Model σ) (state : σ)
    (input : Place) : Prop where
  | hunk (h : m.isHunk state input = true)
  | kind {kind : ChangeKind} (h : m.kind? state input = some kind)
      (direction : kind.contains .left = true ∨ kind.contains .right = true)
  | ancestor (h : m.kind? state input = none)
      (present : (m.content state .ancestor input).isSome = true)

/-- If it is done by someone else, it leaves the inputs what they are; the
content of their sides may change. -/
def Operation.KeepsFacts {σ : Type} (m : Model σ) : Operation σ → Prop
  | .elsewhere change => ∀ s, m.SameFacts s (change s)
  | _ => True

/-- The value in a call that says whether the ancestor pane can be shown. -/
def Call.available? : Call → Option Bool
  | ancestorAvailable value => some value
  | _ => none

/-- The value in a call that says whether copying in a direction is possible. -/
def Call.copyable? (d : Direction) : Call → Option Bool
  | copyEnabled e value => if e = d then some value else none
  | _ => none

/-- Whether a call is only ever made by a refresh. -/
def Call.refreshes : Call → Bool
  | content .. | ancestorAvailable .. | copyEnabled .. => true
  | _ => false

theorem Call.refreshes_of_tells {c : Call} (h : c.tells = false) :
    c.refreshes = false := by
  cases c <;> simp_all [tells, refreshes]

namespace Session

variable {σ : Type} {m : Model σ} {s t : Session σ}

theorem isThreeWay_iff (m : Model σ) (state : σ) (input : Place) :
    isThreeWay m state input = true ↔ m.ComparesThreeWay state input := by
  simp only [isThreeWay, Bool.or_eq_true]
  constructor
  · rintro (h | h)
    · exact .hunk h
    · cases hk : m.kind? state input with
      | some kind =>
        rw [hk] at h
        exact .kind hk ((ChangeKind.isThreeWay_iff kind).mp h)
      | none =>
        rw [hk] at h
        exact .ancestor hk h
  · rintro (h | ⟨hk, h⟩ | ⟨hk, h⟩)
    · exact .inl h
    · rw [hk]
      exact .inr ((ChangeKind.isThreeWay_iff _).mpr h)
    · rw [hk]
      exact .inr h

theorem currentThreeWay_iff (m : Model σ) (s : Session σ) :
    s.currentThreeWay m = true ↔
      ∃ input, s.input = some input ∧ m.ComparesThreeWay s.state input := by
  unfold currentThreeWay
  cases s.input with
  | none => simp
  | some input => simpa using isThreeWay_iff m s.state input

theorem currentEditable_iff (m : Model σ) (s : Session σ) (side : Side) :
    s.currentEditable m side = true ↔
      ∃ input, s.input = some input ∧
        m.editable s.state (side.oriented s.mirrored) input = true := by
  unfold currentEditable
  cases s.input with
  | none => simp
  | some input => simp [view, Model.editable_oriented]

theorem get_currentPanes (m : Model σ) (s : Session σ) (pane : Pane) :
    (s.currentPanes m).get pane
      = s.input.bind (m.content s.state (pane.oriented s.mirrored) ·) := by
  unfold currentPanes
  cases s.input with
  | none => cases pane <;> rfl
  | some input => simp [view, Model.content_oriented]

/-! ## The flags follow the input -/

/-- The flags are what a refresh would make of them. -/
structure Coherent (m : Model σ) (s : Session σ) : Prop where
  threeWay : s.threeWay = s.currentThreeWay m
  copyEnabled : ∀ side, s.copyEnabled.get side = s.currentEditable m side

/-- They stay so while the input, the mirroring and what the inputs are do. -/
theorem Coherent.of_sameFacts (h : Coherent m s)
    (facts : m.SameFacts s.state t.state) (hinput : t.input = s.input)
    (hmirrored : t.mirrored = s.mirrored) (hthreeWay : t.threeWay = s.threeWay)
    (hcopy : t.copyEnabled = s.copyEnabled) : Coherent m t where
  threeWay := by
    rw [hthreeWay, h.threeWay, currentThreeWay, currentThreeWay, hinput]
    cases s.input with
    | none => rfl
    | some input =>
      simp only [isThreeWay, facts.isHunk, facts.kind?, facts.ancestor]
  copyEnabled side := by
    rw [hcopy, h.copyEnabled, currentEditable, currentEditable, hinput]
    cases s.input with
    | none => rfl
    | some input =>
      simp only [view, Model.editable_oriented, hmirrored, facts.editable]

theorem coherent_refresh (m : Model σ) (s : Session σ) : Coherent m (s.refresh m) := by
  rw [refresh_eq]
  exact ⟨rfl, fun side => by cases side <;> rfl⟩

theorem sameFacts_carryOut (hm : m.Steady) (calls : List Call) (state : σ) :
    m.SameFacts state (m.carryOut state calls) :=
  Model.carryOut_keeps (P := m.SameFacts state)
    (fun hsave h => h.trans (hm hsave)) calls (.refl m state)

theorem Dealt.coherent (hm : m.Steady) (h : Dealt m s t) (hs : Coherent m s) :
    Coherent m t := by
  rcases h with rfl | ⟨input, -, h⟩
  · exact hs
  · obtain ⟨made, -, hstate, -⟩ := h.calls
    have facts := sameFacts_carryOut hm made s.state
    rw [← hstate] at facts
    rw [h.frame]
    exact hs.of_sameFacts facts rfl rfl rfl rfl

theorem Switching.coherent (hm : m.Steady) {next : Session σ → Session σ}
    {r : Except SaveError SwitchOutcome} (ends : Switching m next s t r)
    (hnext : ∀ u, Coherent m (next u)) (hs : Coherent m s) : Coherent m t := by
  cases ends with
  | failed resolved => exact resolved.dealt.coherent hm hs
  | cancelled resolved => exact resolved.dealt.coherent hm hs
  | switched => exact hnext _

theorem ChangedOutside.coherent (hm : m.Steady) {r : Except SaveError Unit}
    (ends : ChangedOutside m s t r) (hs : Coherent m s) : Coherent m t := by
  cases ends with
  | unbound => exact hs
  | saving => exact hs
  | failed h _ resolved => exact Dealt.coherent hm (.inr ⟨_, h, resolved.settled⟩) hs
  | dropped => exact coherent_refresh m _
  | shown => exact coherent_refresh m _

/-- **An operation keeps the flags as the bound input has them**; to dispose
of the viewer does not, since it lets go of the input and shows nothing
anew. -/
theorem coherent_step (hm : m.Steady) {op : Operation σ} (hop : op.KeepsFacts m)
    (hlive : op ≠ .dispose) (hs : Coherent m s) : Coherent m (s.step m op).1 := by
  have hends := step_ends m s op
  generalize (s.step m op).1 = u, (s.step m op).2 = reply at hends ⊢
  cases hends with
  | aside h =>
    rw [h.frame]
    exact hs.of_sameFacts (.refl m _) rfl rfl rfl rfl
  | flagged side value =>
    rw [setDirty_eq]
    exact hs.of_sameFacts (.refl m _) rfl rfl rfl rfl
  | edited side bytes =>
    rw [applyEdit_eq]
    exact hs.of_sameFacts (.refl m _) rfl rfl rfl rfl
  | copied d _ =>
    rw [applyEdit_eq]
    exact hs.of_sameFacts (.refl m _) rfl rfl rfl rfl
  | flushed h ends => exact Dealt.coherent hm (.inr ⟨_, h, ends.settled⟩) hs
  | flushedAll h ends => exact Dealt.coherent hm (.inr ⟨_, h, ends.settled⟩) hs
  | refreshed => exact coherent_refresh m s
  | bound _ ends => exact ends.coherent hm (fun _ => coherent_refresh m _) hs
  | turned _ ends => exact ends.coherent hm (fun _ => coherent_refresh m _) hs
  | changed _ ends => exact ends.coherent hm hs
  | disposed => exact absurd rfl hlive
  | elsewhere change => exact hs.of_sameFacts (hop s.state) rfl rfl rfl rfl

/-! ## What the viewer is drawn by -/

/-- The panes have been read anew at least once. -/
def Refreshed (s : Session σ) : Prop := ∃ panes, .content panes ∈ s.calls

/-- The last value that was told in some kind of call. -/
def lastTold (value? : Call → Option Bool) (s : Session σ) : Option Bool :=
  (s.calls.filterMap value?).getLast?

/-- What was told last of the flags is what they are. -/
structure Told (s : Session σ) : Prop where
  threeWay : s.lastTold Call.available? = some s.threeWay
  canCopy : ∀ d, s.lastTold (Call.copyable? d) = some (s.canCopy d)

theorem available?_of_refreshes {c : Call} (h : c.refreshes = false) :
    c.available? = none := by
  cases c <;> simp_all [Call.refreshes, Call.available?]

theorem copyable?_of_refreshes {c : Call} (h : c.refreshes = false)
    (d : Direction) : c.copyable? d = none := by
  cases c <;> simp_all [Call.refreshes, Call.copyable?]

theorem filterMap_available? {calls : List Call}
    (h : ∀ c ∈ calls, c.refreshes = false) : calls.filterMap Call.available? = [] :=
  List.filterMap_eq_nil_iff.mpr fun c hc => available?_of_refreshes (h c hc)

theorem filterMap_copyable? {calls : List Call}
    (h : ∀ c ∈ calls, c.refreshes = false) (d : Direction) :
    calls.filterMap (Call.copyable? d) = [] :=
  List.filterMap_eq_nil_iff.mpr fun c hc => copyable?_of_refreshes (h c hc) d

/-- As long as nothing is refreshed, what was told stays the last word. -/
theorem told_of_calls {more : List Call} (hcalls : t.calls = s.calls ++ more)
    (hmore : ∀ c ∈ more, c.refreshes = false) (hthreeWay : t.threeWay = s.threeWay)
    (hcopy : t.copyEnabled = s.copyEnabled) (h : s.Refreshed → s.Told)
    (ht : t.Refreshed) : t.Told := by
  obtain ⟨panes, hpanes⟩ := ht
  rw [hcalls, List.mem_append] at hpanes
  have hs : s.Refreshed :=
    ⟨panes, hpanes.resolve_right fun hmem => nomatch hmore _ hmem⟩
  constructor
  · rw [lastTold, hcalls, List.filterMap_append, filterMap_available? hmore,
      List.append_nil, hthreeWay]
    exact (h hs).threeWay
  · intro d
    rw [lastTold, hcalls, List.filterMap_append, filterMap_copyable? hmore,
      List.append_nil, canCopy, hcopy]
    exact (h hs).canCopy d

theorem refreshes_of_mem_ancestorCalls {value : Bool} {c : Call}
    (h : c ∈ s.ancestorCalls value) : c.refreshes = false := by
  unfold ancestorCalls at h
  split at h
  · simp at h
  · rcases eq_event_or_relayout_of_mem h with ⟨l, rfl⟩ | rfl <;> rfl

/-- The three-way flag is told, and then nothing but events and a layout. -/
theorem layoutCalls_eq (s : Session σ) (value : Bool) :
    ∃ more, s.layoutCalls value = .ancestorAvailable value :: more ∧
      ∀ c ∈ more, c.refreshes = false := by
  refine ⟨_, rfl, fun c hc => ?_⟩
  split at hc
  · simp at hc
  · rcases eq_event_or_relayout_of_mem hc with ⟨l, rfl⟩ | rfl <;> rfl

theorem toolCalls_eq (s : Session σ) (d : Direction) (value : Bool) :
    ∃ more, s.toolCalls d value = .copyEnabled d value :: more ∧
      ∀ c ∈ more, c.refreshes = false := by
  refine ⟨_, rfl, fun c hc => ?_⟩
  split at hc
  · simp at hc
  · obtain ⟨l, rfl⟩ := eq_event_of_mem_announced hc
    rfl

/-- A refresh tells what it has found. -/
theorem told_refresh (m : Model σ) (s : Session σ) : (s.refresh m).Told := by
  -- Each part of the log begins with the one call that tells its flag; what
  -- else is in it, and the headers in between, tell of none.
  obtain ⟨layout, hlayout, hlayoutQuiet⟩ :=
    layoutCalls_eq s (s.currentThreeWay m)
  obtain ⟨right, hright, hrightQuiet⟩ :=
    toolCalls_eq s .leftToRight (s.currentEditable m .right)
  obtain ⟨left, hleft, hleftQuiet⟩ :=
    toolCalls_eq s .rightToLeft (s.currentEditable m .left)
  have hheaders : ∀ c ∈ (s.input.map (s.headerCalls m · Pane.all)).getD [],
      c.refreshes = false :=
    fun c hc => Call.refreshes_of_tells (tells_of_mem_currentHeaders hc)
  rw [refresh_eq]
  simp only [refreshCalls, hlayout, hright, hleft]
  constructor
  · simp [lastTold, List.filterMap_append, List.filterMap_cons, Call.available?,
      filterMap_available? hlayoutQuiet, filterMap_available? hrightQuiet,
      filterMap_available? hleftQuiet, filterMap_available? hheaders]
  · intro d
    cases d <;>
      simp [lastTold, canCopy, Direction.target, Direction.source, Side.opposite,
        Sided.get, List.filterMap_append, List.filterMap_cons, Call.copyable?,
        filterMap_copyable? hlayoutQuiet, filterMap_copyable? hrightQuiet,
        filterMap_copyable? hleftQuiet, filterMap_copyable? hheaders]

/-- **What was told last of the flags is what they are**, from the first
refresh on. -/
theorem told_move (move : Move m s t) (h : s.Refreshed → s.Told) :
    t.Refreshed → t.Told := by
  cases move with
  | quiet hquiet =>
    obtain ⟨more, hcalls, hmore⟩ := hquiet.calls
    exact told_of_calls hcalls (fun c hc => Call.refreshes_of_tells (hmore c hc))
      (by rw [hquiet.frame]) (by rw [hquiet.frame]) h
  | flag side value =>
    rw [setDirty_eq]
    refine told_of_calls rfl (fun c hc => ?_) rfl rfl h
    obtain ⟨l, rfl⟩ := eq_event_of_mem_flagCalls hc
    rfl
  | refresh => exact fun _ => told_refresh m s
  | ancestorPane value =>
    rw [setAncestorVisible_eq]
    exact told_of_calls rfl (fun c hc => refreshes_of_mem_ancestorCalls hc) rfl rfl h

theorem told_step {op : Operation σ} (hlive : op ≠ .dispose)
    (h : s.Refreshed → s.Told) :
    (s.step m op).1.Refreshed → (s.step m op).1.Told := by
  by_cases hop : op.KeepsListeners
  · exact (step_moves m s hop).keeps told_move h
  · obtain ⟨listeners, hstep⟩ := step_listeners m s hop hlive
    rw [hstep]
    exact told_of_calls (List.append_nil s.calls).symm (by simp) rfl rfl h

/-! ## At all times -/

/-- What a viewer shows and allows is what the bound input calls for; without
an input it is two-way and allows no copy. Whoever draws it knows that, from
the first refresh on. -/
structure FollowsInput (m : Model σ) (s : Session σ) : Prop where
  threeWay : s.threeWay = true ↔
    ∃ input, s.input = some input ∧ m.ComparesThreeWay s.state input
  canCopy : ∀ d, s.canCopy d = true ↔
    ∃ input, s.input = some input ∧
      m.editable s.state (d.target.oriented s.mirrored) input = true
  told : s.Refreshed → s.Told

theorem Coherent.followsInput (h : Coherent m s) (told : s.Refreshed → s.Told) :
    FollowsInput m s where
  threeWay := by
    rw [h.threeWay]
    exact currentThreeWay_iff m s
  canCopy d := by
    rw [canCopy, h.copyEnabled]
    exact currentEditable_iff m s d.target
  told := told

theorem coherent_start {settings : Settings} {state : σ} {confirmer : Confirmer}
    {start : Session σ} (h : start? settings state confirmer = .ok start) :
    Coherent m start := by
  obtain ⟨hinput, -⟩ := start?_eq h
  obtain ⟨hthreeWay, hcopy, -⟩ := start?_told h
  constructor
  · rw [hthreeWay, currentThreeWay, hinput]
  · intro side
    rw [hcopy, currentEditable, hinput]
    cases side <;> rfl

theorem followsInput_run (hm : m.Steady) {settings : Settings} {state : σ}
    {confirmer : Confirmer} {start : Session σ}
    (hstart : start? settings state confirmer = .ok start)
    {ops : List (Operation σ)}
    (hops : ∀ op ∈ ops, op ≠ .dispose ∧ op.KeepsFacts m) :
    FollowsInput m (start.run m ops) := by
  obtain ⟨-, -, -, -, hcalls⟩ := start?_told hstart
  have hquiet : start.Refreshed → start.Told := by
    rintro ⟨panes, hpanes⟩
    simp [hcalls] at hpanes
  obtain ⟨hcoherent, htold⟩ := run_induction (m := m)
    (P := fun t => Coherent m t ∧ (t.Refreshed → t.Told))
    ⟨coherent_start hstart, hquiet⟩
    fun t op hop ⟨hcoherent, htold⟩ =>
      ⟨coherent_step hm (hops op hop).2 (hops op hop).1 hcoherent,
        told_step (hops op hop).1 htold⟩
  exact hcoherent.followsInput htold

/-! ## Right after what is shown is replaced -/

/-- An operation replaces what is shown, and says so. A view that is turned is
of an input here. -/
inductive Renews (m : Model σ) (s : Session σ) : Operation σ → Prop where
  | bind (input : Option Place)
      (switched : (s.step m (.bind input)).2 = .outcome .switched) :
      Renews m s (.bind input)
  | setMirrored {input : Place} (h : s.input = some input) (value : Bool)
      (switched : (s.step m (.setMirrored value)).2 = .outcome .switched) :
      Renews m s (.setMirrored value)
  /-- A change from outside is not ignored. -/
  | externalChange {input : Place} (h : s.input = some input)
      (idle : s.registry.isSaving = false)
      (done : (s.step m .externalChange).2 = .done) : Renews m s .externalChange
  | inputChanged {input : Place} (h : s.input = some input)
      (idle : s.registry.isSaving = false)
      (done : (s.step m (.inputChanged input)).2 = .done) :
      Renews m s (.inputChanged input)

/-- The panes show what the bound input holds, seen through the mirroring, and
nothing if no input is bound; they have been drawn, and no edit is pending. -/
structure ShowsInput (m : Model σ) (s : Session σ) : Prop where
  panes : ∀ pane, s.panes.get pane
    = s.input.bind (m.content s.state (pane.oriented s.mirrored) ·)
  drawn : .content s.panes ∈ s.calls
  clean : s.dirty = ⟨false, false⟩

theorem showsInput_refresh (m : Model σ) {s : Session σ}
    (h : s.dirty = ⟨false, false⟩) : ShowsInput m (s.refresh m) := by
  rw [refresh_eq]
  exact ⟨get_currentPanes m s, by simp [refreshCalls], h⟩

theorem showsInput_rebind (m : Model σ) (input : Option Place) (s : Session σ) :
    ShowsInput m (s.rebind m input) :=
  showsInput_refresh m (by rw [acquire_eq, clearDirty_eq])

theorem ChangedOutside.showsInput {r : Except SaveError Unit} {input : Place}
    (ends : ChangedOutside m s t r) (h : s.input = some input)
    (idle : s.registry.isSaving = false) (done : Reply.ofUnit r = .done) :
    ShowsInput m t := by
  cases ends with
  | unbound hnone => simp [h] at hnone
  | saving hsaving => simp [idle] at hsaving
  | failed => simp [Reply.ofUnit] at done
  | dropped => exact showsInput_refresh m (by rw [clearDirty_eq])
  | shown _ _ resolved hr => exact showsInput_refresh m (resolved.dirty_eq hr)

theorem Switching.of_switched {next : Session σ → Session σ}
    {r : Except SaveError SwitchOutcome} (ends : Switching m next s t r)
    (hr : r = .ok .switched) :
    ∃ u done, ResolvedBound m .inputSwitch s u (.ok done) ∧ done ≠ .cancelled ∧
      t = next u := by
  cases ends with
  | failed => simp at hr
  | cancelled => simp at hr
  | switched resolved hdone => exact ⟨_, _, resolved, hdone, rfl⟩

/-- **When what is shown has been replaced**, it is what is stored by then. -/
theorem Renews.showsInput {op : Operation σ} (h : Renews m s op) :
    ShowsInput m (s.step m op).1 := by
  cases h with
  | bind input switched =>
    have hr : (s.bind m input).2 = .ok .switched := Reply.ok_of_ofOutcome switched
    by_cases hsame : s.input = input
    · simp [Session.bind, hsame] at hr
    · obtain ⟨u, -, -, -, hnext⟩ := (bind_ends hsame).of_switched hr
      rw [step, Prod.map_fst, id, hnext]
      exact showsInput_rebind m input u
  | setMirrored hin value switched =>
    have hr : (s.setMirrored m value).2 = .ok .switched :=
      Reply.ok_of_ofOutcome switched
    by_cases hsame : s.mirrored = value
    · simp [Session.setMirrored, hsame] at hr
    · obtain ⟨u, done, resolved, hdone, hnext⟩ :=
        (setMirrored_ends hsame).of_switched hr
      have hinput : u.input = s.input := by rw [resolved.dealt.frame]
      rw [step, Prod.map_fst, id, hnext]
      exact showsInput_refresh m (resolved.dirty_eq hdone (hinput.trans hin))
  | externalChange hin idle done =>
    exact (externalChange_ends m s).showsInput hin idle done
  | @inputChanged input hin idle done =>
    have hchange : s.inputChanged m input = s.externalChange m := if_pos hin
    simp only [step, hchange] at done ⊢
    exact (externalChange_ends m s).showsInput hin idle done

/-- **What a viewer shows follows the bound input.** Before it is disposed of,
and whatever else is done to it, a viewer is three-way and allows a copy
exactly when the bound input calls for it, and never without an input; from
the first refresh on that is also the last thing that whoever draws it was
told. Right after an operation that has replaced what is shown, no edit is
pending and all three panes hold what is stored by then, wherever the run has
led before. -/
theorem view_follows_bound_input (hm : m.Steady) {settings : Settings}
    {state : σ} {confirmer : Confirmer} {start : Session σ}
    (hstart : start? settings state confirmer = .ok start)
    (ops : List (Operation σ)) :
    ((∀ op ∈ ops, op ≠ .dispose ∧ op.KeepsFacts m) →
      FollowsInput m (start.run m ops)) ∧
    ∀ op, Renews m (start.run m ops) op →
      ShowsInput m (start.run m (ops ++ [op])) := by
  -- The panes need no invariant: they are read in the last operation itself.
  refine ⟨followsInput_run hm hstart, fun op h => ?_⟩
  rw [run_snoc]
  exact h.showsInput

/-- A document of which the right side may not be edited. The left side is
edited, the right one goes missing in the meantime, and then the view is turned,
for which the edit is saved. -/
theorem turned_view_of_read_only_side :
    let m := Model.shelf Document
    let shelf : Shelf Document :=
      ⟨[{ contents := ⟨some ⟨#[97]⟩, some ⟨#[97]⟩, some ⟨#[98]⟩⟩ }], ⟨true, false⟩⟩
    let ops : List (Operation (Shelf Document)) :=
      [.bind (some 0), .applyEdit .left ⟨#[99]⟩,
        .elsewhere (·.setContent 0 .right none)]
    ∃ start t, start? {} shelf (.fixed .save) = .ok start ∧
      t = start.run m (ops ++ [.setMirrored true]) ∧
      t.input = some 0 ∧ t.mirrored = true ∧ t.threeWay = true ∧
      t.canCopy .leftToRight = true ∧ t.canCopy .rightToLeft = false ∧
      t.panes = ⟨some ⟨#[97]⟩, none, some ⟨#[99]⟩⟩ ∧
      FollowsInput m t ∧ ShowsInput m t := by
  intro m shelf ops
  obtain ⟨start, hstart, hin, hreply, hfacts⟩ :
      ∃ start, start? {} shelf (.fixed .save) = .ok start ∧
      (start.run m ops).input = some 0 ∧
      ((start.run m ops).step m (.setMirrored true)).2 = .outcome .switched ∧
      (start.run m (ops ++ [.setMirrored true])).input = some 0 ∧
      (start.run m (ops ++ [.setMirrored true])).mirrored = true ∧
      (start.run m (ops ++ [.setMirrored true])).threeWay = true ∧
      (start.run m (ops ++ [.setMirrored true])).canCopy .leftToRight = true ∧
      (start.run m (ops ++ [.setMirrored true])).canCopy .rightToLeft = false ∧
      (start.run m (ops ++ [.setMirrored true])).panes
        = ⟨some ⟨#[97]⟩, none, some ⟨#[99]⟩⟩ :=
    ⟨_, rfl, by decide +kernel⟩
  have hops : ∀ op ∈ ops ++ [.setMirrored true],
      op ≠ .dispose ∧ op.KeepsFacts m := by
    simp only [ops, List.cons_append, List.nil_append, List.mem_cons,
      List.not_mem_nil, or_false, forall_eq_or_imp, forall_eq]
    exact ⟨⟨nofun, trivial⟩, ⟨nofun, trivial⟩,
      ⟨nofun, fun shelf => shelf.sameFacts_setContent 0 .right none⟩, nofun, trivial⟩
  obtain ⟨-, hshows⟩ := view_follows_bound_input (m := m) steady_shelf hstart ops
  obtain ⟨hfollows, -⟩ := view_follows_bound_input (m := m) steady_shelf hstart
    (ops ++ [.setMirrored true])
  obtain ⟨htin, htmirrored, hthreeWay, hright, hleft, hpanes⟩ := hfacts
  exact ⟨start, _, hstart, rfl, htin, htmirrored, hthreeWay, hright, hleft, hpanes,
    hfollows hops, hshows _ (.setMirrored hin true hreply)⟩

end Session

end Reconcile
