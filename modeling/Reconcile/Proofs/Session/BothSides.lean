/-
Reconcile.Proofs.Session.BothSides — no side disappears while its counterpart
exists.

A flush takes a side away in two cases: its pane shows nothing at all, or it is
empty and the other side has no content. Neither can come up for an input that
has content on both sides. The panes of a bound input are filled from it, and
an edit puts bytes into them, if no more than none; and the other side is not
the first one to disappear. So there is one invariant for what is stored and
what is shown (`Stocked`), and every operation keeps it (`stocked_step`).

Where inputs are kept apart, that is so of each input on its own, whatever
becomes of the others; a comparison of files has the one input only.
`Model.Stocks` is what the argument asks of a model: which inputs are kept in
one place, and that a save keeps what there is unless it takes content away.
-/
import Mathlib.Data.List.Induction
import Reconcile.Proofs.Model.Loading
import Reconcile.Proofs.Session.Filled
import Reconcile.Proofs.Session.Seen

namespace Reconcile

/-! ## Models that keep both sides -/

/-- States that `have` an input with content on both of its sides, and keep it
so unless a save takes content away. A save of an input is a save of every
other one that is kept in the same place. -/
structure Model.Stocks {σ : Type} (m : Model σ) (same : Place → Place → Prop)
    (has : σ → Place → Prop) : Prop where
  full : ∀ {s : σ} {place input : Place}, has s place → same place input →
    m.Full s input
  save : ∀ {s t : σ} {place input : Place} {side : Side} {bytes : Option ByteArray},
    has s place → m.save s side input bytes = .ok t →
    (same place input → bytes.isSome) → has t place

theorem stocks_guarded {σ : Type} {m : Model σ} {same : Place → Place → Prop}
    {has : σ → Place → Prop} (hm : m.Stocks same has) :
    m.guarded.Stocks same fun g => has g.state where
  full h hsame := hm.full h hsame
  save h hsave hbytes := hm.save h (Model.save_guarded hsave) hbytes

/-- In memory every input has a place of its own. -/
theorem stocks_shelf {α : Type} [Subject α] [LawfulSubject α] :
    (Model.shelf α).Stocks Eq (Model.shelf α).Full where
  full h hsame := hsame ▸ h
  save {s t place input side bytes} h hsave hbytes := by
    intro other
    have hother := h other
    by_cases hplace : place = input
    · subst hplace
      have hknown : place < s.items.length := by
        refine Nat.lt_of_not_le fun hout => ?_
        simp [Model.shelf, List.getElem?_eq_none hout] at hother
      rcases Side.eq_or_eq_opposite other side with rfl | rfl
      · rw [keeps_shelf.content_saved hsave hknown]
        exact hbytes rfl
      · rw [keeps_shelf.content_opposite hsave hknown]
        exact hother
    · rw [Model.save_shelf hsave]
      have hne : ¬ input = place := fun heq => hplace heq.symm
      simpa [Model.shelf, Shelf.setContent, hne] using hother

namespace FileStore

/-- Both sides have content, and both files are there. -/
def Present (s : FileStore) : Prop :=
  ∀ side, (s.node.content side.pane).isSome ∧ (s.file side).isSome

/-- A comparison that was read from two files that are there. -/
theorem present_of_load {s : FileStore} (h : s.paths.load s.disk = .ok s.node)
    (hthere : ∀ side, s.disk.contains (s.paths.side side) = true) : s.Present := by
  intro side
  have hfound := ComparePaths.load_found h side
  cases hcontent : s.node.content side.pane with
  | none =>
    rw [hcontent] at hfound
    exact absurd hfound (by simp [Disk.Found, hthere side])
  | some content =>
    rw [hcontent] at hfound
    have hfile : s.disk.content? (s.paths.side side) = some content := hfound
    simp [file, hfile]

/-- A file that is there stays there while another one is written. -/
theorem isSome_content?_of_replaced {d after : Disk} {path other : String}
    {content : ByteArray} (h : Disk.Replaced d path (some content) after)
    (hthere : (d.content? other).isSome) : (after.content? other).isSome := by
  obtain ⟨old, hold⟩ := Option.isSome_iff_exists.mp hthere
  obtain ⟨l, hother, hentry⟩ := Disk.content?_eq_some_iff.mp hold
  have hother' := h.same.locate_iff.mpr hother
  by_cases hl : d.locate path = .ok l
  · rw [Disk.content?_eq_some_iff.mpr ⟨l, hother', h.here l hl⟩]
    rfl
  · rw [Disk.content?_eq_some_iff.mpr ⟨l, hother', (h.elsewhere l hl).trans hentry⟩]
    rfl

theorem Present.save {s t : FileStore} {side : Side} {content : ByteArray}
    (h : s.Present) (hsave : s.save side (some content) = .ok t) : t.Present := by
  obtain ⟨-, disk, hwrite, rfl⟩ := save_ok hsave
  intro other
  obtain ⟨hnode, hfile⟩ := h other
  refine ⟨?_, isSome_content?_of_replaced (replaced_writeFile hwrite) hfile⟩
  rcases Side.eq_or_eq_opposite other side with rfl | rfl
  · rw [Node.content_setContent]
    rfl
  · rw [Node.content_setContent_opposite]
    exact hnode

end FileStore

/-- There is the one comparison of files, wherever it is bound. -/
theorem stocks_files :
    Model.files.Stocks (fun _ _ => True) fun s _ => s.Present where
  full h _ side := (h side).1
  save h hsave hbytes := by
    obtain ⟨content, rfl⟩ := Option.isSome_iff_exists.mp (hbytes trivial)
    exact h.save hsave

/-- If it is done by someone else, it takes nothing of an input away. -/
def Operation.Retains {σ : Type} (has : σ → Prop) : Operation σ → Prop
  | .elsewhere change => ∀ s, has s → has (change s)
  | _ => True

namespace Session

variable {σ : Type} {m : Model σ} {same : Place → Place → Prop}
  {has : σ → Place → Prop} {place : Place} {s t u : Session σ}

/-! ## What is stored and what is shown -/

/-- `t` comes after `s`, and an input still has both of its sides: they are
stored, the panes show them while the input is bound, and no save has been
tried since that would have taken one of them away. -/
structure Stocked (same : Place → Place → Prop) (has : σ → Place → Prop)
    (place : Place) (s t : Session σ) : Prop where
  stored : has t.state place
  shown : ∀ {input : Place}, t.input = some input → same place input →
    ∀ side, (t.panes.side side).isSome
  saved : ∃ made, t.calls = s.calls ++ made ∧
    ∀ input side, same place input → Call.save input side none ∉ made

/-- What is kept in one place with an input is not bound. -/
def Unbound (same : Place → Place → Prop) (place : Place) (s : Session σ) : Prop :=
  ∀ {input : Place}, s.input = some input → ¬ same place input

/-- As long as the input is not bound there is nothing to show. -/
theorem stocked_of_unbound (hhas : has s.state place)
    (hfree : Unbound same place s) : Stocked same has place s s :=
  ⟨hhas, fun hin hsame => absurd hsame (hfree hin), [], by simp, by simp⟩

theorem Stocked.append (h : Stocked same has place s t) {more : List Call}
    (hcalls : u.calls = t.calls ++ more)
    (hmore : ∀ input side, same place input → Call.save input side none ∉ more)
    (hstored : has u.state place)
    (hshown : ∀ {input : Place}, u.input = some input → same place input →
      ∀ side, (u.panes.side side).isSome) : Stocked same has place s u := by
  obtain ⟨made, hmade, hsaved⟩ := h.saved
  refine ⟨hstored, hshown, made ++ more, by rw [hcalls, hmade, List.append_assoc],
    fun input side hsame hmem => ?_⟩
  rcases List.mem_append.mp hmem with hmem | hmem
  · exact hsaved input side hsame hmem
  · exact hmore input side hsame hmem

/-- To go on without a save keeps what is stored; what is shown has to be
looked at. -/
theorem Stocked.follow (h : Stocked same has place s t) (hfollows : Follows t u)
    (hshown : ∀ {input : Place}, u.input = some input → same place input →
      ∀ side, (u.panes.side side).isSome) : Stocked same has place s u := by
  obtain ⟨more, hcalls, hquiet⟩ := hfollows.calls
  refine h.append hcalls (fun input side _ hmem => ?_) ?_ hshown
  · exact absurd (hquiet _ hmem) (by simp [Call.isSave])
  · rw [hfollows.state]
    exact h.stored

/-- Nor does it matter then, if the panes stay as they are. -/
theorem Stocked.follow_of_eq (h : Stocked same has place s t)
    (hfollows : Follows t u) (hinput : u.input = t.input)
    (hpanes : u.panes = t.panes) : Stocked same has place s u := by
  refine h.follow hfollows fun hin hsame => ?_
  rw [hpanes]
  exact h.shown (hinput.symm.trans hin) hsame

theorem Stocked.setDirty (h : Stocked same has place s t) (side : Side)
    (value : Bool) : Stocked same has place s (t.setDirty side value) :=
  h.follow_of_eq (follows_setDirty side value t) (by rw [setDirty_eq])
    (by rw [setDirty_eq])

theorem Stocked.clearDirty (h : Stocked same has place s t) :
    Stocked same has place s t.clearDirty :=
  (h.setDirty .left false).setDirty .right false

theorem Stocked.applyEdit (h : Stocked same has place s t) (side : Side)
    (bytes : ByteArray) : Stocked same has place s (t.applyEdit side bytes) := by
  refine h.follow (follows_applyEdit side bytes t) fun hin hsame other => ?_
  rw [applyEdit_eq] at hin ⊢
  rcases Side.eq_or_eq_opposite other side with rfl | rfl
  · simp
  · simpa using h.shown hin hsame side.opposite

/-- A session that reads everything anew shows what is stored. -/
theorem Stocked.refresh (hm : m.Stocks same has) (h : Stocked same has place s t)
    (hfollows : Follows t u) : Stocked same has place s (u.refresh m) := by
  have hfull : ∀ {input : Place}, same place input → m.Full u.state input := by
    rw [hfollows.state]
    exact hm.full h.stored
  have hshown : ∀ {input : Place}, u.input = some input → same place input →
      ∀ side, ((u.currentPanes m).side side).isSome := by
    intro input hin hsame side
    rw [side_currentPanes hin]
    exact hfull hsame _
  refine h.follow (hfollows.trans (follows_refresh m u)) ?_
  rw [refresh_eq]
  exact hshown

/-! ## Saves -/

/-- What is saved of the input is what its pane shows, and that is never
nothing. -/
theorem Stocked.isSome_pendingBytes (hm : m.Stocks same has)
    (h : Stocked same has place s t) {input : Place} (hin : t.input = some input)
    (side : Side) (hsame : same place input) :
    (t.pendingBytes m input side).isSome := by
  rw [pendingBytes_of_full (hm.full h.stored hsame)]
  exact h.shown hin hsame side

theorem FlushedSide.stocked (hm : m.Stocks same has) {input : Place} {side : Side}
    {r : Except SaveError Unit} (ends : FlushedSide m input side t u r)
    (hin : t.input = some input) (h : Stocked same has place s t) :
    Stocked same has place s u := by
  have hbytes := h.isSome_pendingBytes hm hin side
  have hcall : ∀ other shown, same place other →
      Call.save other shown none ≠ t.saveCall m input side := by
    intro other shown hsame heq
    simp only [saveCall, Call.save.injEq] at heq
    obtain ⟨rfl, -, hnone⟩ := heq
    simpa [← hnone] using hbytes hsame
  cases ends with
  | skipped => exact h
  | saved _ state hsave =>
    refine h.append rfl (fun other shown hsame hmem => ?_)
      (hm.save h.stored hsave hbytes) h.shown
    rcases List.mem_cons.mp hmem with hmem | hmem
    · exact hcall other shown hsame hmem
    · obtain ⟨l, hevent⟩ := eq_event_of_mem_flagCalls hmem
      simp at hevent
  | refused _ e _ =>
    refine h.append rfl (fun other shown hsame hmem => ?_) h.stored h.shown
    simp only [List.mem_cons, reduceCtorEq, List.not_mem_nil, or_false] at hmem
    exact hcall other shown hsame hmem

theorem FlushedSides.stocked (hm : m.Stocks same has) {input : Place}
    {r : Except SaveError Unit} (ends : FlushedSides m input t u r)
    (hin : t.input = some input) (h : Stocked same has place s t) :
    Stocked same has place s u := by
  cases ends with
  | both left right =>
    exact right.stocked hm (left.settled.input_eq.trans hin) (left.stocked hm hin h)

theorem Resolved.stocked (hm : m.Stocks same has) {input : Place}
    {kind : PromptKind} {r : Except SaveError Resolution}
    (ends : Resolved m input kind t u r) (hin : t.input = some input)
    (h : Stocked same has place s t) : Stocked same has place s u := by
  have hframe := decision_eq m input kind t
  have hasked : Stocked same has place s (t.decision m input kind).1 :=
    h.follow_of_eq (follows_decision m input kind t) (by rw [hframe]) (by rw [hframe])
  have hbound : (t.decision m input kind).1.input = some input := by rw [hframe, hin]
  cases ends with
  | clean => exact h
  | saved _ _ flushed => exact (flushed.stocked hm hbound hasked).clearDirty
  | failed _ _ flushed => exact flushed.stocked hm hbound hasked
  | discarded => exact hasked.clearDirty
  | cancelled => exact hasked

theorem ResolvedBound.stocked (hm : m.Stocks same has) {kind : PromptKind}
    {r : Except SaveError Resolution} (ends : ResolvedBound m kind t u r)
    (h : Stocked same has place s t) : Stocked same has place s u := by
  cases ends with
  | unbound => exact h
  | bound hin resolved => exact resolved.stocked hm hin h

/-! ## Operations and runs -/

theorem Switching.stocked (hm : m.Stocks same has) {next : Session σ → Session σ}
    {r : Except SaveError SwitchOutcome} (ends : Switching m next t u r)
    (hnext : ∀ v, Stocked same has place s v → Stocked same has place s (next v))
    (h : Stocked same has place s t) : Stocked same has place s u := by
  cases ends with
  | failed resolved => exact resolved.stocked hm h
  | cancelled resolved => exact resolved.stocked hm h
  | switched resolved _ => exact hnext _ (resolved.stocked hm h)

theorem ChangedOutside.stocked (hm : m.Stocks same has)
    {r : Except SaveError Unit} (ends : ChangedOutside m t u r)
    (h : Stocked same has place s t) : Stocked same has place s u := by
  cases ends with
  | unbound => exact h
  | saving => exact h
  | failed hin _ resolved => exact resolved.stocked hm hin h
  | dropped hin _ resolved =>
    exact (resolved.stocked hm hin h).refresh hm (follows_clearDirty _)
  | shown hin _ resolved _ => exact (resolved.stocked hm hin h).refresh hm (.refl _)

theorem Stocked.rebind (hm : m.Stocks same has) (h : Stocked same has place s t)
    (input : Option Place) : Stocked same has place s (t.rebind m input) :=
  h.refresh hm (((follows_release m t).trans (follows_clearDirty _)).trans
    (follows_acquire m input _))

/-- **An operation keeps both sides of an input**, in the store and on view. -/
theorem stocked_step (hm : m.Stocks same has) {op : Operation σ}
    (hop : op.Retains (has · place)) (h : Stocked same has place s t) :
    Stocked same has place s (t.step m op).1 := by
  have hends := step_ends m t op
  generalize (t.step m op).1 = u, (t.step m op).2 = reply at hends ⊢
  cases hends with
  | aside haside =>
    exact h.follow_of_eq haside.follows (by rw [haside.frame]) (by rw [haside.frame])
  | flagged side value => exact h.setDirty side value
  | edited side bytes => exact h.applyEdit side bytes
  | copied d _ => exact h.applyEdit _ _
  | flushed hin ends => exact ends.stocked hm hin h
  | flushedAll hin ends => exact ends.stocked hm hin h
  | refreshed => exact h.refresh hm (.refl t)
  | bound _ ends => exact ends.stocked hm (fun _ hv => hv.rebind hm _) h
  | turned _ ends =>
    exact ends.stocked hm (fun v hv => hv.refresh hm ⟨⟨[], by simp, by simp⟩, rfl⟩) h
  | changed _ ends => exact ends.stocked hm h
  | disposed =>
    refine h.follow (follows_dispose m t) fun hin => ?_
    simp [Session.dispose] at hin
  | elsewhere change =>
    exact h.append (List.append_nil _).symm (by simp) (hop t.state h.stored) h.shown

theorem stocked_run (hm : m.Stocks same has) (hhas : has s.state place)
    (hfree : Unbound same place s) {ops : List (Operation σ)}
    (hops : ∀ op ∈ ops, op.Retains (has · place)) :
    Stocked same has place s (s.run m ops) :=
  run_induction (stocked_of_unbound hhas hfree)
    fun _ op hop h => stocked_step hm (hops op hop) h

/-- Until an input is bound for the first time, it is not saved. -/
theorem unsaved_of_unbound {settings : Settings} {state : σ}
    {confirmer : Confirmer} {start : Session σ}
    (hstart : start? settings state confirmer = .ok start)
    {ops : List (Operation σ)} (hfree : Throughout m (Unbound same place) start ops)
    {input : Place} (hsame : same place input) (side : Side)
    (bytes : Option ByteArray) :
    Call.save input side bytes ∉ (start.run m ops).calls := by
  obtain ⟨-, -, -, -, hcalls⟩ := start?_told hstart
  induction ops using List.reverseRecOn with
  | nil => simp [hcalls]
  | append_singleton ops op ih =>
    have hbefore : Throughout m (Unbound same place) start ops :=
      fun part hpart => hfree part (hpart.trans (List.prefix_append _ _))
    intro hmem
    rw [run_snoc, calls_step, List.mem_append] at hmem
    have hmade := hmem.resolve_left (ih hbefore)
    by_cases helse : ∃ change, op = .elsewhere change
    · obtain ⟨change, rfl⟩ := helse
      simp [callsOf, step] at hmade
    · obtain ⟨dealing, more, hsplit, -, -, hdealing, hquiet, -⟩ :=
        callsOf_split m (start.run m ops) op fun change heq => helse ⟨change, heq⟩
      rw [hsplit, List.mem_append] at hmade
      rcases hmade with hdealt | hlater
      · obtain ⟨bound, hin, -, hsave⟩ := hdealing _ hdealt
        obtain ⟨rfl, -⟩ := hsave input side bytes rfl
        exact hbefore ops List.prefix_rfl hin hsame
      · simpa [Call.isSave] using hquiet _ hlater

/-- A run that finds both sides of an input when it is first bound. -/
theorem both_sides_of_unbound (hm : m.Stocks same has) {settings : Settings}
    {state : σ} {confirmer : Confirmer} {start : Session σ}
    (hstart : start? settings state confirmer = .ok start)
    {before after : List (Operation σ)}
    (hfree : Throughout m (Unbound same place) start before)
    (hhas : has (start.run m before).state place)
    (hops : ∀ op ∈ after, op.Retains (has · place)) :
    has (start.run m (before ++ after)).state place ∧
      ∀ input side, same place input →
        Call.save input side none ∉ (start.run m (before ++ after)).calls := by
  have hstocked := stocked_run hm hhas (hfree before List.prefix_rfl) hops
  rw [← run_append] at hstocked
  obtain ⟨made, hcalls, hsaved⟩ := hstocked.saved
  refine ⟨hstocked.stored, fun input side hsame hmem => ?_⟩
  rw [hcalls, List.mem_append] at hmem
  rcases hmem with hmem | hmem
  · exact unsaved_of_unbound hstart hfree hsame side none hmem
  · exact hsaved input side hsame hmem

/-! ## In memory and for files -/

/-- **No side disappears while its counterpart exists.** An input in memory
that has content on both sides when it is first bound, and is not taken away
by someone else, has both of them ever after, whatever is done in the session
and to other inputs; nothing is ever asked to be saved in place of either. So
it is for a comparison of two files that are there, and both files stay. In
both cases saves may fail at any time. -/
theorem both_sides_stay (settings : Settings) (confirmer : Confirmer) :
    (∀ (α : Type) [Subject α] [LawfulSubject α] (state : Model.Guarded (Shelf α))
      (start : Session (Model.Guarded (Shelf α))),
      start? settings state confirmer = .ok start →
      ∀ (place : Place) (before after : List (Operation (Model.Guarded (Shelf α)))),
      Throughout (Model.shelf α).guarded (·.input ≠ some place) start before →
      (Model.shelf α).Full (start.run (Model.shelf α).guarded before).state.state
        place →
      (∀ op ∈ after, op.Retains fun g => (Model.shelf α).Full g.state place) →
      let t := start.run (Model.shelf α).guarded (before ++ after)
      (Model.shelf α).Full t.state.state place ∧
        ∀ side, Call.save place side none ∉ t.calls) ∧
    ∀ (state : Model.Guarded FileStore) (start : Session (Model.Guarded FileStore)),
      start? settings state confirmer = .ok start →
      ∀ before after : List (Operation (Model.Guarded FileStore)),
      Throughout Model.files.guarded (·.input = none) start before →
      (start.run Model.files.guarded before).state.state.Present →
      (∀ op ∈ after, op.Retains fun g => g.state.Present) →
      let t := start.run Model.files.guarded (before ++ after)
      t.state.state.Present ∧ ∀ input side, Call.save input side none ∉ t.calls := by
  constructor
  · intro α _ _ state start hstart place before after hfree hfull hops t
    have hunbound : Throughout (Model.shelf α).guarded (Unbound Eq place) start
        before := by
      rintro part hpart input hin rfl
      exact hfree part hpart hin
    obtain ⟨hstored, hsaved⟩ := both_sides_of_unbound
      (stocks_guarded stocks_shelf) hstart hunbound hfull hops
    exact ⟨hstored, fun side => hsaved place side rfl⟩
  · intro state start hstart before after hfree hpresent hops t
    have hunbound : Throughout Model.files.guarded (Unbound (fun _ _ => True) 0)
        start before := by
      intro part hpart input hin
      simp [hfree part hpart] at hin
    obtain ⟨hstored, hsaved⟩ := both_sides_of_unbound
      (stocks_guarded stocks_files) hstart hunbound hpresent hops
    exact ⟨hstored, fun input side => hsaved input side trivial⟩

/-- Both sides are emptied and saved, the left one first and then the right
one first. In memory another input, of which one side is missing, is emptied
before; on disk the view is turned, the first save of the left side is refused
in between, and an empty side is copied over the other one. -/
theorem emptied_sides_stay :
    let empty : ByteArray := ⟨#[]⟩
    let shelf : Model.Guarded (Shelf Document) := { state := ⟨[
      { contents := ⟨none, some ⟨#[97]⟩, some ⟨#[98]⟩⟩ },
      { contents := ⟨none, some ⟨#[97]⟩, none⟩ }], ⟨true, true⟩⟩ }
    let bind : List (Operation (Model.Guarded (Shelf Document))) :=
      [.bind (some 1), .applyEdit .left empty]
    let edit : List (Operation (Model.Guarded (Shelf Document))) :=
      [.bind (some 0), .applyEdit .left empty, .applyEdit .right empty,
        .flush .left, .flush .right, .bind none]
    let files : Model.Guarded FileStore := { state := {
      disk := {
        home := ["w"]
        entries := [(["w", "l"], .file ⟨#[97]⟩), (["w", "r"], .file ⟨#[98]⟩)] }
      paths := ⟨none, "l", "r"⟩
      node := .twoWay (some ⟨"l", some ⟨#[97]⟩⟩) (some ⟨"r", some ⟨#[98]⟩⟩)
      editable := ⟨true, true⟩ } }
    let turned : List (Operation (Model.Guarded FileStore)) :=
      [.bind (some 0), .setMirrored true, .applyEdit .left empty, .copy .leftToRight,
        .elsewhere (fun g => { g with refusals := ⟨some (.readOnly .left), none⟩ }),
        .flush .right, .elsewhere (fun g => { g with refusals := ⟨none, none⟩ }),
        .flush .right, .flush .left, .bind none]
    (∃ start, start? {} shelf (.fixed .save) = .ok start ∧
      let t := start.run (Model.shelf Document).guarded (bind ++ edit)
      (Model.shelf Document).Full t.state.state 0 ∧
      (∀ side, Call.save 0 side none ∉ t.calls) ∧
      (∀ side : Side, (Model.shelf Document).content t.state.state side.pane 0
        = some empty) ∧ Call.save 1 .left none ∈ t.calls) ∧
    ∃ start, start? {} files (.fixed .save) = .ok start ∧
      let t := start.run Model.files.guarded turned
      t.state.state.Present ∧
      (∀ input side, Call.save input side none ∉ t.calls) ∧
      ∀ side, t.state.state.file side = some empty := by
  intro empty shelf bind edit files turned
  constructor
  · obtain ⟨start, hstart, hfirst, hsecond, hthird, hfull, hempty, hremoved⟩ :
        ∃ start, start? {} shelf (.fixed .save) = .ok start ∧
        start.input ≠ some 0 ∧
        (start.run (Model.shelf Document).guarded (bind.take 1)).input ≠ some 0 ∧
        (start.run (Model.shelf Document).guarded bind).input ≠ some 0 ∧
        (∀ side : Side, ((Model.shelf Document).content
          (start.run (Model.shelf Document).guarded bind).state.state side.pane
            0).isSome) ∧
        (∀ side : Side, (Model.shelf Document).content
          (start.run (Model.shelf Document).guarded (bind ++ edit)).state.state
            side.pane 0 = some empty) ∧
        Call.save 1 .left none
          ∈ (start.run (Model.shelf Document).guarded (bind ++ edit)).calls :=
      ⟨_, rfl, by decide +kernel, by decide +kernel, by decide +kernel,
        by rintro (_ | _) <;> decide +kernel, by rintro (_ | _) <;> decide +kernel,
        by decide +kernel⟩
    have hfree : Throughout (Model.shelf Document).guarded (·.input ≠ some 0) start
        bind := by
      simp only [bind, throughout_cons, throughout_nil]
      exact ⟨hfirst, hsecond, hthird⟩
    have hstay := (both_sides_stay {} (.fixed .save)).1 Document shelf start hstart 0
      bind edit hfree hfull (by simp [edit, Operation.Retains])
    exact ⟨start, hstart, hstay.1, hstay.2, hempty, hremoved⟩
  · obtain ⟨start, hstart, hunbound, hstate, hempty⟩ :
        ∃ start, start? {} files (.fixed .save) = .ok start ∧
        start.input = none ∧ start.state = files ∧
        ∀ side, (start.run Model.files.guarded turned).state.state.file side
          = some empty :=
      ⟨_, rfl, rfl, rfl, by rintro (_ | _) <;> decide +kernel⟩
    have hpresent : files.state.Present := by
      refine FileStore.present_of_load (ok_of_toOption (by decide +kernel)) ?_
      rintro (_ | _) <;> decide +kernel
    have hstay := (both_sides_stay {} (.fixed .save)).2 files start hstart [] turned
      (throughout_nil.mpr hunbound) (by rw [run_nil, hstate]; exact hpresent)
      (by
        simp only [turned, List.mem_cons, List.not_mem_nil, or_false,
          forall_eq_or_imp, forall_eq, Operation.Retains, true_and, and_true]
        exact ⟨fun g hg => hg, fun g hg => hg⟩)
    exact ⟨start, hstart, hstay.1, hstay.2, hempty⟩

end Session

end Reconcile
