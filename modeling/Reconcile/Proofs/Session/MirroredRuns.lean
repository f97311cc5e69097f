/-
Reconcile.Proofs.Session.MirroredRuns — a mirrored viewer is the mirror image
of a plain one.

Whatever is done to one of two sessions that are each other's mirror image,
the same is done to the other one with left and right exchanged
(`Operation.mirrored`). They stay each other's mirror image, and their
answers agree (`mirror_image_of_step`, `mirror_image_of_run`).
-/
import Mathlib.Data.List.Forall2
import Reconcile.Proofs.Session.MirrorImage

namespace Reconcile

/-! ## Left and right exchanged -/

namespace Direction

/-- The copy the other way round. -/
def reversed : Direction → Direction
  | leftToRight => rightToLeft
  | rightToLeft => leftToRight

@[simp] theorem source_reversed (d : Direction) :
    d.reversed.source = d.source.opposite := by
  cases d <;> rfl

@[simp] theorem target_reversed (d : Direction) :
    d.reversed.target = d.target.opposite := by
  cases d <;> rfl

end Direction

/-- What is done to the one side, done to the other. -/
def Operation.mirrored {σ : Type} : Operation σ → Operation σ
  | .setDirty side value => .setDirty side.opposite value
  | .applyEdit side bytes => .applyEdit side.opposite bytes
  | .copy d => .copy d.reversed
  | .flush side => .flush side.opposite
  | .setMirrored value => .setMirrored (!value)
  | op => op

/-- The settings of the mirror image. -/
def Settings.mirrored (settings : Settings) : Settings :=
  { settings with viewer :=
      { settings.viewer with mirrored := !settings.viewer.mirrored } }

/-- Answers agree if they are equal, or if both are failures. -/
def Reply.Agrees : Reply → Reply → Prop
  | .failed _, .failed _ => True
  | a, b => a = b

theorem Reply.Agrees.refl (a : Reply) : a.Agrees a := by
  cases a <;> simp [Reply.Agrees]

theorem Reply.agrees_ofUnit {r r' : Except SaveError Unit}
    (h : r'.toOption = r.toOption) : (Reply.ofUnit r).Agrees (Reply.ofUnit r') := by
  cases r <;> cases r' <;> simp_all [Except.toOption, ofUnit, Agrees]

theorem Reply.agrees_ofOutcome {r r' : Except SaveError Session.SwitchOutcome}
    (h : r'.toOption = r.toOption) :
    (Reply.ofOutcome r).Agrees (Reply.ofOutcome r') := by
  cases r <;> cases r' <;> simp_all [Except.toOption, ofOutcome, Agrees]

/-- Someone else does the same to states that are alike, and takes no content
away; and inputs are bound only if both of their sides have content. -/
def Operation.Evenhanded {σ : Type} (m : Model σ) (alike : σ → σ → Prop)
    (state : σ) : Operation σ → Prop
  | .bind (some place) => m.Full state place
  | .elsewhere change =>
    (∀ s t, alike s t → alike (change s) (change t)) ∧
      ∀ s place, m.Full s place → m.Full (change s) place
  | _ => True

namespace Session

variable {σ : Type} {m : Model σ} {alike : σ → σ → Prop} {state : σ}
  {s t : Session σ}

/-! ## Replacing what is shown -/

/-- What comes after pending edits are dealt with is the mirror image again
if it is so on its own. -/
theorem together_switch (hm : m.Independent alike) (h : MirrorImage alike s t)
    (hfilled : Filled m state s) {next next' : Session σ → Session σ}
    (hnext : ∀ {u v : Session σ}, MirrorImage alike u v → Filled m state u →
      MirrorImage alike (next u) (next' v) ∧ Filled m state (next u)) :
    Together m alike state
      (match s.resolveBound m .inputSwitch with
        | (u, .error e) => (u, .error e)
        | (u, .ok .cancelled) => (u, .ok .cancelled)
        | (u, .ok _) => (next u, .ok SwitchOutcome.switched))
      (match t.resolveBound m .inputSwitch with
        | (v, .error e) => (v, .error e)
        | (v, .ok .cancelled) => (v, .ok .cancelled)
        | (v, .ok _) => (next' v, .ok SwitchOutcome.switched)) := by
  have hdealt := together_resolveBound hm h hfilled .inputSwitch
  generalize s.resolveBound m .inputSwitch = x at hdealt ⊢
  generalize t.resolveBound m .inputSwitch = y at hdealt ⊢
  have hends := hdealt.ends
  obtain ⟨u, r⟩ := x
  obtain ⟨v, r'⟩ := y
  obtain ⟨himage, hfilled'⟩ := hnext hdealt.image hdealt.filled
  rcases hends with ⟨e, e', rfl, rfl⟩ | ⟨resolution, rfl, rfl⟩
  · exact ⟨hdealt.image, hdealt.filled, rfl⟩
  · cases resolution with
    | cancelled => exact ⟨hdealt.image, hdealt.filled, rfl⟩
    | clean => exact ⟨himage, hfilled', rfl⟩
    | saved => exact ⟨himage, hfilled', rfl⟩
    | discarded => exact ⟨himage, hfilled', rfl⟩

theorem together_bind (hm : m.Independent alike) (h : MirrorImage alike s t)
    (hfilled : Filled m state s) {input : Option Place}
    (hinput : ∀ {place : Place}, input = some place → m.Full state place) :
    Together m alike state (s.bind m input) (t.bind m input) := by
  unfold bind
  rw [h.input]
  by_cases hin : s.input = input
  · rw [if_pos hin, if_pos hin]
    exact ⟨h, hfilled, rfl⟩
  · rw [if_neg hin, if_neg hin]
    exact together_switch hm h hfilled fun hu hfull =>
      ⟨hu.rebind hm input, hfull.rebind hinput⟩

theorem together_setMirrored (hm : m.Independent alike)
    (h : MirrorImage alike s t) (hfilled : Filled m state s) (value : Bool) :
    Together m alike state (s.setMirrored m value) (t.setMirrored m !value) := by
  have hsame : (t.mirrored = !value) ↔ s.mirrored = value := by
    rw [h.mirrored, Bool.not_inj_iff]
  unfold setMirrored
  by_cases hvalue : s.mirrored = value
  · rw [if_pos hvalue, if_pos (hsame.mpr hvalue)]
    exact ⟨h, hfilled, rfl⟩
  · rw [if_neg hvalue, if_neg (mt hsame.mp hvalue)]
    exact together_switch hm h hfilled fun hu hfull =>
      ⟨hu.turn hm value, .refresh hfull.full hfull.bound⟩

/-! ## Changes from outside -/

theorem together_externalChange (hm : m.Independent alike)
    (h : MirrorImage alike s t) (hfilled : Filled m state s) :
    Together m alike state (s.externalChange m) (t.externalChange m) := by
  unfold externalChange
  rw [h.input, h.registry]
  cases hin : s.input with
  | none => exact ⟨h, hfilled, rfl⟩
  | some input =>
    cases s.registry.isSaving with
    | true => exact ⟨h, hfilled, rfl⟩
    | false =>
      have hdealt := together_resolve hm h hfilled hin .externalChange
      simp only [Bool.false_eq_true, if_false]
      generalize s.resolve m input .externalChange = x at hdealt ⊢
      generalize t.resolve m input .externalChange = y at hdealt ⊢
      have hends := hdealt.ends
      obtain ⟨u, r⟩ := x
      obtain ⟨v, r'⟩ := y
      have hshown := hdealt.image.refresh hm
      have hfull : Filled m state (u.refresh m) :=
        .refresh hdealt.filled.full hdealt.filled.bound
      rcases hends with ⟨e, e', rfl, rfl⟩ | ⟨resolution, rfl, rfl⟩
      · exact ⟨hdealt.image, hdealt.filled, rfl⟩
      · cases resolution with
        | cancelled =>
          have hdropped := hdealt.filled.clearDirty
          exact ⟨hdealt.image.clearDirty.refresh hm,
            .refresh hdropped.full hdropped.bound, rfl⟩
        | clean => exact ⟨hshown, hfull, rfl⟩
        | saved => exact ⟨hshown, hfull, rfl⟩
        | discarded => exact ⟨hshown, hfull, rfl⟩

theorem together_inputChanged (hm : m.Independent alike)
    (h : MirrorImage alike s t) (hfilled : Filled m state s) (input : Place) :
    Together m alike state (s.inputChanged m input) (t.inputChanged m input) := by
  unfold inputChanged
  rw [h.input]
  by_cases hin : s.input = some input
  · rw [if_pos hin, if_pos hin]
    exact together_externalChange hm h hfilled
  · rw [if_neg hin, if_neg hin]
    exact ⟨h, hfilled, rfl⟩

/-! ## Requests that cannot fail -/

theorem MirrorImage.copy (hm : m.Independent alike) (h : MirrorImage alike s t)
    (d : Direction) :
    MirrorImage alike (s.copy m d).1 (t.copy m d.reversed).1 ∧
      (t.copy m d.reversed).2 = (s.copy m d).2 := by
  unfold Session.copy
  rw [h.input]
  cases s.input with
  | none => exact ⟨h, rfl⟩
  | some input =>
    have hshown : t.panes.side d.reversed.source = s.panes.side d.source := by
      rw [h.panes, Paned.side_mirrored, Direction.source_reversed,
        Side.opposite_opposite]
    have hcopied := h.applyEdit d.target ((s.panes.side d.source).getD .empty)
    simp only [h.view_editable hm, Direction.target_reversed,
      Side.opposite_opposite, hshown]
    split
    · exact ⟨hcopied, rfl⟩
    · exact ⟨h, rfl⟩

theorem MirrorImage.setAncestorVisible (h : MirrorImage alike s t)
    (value : Bool) :
    MirrorImage alike (s.setAncestorVisible value).1
        (t.setAncestorVisible value).1 ∧
      (t.setAncestorVisible value).2 = (s.setAncestorVisible value).2 := by
  have hvisible : t.visibleAfter value = s.visibleAfter value := by
    rw [visibleAfter, visibleAfter, h.ancestorToggle, h.ancestorVisible]
  have hanswer : (!(value && !t.ancestorToggle) && t.ancestorVisible != value)
      = (!(value && !s.ancestorToggle) && s.ancestorVisible != value) := by
    rw [h.ancestorToggle, h.ancestorVisible]
  rw [setAncestorVisible_eq, setAncestorVisible_eq]
  exact ⟨{ h with ancestorVisible := hvisible }, hanswer⟩

theorem MirrorImage.setIgnoreAncestor (h : MirrorImage alike s t)
    (value : Bool) :
    MirrorImage alike (s.setIgnoreAncestor value) (t.setIgnoreAncestor value) := by
  unfold Session.setIgnoreAncestor
  cases value with
  | false => exact { h with ancestorToggle := rfl }
  | true =>
    have hhidden := (h.setAncestorVisible false).1
    exact { hhidden with ancestorToggle := rfl }

theorem MirrorImage.dispose (h : MirrorImage alike s t) :
    MirrorImage alike (s.dispose m) (t.dispose m) := by
  have hreleased := h.release (m := m)
  exact { hreleased with input := rfl }

/-! ## Operations and runs -/

/-- **One operation** on a session and its mirror image. -/
theorem mirror_image_of_step (hm : m.Independent alike)
    (h : MirrorImage alike s t) (hfilled : Filled m state s)
    {op : Operation σ} (hop : op.Evenhanded m alike state) :
    MirrorImage alike (s.step m op).1 (t.step m op.mirrored).1 ∧
      Filled m state (s.step m op).1 ∧
      (s.step m op).2.Agrees (t.step m op.mirrored).2 := by
  cases op with
  | bind input =>
    have hinput : ∀ {place : Place}, input = some place → m.Full state place := by
      rintro place rfl
      exact hop
    have hbound := together_bind hm h hfilled hinput
    exact ⟨hbound.image, hbound.filled, Reply.agrees_ofOutcome hbound.answer⟩
  | setDirty side value =>
    refine ⟨h.setDirty side value, ?_, Reply.Agrees.refl _⟩
    simp only [step, setDirty_eq]
    exact hfilled.of_eq rfl rfl rfl
  | applyEdit side bytes =>
    exact ⟨h.applyEdit side bytes, hfilled.applyEdit side bytes,
      Reply.Agrees.refl _⟩
  | copy d =>
    obtain ⟨himage, hanswer⟩ := h.copy hm d
    refine ⟨himage, hfilled.copy d, ?_⟩
    simp only [step, Operation.mirrored, Prod.map_snd, hanswer]
    exact Reply.Agrees.refl _
  | flush side =>
    have hflushed := together_flush hm h hfilled side
    exact ⟨hflushed.image, hflushed.filled, Reply.agrees_ofUnit hflushed.answer⟩
  | flushAll =>
    have hflushed := together_flushAll hm h hfilled
    exact ⟨hflushed.image, hflushed.filled, Reply.agrees_ofUnit hflushed.answer⟩
  | refresh =>
    exact ⟨h.refresh hm, .refresh hfilled.full hfilled.bound, Reply.Agrees.refl _⟩
  | externalChange =>
    have hchanged := together_externalChange hm h hfilled
    exact ⟨hchanged.image, hchanged.filled, Reply.agrees_ofUnit hchanged.answer⟩
  | inputChanged input =>
    have hchanged := together_inputChanged hm h hfilled input
    exact ⟨hchanged.image, hchanged.filled, Reply.agrees_ofUnit hchanged.answer⟩
  | labelsChanged inputs =>
    obtain ⟨calls, hs⟩ := labelsChanged_eq m inputs s
    obtain ⟨calls', ht⟩ := labelsChanged_eq m inputs t
    simp only [step, Operation.mirrored, hs, ht]
    exact ⟨{ h with }, hfilled.of_eq rfl rfl rfl, Reply.Agrees.refl _⟩
  | setMirrored value =>
    have hturned := together_setMirrored hm h hfilled value
    exact ⟨hturned.image, hturned.filled, Reply.agrees_ofOutcome hturned.answer⟩
  | setAncestorVisible value =>
    obtain ⟨himage, hanswer⟩ := h.setAncestorVisible value
    refine ⟨himage, hfilled.setAncestorVisible value, ?_⟩
    simp only [step, Operation.mirrored, Prod.map_snd, hanswer]
    exact Reply.Agrees.refl _
  | setIgnoreAncestor value =>
    exact ⟨h.setIgnoreAncestor value, hfilled.setIgnoreAncestor value,
      Reply.Agrees.refl _⟩
  | addListener l =>
    exact ⟨{ h with }, hfilled.of_eq rfl rfl rfl, Reply.Agrees.refl _⟩
  | removeListener l =>
    exact ⟨{ h with }, hfilled.of_eq rfl rfl rfl, Reply.Agrees.refl _⟩
  | dispose => exact ⟨h.dispose, hfilled.dispose, Reply.Agrees.refl _⟩
  | beginSave =>
    have hregistry : t.registry.beginSave = s.registry.beginSave := by
      rw [h.registry]
    exact ⟨{ h with registry := hregistry }, hfilled.of_eq rfl rfl rfl,
      Reply.Agrees.refl _⟩
  | endSave guard =>
    have hregistry : t.registry.endSave guard = s.registry.endSave guard := by
      rw [h.registry]
    exact ⟨{ h with registry := hregistry }, hfilled.of_eq rfl rfl rfl,
      Reply.Agrees.refl _⟩
  | elsewhere change =>
    obtain ⟨halike, hfull⟩ := hop
    exact ⟨{ h with state := halike _ _ h.state },
      ⟨fun hplace => hfull _ _ (hfilled.full hplace), hfilled.bound,
        hfilled.shown⟩, Reply.Agrees.refl _⟩

/-- **A whole run** of operations on a session and its mirror image. -/
theorem mirror_image_of_run (hm : m.Independent alike) {ops : List (Operation σ)}
    (hops : ∀ op ∈ ops, op.Evenhanded m alike state)
    (h : MirrorImage alike s t) (hfilled : Filled m state s) :
    MirrorImage alike (s.run m ops) (t.run m (ops.map Operation.mirrored)) ∧
      List.Forall₂ Reply.Agrees (s.replies m ops)
        (t.replies m (ops.map Operation.mirrored)) := by
  induction ops generalizing s t with
  | nil => exact ⟨h, .nil⟩
  | cons op ops ih =>
    obtain ⟨himage, hnext, hagrees⟩ :=
      mirror_image_of_step hm h hfilled (hops op (by simp))
    obtain ⟨hrun, hreplies⟩ :=
      ih (fun op' hop' => hops op' (by simp [hop'])) himage hnext
    exact ⟨hrun, .cons hagrees hreplies⟩

/-- A session and its mirror image begin alike. -/
theorem mirrorImage_start (hm : m.Independent alike) {settings : Settings}
    {confirmer : Confirmer} {plain turned : Session σ}
    (hplain : start? settings state confirmer = .ok plain)
    (hturned : start? settings.mirrored state confirmer = .ok turned) :
    MirrorImage alike plain turned ∧ Filled m state plain := by
  unfold start? at hplain hturned
  split at hplain
  · simp at hplain
  · split at hturned
    · simp at hturned
    · obtain rfl := Except.ok.inj hplain
      obtain rfl := Except.ok.inj hturned
      refine ⟨⟨hm.equivalence.refl state, rfl, rfl, rfl, rfl, rfl, rfl, rfl, rfl,
        rfl, rfl, rfl⟩, fun hplace => hplace, ?_, ?_⟩
      · intro input hin
        simp at hin
      · intro input hin
        simp at hin

/-- **A mirrored viewer is the mirror image of a plain one.** Two sessions
begin with the same state and differ in nothing but which of them is
mirrored; whatever is done to one of them, the same is done with left and
right exchanged to the other. Then after every run the flags, panes and tools
of the sides are exchanged and all else is the same, what is stored is the
same on every side of every input, and the answers agree one by one. -/
theorem mirrored_viewer_is_mirror_image (hm : m.Independent alike)
    {settings : Settings} {confirmer : Confirmer} {plain turned : Session σ}
    (hplain : start? settings state confirmer = .ok plain)
    (hturned : start? settings.mirrored state confirmer = .ok turned)
    {ops : List (Operation σ)}
    (hops : ∀ op ∈ ops, op.Evenhanded m alike state) :
    let s := plain.run m ops
    let t := turned.run m (ops.map Operation.mirrored)
    MirrorImage alike s t ∧
      (∀ pane place, m.content t.state pane place = m.content s.state pane place) ∧
      List.Forall₂ Reply.Agrees (plain.replies m ops)
        (turned.replies m (ops.map Operation.mirrored)) := by
  obtain ⟨hstart, hfilled⟩ := mirrorImage_start hm hplain hturned
  obtain ⟨himage, hreplies⟩ := mirror_image_of_run hm hops hstart hfilled
  exact ⟨himage, hm.content_eq himage.state, hreplies⟩

/-- A comparison in memory, and one of two files, the left side of which
cannot be saved at first. Both sides are edited and saved, the left one in
vain; then the right one is copied over it and saved, and the view is turned
before the next edit. -/
theorem mirror_images_in_memory_and_on_disk :
    let node : Node :=
      .twoWay (some ⟨"l", some ⟨#[97]⟩⟩) (some ⟨"r", some ⟨#[98]⟩⟩)
    let disk : Disk := {
      home := ["w"]
      entries := [(["w", "l"], .file ⟨#[97]⟩), (["w", "r"], .file ⟨#[98]⟩)] }
    let full : SaveError := .rejected .left "disk full"
    let shelf : Model.Guarded (Shelf Node) :=
      ⟨⟨[node], ⟨true, true⟩⟩, ⟨some full, none⟩⟩
    let files : Model.Guarded FileStore :=
      ⟨⟨disk, ⟨none, "l", "r"⟩, node, ⟨true, true⟩⟩, ⟨some full, none⟩⟩
    let ops (σ : Type) : List (Operation (Model.Guarded σ)) := [.bind (some 0),
      .applyEdit .left ⟨#[99]⟩, .applyEdit .right ⟨#[100]⟩, .flushAll,
      .elsewhere (fun g => { g with refusals := ⟨none, none⟩ }),
      .copy .rightToLeft, .flush .left, .setMirrored true,
      .applyEdit .left ⟨#[101]⟩]
    let mirrored (σ : Type) := (ops σ).map Operation.mirrored
    (∃ plain turned, start? {} shelf (.fixed .cancel) = .ok plain ∧
      start? (Settings.mirrored {}) shelf (.fixed .cancel) = .ok turned ∧
      MirrorImage (Model.Guarded.Alike Eq)
        (plain.run (Model.shelf Node).guarded (ops _))
        (turned.run (Model.shelf Node).guarded (mirrored _)) ∧
      (plain.run (Model.shelf Node).guarded (ops _)).dirty = ⟨true, false⟩) ∧
    ∃ plain turned, start? {} files (.fixed .cancel) = .ok plain ∧
      start? (Settings.mirrored {}) files (.fixed .cancel) = .ok turned ∧
      MirrorImage (Model.Guarded.Alike FileStore.Alike)
        (plain.run Model.files.guarded (ops _))
        (turned.run Model.files.guarded (mirrored _)) ∧
      List.Forall₂ Reply.Agrees (plain.replies Model.files.guarded (ops _))
        (turned.replies Model.files.guarded (mirrored _)) ∧
      .failed full ∈ plain.replies Model.files.guarded (ops _) ∧
      (plain.run Model.files.guarded (ops _)).dirty = ⟨true, false⟩ ∧
      (turned.run Model.files.guarded (mirrored _)).dirty = ⟨false, true⟩ ∧
      (turned.run Model.files.guarded (mirrored _)).state.state.file .left
        = some ⟨#[100]⟩ := by
  intro node disk full shelf files ops mirrored
  have hops : ∀ {σ : Type} {m : Model σ} {alike : σ → σ → Prop}
      {g : Model.Guarded σ}, m.guarded.Full g 0 → ∀ op ∈ ops σ,
        op.Evenhanded m.guarded (Model.Guarded.Alike alike) g := by
    intro σ m alike g hfull
    simp only [ops, List.mem_cons, List.not_mem_nil, or_false,
      forall_eq_or_imp, forall_eq, Operation.Evenhanded, true_and, and_true]
    exact ⟨hfull, fun g h halike => ⟨halike.1, rfl⟩, fun g place h => h⟩
  constructor
  · have hm := Model.independent_guarded (independent_shelf (α := Node))
    have hfull : (Model.shelf Node).guarded.Full shelf 0 := by
      intro side
      cases side <;> rfl
    obtain ⟨plain, turned, hplain, hturned, hdirty⟩ :
        ∃ plain turned : Session (Model.Guarded (Shelf Node)),
        start? {} shelf (.fixed .cancel) = .ok plain ∧
        start? (Settings.mirrored {}) shelf (.fixed .cancel) = .ok turned ∧
        (plain.run (Model.shelf Node).guarded (ops _)).dirty = ⟨true, false⟩ :=
      ⟨_, _, rfl, rfl, by decide +kernel⟩
    obtain ⟨himage, -, -⟩ :=
      mirrored_viewer_is_mirror_image hm hplain hturned (hops hfull)
    exact ⟨plain, turned, hplain, hturned, himage, hdirty⟩
  · have hm := Model.independent_guarded independent_files
    have hfull : Model.files.guarded.Full files 0 := by
      intro side
      cases side <;> rfl
    obtain ⟨plain, turned, hplain, hturned, hfailed, hdirty, hfile⟩ :
        ∃ plain turned : Session (Model.Guarded FileStore),
        start? {} files (.fixed .cancel) = .ok plain ∧
        start? (Settings.mirrored {}) files (.fixed .cancel) = .ok turned ∧
        .failed full ∈ plain.replies Model.files.guarded (ops _) ∧
        (plain.run Model.files.guarded (ops _)).dirty = ⟨true, false⟩ ∧
        (turned.run Model.files.guarded (mirrored _)).state.state.file .left
          = some ⟨#[100]⟩ :=
      ⟨_, _, rfl, rfl, by decide +kernel, by decide +kernel, by decide +kernel⟩
    obtain ⟨himage, -, hreplies⟩ :=
      mirrored_viewer_is_mirror_image hm hplain hturned (hops hfull)
    refine ⟨plain, turned, hplain, hturned, himage, hreplies, hfailed, hdirty,
      ?_, hfile⟩
    have hexchanged := himage.dirty
    rw [hdirty] at hexchanged
    exact hexchanged

end Session

end Reconcile
