/-
Reconcile.Proofs.Session.LoadedKind — a comparison of files is shown three-way for
the reason that it was given.

A comparison that has been read has the kind of what was found at its paths, so a
direction bit in it says that a side is not what the ancestor is
(`ComparePaths.isThreeWay_load`). A viewer goes by that kind from the moment the
comparison is bound: a save does not change it, nor does anything else for as long
as the comparison stays bound (`presents_step`, `coherent_step`).

`classification_is_exact` puts this together with what a classification says of its
three contents.
-/
import Reconcile.Proofs.Change
import Reconcile.Proofs.Model.Loading
import Reconcile.Proofs.Session.FollowsInput

namespace Reconcile

/-! ## Comparisons with an ancestor -/

theorem ChangeKind.isThreeWay_classify (ancestor l r : Option ByteArray) :
    (classify ancestor l r).isThreeWay = true ↔
      ancestor.isSome ∧ (l ≠ ancestor ∨ r ≠ ancestor) := by
  have h := classifies_classify ancestor l r
  rw [isThreeWay_iff, h.left_iff, h.right_iff, and_or_left]

namespace ComparePaths

variable {p : ComparePaths} {d : Disk} {node : Node}

/-- There is an ancestor to compare with, and a side which is not the same, in its
bytes or by being missing. -/
def LeavesAncestor (p : ComparePaths) (d : Disk) : Prop :=
  ∃ base content, p.ancestor = some base ∧ d.content? base = some content ∧
    ∃ side, d.content? (p.side side) ≠ some content

/-- A comparison has been found three-way if one of its sides has left the ancestor. -/
theorem isThreeWay_load (h : p.load d = .ok node) :
    node.kind.isThreeWay = true ↔ p.LeavesAncestor d := by
  rw [(kind_of_load h).1, ChangeKind.isThreeWay_classify]
  cases hbase : p.ancestor with
  | none =>
    have hnone : node.elements.ancestor = none := by
      simpa [loadAncestor, hbase, eq_comm] using (of_load h).1
    simp [LeavesAncestor, hbase, Node.content, Paned.get, hnone]
  | some base =>
    obtain ⟨content, hread, hcontent⟩ := loadAncestor_ok hbase (of_load h).1
    have hsides : ∀ side : Side, node.content side.pane ≠ some content ↔
        d.content? (p.side side) ≠ some content :=
      fun side => not_congr (load_found h side).eq_some_iff
    have hancestor : node.content .ancestor = some content := hcontent
    simp [LeavesAncestor, hbase, Disk.content?_of_read hread, hancestor, Side.exists_iff .left, ← hsides,
      Side.pane, Side.opposite]

end ComparePaths

/-- A place holds a node, as far as its kind is concerned; what is on its sides may
have been saved since. -/
structure Model.Presents {σ : Type} (m : Model σ) (state : σ) (input : Place)
    (node : Node) : Prop where
  kind : m.kind? state input = some node.kind
  hunk : m.isHunk state input = node.hunk

theorem Model.presents_files (s : FileStore) (input : Place) :
    Model.files.Presents s input s.node :=
  ⟨rfl, rfl⟩

theorem Model.presents_shelf {s : Shelf Node} {input : Place} {node : Node}
    (h : s.items[input]? = some node) : (Model.shelf Node).Presents s input node := by
  constructor <;> simp [shelf, h, Subject.kind?, Subject.isHunk]

/-- A comparison that is no hunk goes by its kind alone. -/
theorem Model.Presents.isThreeWay_eq {σ : Type} {m : Model σ} {state : σ}
    {input : Place} {node : Node} (h : m.Presents state input node)
    (hhunk : node.hunk = false) :
    Session.isThreeWay m state input = node.kind.isThreeWay := by
  rw [Session.isThreeWay, h.kind, h.hunk, hhunk, Bool.false_or]

namespace Session

variable {σ : Type} {m : Model σ} {s : Session σ} {input : Place} {node : Node}

/-! ## From binding on -/

theorem sameFacts_step (hm : m.Steady) {op : Operation σ} (hop : op.KeepsFacts m)
    (s : Session σ) : m.SameFacts s.state (s.step m op).1.state := by
  by_cases helse : ∃ change, op = .elsewhere change
  · obtain ⟨change, rfl⟩ := helse
    exact hop s.state
  · rw [state_step m s op fun change h => helse ⟨change, h⟩]
    exact sameFacts_carryOut hm _ _

theorem presents_step (hm : m.Steady) {op : Operation σ} (hop : op.KeepsFacts m)
    (h : m.Presents s.state input node) :
    m.Presents (s.step m op).1.state input node := by
  have facts := sameFacts_step hm hop s
  exact ⟨(facts.kind? input).trans h.kind, (facts.isHunk input).trans h.hunk⟩

theorem refreshed_step (op : Operation σ) (h : s.Refreshed) :
    (s.step m op).1.Refreshed := by
  obtain ⟨panes, hpanes⟩ := h
  refine ⟨panes, ?_⟩
  rw [calls_step]
  exact List.mem_append_left _ hpanes

/-- To bind an input is to read it, and to tell of it, anew. -/
theorem coherent_bind (hbound : (s.step m (.bind (some input))).2 = .outcome .switched) :
    Coherent m (s.step m (.bind (some input))).1 ∧
      (s.step m (.bind (some input))).1.Refreshed ∧
      (s.step m (.bind (some input))).1.Told := by
  have hr : (s.bind m (some input)).2 = .ok .switched := Reply.ok_of_ofOutcome hbound
  by_cases hsame : s.input = some input
  · simp [Session.bind, hsame] at hr
  · obtain ⟨u, -, -, -, hnext⟩ := (bind_ends hsame).of_switched hr
    rw [step, Prod.map_fst, id, hnext]
    exact ⟨coherent_refresh m _, ⟨_, (showsInput_rebind m (some input) u).drawn⟩,
      told_refresh m _⟩

/-- **A comparison is shown by its kind** from the moment it is bound, and for as long
as it stays bound; whoever draws it has been told so. -/
theorem threeWay_of_bound (hm : m.Steady) (hpresents : m.Presents s.state input node)
    (hhunk : node.hunk = false)
    (hbound : (s.step m (.bind (some input))).2 = .outcome .switched)
    {ops : List (Operation σ)} (hops : ∀ op ∈ ops, op ≠ .dispose ∧ op.KeepsFacts m)
    {t : Session σ} (ht : t = (s.step m (.bind (some input))).1.run m ops)
    (hinput : t.input = some input) :
    t.threeWay = node.kind.isThreeWay ∧
      t.lastTold Call.available? = some t.threeWay := by
  obtain ⟨hcoherent, hrefreshed, htold⟩ := coherent_bind hbound
  have hstays : Coherent m t ∧ t.Refreshed ∧ (t.Refreshed → t.Told) ∧
      m.Presents t.state input node := by
    rw [ht]
    refine run_induction (m := m)
      (P := fun t => Coherent m t ∧ t.Refreshed ∧ (t.Refreshed → t.Told) ∧
        m.Presents t.state input node)
      ⟨hcoherent, hrefreshed, fun _ => htold, presents_step hm trivial hpresents⟩ ?_
    rintro u op hop ⟨hcoherent, hrefreshed, htold, hpresents⟩
    obtain ⟨hlive, hkeeps⟩ := hops op hop
    exact ⟨coherent_step hm hkeeps hlive hcoherent, refreshed_step op hrefreshed,
      told_step hlive htold, presents_step hm hkeeps hpresents⟩
  obtain ⟨hcoherent, hrefreshed, htold, hpresents⟩ := hstays
  refine ⟨?_, (htold hrefreshed).threeWay⟩
  rw [hcoherent.threeWay, currentThreeWay, hinput]
  exact hpresents.isThreeWay_eq hhunk

/-- **A classification is exact**: a kind is that of three contents if it says of each
part what holds of them, and to exchange the sides exchanges its directions and
nothing else. For a comparison that was read from files this means that it is shown
three-way exactly if an ancestor was given that one of the sides has left; a viewer
without an input binds it at once, one with another input unless that is called off,
and nothing that happens while it is bound has a bearing on it. -/
theorem classification_is_exact :
    (∀ ancestor l r : Option ByteArray,
      (∀ k, ChangeKind.Classifies ancestor l r k ↔
        k = ChangeKind.classify ancestor l r) ∧
      ChangeKind.classify ancestor r l = (ChangeKind.classify ancestor l r).mirrored) ∧
    ∀ {σ : Type} {m : Model σ}, m.Steady →
    ∀ {p : ComparePaths} {d : Disk} {node : Node}, p.load d = .ok node →
    ∀ {s : Session σ} {input : Place}, m.Presents s.state input node →
      (s.input = none → (s.step m (.bind (some input))).2 = .outcome .switched) ∧
      ((s.step m (.bind (some input))).2 = .outcome .switched →
        ∀ {ops : List (Operation σ)}, (∀ op ∈ ops, op ≠ .dispose ∧ op.KeepsFacts m) →
        ∀ {t : Session σ}, t = (s.step m (.bind (some input))).1.run m ops →
          t.input = some input →
          (t.threeWay = true ↔ p.LeavesAncestor d) ∧
            t.lastTold Call.available? = some t.threeWay) := by
  refine ⟨fun ancestor l r => ⟨fun k => ChangeKind.classifies_iff,
    ChangeKind.classify_swap⟩, ?_⟩
  intro σ m hm p d node hload s input hpresents
  obtain ⟨-, hhunk⟩ := ComparePaths.kind_of_load hload
  refine ⟨fun hunbound => ?_, fun hbound ops hops t ht hinput => ?_⟩
  · rw [step, bind_of_unbound hunbound]
    rfl
  · obtain ⟨hkind, htold⟩ := threeWay_of_bound hm hpresents hhunk hbound hops ht hinput
    refine ⟨?_, htold⟩
    rw [hkind]
    exact ComparePaths.isThreeWay_load hload

/-- A comparison of which the left side is missing, and the right one is what the
ancestor is. On disk the left side is given the same content and saved; in memory the
view is turned. It is shown as what it was when it was read. -/
theorem three_way_after_missing_side_is_saved :
    let disk : Disk := {
      home := []
      entries := [(["base"], .file ⟨#[97]⟩), (["right"], .file ⟨#[97]⟩)] }
    let p : ComparePaths := ⟨some "base", "left", "right"⟩
    let node : Node := {
      kind := .classify (some ⟨#[97]⟩) none (some ⟨#[97]⟩)
      elements := ⟨some ⟨"base", some ⟨#[97]⟩⟩, none, some ⟨"right", some ⟨#[97]⟩⟩⟩ }
    let store : FileStore := ⟨disk, p, node, ⟨true, true⟩⟩
    let shelf : Shelf Node := ⟨[node], ⟨false, false⟩⟩
    let ops : List (Operation FileStore) := [.applyEdit .left ⟨#[97]⟩, .flush .left]
    p.load disk = .ok node ∧
      (∃ start t, start? {} store (.fixed .save) = .ok start ∧
        t = (start.step .files (.bind (some 0))).1.run .files ops ∧
        t.state.node.content .left = some ⟨#[97]⟩ ∧
        (t.threeWay = true ↔ p.LeavesAncestor disk) ∧ t.threeWay = true) ∧
      ∃ start t, start? {} shelf (.fixed .save) = .ok start ∧
        t = (start.step (.shelf Node) (.bind (some 0))).1.run (.shelf Node)
          [.setMirrored true] ∧
        (t.threeWay = true ↔ p.LeavesAncestor disk) ∧ t.threeWay = true := by
  intro disk p node store shelf ops
  have hload : p.load disk = .ok node := ok_of_toOption (by decide +kernel)
  obtain ⟨start, hstart, hunbound, hstate, hfacts⟩ :
      ∃ start, start? {} store (.fixed .save) = .ok start ∧ start.input = none ∧
      start.state = store ∧
      let t := (start.step .files (.bind (some 0))).1.run .files ops
      t.input = some 0 ∧ t.state.node.content .left = some ⟨#[97]⟩ ∧
        t.threeWay = true :=
    ⟨_, rfl, rfl, rfl, by decide +kernel⟩
  obtain ⟨memory, hmemory, hunboundMemory, hstateMemory, hfactsMemory⟩ :
      ∃ start, start? {} shelf (.fixed .save) = .ok start ∧ start.input = none ∧
      start.state = shelf ∧
      let t := (start.step (.shelf Node) (.bind (some 0))).1.run (.shelf Node)
        [.setMirrored true]
      t.input = some 0 ∧ t.threeWay = true :=
    ⟨_, rfl, rfl, rfl, by decide +kernel⟩
  have hpresents : Model.files.Presents start.state 0 node :=
    hstate ▸ Model.presents_files store 0
  have hpresentsMemory : (Model.shelf Node).Presents memory.state 0 node :=
    hstateMemory ▸ Model.presents_shelf rfl
  obtain ⟨hbind, hshown⟩ := classification_is_exact.2 steady_files hload hpresents
  obtain ⟨hbindMemory, hshownMemory⟩ :=
    classification_is_exact.2 steady_shelf hload hpresentsMemory
  refine ⟨hload, ⟨start, _, hstart, rfl, hfacts.2.1, ?_, hfacts.2.2⟩,
    memory, _, hmemory, rfl, ?_, hfactsMemory.2⟩
  · exact (hshown (hbind hunbound) (by simp [ops, Operation.KeepsFacts]) rfl hfacts.1).1
  · exact (hshownMemory (hbindMemory hunboundMemory)
      (by simp [Operation.KeepsFacts]) rfl hfactsMemory.1).1

end Session

end Reconcile
