/-
Reconcile.Proofs.Model.InStep — a comparison of files stays in step with the
disk.

What a side holds is kept twice, in its file and in the node that is shown, and
a save changes the one after the other. `FileStore.perform` carries a save out
stage by stage, and what has been done when a stage fails stays done. Once the
file is written no stage can fail, so a save that fails has changed nothing,
which is how the model has it (`perform_eq`).

There are three ways to fail: the side may not be edited, its file cannot be
written, or it cannot be removed. The last two are not only a matter of paths.
Each request comes with what the system refuses while it is carried out, which
is anything at all and may be something else the next time.

A comparison begins in step with the disk, since it is read from there. A save
that goes well puts the same on both sides of the equation, and leaves the file
of the other side alone if that is a different one (`Tracks.save`). So the two
are in step after any number of saves, whether or not they go well, and through
any number of mirrorings: `disk_and_node_stay_in_step`.
-/
import Mathlib.Logic.Function.Iterate
import Reconcile.Proofs.Model.Laws
import Reconcile.Proofs.Model.Loading

namespace Reconcile

/-! ## Behind mirrorings -/

theorem Side.pane_opposite_iterate (n : Nat) (side : Side) :
    (Side.opposite^[n] side).pane = Pane.mirrored^[n] side.pane := by
  induction n generalizing side with
  | zero => rfl
  | succ n ih =>
    rw [Function.iterate_succ_apply, Function.iterate_succ_apply, ih,
      Side.pane_opposite]

theorem Pane.mirrored_iterate_ancestor (n : Nat) :
    Pane.mirrored^[n] .ancestor = .ancestor := by
  induction n with
  | zero => rfl
  | succ n ih => rw [Function.iterate_succ_apply', ih, Pane.mirrored]

namespace Model

variable {σ : Type}

theorem content_mirrored_iterate (m : Model σ) (n : Nat) (state : σ) (pane : Pane)
    (input : Place) :
    (mirrored^[n] m).content state pane input
      = m.content state (Pane.mirrored^[n] pane) input := by
  induction n generalizing pane with
  | zero => rfl
  | succ n ih =>
    rw [Function.iterate_succ_apply', Function.iterate_succ_apply, ← ih]
    rfl

theorem save_mirrored_iterate (m : Model σ) (n : Nat) (state : σ) (side : Side)
    (input : Place) (bytes : Option ByteArray) :
    (mirrored^[n] m).save state side input bytes
      = m.save state (Side.opposite^[n] side) input bytes := by
  induction n generalizing side with
  | zero => rfl
  | succ n ih =>
    rw [Function.iterate_succ_apply', Function.iterate_succ_apply, ← ih]
    rfl

end Model

/-- A save that is asked of a model behind some mirrorings, and what the system
refuses to do while it is carried out. -/
structure SaveRequest where
  mirrorings : Nat := 0
  side : Side
  bytes : Option ByteArray
  refusals : Refusals := []

/-- The side of the model that is to be saved. -/
def SaveRequest.target (r : SaveRequest) : Side := Side.opposite^[r.mirrorings] r.side

namespace FileStore

/-! ## Saves, stage by stage -/

/-- The node takes what a side is to hold, if that side may be edited. -/
def take (s : FileStore) (side : Side) (bytes : Option ByteArray) :
    FileStore × Except SaveError Unit :=
  if s.editable.get side then
    ({ s with node := s.node.setContent side bytes }, .ok ())
  else (s, .error (.readOnly side))

/-- What a save has done when it ends, and how it ends: the side has to be one
that may be edited, its file is written or removed, and then the node takes
the content, for which it looks on its own whether the side may be edited. -/
def perform (s : FileStore) (side : Side) (bytes : Option ByteArray) :
    FileStore × Except SaveError Unit :=
  if s.editable.get side then
    match s.writeFile side bytes with
    | .ok disk => take { s with disk := disk } side bytes
    | .error e => (s, .error e)
  else (s, .error (.readOnly side))

/-- A save leaves behind what the model answers, or else nothing. -/
theorem perform_eq (s : FileStore) (side : Side) (bytes : Option ByteArray) :
    s.perform side bytes =
      match s.save side bytes with
      | .ok t => (t, .ok ())
      | .error e => (s, .error e) := by
  unfold perform save
  by_cases heditable : s.editable.get side = true
  · rw [if_pos heditable, if_pos heditable]
    cases s.writeFile side bytes with
    | ok disk => exact if_pos heditable
    | error e => rfl
  · rw [if_neg heditable, if_neg heditable]

/-- The comparison while the system refuses this and nothing else. -/
def under (s : FileStore) (refusals : Refusals) : FileStore :=
  { s with disk := { s.disk with refusals } }

/-- What one request has done when it ends, and how it ends. -/
def answer (s : FileStore) (r : SaveRequest) : FileStore × Except SaveError Unit :=
  (s.under r.refusals).perform r.target r.bytes

/-- The comparison after some requests. -/
def answerAll (s : FileStore) (requests : List SaveRequest) : FileStore :=
  requests.foldl (fun s r => (s.answer r).1) s

/-! ## In step -/

/-- `s` is a comparison that began as `start`, with the same directories and
the same ancestor, and with each side holding what is found at its path. -/
structure Tracks (start s : FileStore) : Prop where
  paths : s.paths = start.paths
  same : Disk.SameDirectories start.disk s.disk
  found : ∀ side, s.disk.Found (s.paths.side side) (s.node.content side.pane)
  ancestor : s.node.content .ancestor = start.node.content .ancestor

theorem tracks_of_load {start : FileStore}
    (h : start.paths.load start.disk = .ok start.node) : start.Tracks start :=
  ⟨rfl, .refl start.disk, ComparePaths.load_found h, rfl⟩

/-- **A save that goes well** keeps disk and node in step, if the two sides are
different files. -/
theorem Tracks.save {start s t : FileStore} (h : start.Tracks s)
    (hapart : start.Apart) {side : Side} {bytes : Option ByteArray}
    (hsave : s.save side bytes = .ok t) : start.Tracks t := by
  obtain ⟨-, disk, hwrite, rfl⟩ := save_ok hsave
  have hreplaced := replaced_writeFile hwrite
  refine ⟨h.paths, h.same.trans hreplaced.same, fun other => ?_, ?_⟩
  · rcases Side.eq_or_eq_opposite other side with rfl | rfl
    · rw [Node.content_setContent]
      exact hreplaced.found
    · rw [Node.content_setContent_opposite]
      have hdifferent := (hapart.of_sameDirectories h.paths h.same).on_side
        side.opposite
      rw [Side.opposite_opposite] at hdifferent
      exact hreplaced.found_apart hdifferent (h.found side.opposite)
  · exact (SteadySubject.ancestor_setContent s.node side bytes).trans h.ancestor

theorem Tracks.perform {start s : FileStore} (h : start.Tracks s)
    (hapart : start.Apart) (side : Side) (bytes : Option ByteArray) :
    start.Tracks (s.perform side bytes).1 := by
  rw [perform_eq]
  cases hsave : s.save side bytes with
  | ok t => exact h.save hapart hsave
  | error e => exact h

/-- What stands on the disk does not depend on what the system refuses. -/
theorem Tracks.under {start s : FileStore} (h : start.Tracks s) (refusals : Refusals) :
    start.Tracks (s.under refusals) := by
  have hsame : Disk.SameDirectories s.disk (s.under refusals).disk :=
    ⟨rfl, fun _ => .rfl⟩
  exact ⟨h.paths, h.same.trans hsame,
    fun side => hsame.found (h.found side) fun _ _ => rfl, h.ancestor⟩

theorem Tracks.answerAll {start s : FileStore} (h : start.Tracks s)
    (hapart : start.Apart) (requests : List SaveRequest) :
    start.Tracks (s.answerAll requests) := by
  induction requests generalizing s with
  | nil => exact h
  | cons r requests ih =>
    exact ih ((h.under r.refusals).perform hapart r.target r.bytes)

/-- What the model shows of a side, behind any number of mirrorings, is what is
found at the path of that side, with nothing for no file; and it shows the
ancestor that the comparison began with. -/
structure InStep (start s : FileStore) : Prop where
  sides : ∀ (n : Nat) (side : Side) (input : Place),
    s.disk.Found (start.paths.side (Side.opposite^[n] side))
      ((Model.mirrored^[n] Model.files).content s side.pane input)
  ancestor : ∀ (n : Nat) (input : Place),
    (Model.mirrored^[n] Model.files).content s .ancestor input
      = start.node.content .ancestor

theorem Tracks.inStep {start s : FileStore} (h : start.Tracks s) :
    start.InStep s where
  sides n side input := by
    rw [Model.content_mirrored_iterate, ← Side.pane_opposite_iterate, ← h.paths]
    exact h.found (Side.opposite^[n] side)
  ancestor n input := by
    rw [Model.content_mirrored_iterate, Pane.mirrored_iterate_ancestor]
    exact h.ancestor

/-- **Disk and node stay in step.** A comparison is read from two different
files. Whatever is then saved on whichever side, through however many
mirrorings, whatever the system refuses at each of these saves, and however they
end: each side shows what is found at its path, and the ancestor is the one that
was read. Of one more save, what the model answers is what becomes of it stage
by stage; if it goes well the side holds what was to be saved, and if it fails
neither the disk nor the node has changed. -/
theorem disk_and_node_stay_in_step {start : FileStore}
    (hload : start.paths.load start.disk = .ok start.node) (hapart : start.Apart)
    (requests : List SaveRequest) :
    let s := start.answerAll requests
    start.InStep s ∧ ∀ (r : SaveRequest) (input : Place),
      let after := s.answer r
      (Model.mirrored^[r.mirrorings] Model.files).save (s.under r.refusals) r.side
          input r.bytes = after.2.map (fun _ => after.1) ∧
        (after.2 = .ok () →
          after.1.disk.Found (start.paths.side r.target) r.bytes) ∧
        ∀ e, after.2 = .error e →
          after.1.disk = { s.disk with refusals := r.refusals } ∧
            after.1.node = s.node := by
  intro s
  have htracks : start.Tracks s := (tracks_of_load hload).answerAll hapart requests
  refine ⟨htracks.inStep, fun r input => ?_⟩
  have hmodel : (Model.mirrored^[r.mirrorings] Model.files).save (s.under r.refusals)
      r.side input r.bytes = (s.under r.refusals).save r.target r.bytes :=
    Model.save_mirrored_iterate ..
  rw [hmodel, answer, perform_eq]
  cases hsave : (s.under r.refusals).save r.target r.bytes with
  | ok t =>
    refine ⟨rfl, fun _ => ?_, by simp⟩
    obtain ⟨-, disk, hwrite, rfl⟩ := save_ok hsave
    rw [← (htracks.under r.refusals).paths]
    exact (replaced_writeFile hwrite).found
  | error e => exact ⟨rfl, by simp, fun _ _ => ⟨rfl, rfl⟩⟩

/-- The right file is missing, and so is the directory in which it would be. It
cannot be written, then, while the left one is written, removed, and written
anew without any bytes, each time behind another number of mirrorings. Before it
is removed the system refuses to do that once. In the end it will have the left
file neither written nor removed. -/
theorem in_step_with_missing_directory :
    let disk : Disk := {
      home := ["w"]
      entries := [(["w", "b"], .file ⟨#[96]⟩), (["w", "l"], .file ⟨#[97]⟩)] }
    let start : FileStore := {
      disk
      paths := ⟨some "b", "l", "d/r"⟩
      node := {
        kind := .classify (some ⟨#[96]⟩) (some ⟨#[97]⟩) none
        elements := ⟨some ⟨"b", some ⟨#[96]⟩⟩, some ⟨"l", some ⟨#[97]⟩⟩, none⟩ }
      editable := ⟨true, true⟩ }
    let locked : Refusals := [
      ((.write, ["w", "l"]), "Permission denied (os error 13)"),
      ((.remove, ["w", "l"]), "Permission denied (os error 13)")]
    let requests : List SaveRequest := [⟨1, .right, some ⟨#[98]⟩, []⟩,
      ⟨0, .right, some ⟨#[99]⟩, []⟩, ⟨2, .left, none, locked⟩, ⟨2, .left, none, []⟩,
      ⟨3, .right, some .empty, []⟩]
    let s := start.answerAll requests
    let refused : List SaveRequest := [⟨1, .left, some ⟨#[100]⟩, []⟩,
      ⟨0, .left, some ⟨#[100]⟩, locked⟩, ⟨1, .right, none, locked⟩]
    start.paths.load start.disk = .ok start.node ∧ start.Apart ∧
      start.InStep s ∧
      (start.answerAll (requests.take 3)).disk.entries
        = [(["w", "b"], .file ⟨#[96]⟩), (["w", "l"], .file ⟨#[98]⟩)] ∧
      s.disk.entries = [(["w", "b"], .file ⟨#[96]⟩), (["w", "l"], .file .empty)] ∧
      Model.files.mirrored.content s .right 0 = some .empty ∧
      ∀ r ∈ refused, (s.answer r).2.toOption = none ∧
        (s.answer r).1.disk.entries = s.disk.entries ∧
        (s.answer r).1.node = s.node := by
  intro disk start locked requests s refused
  have hload : start.paths.load start.disk = .ok start.node :=
    ok_of_toOption (by decide +kernel)
  have hapart : start.Apart := by
    intro l _ hright
    obtain ⟨fault, hnowhere⟩ := error_of_toOption
      (show (start.disk.locate start.paths.right).toOption = none by decide +kernel)
    simp [hnowhere] at hright
  have hfail : ∀ r ∈ refused, (s.answer r).2.toOption = none := by decide +kernel
  obtain ⟨hstep, hnext⟩ := disk_and_node_stay_in_step hload hapart requests
  refine ⟨hload, hapart, hstep, by decide +kernel, by decide +kernel,
    by decide +kernel, fun r hr => ?_⟩
  obtain ⟨e, hrefused⟩ := error_of_toOption (hfail r hr)
  obtain ⟨-, -, hkept⟩ := hnext r 0
  obtain ⟨hdisk, hnode⟩ := hkept e hrefused
  exact ⟨hfail r hr, by rw [hdisk], hnode⟩

end FileStore

end Reconcile
