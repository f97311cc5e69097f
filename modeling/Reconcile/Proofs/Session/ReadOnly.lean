/-
Reconcile.Proofs.Session.ReadOnly — a side of the model that may not be
edited is never written.

Dirty flags and panes belong to the sides of the view, and whether a side
may be edited to those of the model; the view can be turned between the two.
So the proof does not follow an edit. It looks at the saves: a flush asks the
model as it is shown at that moment, so what it saves is never a side that
may not be edited, and a save of the other side does not show there
(`Model.Shields`).

* `untouched_run` — no run saves such a side or changes what is kept for it.
* `read_only_side_is_never_written` — that is so in memory and for files, on
  the disk as well if the two sides are different files.
-/
import Reconcile.Proofs.Disk
import Reconcile.Proofs.Session.Runs

namespace Reconcile

/-! ## Models that shield a side -/

namespace Model

variable {σ β : Type}

/-- In the states that are `fine`, a side may not be edited, and saving the
other side does not show in what `look` sees. -/
structure Shields (m : Model σ) (side : Side) (look : σ → β)
    (fine : σ → Prop) : Prop where
  locked : ∀ {s : σ}, fine s → ∀ place, m.editable s side place = false
  fine_save : ∀ {s t : σ} {place : Place} {bytes : Option ByteArray}, fine s →
    m.save s side.opposite place bytes = .ok t → fine t
  look_save : ∀ {s t : σ} {place : Place} {bytes : Option ByteArray}, fine s →
    m.save s side.opposite place bytes = .ok t → look t = look s

theorem shields_guarded {m : Model σ} {side : Side} {look : σ → β}
    {fine : σ → Prop} (hm : m.Shields side look fine) :
    m.guarded.Shields side (fun g => look g.state) (fun g => fine g.state) where
  locked hfine := hm.locked hfine
  fine_save hfine h := hm.fine_save hfine (save_guarded h)
  look_save hfine h := hm.look_save hfine (save_guarded h)

/-- What is stored on a side of every input. -/
def stored (m : Model σ) (side : Side) (s : σ) (place : Place) :
    Option ByteArray :=
  m.content s side.pane place

end Model

theorem shields_shelf {α : Type} [Subject α] [LawfulSubject α] (side : Side) :
    (Model.shelf α).Shields side ((Model.shelf α).stored side)
      (fun s => s.editable.get side = false) where
  locked hfine _ := hfine
  fine_save hfine h := by
    rw [Model.save_shelf h]
    exact hfine
  look_save {s t input bytes} _ h := by
    rw [Model.save_shelf h]
    funext place
    have hother : ∀ a : α, Subject.content
        (Subject.setContent a side.opposite bytes) side.pane
          = Subject.content a side.pane := by
      intro a
      have h := LawfulSubject.content_setContent_opposite a side.opposite bytes
      rwa [Side.opposite_opposite] at h
    by_cases hplace : input = place
    · cases hitem : s.items[place]? <;>
        simp [Model.stored, Model.shelf, Shelf.setContent,
          hplace, hitem, hother]
    · simp [Model.stored, Model.shelf, Shelf.setContent, hplace]

theorem shields_files (side : Side) :
    Model.files.Shields side (Model.files.stored side)
      (fun s => s.editable.get side = false) where
  locked hfine _ := hfine
  fine_save hfine h := by
    obtain ⟨-, disk, -, rfl⟩ := FileStore.save_ok h
    exact hfine
  look_save {s _ _ bytes} _ h := by
    obtain ⟨-, disk, -, rfl⟩ := FileStore.save_ok h
    funext place
    have hother := s.node.content_setContent_opposite side.opposite bytes
    rwa [Side.opposite_opposite] at hother

theorem shields_file_on_disk (side : Side) :
    Model.files.Shields side (FileStore.file side)
      (fun s => s.editable.get side = false ∧ s.Apart) where
  locked hfine _ := hfine.1
  fine_save hfine h := by
    obtain ⟨-, disk, hwrite, rfl⟩ := FileStore.save_ok h
    have hsame := (FileStore.replaced_writeFile hwrite).same
    exact ⟨hfine.1, hfine.2.of_sameDirectories rfl hsame⟩
  look_save {s _ _ bytes} hfine h := by
    obtain ⟨-, disk, hwrite, rfl⟩ := FileStore.save_ok h
    have hreplaced := FileStore.replaced_writeFile hwrite
    exact hreplaced.content?_apart (hfine.2.on_side side)

/-- If it is done by someone else, it keeps the states fine and does not
show. -/
def Operation.Spares {σ β : Type} (look : σ → β) (fine : σ → Prop) :
    Operation σ → Prop
  | .elsewhere change => ∀ s, fine s → fine (change s) ∧ look (change s) = look s
  | _ => True

namespace Session

variable {σ β : Type} {m : Model σ} {side : Side} {look : σ → β}
  {fine : σ → Prop}

/-! ## What a run leaves alone -/

/-- `t` comes after `s`, and the side has neither been saved since, whether
or not that would have worked, nor has it changed. -/
structure Untouched (side : Side) (look : σ → β) (s t : Session σ) : Prop where
  unsaved : ∃ made, t.calls = s.calls ++ made ∧
    ∀ place bytes, Call.save place side bytes ∉ made
  look_eq : look t.state = look s.state

/-- A flush does not save a side that may not be edited, so what it saves is
the other one. -/
theorem oriented_of_pending {input : Place} {shown : Side} {s : Session σ}
    (hlocked : ∀ place, m.editable s.state side place = false)
    (hpending : s.pending m input shown = true) :
    shown.oriented s.mirrored = side.opposite := by
  rcases Side.eq_or_eq_opposite (shown.oriented s.mirrored) side with h | h
  · have heditable := (Bool.and_eq_true_iff.mp hpending).1
    rw [view, Model.editable_oriented, h, hlocked] at heditable
    exact absurd heditable (by decide)
  · exact h

theorem Untouched.append {s t u : Session σ} (h : Untouched side look s t)
    {more : List Call} (hcalls : u.calls = t.calls ++ more)
    (hmore : ∀ place bytes, Call.save place side bytes ∉ more)
    (hlook : look u.state = look t.state) : Untouched side look s u := by
  obtain ⟨made, hmade, hunsaved⟩ := h.unsaved
  refine ⟨⟨made ++ more, by rw [hcalls, hmade, List.append_assoc], ?_⟩,
    hlook.trans h.look_eq⟩
  intro place bytes hmem
  rcases List.mem_append.mp hmem with hmem | hmem
  · exact hunsaved place bytes hmem
  · exact hmore place bytes hmem

/-- A side that may not be edited stays untouched in small steps, and the
state stays fine. -/
theorem untouched_small (hm : m.Shields side look fine) (s : Session σ) :
    KeptBySmallSteps m fun t => fine t.state ∧ Untouched side look s t where
  follows {t u} hfollows ht := by
    obtain ⟨hfine, huntouched⟩ := ht
    obtain ⟨more, hcalls, hquiet⟩ := hfollows.calls
    have hmore : ∀ place bytes, Call.save place side bytes ∉ more := by
      intro place bytes hmem
      exact absurd (hquiet _ hmem) (by simp [Call.isSave])
    have hlook : look u.state = look t.state := by rw [hfollows.state]
    exact ⟨by rwa [hfollows.state], huntouched.append hcalls hmore hlook⟩
  flushedSide {input shown t u r} ends ht := by
    obtain ⟨hfine, huntouched⟩ := ht
    cases ends with
    | skipped => exact ⟨hfine, huntouched⟩
    | saved hpending state hsave =>
      have hshown := oriented_of_pending (hm.locked hfine) hpending
      have hmore : ∀ place bytes, Call.save place side bytes
          ∉ t.saveCall m input shown :: t.flagCalls shown false := by
        intro place bytes hmem
        rcases List.mem_cons.mp hmem with hmem | hmem
        · simp [saveCall, hshown, Side.ne_opposite] at hmem
        · obtain ⟨l, hevent⟩ := eq_event_of_mem_flagCalls hmem
          simp at hevent
      rw [hshown] at hsave
      exact ⟨hm.fine_save hfine hsave,
        huntouched.append rfl hmore (hm.look_save hfine hsave)⟩
    | refused hpending e hsave =>
      have hshown := oriented_of_pending (hm.locked hfine) hpending
      have hmore : ∀ place bytes, Call.save place side bytes
          ∉ [t.saveCall m input shown, .notify (m.name t.state input) shown e] := by
        intro place bytes hmem
        simp [saveCall, hshown, Side.ne_opposite] at hmem
      exact ⟨hfine, huntouched.append rfl hmore rfl⟩

/-- **No run touches a side** that the model shields. -/
theorem untouched_run (hm : m.Shields side look fine) {s : Session σ}
    (hs : fine s.state) {ops : List (Operation σ)}
    (hops : ∀ op ∈ ops, op.Spares look fine) :
    Untouched side look s (s.run m ops) := by
  have hrun : fine (s.run m ops).state ∧ Untouched side look s (s.run m ops) := by
    refine run_induction (P := fun t => fine t.state ∧ Untouched side look s t)
      ⟨hs, ⟨[], by simp, by simp⟩, rfl⟩ fun t op hop ht => ?_
    by_cases helse : ∃ change, op = .elsewhere change
    · obtain ⟨change, rfl⟩ := helse
      obtain ⟨hfine, hlook⟩ := hops _ hop t.state ht.1
      have hcalls : (t.step m (.elsewhere change)).1.calls = t.calls ++ [] := by
        simp [step]
      exact ⟨hfine, ht.2.append hcalls (by simp) hlook⟩
    · exact (untouched_small hm s).step (fun change h => helse ⟨change, h⟩) ht
  exact hrun.2

/-! ## In memory and for files -/

/-- **A read-only side is never written**, whatever is done in the session:
no run asks to save it, and it holds what it held when the run began. So it
is for inputs in memory, of whatever kind, and for files, with saves that are
refused at will. If the two sides are different files, the file of the side
is never written either. -/
theorem read_only_side_is_never_written (side : Side) :
    (∀ (α : Type) [Subject α] [LawfulSubject α]
      (s : Session (Model.Guarded (Shelf α)))
      (ops : List (Operation (Model.Guarded (Shelf α)))),
      s.state.state.editable.get side = false →
      (∀ op ∈ ops, op.Spares (fun g => (Model.shelf α).stored side g.state)
        (fun g => g.state.editable.get side = false)) →
      Untouched side (fun g => (Model.shelf α).stored side g.state) s
        (s.run (Model.shelf α).guarded ops)) ∧
    (∀ (s : Session (Model.Guarded FileStore))
      (ops : List (Operation (Model.Guarded FileStore))),
      s.state.state.editable.get side = false →
      (∀ op ∈ ops, op.Spares (fun g => Model.files.stored side g.state)
        (fun g => g.state.editable.get side = false)) →
      Untouched side (fun g => Model.files.stored side g.state) s
        (s.run Model.files.guarded ops)) ∧
    ∀ (s : Session (Model.Guarded FileStore))
      (ops : List (Operation (Model.Guarded FileStore))),
      s.state.state.editable.get side = false → s.state.state.Apart →
      (∀ op ∈ ops, op.Spares (fun g => g.state.file side)
        (fun g => g.state.editable.get side = false ∧ g.state.Apart)) →
      Untouched side (fun g => g.state.file side) s
        (s.run Model.files.guarded ops) := by
  refine ⟨?_, ?_, ?_⟩
  · intro α _ _ s ops hs hops
    exact untouched_run (Model.shields_guarded (shields_shelf side)) hs hops
  · intro s ops hs hops
    exact untouched_run (Model.shields_guarded (shields_files side)) hs hops
  · intro s ops hs hapart hops
    exact untouched_run (Model.shields_guarded (shields_file_on_disk side))
      ⟨hs, hapart⟩ hops

/-- Two files, of which the right one may not be edited. The view is turned
with edits pending on both of its sides, the first save is refused, and in
the end the left file holds what was typed, and the right one what it held. -/
theorem read_only_file_next_to_a_saved_one :
    let m := Model.files.guarded
    let disk : Disk := {
      home := ["w"]
      entries := [(["w", "l"], .file ⟨#[97]⟩), (["w", "r"], .file ⟨#[98]⟩)] }
    let state : Model.Guarded FileStore := {
      state := {
        disk
        paths := ⟨none, "l", "r"⟩
        node := .twoWay (some ⟨"l", some ⟨#[97]⟩⟩) (some ⟨"r", some ⟨#[98]⟩⟩)
        editable := ⟨true, false⟩ }
      refusals := ⟨some (.rejected .left "disk full"), none⟩ }
    let ops : List (Operation (Model.Guarded FileStore)) := [.bind (some 0),
      .applyEdit .left ⟨#[99]⟩, .applyEdit .right ⟨#[100]⟩, .setMirrored true,
      .elsewhere (fun g => { g with refusals := ⟨none, none⟩ }),
      .copy .leftToRight, .copy .rightToLeft, .setDirty .right true,
      .setMirrored true, .applyEdit .left ⟨#[101]⟩, .applyEdit .right ⟨#[102]⟩,
      .externalChange, .flushAll, .bind none]
    ∃ start, start? {} state (.fixed .save) = .ok start ∧
      Untouched .right (fun g => Model.files.stored .right g.state) start
        (start.run m ops) ∧
      (start.run m ops).state.state.file .right = some ⟨#[98]⟩ ∧
      (start.run m ops).state.state.file .left = some ⟨#[102]⟩ := by
  intro m disk state ops
  obtain ⟨start, hstart, hlocked, hdisk, hpaths, hright, hleft⟩ : ∃ start,
      start? {} state (.fixed .save) = .ok start ∧
      start.state.state.editable.get .right = false ∧
      start.state.state.disk = disk ∧
      start.state.state.paths = ⟨none, "l", "r"⟩ ∧
      start.state.state.file .right = some ⟨#[98]⟩ ∧
      (start.run m ops).state.state.file .left = some ⟨#[102]⟩ :=
    ⟨_, rfl, rfl, rfl, rfl, by decide +kernel, by decide +kernel⟩
  have hapart : start.state.state.Apart := by
    intro l hl hr
    rw [hdisk, hpaths] at hl hr
    have hlocated : disk.locate "l" = .ok ["w", "l"] ∧
        disk.locate "r" = .ok ["w", "r"] :=
      ⟨ok_of_toOption (by decide +kernel), ok_of_toOption (by decide +kernel)⟩
    have hsame := Except.ok.inj (hlocated.1.symm.trans hl)
    rw [hlocated.2, ← hsame] at hr
    simp at hr
  obtain ⟨-, hnode, hfile⟩ := read_only_side_is_never_written .right
  refine ⟨start, hstart, hnode start ops hlocked ?_, ?_, hleft⟩
  · simp [ops, Operation.Spares]
  · have hspares : ∀ op ∈ ops, op.Spares (fun g => g.state.file .right)
        (fun g => g.state.editable.get .right = false ∧ g.state.Apart) := by
      simp only [ops, List.mem_cons, List.not_mem_nil, or_false,
        forall_eq_or_imp, forall_eq, Operation.Spares, true_and, and_true]
      exact fun g hg => hg
    exact (hfile start ops hlocked hapart hspares).look_eq.trans hright

end Session

end Reconcile
