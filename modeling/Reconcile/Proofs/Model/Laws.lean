/-
Reconcile.Proofs.Model.Laws — what a turned model reads and writes, and
what it means for a model to keep what is saved to it.

* `content_oriented`, `save_oriented`, … — a model seen through mirroring
  is the model itself at the side, or pane, that is shown.
* `Model.Keeps` — a save that succeeds is read back, and the other side
  reads as before. The places for which this holds are a parameter: an input
  in memory is kept only where there is one.
* `Model.KeepsEditable` — a save has no bearing on what may be edited.
* `Model.SameFacts`, `Model.Steady` — nor has it on what a viewer takes from
  an input besides its sides: whether that is a hunk, its change kind, and
  whether it has an ancestor.
* `keeps_shelf`, `keeps_guarded`, `keeps_files`, `steady_shelf`, … — the
  models of this library keep what is saved to them, and are steady.
-/
import Reconcile.Model.Files

namespace Reconcile

@[simp] theorem Side.pane_oriented (b : Bool) (side : Side) :
    (side.oriented b).pane = side.pane.oriented b := by
  cases b <;> cases side <;> rfl

@[simp] theorem Side.opposite_oriented (b : Bool) (side : Side) :
    side.opposite.oriented b = (side.oriented b).opposite := by
  cases b <;> cases side <;> rfl

theorem Side.oriented_not (b : Bool) (side : Side) :
    side.oriented (!b) = side.opposite.oriented b := by
  cases b <;> cases side <;> rfl

theorem Pane.oriented_not (b : Bool) (pane : Pane) :
    pane.oriented (!b) = pane.mirrored.oriented b := by
  cases b <;> cases pane <;> rfl

theorem Side.ne_opposite (side : Side) : side ≠ side.opposite := by
  cases side <;> decide

theorem Side.eq_or_eq_opposite (a b : Side) : a = b ∨ a = b.opposite := by
  cases a <;> cases b <;> simp [Side.opposite]

theorem Side.exists_iff {p : Side → Prop} (side : Side) :
    (∃ other, p other) ↔ p side ∨ p side.opposite := by
  constructor
  · rintro ⟨other, h⟩
    rcases Side.eq_or_eq_opposite other side with rfl | rfl
    · exact .inl h
    · exact .inr h
  · rintro (h | h)
    · exact ⟨_, h⟩
    · exact ⟨_, h⟩

namespace Model

variable {σ : Type}

/-! ## Turned models -/

theorem content_oriented (m : Model σ) (b : Bool) (state : σ) (pane : Pane)
    (input : Place) :
    (m.oriented b).content state pane input
      = m.content state (pane.oriented b) input := by
  cases b <;> rfl

theorem editable_oriented (m : Model σ) (b : Bool) (state : σ) (side : Side)
    (input : Place) :
    (m.oriented b).editable state side input
      = m.editable state (side.oriented b) input := by
  cases b <;> rfl

theorem save_oriented (m : Model σ) (b : Bool) (state : σ) (side : Side)
    (input : Place) (bytes : Option ByteArray) :
    (m.oriented b).save state side input bytes
      = m.save state (side.oriented b) input bytes := by
  cases b <;> rfl

/-! ## Models that keep what they are given -/

/-- A save that succeeds is read back on the side that was saved, and the
other side of the input reads as before. This is asked of the known places
alone, and a place stays known. -/
structure Keeps (m : Model σ) (known : σ → Place → Prop) : Prop where
  known_save : ∀ {s t : σ} {side : Side} {input : Place}
    {bytes : Option ByteArray}, m.save s side input bytes = .ok t →
    ∀ {place : Place}, known s place → known t place
  content_saved : ∀ {s t : σ} {side : Side} {input : Place}
    {bytes : Option ByteArray}, m.save s side input bytes = .ok t →
    known s input → m.content t side.pane input = bytes
  content_opposite : ∀ {s t : σ} {side : Side} {input : Place}
    {bytes : Option ByteArray}, m.save s side input bytes = .ok t →
    known s input →
    m.content t side.opposite.pane input = m.content s side.opposite.pane input

/-- What may be edited is the same after a save. -/
def KeepsEditable (m : Model σ) : Prop :=
  ∀ {s t : σ} {side : Side} {input : Place} {bytes : Option ByteArray},
    m.save s side input bytes = .ok t →
    ∀ other place, m.editable t other place = m.editable s other place

theorem save_guarded {m : Model σ} {g t : Guarded σ} {side : Side}
    {input : Place} {bytes : Option ByteArray}
    (h : m.guarded.save g side input bytes = .ok t) :
    m.save g.state side input bytes = .ok t.state := by
  simp only [guarded] at h
  split at h
  · simp at h
  · split at h
    · rename_i state hsave
      obtain rfl := Except.ok.inj h
      exact hsave
    · simp at h

theorem keeps_guarded {m : Model σ} {known : σ → Place → Prop}
    (hm : m.Keeps known) : m.guarded.Keeps fun g => known g.state where
  known_save h _ hp := hm.known_save (save_guarded h) hp
  content_saved h hp := hm.content_saved (save_guarded h) hp
  content_opposite h hp := hm.content_opposite (save_guarded h) hp

theorem keepsEditable_guarded {m : Model σ} (hm : m.KeepsEditable) :
    m.guarded.KeepsEditable :=
  fun h => hm (save_guarded h)

/-! ## Models that are steady -/

/-- Two states have the same to say about every input, but for names and
headers and for what is in the panes: of the ancestor only whether there is
one counts. -/
structure SameFacts (m : Model σ) (s t : σ) : Prop where
  isHunk : ∀ place, m.isHunk t place = m.isHunk s place
  kind? : ∀ place, m.kind? t place = m.kind? s place
  ancestor : ∀ place, (m.content t .ancestor place).isSome
    = (m.content s .ancestor place).isSome
  editable : ∀ side place, m.editable t side place = m.editable s side place

theorem SameFacts.refl (m : Model σ) (s : σ) : m.SameFacts s s :=
  ⟨fun _ => rfl, fun _ => rfl, fun _ => rfl, fun _ _ => rfl⟩

theorem SameFacts.trans {m : Model σ} {s t u : σ} (h : m.SameFacts s t)
    (g : m.SameFacts t u) : m.SameFacts s u where
  isHunk place := (g.isHunk place).trans (h.isHunk place)
  kind? place := (g.kind? place).trans (h.kind? place)
  ancestor place := (g.ancestor place).trans (h.ancestor place)
  editable side place := (g.editable side place).trans (h.editable side place)

/-- A save leaves these facts as they are. -/
def Steady (m : Model σ) : Prop :=
  ∀ {s t : σ} {side : Side} {input : Place} {bytes : Option ByteArray},
    m.save s side input bytes = .ok t → m.SameFacts s t

theorem steady_guarded {m : Model σ} (hm : m.Steady) : m.guarded.Steady := by
  intro s t side input bytes h
  have hfacts := hm (save_guarded h)
  exact ⟨hfacts.isHunk, hfacts.kind?, hfacts.ancestor, hfacts.editable⟩

end Model

/-! ## Inputs in memory -/

/-- An input holds what it is given on a side, and that disturbs nothing on
the other one. -/
class LawfulSubject (α : Type) [Subject α] : Prop where
  content_setContent : ∀ (a : α) (side : Side) (bytes : Option ByteArray),
    Subject.content (Subject.setContent a side bytes) side.pane = bytes
  content_setContent_opposite :
    ∀ (a : α) (side : Side) (bytes : Option ByteArray),
      Subject.content (Subject.setContent a side bytes) side.opposite.pane
        = Subject.content a side.opposite.pane

/-- Besides, it stays what it is: its kind and its ancestor are not touched. -/
class SteadySubject (α : Type) [Subject α] : Prop where
  isHunk_setContent : ∀ (a : α) (side : Side) (bytes : Option ByteArray),
    Subject.isHunk (Subject.setContent a side bytes) = Subject.isHunk a
  kind?_setContent : ∀ (a : α) (side : Side) (bytes : Option ByteArray),
    Subject.kind? (Subject.setContent a side bytes) = Subject.kind? a
  ancestor_setContent : ∀ (a : α) (side : Side) (bytes : Option ByteArray),
    Subject.content (Subject.setContent a side bytes) .ancestor
      = Subject.content a .ancestor

theorem Node.content_setContent (n : Node) (side : Side)
    (bytes : Option ByteArray) :
    (n.setContent side bytes).content side.pane = bytes := by
  cases side <;> rfl

theorem Node.content_setContent_opposite (n : Node) (side : Side)
    (bytes : Option ByteArray) :
    (n.setContent side bytes).content side.opposite.pane
      = n.content side.opposite.pane := by
  cases side <;> rfl

instance : LawfulSubject Node where
  content_setContent := Node.content_setContent
  content_setContent_opposite := Node.content_setContent_opposite

instance : LawfulSubject Document where
  content_setContent _ side _ := by cases side <;> rfl
  content_setContent_opposite _ side _ := by cases side <;> rfl

instance : SteadySubject Node where
  isHunk_setContent _ _ _ := rfl
  kind?_setContent _ _ _ := rfl
  ancestor_setContent _ side _ := by cases side <;> rfl

instance : SteadySubject Document where
  isHunk_setContent _ _ _ := rfl
  kind?_setContent _ _ _ := rfl
  ancestor_setContent _ side _ := by cases side <;> rfl

section Shelf

variable {α : Type} [Subject α]

theorem Model.save_shelf {s t : Shelf α} {side : Side} {input : Place}
    {bytes : Option ByteArray}
    (h : (Model.shelf α).save s side input bytes = .ok t) :
    t = s.setContent input side bytes := by
  simp only [Model.shelf] at h
  split at h
  · exact (Except.ok.inj h).symm
  · simp at h

/-- The places where there is an input are known. -/
theorem keeps_shelf [LawfulSubject α] :
    (Model.shelf α).Keeps fun s place => place < s.items.length where
  known_save h _ hp := by
    rw [Model.save_shelf h]
    simpa [Shelf.setContent] using hp
  content_saved h hp := by
    rw [Model.save_shelf h]
    simp [Model.shelf, Shelf.setContent, hp, LawfulSubject.content_setContent]
  content_opposite h hp := by
    rw [Model.save_shelf h]
    simp [-Side.pane_opposite, Model.shelf, Shelf.setContent, hp,
      LawfulSubject.content_setContent_opposite]

theorem keepsEditable_shelf : (Model.shelf α).KeepsEditable := by
  intro s t side input bytes h other place
  rw [Model.save_shelf h]
  rfl

/-- What is read of an input and does not hang on its sides reads the same
after a side is changed. -/
theorem Shelf.bind_setContent {β : Type} {f : α → Option β} {side : Side}
    {bytes : Option ByteArray}
    (hf : ∀ a, f (Subject.setContent a side bytes) = f a) (s : Shelf α)
    (input place : Place) :
    (s.setContent input side bytes).items[place]?.bind f
      = s.items[place]?.bind f := by
  rw [Shelf.setContent, List.getElem?_modify]
  cases s.items[place]? with
  | none => rfl
  | some a =>
    by_cases h : input = place
    · simp [h, hf]
    · simp [h]

theorem Shelf.sameFacts_setContent [SteadySubject α] (s : Shelf α)
    (input : Place) (side : Side) (bytes : Option ByteArray) :
    (Model.shelf α).SameFacts s (s.setContent input side bytes) := by
  refine ⟨fun place => ?_, fun place => ?_, fun place => ?_, fun _ _ => rfl⟩
  · have hread := s.bind_setContent (f := (some <| Subject.isHunk ·))
      (fun a => congrArg some (SteadySubject.isHunk_setContent a side bytes))
      input place
    simp only [Model.shelf, Option.map_eq_bind, Function.comp_def, hread]
  · exact s.bind_setContent (SteadySubject.kind?_setContent · side bytes) input place
  · exact congrArg Option.isSome
      (s.bind_setContent (SteadySubject.ancestor_setContent · side bytes) input place)

theorem steady_shelf [SteadySubject α] : (Model.shelf α).Steady := by
  intro s t side input bytes h
  rw [Model.save_shelf h]
  exact s.sameFacts_setContent input side bytes

end Shelf

/-! ## Inputs on disk -/

theorem FileStore.save_ok {s t : FileStore} {side : Side}
    {bytes : Option ByteArray} (h : s.save side bytes = .ok t) :
    s.editable.get side = true ∧ ∃ disk, s.writeFile side bytes = .ok disk ∧
      t = { s with disk := disk, node := s.node.setContent side bytes } := by
  unfold save at h
  split at h
  · rename_i heditable
    split at h
    · rename_i disk hwrite
      exact ⟨heditable, disk, hwrite, (Except.ok.inj h).symm⟩
    · simp at h
  · simp at h

theorem keeps_files : Model.files.Keeps fun _ _ => True where
  known_save _ _ _ := trivial
  content_saved h _ := by
    obtain ⟨-, disk, -, rfl⟩ := FileStore.save_ok h
    exact Node.content_setContent _ _ _
  content_opposite h _ := by
    obtain ⟨-, disk, -, rfl⟩ := FileStore.save_ok h
    exact Node.content_setContent_opposite _ _ _

theorem keepsEditable_files : Model.files.KeepsEditable := by
  intro s t side input bytes h other place
  obtain ⟨-, disk, -, rfl⟩ := FileStore.save_ok h
  rfl

theorem steady_files : Model.files.Steady := by
  intro s t side input bytes h
  obtain ⟨-, disk, -, rfl⟩ := FileStore.save_ok h
  exact ⟨fun _ => rfl, fun _ => rfl,
    fun _ => congrArg Option.isSome
      (SteadySubject.ancestor_setContent s.node side bytes),
    fun _ _ => rfl⟩

end Reconcile
