/-
Reconcile.Model — what a viewer needs from the place where its inputs are
kept: their names and kinds, what is in their panes, and a way to save.

A model is a record of functions over a state `σ`. Saving answers with the
state afterwards; a save that fails changes nothing.

* `Model.mirrored` exchanges left and right throughout.
* `Model.guarded` refuses the saves it is told to refuse.
* `Model.shelf` keeps inputs in memory.
-/
import Reconcile.Node
import Reconcile.SaveError
import Reconcile.Watch

namespace Reconcile

/-- What is written above a pane. A missing part leaves what is there. -/
structure Header where
  label : Option String
  image : Option String
  deriving DecidableEq, Repr

/-- How inputs kept in a state are read and saved. -/
structure Model (σ : Type) where
  /-- The display name of an input. -/
  name : σ → Place → String
  /-- The change kind of an input that has one. -/
  kind? : σ → Place → Option ChangeKind
  /-- Whether an input is a single hunk of a larger patch. -/
  isHunk : σ → Place → Bool
  /-- What is in a pane, `none` when there is nothing at all. -/
  content : σ → Pane → Place → Option ByteArray
  label : σ → Pane → Place → Option String
  image : σ → Pane → Place → Option String
  /-- Whether a side may be edited. -/
  editable : σ → Side → Place → Bool
  /-- Save a side; `none` means that it has no content at all any more. -/
  save : σ → Side → Place → Option ByteArray → Except SaveError σ

namespace Model

variable {σ : Type}

/-- What is written above a pane. -/
def header (m : Model σ) (s : σ) (pane : Pane) (input : Place) : Header :=
  ⟨m.label s pane input, m.image s pane input⟩

/-! ## Mirrored models -/

/-- The model with left and right exchanged. -/
def mirrored (m : Model σ) : Model σ where
  name := m.name
  kind? := m.kind?
  isHunk := m.isHunk
  content s pane := m.content s pane.mirrored
  label s pane := m.label s pane.mirrored
  image s pane := m.image s pane.mirrored
  editable s side := m.editable s side.opposite
  save s side := m.save s side.opposite

/-- The model as a viewer shows it. -/
def oriented (m : Model σ) (flipped : Bool) : Model σ :=
  if flipped then m.mirrored else m

@[simp] theorem mirrored_mirrored (m : Model σ) : m.mirrored.mirrored = m := by
  simp [mirrored]

/-! ## Refused saves -/

/-- A state with the saves that are refused, by side of the model. -/
structure Guarded (σ : Type) where
  state : σ
  refusals : Sided (Option SaveError) := ⟨none, none⟩

/-- The model that refuses the saves it is told to refuse. -/
def guarded (m : Model σ) : Model (Guarded σ) where
  name g := m.name g.state
  kind? g := m.kind? g.state
  isHunk g := m.isHunk g.state
  content g := m.content g.state
  label g := m.label g.state
  image g := m.image g.state
  editable g := m.editable g.state
  save g side input bytes :=
    match g.refusals.get side with
    | some e => .error e
    | none =>
      match m.save g.state side input bytes with
      | .ok state => .ok { g with state := state }
      | .error e => .error e

end Model

/-! ## Subjects in memory -/

/-- What an input that is kept in memory has to tell. -/
class Subject (α : Type) where
  name : α → String
  kind? : α → Option ChangeKind
  isHunk : α → Bool
  content : α → Pane → Option ByteArray
  label : α → Pane → Option String
  image : α → Pane → Option String
  /-- The input with other content on a side. -/
  setContent : α → Side → Option ByteArray → α

instance : Subject Node where
  name := Node.name
  kind? n := some n.kind
  isHunk n := n.hunk
  content := Node.content
  label := Node.label
  image := Node.image
  setContent := Node.setContent

/-- An input without structure: it has neither a change kind nor images,
and only the labels that it is given. -/
structure Document where
  name : String := "document"
  contents : Paned (Option ByteArray)
  labels : Paned (Option String) := ⟨none, none, none⟩
  deriving DecidableEq

instance : Subject Document where
  name := Document.name
  kind? _ := none
  isHunk _ := false
  content d := d.contents.get
  label d := d.labels.get
  image _ _ := none
  setContent d side bytes :=
    { d with contents := d.contents.setSide side bytes }

/-- Inputs in memory, each at its place, and the sides that may be edited. -/
structure Shelf (α : Type) where
  items : List α
  editable : Sided Bool

namespace Shelf

variable {α : Type} [Subject α]

/-- Change what is on a side of an input; nothing happens at a place
without an input. -/
def setContent (s : Shelf α) (input : Place) (side : Side)
    (bytes : Option ByteArray) : Shelf α :=
  { s with items :=
      s.items.modify input (Subject.setContent · side bytes) }

end Shelf

/-- The model of inputs in memory. A side that may not be edited is not
saved either. -/
def Model.shelf (α : Type) [Subject α] : Model (Shelf α) where
  name s input := (s.items[input]?.map Subject.name).getD ""
  kind? s input := s.items[input]?.bind Subject.kind?
  isHunk s input := (s.items[input]?.map Subject.isHunk).getD false
  content s pane input := s.items[input]?.bind (Subject.content · pane)
  label s pane input := s.items[input]?.bind (Subject.label · pane)
  image s pane input := s.items[input]?.bind (Subject.image · pane)
  editable s side _ := s.editable.get side
  save s side input bytes :=
    if s.editable.get side then .ok (s.setContent input side bytes)
    else .error (.readOnly side)

end Reconcile
