/-
Reconcile.Side — the two editable sides of a comparison, the three panes
they are shown in, and the directions in which one side is copied over
the other.

* `Sided α` and `Paned α` hold one value per side and per pane; `get`
  and `set` read and write them by name, `swap` exchanges left and right.
* `oriented` turns a side or pane of the view into the side or pane of
  the model that it shows, given whether the view is mirrored.
-/

namespace Reconcile

/-! ## Sides -/

/-- One of the two editable sides of a comparison. -/
inductive Side where
  | left
  | right
  deriving DecidableEq, Repr, Inhabited

namespace Side

/-- The other side. -/
def opposite : Side → Side
  | left => right
  | right => left

/-- The side of the model that a view side shows. -/
def oriented (mirrored : Bool) (side : Side) : Side :=
  if mirrored then side.opposite else side

/-- The word for a side in messages. -/
def name : Side → String
  | left => "left"
  | right => "right"

@[simp] theorem opposite_opposite (s : Side) : s.opposite.opposite = s := by
  cases s <;> rfl

@[simp] theorem oriented_oriented (b : Bool) (s : Side) :
    (s.oriented b).oriented b = s := by
  cases b <;> simp [oriented]

end Side

/-! ## Panes -/

/-- One of the three content panes. The ancestor pane is never edited. -/
inductive Pane where
  | ancestor
  | left
  | right
  deriving DecidableEq, Repr, Inhabited

namespace Pane

/-- Left and right exchanged; the ancestor stays where it is. -/
def mirrored : Pane → Pane
  | ancestor => ancestor
  | left => right
  | right => left

/-- The pane of the model that a view pane shows. -/
def oriented (flipped : Bool) (pane : Pane) : Pane :=
  if flipped then pane.mirrored else pane

/-- The word for a pane in headers. -/
def name : Pane → String
  | ancestor => "ancestor"
  | left => "left"
  | right => "right"

/-- All panes, in the order in which they are shown. -/
def all : List Pane := [ancestor, left, right]

@[simp] theorem mirrored_mirrored (p : Pane) : p.mirrored.mirrored = p := by
  cases p <;> rfl

end Pane

/-- The pane in which a side is shown. -/
def Side.pane : Side → Pane
  | .left => .left
  | .right => .right

@[simp] theorem Side.pane_opposite (s : Side) :
    s.opposite.pane = s.pane.mirrored := by
  cases s <;> rfl

/-! ## Copy directions -/

/-- The direction of a copy between the sides. -/
inductive Direction where
  | leftToRight
  | rightToLeft
  deriving DecidableEq, Repr, Inhabited

namespace Direction

/-- The side that is read. -/
def source : Direction → Side
  | leftToRight => .left
  | rightToLeft => .right

/-- The side that is written. -/
def target (d : Direction) : Side := d.source.opposite

/-- The word for a direction on the command line. -/
def name : Direction → String
  | leftToRight => "left-to-right"
  | rightToLeft => "right-to-left"

/-- Both directions, in the order in which they are offered. -/
def all : List Direction := [leftToRight, rightToLeft]

/-- The direction of a given name. -/
def ofName? (text : String) : Option Direction :=
  all.find? (·.name == text)

end Direction

/-! ## A value for each side, a value for each pane -/

/-- One value for each of the two sides. -/
@[ext]
structure Sided (α : Type) where
  left : α
  right : α
  deriving DecidableEq, Repr

namespace Sided

variable {α β : Type}

/-- The value of a side. -/
def get (x : Sided α) : Side → α
  | .left => x.left
  | .right => x.right

/-- Replace the value of a side. -/
def set (x : Sided α) (side : Side) (a : α) : Sided α :=
  match side with
  | .left => { x with left := a }
  | .right => { x with right := a }

/-- Left and right exchanged. -/
def swap (x : Sided α) : Sided α := ⟨x.right, x.left⟩

/-- Left, then right. -/
def toList (x : Sided α) : List α := [x.left, x.right]

@[simp] theorem get_set_self (x : Sided α) (s : Side) (a : α) :
    (x.set s a).get s = a := by
  cases s <;> rfl

@[simp] theorem get_set_opposite (x : Sided α) (s : Side) (a : α) :
    (x.set s a).get s.opposite = x.get s.opposite := by
  cases s <;> rfl

@[simp] theorem get_swap (x : Sided α) (s : Side) :
    x.swap.get s = x.get s.opposite := by
  cases s <;> rfl

@[simp] theorem set_get (x : Sided α) (s : Side) : x.set s (x.get s) = x := by
  cases s <;> rfl

end Sided

/-- One value for each of the three panes. -/
@[ext]
structure Paned (α : Type) where
  ancestor : α
  left : α
  right : α
  deriving DecidableEq, Repr

namespace Paned

variable {α β : Type}

/-- The value that `f` gives for each pane. -/
def ofFn (f : Pane → α) : Paned α := ⟨f .ancestor, f .left, f .right⟩

/-- The value of a pane. -/
def get (x : Paned α) : Pane → α
  | .ancestor => x.ancestor
  | .left => x.left
  | .right => x.right

/-- The value of a side's pane. -/
def side (x : Paned α) : Side → α
  | .left => x.left
  | .right => x.right

/-- Replace the value of a side's pane. -/
def setSide (x : Paned α) (side : Side) (a : α) : Paned α :=
  match side with
  | .left => { x with left := a }
  | .right => { x with right := a }

/-- Left and right exchanged. -/
def mirrored (x : Paned α) : Paned α := ⟨x.ancestor, x.right, x.left⟩

/-- The ancestor, then left, then right. -/
def toList (x : Paned α) : List α := [x.ancestor, x.left, x.right]

@[simp] theorem get_ofFn (f : Pane → α) (p : Pane) : (ofFn f).get p = f p := by
  cases p <;> rfl

@[simp] theorem side_setSide_self (x : Paned α) (s : Side) (a : α) :
    (x.setSide s a).side s = a := by
  cases s <;> rfl

@[simp] theorem side_setSide_opposite (x : Paned α) (s : Side) (a : α) :
    (x.setSide s a).side s.opposite = x.side s.opposite := by
  cases s <;> rfl

@[simp] theorem ancestor_setSide (x : Paned α) (s : Side) (a : α) :
    (x.setSide s a).ancestor = x.ancestor := by
  cases s <;> rfl

theorem side_eq_get (x : Paned α) (s : Side) : x.side s = x.get s.pane := by
  cases s <;> rfl

@[simp] theorem get_mirrored (x : Paned α) (p : Pane) :
    x.mirrored.get p = x.get p.mirrored := by
  cases p <;> rfl

end Paned

end Reconcile
