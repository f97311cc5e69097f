/-
Reconcile.Listeners — what a viewer announces, and the list of those who
listen, in the order in which they registered.
-/
import Reconcile.Side

namespace Reconcile

/-! ## Events -/

/-- An observable change of a viewer, with the new value. -/
inductive Event where
  /-- The dirty flag of a side changed. -/
  | dirtyState (value : Bool)
  /-- The viewer changed between two-way and three-way. -/
  | threeWay (value : Bool)
  /-- The ancestor pane was shown or hidden. -/
  | ancestorVisible (value : Bool)
  /-- Copying in a direction became possible or impossible. -/
  | copyEnabled (direction : Direction) (value : Bool)
  deriving DecidableEq, Repr

namespace Event

/-- The key under which an event is announced. -/
def property : Event → String
  | dirtyState _ => "dirty-state"
  | threeWay _ => "three-way"
  | ancestorVisible _ => "ancestor-visible"
  | copyEnabled .leftToRight _ => "copy-left-to-right"
  | copyEnabled .rightToLeft _ => "copy-right-to-left"

/-- The new value that an event carries. -/
def value : Event → Bool
  | dirtyState v => v
  | threeWay v => v
  | ancestorVisible v => v
  | copyEnabled _ v => v

end Event

/-! ## The list of listeners -/

/-- Listeners are told apart by a number of their own. -/
abbrev Listener := Nat

/-- Listeners in the order in which they registered, each at most once. -/
structure Listeners where
  order : List Listener := []
  deriving DecidableEq, Repr

namespace Listeners

/-- Register a listener at the end; false if it was registered already. -/
def add (ls : Listeners) (l : Listener) : Listeners × Bool :=
  if l ∈ ls.order then (ls, false) else (⟨ls.order ++ [l]⟩, true)

/-- Take a listener off the list; false if it was not registered. -/
def remove (ls : Listeners) (l : Listener) : Listeners × Bool :=
  if l ∈ ls.order then (⟨ls.order.filter (· ≠ l)⟩, true) else (ls, false)

/-- Take every listener off the list. -/
def clear (_ : Listeners) : Listeners := ⟨[]⟩

/-- How many listeners there are. -/
def size (ls : Listeners) : Nat := ls.order.length

/-- Whether there is no listener. -/
def isEmpty (ls : Listeners) : Bool := ls.order.isEmpty

/-- The calls that announce an event: each listener once, in order. -/
def fire (ls : Listeners) (e : Event) : List (Listener × Event) :=
  ls.order.map (·, e)

end Listeners

end Reconcile
