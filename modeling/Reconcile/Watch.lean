/-
Reconcile.Watch — the inputs whose changes a viewer is told about, and the
saves that are running.

Inputs are watched by identity: two inputs with equal content at different
places are different. A running save is held open by a guard; guards may
be dropped in any order, and a save is in progress as long as one is held.
-/

namespace Reconcile

/-- The place of an input among the inputs of a host. -/
abbrev Place := Nat

/-- Save guards are numbered in the order in which they are taken. -/
abbrev SaveGuard := Nat

/-- The watched inputs and the running saves. -/
structure WatchRegistry where
  watched : List Place := []
  /-- How many saves are running. -/
  savesInFlight : Nat := 0
  /-- The guards that are held, oldest first. -/
  guards : List SaveGuard := []
  /-- The number of the next guard. -/
  nextGuard : SaveGuard := 0
  deriving DecidableEq, Repr

namespace WatchRegistry

/-- Watch an input. An input that is watched already stays so, once. -/
def add (r : WatchRegistry) (input : Place) : WatchRegistry :=
  if input ∈ r.watched then r
  else { r with watched := r.watched ++ [input] }

/-- Stop watching an input. -/
def remove (r : WatchRegistry) (input : Place) : WatchRegistry :=
  { r with watched := r.watched.filter (· ≠ input) }

/-- Whether an input is watched. -/
def isWatching (r : WatchRegistry) (input : Place) : Bool :=
  input ∈ r.watched

/-- How many inputs are watched. -/
def watchedCount (r : WatchRegistry) : Nat := r.watched.length

/-- Take a guard: a save is running until it is dropped. -/
def beginSave (r : WatchRegistry) : WatchRegistry :=
  { r with
    savesInFlight := r.savesInFlight + 1
    guards := r.guards ++ [r.nextGuard]
    nextGuard := r.nextGuard + 1 }

/-- Drop a guard. A guard that is not held cannot be dropped again. -/
def endSave (r : WatchRegistry) (guard : SaveGuard) : WatchRegistry :=
  if guard ∈ r.guards then
    { r with
      savesInFlight := r.savesInFlight - 1
      guards := r.guards.erase guard }
  else r

/-- Whether a save is running. -/
def isSaving (r : WatchRegistry) : Bool := r.savesInFlight > 0

end WatchRegistry

end Reconcile
