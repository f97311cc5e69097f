/-
Reconcile.SaveError — why a side could not be saved, and what the user is
told about it. A failed save is recoverable: the edit stays pending.
-/
import Reconcile.Side

namespace Reconcile

/-- Why a side could not be saved. Each cause names the side that the save
was aimed at. -/
inductive SaveError where
  /-- Writing the file behind the side failed. -/
  | io (side : Side) (path : String) (cause : String)
  /-- Nothing may be written to the side. -/
  | readOnly (side : Side)
  /-- The content was refused. -/
  | rejected (side : Side) (detail : String)
  deriving DecidableEq, Repr

namespace SaveError

/-- The side that the save was aimed at. -/
def side : SaveError → Side
  | io s _ _ => s
  | readOnly s => s
  | rejected s _ => s

/-- The wording of an error. -/
def message : SaveError → String
  | io s path cause =>
    "failed to write " ++ s.name ++ " content to '" ++ path ++ "': " ++ cause
  | readOnly s => s.name ++ " side is read-only"
  | rejected s detail => s.name ++ " content rejected: " ++ detail

/-- The messages of an error and of what caused it, outermost first. -/
def chain : SaveError → List String
  | e@(io _ _ cause) => [e.message, cause]
  | e => [e.message]

/-- What the user is told when a side of an input could not be saved. -/
def notice (input : String) (side : Side) (e : SaveError) : String :=
  "Could not save the " ++ side.name ++ " side of '" ++ input ++ "': " ++
    e.message ++
    ". Your changes are still pending; save again to retry."

end SaveError

end Reconcile
