/-
Reconcile.Settings.Load — settings from a file, with the override from the
environment, and their validation.
-/
import Reconcile.Disk
import Reconcile.Settings.Decode

namespace Reconcile.Settings

/-- The settings in a file, as they are written there. -/
def load (d : Disk) (path : String) : Except SettingsError Settings :=
  if d.contains path then
    match d.readText path with
    | .ok text => ofToml text
    | .error e => .error (.io e.message)
  else .error (.notFound path)

/-- Settings with the override applied, if they are valid then. -/
def finish (s : Settings) (policy : Option String) :
    Except SettingsError Settings := do
  let s ← s.override policy
  s.check
  return s

/-- The settings in a file with the override applied, if they are valid. -/
def resolve (d : Disk) (policy : Option String) (path : String) :
    Except SettingsError Settings := do
  (← load d path).finish policy

end Reconcile.Settings
