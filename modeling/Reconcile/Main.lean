/-
Reconcile.Main — the program on a real disk and a real terminal.

The part of the disk that the arguments speak of is read first, then the
run is computed by `Command.run`, and then its changes are carried out and
its text is printed. If the question about pending edits comes up, the answers
are shown and the run is computed again with what is picked from them. If the
system refuses a change, the run is computed again for a disk that refuses it.
-/
import Reconcile.Command

namespace Reconcile.Main

/-- A place as a path from the root. -/
def absolute (l : Location) : String := "/" ++ "/".intercalate l

/-- The reason that the system gives for a fault. -/
def reason : IO.Error → String
  | .permissionDenied _ code details | .resourceExhausted _ code details
  | .hardwareFault code details =>
    details ++ " (os error " ++ toString code ++ ")"
  | e => toString e

/-! ## The disk -/

/-- A real file, and why it cannot be read if it cannot. -/
def fileAt (place : String) : IO (DiskEntry × Option String) := do
  try
    return (.file (← IO.FS.readBinFile place), none)
  catch e =>
    return (.file .empty, some (reason e))

/-- What is at a place of the real disk. What cannot be reached counts as not
being there. -/
def look (l : Location) : IO (Option (DiskEntry × Option String)) := do
  try
    let place ← IO.FS.realPath (absolute l)
    if ← place.isDir then return some (.directory, none)
    if ← place.pathExists then return some (← fileAt place.toString)
    return none
  catch _ =>
    return none

/-- The part of the real disk that paths lead through. -/
def snapshot (paths : List String) : IO Disk := do
  let here := (← IO.currentDir).toString
  let home := (Disk.names here).filter (!·.isEmpty)
  let places := (paths.flatMap (Disk.route home)).eraseDups
  let found ← places.filterMapM fun l => do
    return (← look l).map (l, ·)
  return {
    home
    entries := found.map fun (l, e, _) => (l, e)
    refusals := found.filterMap fun (l, _, refusal) =>
      refusal.map ((Access.read, l), ·) }

/-- Carry out a change of the disk. If it is refused, that is told. -/
def carryOut (l : Location) (content : Option ByteArray) :
    IO (Option ((Access × Location) × String)) := do
  try
    match content with
    | some bytes =>
      -- Some faults show no sooner than when the bytes leave the buffer.
      IO.FS.withFile (absolute l) .write fun file => do
        file.write bytes
        file.flush
    | none => IO.FS.removeFile (absolute l)
    return none
  catch e =>
    return some ((if content.isSome then .write else .remove, l), reason e)

/-- Carry out what a run does to the disk. A run of which a change is refused
goes on in another way, so it is computed again, with that known. -/
def settle (run : Disk → Command.Outcome) : Nat → Disk → IO Command.Outcome
  | 0, disk => return run disk
  | attempts + 1, disk => do
    let outcome := run disk
    let changes := disk.changes outcome.disk
    match ← changes.findSomeM? fun (l, content) => carryOut l content with
    | none => return outcome
    | some refusal =>
      settle run attempts { disk with refusals := refusal :: disk.refusals }

/-! ## The terminal -/

/-- Print text at once. -/
def say (out : IO.FS.Stream) (text : String) : IO Unit := do
  out.putStr text
  out.flush

/-- What a line picks from a list that is numbered from one: an empty one the
first item, and one that is no number of an item, or the end of the input,
nothing. -/
def pick (line : String) : Selection :=
  match line, (Text.trim line).toNat? with
  | "", _ => .failed
  | "\n", _ => .picked 0
  | _, some (item + 1) =>
    if item < Selection.items.length then .picked item else .failed
  | _, _ => .failed

/-- Show the answers, if there is a terminal, and have one picked. -/
def ask : IO Selection := do
  let keyboard ← IO.getStdin
  if !(← keyboard.isTty) then return .failed
  let lines := Selection.items.mapIdx fun i item =>
    toString (i + 1) ++ ". " ++ item ++ "\n"
  say (← IO.getStderr) (String.join lines)
  return pick (← keyboard.getLine)

/-- The part of the environment that the program looks at. -/
def environment : IO Command.Environment := do
  let names := [Settings.policyVariable, Command.colourVariable]
  names.filterMapM fun name => do
    return (← IO.getEnv name).map fun value => (name, value.toUTF8)

end Reconcile.Main

open Reconcile Reconcile.Main in
/-- Run the program. -/
def main (args : List String) : IO UInt32 := do
  let paths :=
    match Command.Request.ofArguments args with
    | .ok request => request.paths
    | .error _ => []
  let disk ← snapshot paths
  let env ← environment
  let (shown, selection) ←
    match (Command.run args env disk .failed).asked with
    | some shown =>
      say (← IO.getStdout) shown
      pure (shown, ← ask)
    | none => pure ("", .failed)
  -- Two places can change, and each can refuse to be written and to be removed.
  let outcome ← settle (Command.run args env · selection) 4 disk
  say (← IO.getStdout) ((outcome.out.drop shown.length).toString)
  say (← IO.getStderr) outcome.err
  return outcome.exit.toUInt32
