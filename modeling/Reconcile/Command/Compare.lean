/-
Reconcile.Command.Compare — comparing files from the command line.

A comparison binds the files to a session, does what it was asked to do,
and closes by binding nothing, so that pending edits are dealt with. What
the session shows on the way is printed.
-/
import Reconcile.Command.Arguments
import Reconcile.Merge
import Reconcile.Model.Files
import Reconcile.Session
import Reconcile.Terminal.Screen

namespace Reconcile.Command

open Reconcile.Terminal (Screen Style)

/-- The messages of an error and of what caused it, outermost first. -/
abbrev Chain := List String

/-- A session on files with what has been printed of it. -/
structure Comparison where
  session : Session FileStore
  screen : Screen

namespace Comparison

/-- The end of a stage: the comparison, and what went wrong if something
did. -/
abbrev Stage := Comparison × Except Chain Unit

/-- Go on to the next stage unless something went wrong. -/
def andThen (r : Stage) (next : Comparison → Stage) : Stage :=
  match r.2 with
  | .ok () => next r.1
  | .error e => (r.1, .error e)

/-- Do something with the session and print what it shows. -/
def act {α : Type} (c : Comparison)
    (f : Session FileStore → Session FileStore × α) : Comparison × α :=
  let (session, a) := f c.session
  let shown := session.calls.drop c.session.calls.length
  (⟨session, shown.foldl Screen.take c.screen⟩, a)

/-- Print a line. -/
def line (c : Comparison) (text : String) : Comparison :=
  { c with screen := c.screen.line text }

/-- What is wrong with a save, below what was being done. -/
def failure {α : Type} (context : Chain) : Except SaveError α → Except Chain α
  | .ok a => .ok a
  | .error e => .error (context ++ e.chain)

/-- Print the name of the comparison and show the files. -/
def begin (c : Comparison) : Stage :=
  let c := c.line (c.screen.style.header c.session.state.node.name)
  let (c, outcome) := c.act (·.bind Model.files (some 0))
  (c, (failure [] outcome).map fun _ => ())

/-- Exchange the two sides of the view, if asked to. -/
def mirror (args : CompareArguments) (c : Comparison) : Stage :=
  if args.mirror then
    let (c, outcome) :=
      c.act (·.setMirrored Model.files (!c.session.mirrored))
    (c, (failure [] outcome).map fun _ => ())
  else (c, .ok ())

/-- Merge both sides into the left one, if asked to. The left side counts as
edited only if the merge differs from it. -/
def merge (args : CompareArguments) (c : Comparison) : Stage :=
  if args.merge then
    match c.session.panes.ancestor with
    | none => (c, .error ["the ancestor has no content"])
    | some ancestor =>
      let left := c.session.panes.left.getD .empty
      let right := c.session.panes.right.getD .empty
      match Merge.ofBytes ancestor left right with
      | none => (c, .error ["cannot merge binary content"])
      | some merged =>
        let style := c.screen.style
        let c :=
          if merged.hasConflicts then
            c.line (style.warn
              (toString merged.conflicts.length ++
                " conflict(s) left in the left side"))
          else c.line (style.success "merged without conflicts")
        if merged.content.toUTF8 = left then (c, .ok ())
        else
          ((c.act fun s => (s.applyEdit .left merged.content.toUTF8, ())).1,
            .ok ())
  else (c, .ok ())

/-- Copy one side over the other, if asked to. -/
def copy (args : CompareArguments) (c : Comparison) : Stage :=
  match args.copy with
  | none => (c, .ok ())
  | some direction =>
    let (c, copied) := c.act (·.copy Model.files direction)
    if copied then (c, .ok ())
    else
      (c.line (c.screen.style.warn "copy target is read-only, nothing copied"),
        .ok ())

/-- Close the comparison: deal with pending edits, if there are any, by
binding nothing. -/
def close (c : Comparison) : Stage :=
  if c.session.isDirty then
    let (c, outcome) := c.act (·.bind Model.files none)
    let style := c.screen.style
    match failure ["failed to save changes"] outcome with
    | .error e => (c, .error e)
    | .ok .cancelled => (c.line (style.warn "changes were not saved"), .ok ())
    | .ok _ => (c.line (style.success "comparison closed"), .ok ())
  else (c, .ok ())

/-- Everything from the start to the close. -/
def run (args : CompareArguments) (c : Comparison) : Stage :=
  andThen (andThen (andThen (andThen c.begin (mirror args)) (merge args))
    (copy args)) close

/-- The settings for a comparison: saving without asking is a policy. -/
def settings (s : Settings) (args : CompareArguments) : Settings :=
  if args.yes then { s with viewer := { s.viewer with savePolicy := .silentFlush } }
  else s

/-- The files of a comparison. -/
def paths (args : CompareArguments) : ComparePaths :=
  ⟨args.ancestor, args.left, args.right⟩

/-- A comparison that has not begun, or why there is none. What to do with
pending edits is asked on the terminal. -/
def start (d : Disk) (s : Settings) (args : CompareArguments)
    (selection : Selection) (screen : Screen) : Except Chain Comparison :=
  let s := settings s args
  if args.merge && s.viewer.mirrored then
    .error ["--merge writes the left file and cannot be used with a " ++
      "mirrored viewer"]
  else
    match (paths args).load d with
    | .error e => .error e.chain
    | .ok node =>
      let store : FileStore := ⟨d, paths args, node, s.viewer.editable⟩
      match Session.start? s store (.atTerminal selection) with
      | .error e => .error ("invalid viewer configuration" :: e.chain)
      | .ok session => .ok ⟨session, screen⟩

end Comparison

end Reconcile.Command
