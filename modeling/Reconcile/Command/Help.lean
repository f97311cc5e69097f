/-
Reconcile.Command.Help — the pages that explain how the program is used.

A page says what its topic is about, how a command line for it is written,
and then explains commands, words and options in two columns. The options
are those of the level that reads them.
-/
import Reconcile.Command.Arguments
import Reconcile.Terminal.Style

namespace Reconcile.Command

open Reconcile.Terminal (Style)

/-! ## Pages -/

/-- Lines below a heading: what is explained, and the explanation. -/
structure HelpGroup where
  heading : String
  entries : List (String × String)
  deriving DecidableEq, Repr

/-- A page of help. -/
structure HelpPage where
  about : String
  usage : String
  groups : List HelpGroup
  deriving DecidableEq, Repr

/-- The width of the first column: that of its longest entry. -/
def HelpGroup.width (g : HelpGroup) : Nat :=
  g.entries.foldl (fun w e => max w e.1.length) 0

/-- A group as text: two columns that are two blanks apart. -/
def HelpGroup.render (g : HelpGroup) : String :=
  g.heading ++ ":\n" ++ String.join (g.entries.map fun (what, text) =>
    "  " ++ Style.padRight g.width what ++ "  " ++ text ++ "\n")

/-- A page as text, with an empty line between its parts. -/
def HelpPage.render (p : HelpPage) : String :=
  "\n".intercalate
    ((p.about ++ "\n") :: ("Usage: " ++ p.usage ++ "\n") ::
      p.groups.map (·.render))

/-! ## Topics -/

namespace Topic

/-- What a topic is about. -/
def about : Topic → String
  | program => "Compare and merge files with save-before-close semantics"
  | init => "Generate a default configuration file"
  | validate => "Validate a configuration file"
  | compare => "Compare two files, optionally against a common ancestor"
  | help => "Print this message or the help of the given subcommand(s)"

/-- What stands on a command line after the name of a topic. -/
def parameters : Topic → String
  | program => "[OPTIONS] <COMMAND>"
  | init => "[OPTIONS]"
  | validate => "[OPTIONS]"
  | compare => "[OPTIONS] <LEFT> <RIGHT>"
  | help => "[COMMAND]..."

/-- How a command line is written. -/
def usage : Topic → String
  | program => program.name ++ " " ++ program.parameters
  | topic => program.name ++ " " ++ topic.name ++ " " ++ topic.parameters

/-- The options of a level. -/
def options {α : Type} (lvl : Level α) : HelpGroup where
  heading := "Options"
  entries := lvl.switches.map fun s => (s.shape, s.about)

/-- The groups on the page of a topic. -/
def groups : Topic → List HelpGroup
  | program => [
    ⟨"Commands", commands.map fun t => (t.name, t.about)⟩,
    options programLevel]
  | init => [options initLevel]
  | validate => [options validateLevel]
  | compare => [
    ⟨"Arguments", [("<LEFT>", "Left file"), ("<RIGHT>", "Right file")]⟩,
    options compareLevel]
  | help => [
    ⟨"Arguments", [("[COMMAND]...", "Print help for the subcommand(s)")]⟩]

/-- The page of a topic. -/
def page (t : Topic) : HelpPage := ⟨t.about, t.usage, t.groups⟩

end Topic

end Reconcile.Command
