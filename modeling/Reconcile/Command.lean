/-
Reconcile.Command — the program as a function: from arguments, environment,
disk and what a user picks on the terminal to what is printed and what the disk
holds afterwards.
-/
import Reconcile.Command.Arguments
import Reconcile.Command.Compare
import Reconcile.Command.Help
import Reconcile.Json
import Reconcile.Settings.Load

namespace Reconcile.Command

open Reconcile.Terminal (Screen Style)

/-! ## The world around the program -/

/-- The variables of the environment. -/
abbrev Environment := List (String × ByteArray)

/-- A variable that is set and holds text. -/
def variableText (env : Environment) (name : String) : Option String :=
  (env.lookup name).bind String.fromUTF8?

/-- The variable that turns colours on, unless it is zero. -/
def colourVariable : String := "CLICOLOR_FORCE"

/-- How text is printed in an environment. -/
def styleOf (env : Environment) : Style :=
  ⟨(variableText env colourVariable).getD "0" ≠ "0"⟩

/-- How a run of the program ends. -/
structure Outcome where
  exit : Nat
  out : String
  err : String
  disk : Disk
  /-- What had been printed when the question about pending edits was
  asked, if it was. -/
  asked : Option String := none
  deriving DecidableEq

/-- The end of a run that went well. -/
def succeed (screen : Screen) (d : Disk) : Outcome :=
  ⟨0, screen.out, screen.err, d, screen.asked⟩

/-- The end of a run that failed: the chain of messages is the complaint. -/
def fail (screen : Screen) (d : Disk) (chain : Chain) : Outcome :=
  let screen := screen.complain (": ".intercalate chain)
  ⟨1, screen.out, screen.err, d, screen.asked⟩

/-! ## Writing settings -/

/-- The settings file that is written for a start. -/
def template : String :=
  "# mergeview configuration\n" ++
  "\n" ++
  "[viewer]\n" ++
  "# How edits are resolved when a comparison is closed:\n" ++
  "# \"confirm\", \"silent_flush\" or \"always_flush\".\n" ++
  "save_policy = \"confirm\"\n" ++
  "ancestor_visible = false\n" ++
  "ignore_ancestor = false\n" ++
  "mirrored = false\n" ++
  "left_editable = true\n" ++
  "right_editable = true\n" ++
  "\n" ++
  "[messages]\n" ++
  "save_title = \"Save Resource\"\n" ++
  "save_message = \"The comparison has been modified. Save changes?\"\n" ++
  "resource_changed_title = \"Resource Changed\"\n" ++
  "resource_changed_message = \"The resource being compared was changed " ++
  "outside the viewer. Save your changes before they are replaced?\"\n" ++
  "\n" ++
  "[logging]\n" ++
  "level = \"warn\"\n"

/-- Write a settings file where there is nothing yet. -/
def init (d : Disk) (screen : Screen) (output : String) : Outcome :=
  if d.contains output then
    fail screen d ["file already exists: " ++ output ++
      ". Use a different path or remove the existing file."]
  else
    match d.write output template.toUTF8 with
    | .error e => fail screen d ["failed to write config file", e.message]
    | .ok written =>
      let screen := screen.line
        (screen.style.success ("Default configuration written to " ++ output))
      let lines := [
        "",
        "Next steps:",
        "  1. Pick a save policy and prompt texts",
        "  2. Validate with: mergeview validate --config " ++ output,
        "  3. Compare files: mergeview compare --config " ++ output ++
          " LEFT RIGHT"]
      succeed (lines.foldl Screen.line screen) written

/-! ## Checking settings -/

/-- Settings as a part of a report, with fields in alphabetical order. -/
def settingsReport (s : Settings) : Json :=
  .object [
    ("logging", .object [("level", .string s.logLevel)]),
    ("messages", .object [
      ("resource_changed_message", .string s.messages.changedMessage),
      ("resource_changed_title", .string s.messages.changedTitle),
      ("save_message", .string s.messages.saveMessage),
      ("save_title", .string s.messages.saveTitle)]),
    ("viewer", .object [
      ("ancestor_visible", .bool s.viewer.ancestorVisible),
      ("ignore_ancestor", .bool s.viewer.ignoreAncestor),
      ("left_editable", .bool s.viewer.editable.left),
      ("mirrored", .bool s.viewer.mirrored),
      ("right_editable", .bool s.viewer.editable.right),
      ("save_policy", .string s.viewer.savePolicy.name)])]

/-- The report on a settings file. -/
def report (path : String) (s : Settings) (fault : Option SettingsError) :
    Json :=
  .object [
    ("config", settingsReport s),
    ("error", (fault.map fun e => Json.string e.message).getD .null),
    ("path", .string path),
    ("valid", .bool fault.isNone)]

/-- A setting that is on or off, in words. -/
def onOff (b : Bool) : String := if b then "on" else "off"

/-- Settings in a few lines. -/
def summary (s : Settings) : List String := [
  "",
  "Configuration summary:",
  "  Save policy     : " ++ s.viewer.savePolicy.name,
  "  Ancestor pane   : " ++ onOff s.viewer.ancestorVisible,
  "  Ignore ancestor : " ++ onOff s.viewer.ignoreAncestor,
  "  Mirrored        : " ++ onOff s.viewer.mirrored,
  "  Editable sides  : left " ++ onOff s.viewer.editable.left ++
    ", right " ++ onOff s.viewer.editable.right,
  "  Log level       : " ++ s.logLevel,
  "",
  "Configuration is valid."]

/-- Settings as far as the override could be applied, and what is wrong
with them. -/
def examine (s : Settings) (policy : Option String) :
    Settings × Option SettingsError :=
  match s.override policy with
  | .error e => (s, some e)
  | .ok s =>
    match s.check with
    | .error e => (s, some e)
    | .ok () => (s, none)

/-- Check a settings file. -/
def validate (d : Disk) (env : Environment) (screen : Screen) (path : String)
    (json : Bool) : Outcome :=
  match Settings.load d path with
  | .error e => fail screen d ("failed to parse configuration" :: e.chain)
  | .ok loaded =>
    let (s, fault) := examine loaded (variableText env Settings.policyVariable)
    let failed := "configuration validation failed"
    if json then
      let screen := screen.line (report path s fault).pretty
      match fault with
      | none => succeed screen d
      | some e => fail screen d (failed :: e.chain)
    else
      let screen := [
        "Validating configuration: " ++ path,
        "",
        "  [OK] TOML structure is valid"].foldl Screen.line screen
      match fault with
      | none =>
        let screen := screen.line "  [OK] All fields are valid"
        succeed ((summary s).foldl Screen.line screen) d
      | some e =>
        fail (screen.line ("  [FAIL] Validation error: " ++ e.message)) d
          [failed]

/-! ## Comparing -/

/-- The settings that a comparison uses: those of the file if one is named,
and the defaults otherwise, with the override applied. -/
def settingsFor (d : Disk) (env : Environment) (config : Option String) :
    Except Chain Settings :=
  let policy := variableText env Settings.policyVariable
  match config with
  | some path =>
    match Settings.resolve d policy path with
    | .ok s => .ok s
    | .error e => .error ("failed to load configuration file" :: e.chain)
  | none =>
    match Settings.override {} policy with
    | .error e => .error ("failed to apply environment overrides" :: e.chain)
    | .ok s =>
      match s.check with
      | .error e => .error ("invalid default configuration" :: e.chain)
      | .ok () => .ok s

/-- Compare two files. -/
def compare (d : Disk) (env : Environment) (screen : Screen)
    (config : Option String) (args : CompareArguments) (selection : Selection) :
    Outcome :=
  match settingsFor d env config with
  | .error e => fail screen d e
  | .ok s =>
    match Comparison.start d s args selection screen with
    | .error e => fail screen d e
    | .ok c =>
      match c.run args with
      | (c, .ok ()) => succeed c.screen c.session.state.disk
      | (c, .error e) => fail c.screen c.session.state.disk e

/-! ## The program -/

/-- The version of the program. -/
def version : String := Topic.program.name ++ " 0.1.0"

/-- What is said about a command line that makes no sense. -/
def misused (detail : String) : String :=
  "error: " ++ detail ++ "\n\nUsage: " ++ Topic.program.usage ++
    "\n\nFor more information, try '--help'.\n"

/-- A run of the program. The selection is what comes of the list of answers
if the question about pending edits is asked. -/
def run (args : List String) (env : Environment) (d : Disk)
    (selection : Selection) : Outcome :=
  let screen : Screen := { style := styleOf env }
  match Request.ofArguments args with
  | .error .version => succeed (screen.line version) d
  | .error (.help topic) => succeed (screen.print topic.page.render) d
  | .error (.usage detail) => ⟨2, "", misused detail, d, none⟩
  | .ok (.init output) => init d screen output
  | .ok (.validate path json) => validate d env screen path json
  | .ok (.compare config args) => compare d env screen config args selection

end Reconcile.Command
