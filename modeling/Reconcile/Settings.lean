/-
Reconcile.Settings — the settings of a viewer and what makes them valid.

* `Settings` with its parts, and their defaults.
* `Settings.check` finds the first thing that is wrong.
* `Settings.override` applies the policy named in the environment.
-/
import Reconcile.Side
import Reconcile.Text.Blank

namespace Reconcile

/-! ## Save policies -/

/-- How pending edits are dealt with before they would be lost. -/
inductive SavePolicy where
  /-- Save without asking; meant for runs that nobody watches. -/
  | silentFlush
  /-- Ask whether to save, discard or cancel. -/
  | confirm
  /-- Save without asking. -/
  | alwaysFlush
  deriving DecidableEq, Repr

namespace SavePolicy

/-- The policy that holds when nothing is said. -/
def default : SavePolicy := confirm

instance : Inhabited SavePolicy := ⟨default⟩

/-- The name of a policy in settings. -/
def name : SavePolicy → String
  | silentFlush => "silent_flush"
  | confirm => "confirm"
  | alwaysFlush => "always_flush"

/-- The policies in the order in which they are listed. -/
def all : List SavePolicy := [silentFlush, confirm, alwaysFlush]

/-- The policy of a name, exactly as it is written. -/
def ofName? (text : String) : Option SavePolicy :=
  all.find? (·.name == text)

/-- The policy of a name that may have blanks around it. -/
def parse? (text : String) : Option SavePolicy := ofName? (Text.trim text)

end SavePolicy

/-! ## The settings -/

/-- How the viewer behaves. -/
structure Behaviour where
  savePolicy : SavePolicy := .default
  /-- Whether the ancestor pane is shown for three-way inputs. -/
  ancestorVisible : Bool := false
  /-- Whether the ancestor pane is hidden for good. -/
  ignoreAncestor : Bool := false
  /-- Whether the right model is shown on the left and the left one on the
  right. -/
  mirrored : Bool := false
  /-- Whether a side of the model may be edited. -/
  editable : Sided Bool := ⟨true, true⟩
  deriving DecidableEq, Repr

/-- The title of the question before edits would be lost. -/
def Messages.defaultSaveTitle : String := "Save Resource"

/-- The text of that question. -/
def Messages.defaultSaveMessage : String :=
  "The comparison has been modified. Save changes?"

/-- The title of the question when the input was changed outside. -/
def Messages.defaultChangedTitle : String := "Resource Changed"

/-- The text of that question. -/
def Messages.defaultChangedMessage : String :=
  "The resource being compared was changed outside the viewer. " ++
  "Save your changes before they are replaced?"

/-- The texts of the question about pending edits. -/
structure Messages where
  saveTitle : String := Messages.defaultSaveTitle
  saveMessage : String := Messages.defaultSaveMessage
  changedTitle : String := Messages.defaultChangedTitle
  changedMessage : String := Messages.defaultChangedMessage
  deriving DecidableEq, Repr

/-- The least severe messages that are logged when nothing is said. -/
def defaultLogLevel : String := "warn"

/-- The settings of a viewer. -/
structure Settings where
  viewer : Behaviour := {}
  messages : Messages := {}
  /-- The least severe messages that are logged. -/
  logLevel : String := defaultLogLevel
  deriving DecidableEq, Repr

/-! ## Errors -/

/-- Why settings could not be obtained. -/
inductive SettingsError where
  /-- There is no file at the path. -/
  | notFound (path : String)
  /-- The text is no document, or a value has the wrong type. -/
  | malformed (detail : String)
  /-- A value is not allowed. -/
  | invalid (field : String) (detail : String)
  /-- The file could not be read. -/
  | io (cause : String)
  deriving DecidableEq, Repr

namespace SettingsError

/-- The wording of an error. -/
def message : SettingsError → String
  | notFound path => "configuration file not found: " ++ path
  | malformed detail => "configuration parse error: " ++ detail
  | invalid field detail =>
    "invalid configuration value for '" ++ field ++ "': " ++ detail
  | io cause => "configuration I/O error: " ++ cause

/-- The messages of an error and of what caused it, outermost first. -/
def chain : SettingsError → List String
  | e@(io cause) => [e.message, cause]
  | e => [e.message]

end SettingsError

namespace Settings

/-! ## Validity -/

/-- The log levels, from the least to the most severe. -/
def logLevels : List String := ["trace", "debug", "info", "warn", "error"]

/-- The texts that must not be empty, with the names of their fields. -/
def texts (s : Settings) : List (String × String) :=
  [("messages.save_title", s.messages.saveTitle),
    ("messages.save_message", s.messages.saveMessage),
    ("messages.resource_changed_title", s.messages.changedTitle),
    ("messages.resource_changed_message", s.messages.changedMessage)]

/-- Everything that is wrong with settings, in the order in which it is
looked for. -/
def faults (s : Settings) : List SettingsError :=
  (if s.viewer.ignoreAncestor && s.viewer.ancestorVisible then
    [.invalid "viewer.ancestor_visible"
      "ancestor pane cannot be visible while ignore_ancestor is set"]
  else []) ++
  (s.texts.filter fun (_, text) => Text.allBlank text).map
    (fun (field, _) => .invalid field "prompt text must not be empty") ++
  (if s.logLevel ∈ logLevels then []
  else [.invalid "logging.level"
    ("expected one of " ++ ", ".intercalate logLevels)])

/-- Refuse settings that are not valid, naming the first fault. -/
def check (s : Settings) : Except SettingsError Unit :=
  match s.faults with
  | [] => .ok ()
  | e :: _ => .error e

/-! ## The environment -/

/-- The variable that overrides the save policy. -/
def policyVariable : String := "MERGEVIEW_SAVE_POLICY"

/-- Apply the value of the variable, if it has one. An empty value changes
nothing, and one that names no policy is refused. -/
def override (s : Settings) (value : Option String) :
    Except SettingsError Settings :=
  match value with
  | none => .ok s
  | some raw =>
    if raw = "" then .ok s
    else
      match SavePolicy.parse? raw with
      | some policy => .ok { s with viewer := { s.viewer with savePolicy := policy } }
      | none =>
        .error (.invalid policyVariable
          ("unknown save policy '" ++ raw ++
            "' (expected silent_flush, confirm or always_flush)"))

end Settings

end Reconcile
