/-
Reconcile.Settings.Decode — settings from a TOML document.

A document overlays the defaults: each key that is known replaces its
field, and keys that are not known are ignored. A section that is missing
has the defaults of the settings, and one that is there has a default for
each key. A table may also be given as an array, whose items then fill the
fields in their usual order, or as a date, which fills none.
-/
import Reconcile.Settings
import Reconcile.Toml.Reader

namespace Reconcile.Settings

open Reconcile.Toml (Value Table)

/-! ## Typed values -/

/-- A value of the wrong type. -/
def wrongType (field expected : String) : SettingsError :=
  .malformed (field ++ ": expected " ++ expected)

/-- A value that has to be a boolean. -/
def asBool (field : String) : Value → Except SettingsError Bool
  | .boolean b => .ok b
  | _ => .error (wrongType field "a boolean")

/-- A value that has to be a string. -/
def asText (field : String) : Value → Except SettingsError String
  | .string s => .ok s
  | _ => .error (wrongType field "a string")

/-- Whether a value is a table or an array without content. -/
def isVoid : Value → Bool
  | .table _ [] | .array [] | .tables [] => true
  | _ => false

/-- A value that has to name a save policy: by its name, or by a table with
nothing but that name for a key. -/
def asPolicy (field : String) (value : Value) :
    Except SettingsError SavePolicy :=
  let name? : Option String :=
    match value with
    | .string s => some s
    | .table _ [(key, inner)] => if isVoid inner then some key else none
    | _ => none
  match name?.bind SavePolicy.ofName? with
  | some policy => .ok policy
  | none => .error (wrongType field "the name of a save policy")

/-! ## Sections -/

/-- A key of a section, and how its value is taken in. -/
structure Field (α : Type) where
  key : String
  take : α → Value → Except SettingsError α

/-- A field of a section whose value is read and then put in its place. -/
def field {α β : Type} (owner key : String)
    (read : String → Value → Except SettingsError β) (put : β → α → α) :
    Field α where
  key := key
  take a value := do return put (← read (owner ++ "." ++ key) value) a

/-- A section of the settings. -/
structure Section (α : Type) where
  name : String
  /-- The fields in their usual order. -/
  fields : List (Field α)
  /-- What a section without keys stands for: the default of each key. -/
  bare : α

/-- Take in a key with its value. A key that is not known is ignored. -/
def Section.take {α : Type} (s : Section α) (a : α) (key : String)
    (value : Value) : Except SettingsError α :=
  match s.fields.find? (·.key == key) with
  | some f => f.take a value
  | none => .ok a

/-- Take in keys with their values, one after the other. -/
def Section.takeAll {α : Type} (s : Section α) (start : α)
    (entries : List (String × Value)) : Except SettingsError α :=
  entries.foldlM (fun a entry => s.take a entry.1 entry.2) start

/-- Values without keys, as the fields in their usual order. -/
def Section.inOrder {α β : Type} (s : Section α) (items : List β) :
    List (String × β) :=
  (s.fields.map (·.key)).zip items

/-- Take in a section as a whole. -/
def Section.decode {α : Type} (s : Section α) : Value → Except SettingsError α
  | .table _ entries => s.takeAll s.bare entries
  | .array items => s.takeAll s.bare (s.inOrder items)
  | .tables items =>
    s.takeAll s.bare (s.inOrder (items.map (Value.table .header)))
  | .dateTime _ => .ok s.bare
  | _ => .error (wrongType s.name "a table")

/-- The section on behaviour. -/
def viewerSection : Section Behaviour where
  name := "viewer"
  fields := [
    field "viewer" "save_policy" asPolicy
      fun policy b => { b with savePolicy := policy },
    field "viewer" "ancestor_visible" asBool
      fun value b => { b with ancestorVisible := value },
    field "viewer" "ignore_ancestor" asBool
      fun value b => { b with ignoreAncestor := value },
    field "viewer" "mirrored" asBool
      fun value b => { b with mirrored := value },
    field "viewer" "left_editable" asBool
      fun value b => { b with editable := b.editable.set .left value },
    field "viewer" "right_editable" asBool
      fun value b => { b with editable := b.editable.set .right value }]
  bare := {
    savePolicy := .default
    ancestorVisible := false
    ignoreAncestor := false
    mirrored := false
    editable := ⟨true, true⟩ }

/-- The section on the texts of the question. -/
def messagesSection : Section Messages where
  name := "messages"
  fields := [
    field "messages" "save_title" asText
      fun text m => { m with saveTitle := text },
    field "messages" "save_message" asText
      fun text m => { m with saveMessage := text },
    field "messages" "resource_changed_title" asText
      fun text m => { m with changedTitle := text },
    field "messages" "resource_changed_message" asText
      fun text m => { m with changedMessage := text }]
  bare := {
    saveTitle := Messages.defaultSaveTitle
    saveMessage := Messages.defaultSaveMessage
    changedTitle := Messages.defaultChangedTitle
    changedMessage := Messages.defaultChangedMessage }

/-- The section on logging, of which only the level is kept. -/
def loggingSection : Section String where
  name := "logging"
  fields := [field "logging" "level" asText fun text _ => text]
  bare := defaultLogLevel

/-! ## The whole -/

/-- A section as a field of the settings. -/
def Section.asField {α : Type} (s : Section α) (put : α → Settings → Settings) :
    Field Settings where
  key := s.name
  take settings value := do return put (← s.decode value) settings

/-- The sections of the settings. A section that is missing is the default as
a whole. -/
def document : Section Settings where
  name := "document"
  fields := [
    viewerSection.asField fun b s => { s with viewer := b },
    messagesSection.asField fun m s => { s with messages := m },
    loggingSection.asField fun level s => { s with logLevel := level }]
  bare := {}

/-- The settings that a table of a document stands for. -/
def ofTable (t : Table) : Except SettingsError Settings :=
  document.takeAll document.bare t

/-- The settings that a text stands for. -/
def ofToml (text : String) : Except SettingsError Settings :=
  match Toml.parse? text with
  | some t => ofTable t
  | none => .error (.malformed "not a TOML document")

end Reconcile.Settings
