/-
Reconcile.Command.Arguments — reading the command line.

Options may stand before, between and after the words of a command: as
`-x value`, `-xvalue`, `-x=value`, `--name value` or `--name=value`, and
flags of one letter may share a dash. After two dashes everything is a
word. Arguments are taken in from left to right, and the first one that
ends the reading decides how it ends.
-/
import Reconcile.Side

namespace Reconcile.Command

/-! ## Requests -/

/-- What a comparison is asked to do. -/
structure CompareArguments where
  left : String
  right : String
  ancestor : Option String := none
  /-- Merge changes that do not conflict into the left file. -/
  merge : Bool := false
  /-- Copy one side over the other. -/
  copy : Option Direction := none
  /-- Show the right file on the left. -/
  mirror : Bool := false
  /-- Save without asking. -/
  yes : Bool := false
  deriving DecidableEq, Repr

/-- A command. -/
inductive Request where
  /-- Write a settings file. -/
  | init (output : String)
  /-- Check a settings file, with or without a report as JSON. -/
  | validate (config : String) (json : Bool)
  /-- Compare two files. -/
  | compare (config : Option String) (arguments : CompareArguments)
  deriving DecidableEq, Repr

/-- The paths that a command has to do with. -/
def Request.paths : Request → List String
  | init output => [output]
  | validate config _ => [config]
  | compare config args =>
    config.toList ++ args.ancestor.toList ++ [args.left, args.right]

/-- What help can be asked about: the program, or one of its commands. -/
inductive Topic where
  | program
  | init
  | validate
  | compare
  /-- The command that gives help. -/
  | help
  deriving DecidableEq, Repr

namespace Topic

/-- The name of the program, and of each command. -/
def name : Topic → String
  | program => "mergeview"
  | init => "init"
  | validate => "validate"
  | compare => "compare"
  | help => "help"

/-- The commands, in the order in which help lists them. -/
def commands : List Topic := [init, validate, compare, help]

/-- The command of a given name. -/
def ofCommand? (text : String) : Option Topic :=
  commands.find? (·.name == text)

end Topic

/-- Why reading ends without a command. -/
inductive Stop where
  /-- The arguments make no sense. -/
  | usage (detail : String)
  /-- The version is asked for. -/
  | version
  /-- Help is asked for. -/
  | help (topic : Topic)
  deriving DecidableEq, Repr

/-- Where settings are kept when nothing else is said. -/
def defaultConfig : String := "./mergeview.toml"

/-! ## Levels -/

/-- How an option is taken in. -/
inductive Effect (α : Type) where
  | flag (apply : α → Except Stop α)
  | value (apply : α → String → Except Stop α)

/-- An option with its names. -/
structure Switch (α : Type) where
  long : String
  short : Option Char := none
  /-- What the option is for. -/
  about : String
  effect : Effect α

namespace Switch

variable {α : Type}

/-- An option as it is written: the letter if it has one, the name, and a
word in capitals that stands for its value. -/
def shape (s : Switch α) : String :=
  let letter :=
    match s.short with
    | some c => "-" ++ String.singleton c ++ ", "
    | none => "    "
  let value :=
    match s.effect with
    | .flag _ => ""
    | .value _ => " <" ++ s.long.toUpper ++ ">"
  letter ++ "--" ++ s.long ++ value

end Switch

/-- The options of a command, or of the program as a whole, and what is
done with a word. Without a use for words, reading stops at the first. -/
structure Level (α : Type) where
  switches : List (Switch α)
  word : Option (α → String → Except Stop α)

namespace Level

variable {α : Type}

/-- The effect of an option by its long name. -/
def long? (lvl : Level α) (name : String) : Option (Effect α) :=
  (lvl.switches.find? (·.long == name)).map (·.effect)

/-- The effect of an option by its letter. -/
def short? (lvl : Level α) (c : Char) : Option (Effect α) :=
  (lvl.switches.find? (·.short == some c)).map (·.effect)

/-- Whether an argument can only be an option. -/
def isOption (arg : String) : Bool :=
  match arg.toList with
  | '-' :: _ :: _ => true
  | _ => false

/-- Take in letters that share a dash. The last one may need a value that
is still to come; letters after one that takes a value are its value. -/
def letters (lvl : Level α) (a : α) :
    List Char → Except Stop (α × Option (α → String → Except Stop α))
  | [] => .ok (a, none)
  | c :: rest =>
    match lvl.short? c with
    | none => .error (.usage ("unexpected argument -" ++ String.singleton c))
    | some (.flag apply) => do lvl.letters (← apply a) rest
    | some (.value apply) =>
      match rest with
      | [] => .ok (a, some apply)
      | '=' :: value => do return (← apply a (String.ofList value), none)
      | value => do return (← apply a (String.ofList value), none)

/-- The name and the value of an option in one argument. -/
def splitLong (cs : List Char) : String × Option String :=
  match cs.span (· ≠ '=') with
  | (name, []) => (String.ofList name, none)
  | (name, _ :: value) => (String.ofList name, some (String.ofList value))

/-- Take in an argument that begins with two dashes. -/
def longOption (lvl : Level α) (a : α) (cs : List Char) :
    Except Stop (α × Option (α → String → Except Stop α)) :=
  let (name, value?) := splitLong cs
  match lvl.long? name, value? with
  | none, _ => .error (.usage ("unexpected argument --" ++ name))
  | some (.flag apply), none => do return (← apply a, none)
  | some (.flag _), some _ =>
    .error (.usage ("unexpected value for --" ++ name))
  | some (.value apply), none => .ok (a, some apply)
  | some (.value apply), some value => do return (← apply a value, none)

/-- Take in an option. -/
def option (lvl : Level α) (a : α) (arg : String) :
    Except Stop (α × Option (α → String → Except Stop α)) :=
  match arg.toList with
  | '-' :: '-' :: cs => lvl.longOption a cs
  | '-' :: cs => lvl.letters a cs
  | _ => .ok (a, none)

/-- Take in arguments from left to right, up to the first word if there is
no use for words. -/
def read (lvl : Level α) (a : α) (args : List String) :
    Except Stop (α × List String) :=
  match args with
  | [] => .ok (a, [])
  | arg :: rest =>
    if arg = "--" then
      match lvl.word with
      | some word => do return (← rest.foldlM word a, [])
      | none => .error (.usage "unexpected argument")
    else if isOption arg then do
      match ← lvl.option a arg with
      | (a, none) => lvl.read a rest
      | (a, some apply) =>
        match rest with
        | [] => .error (.usage ("a value is required for " ++ arg))
        | value :: rest =>
          if isOption value then
            .error (.usage ("a value is required for " ++ arg))
          else lvl.read (← apply a value) rest
    else
      match lvl.word with
      | some word => do lvl.read (← word a arg) rest
      | none => .ok (a, args)
termination_by args.length

end Level

/-! ## Options -/

/-- A path, which must not be empty. -/
def path (text : String) : Except Stop String :=
  if text.isEmpty then .error (.usage "a path must not be empty")
  else .ok text

/-- Take in something that may be given only once. -/
def once {β : Type} (name : String) (old : Option β) (new : β) :
    Except Stop (Option β) :=
  if old.isSome then
    .error (.usage ("--" ++ name ++ " cannot be used multiple times"))
  else .ok (some new)

/-- An option with a path that is given at most once. -/
def pathOption {α : Type} (long : String) (short : Option Char)
    (about : String) (get : α → Option String)
    (set : α → Option String → α) : Switch α where
  long := long
  short := short
  about := about
  effect := .value fun a text => do
    return set a (← once long (get a) (← path text))

/-- A flag that is given at most once. -/
def onceFlag {α : Type} (long : String) (short : Option Char)
    (about : String) (get : α → Bool) (set : α → α) : Switch α where
  long := long
  short := short
  about := about
  effect := .flag fun a =>
    if get a then
      .error (.usage ("--" ++ long ++ " cannot be used multiple times"))
    else .ok (set a)

/-- The flag that asks for help. -/
def helpFlag {α : Type} (topic : Topic) : Switch α where
  long := "help"
  short := some 'h'
  about := "Print help"
  effect := .flag fun _ => .error (.help topic)

/-- The flag that asks for the version. -/
def versionFlag {α : Type} : Switch α where
  long := "version"
  short := some 'V'
  about := "Print version"
  effect := .flag fun _ => .error .version

/-- The option that names the settings file, at every level. -/
def configOption {α : Type} (get : α → Option String)
    (set : α → Option String → α) : Switch α :=
  pathOption "config" (some 'c')
    "Path to the TOML configuration file. Defaults apply when omitted" get set

/-- The options in front of a command. -/
def programLevel : Level (Option String) where
  switches := [configOption id fun _ c => c, helpFlag .program, versionFlag]
  word := none

/-! ## The commands -/

/-- A word that a command has no use for. -/
def surplus {α : Type} (_ : α) (word : String) : Except Stop α :=
  .error (.usage ("unexpected argument " ++ word))

/-- What the command that writes settings was given so far. -/
structure InitParts where
  config : Option String := none
  output : Option String := none

/-- The options of the command that writes settings. -/
def initLevel : Level InitParts where
  switches := [
    configOption (·.config) fun p c => { p with config := c },
    pathOption "output" (some 'o')
      ("Output path for the generated config file [default: " ++
        defaultConfig ++ "]")
      (·.output) fun p o => { p with output := o },
    helpFlag .init]
  word := some surplus

/-- What the command that checks settings was given so far. -/
structure ValidateParts where
  config : Option String := none
  json : Bool := false

/-- The options of the command that checks settings. -/
def validateLevel : Level ValidateParts where
  switches := [
    configOption (·.config) fun p c => { p with config := c },
    onceFlag "json" none "Print a machine-readable report" (·.json)
      fun p => { p with json := true },
    helpFlag .validate]
  word := some surplus

/-- What the command that compares was given so far. -/
structure CompareParts where
  config : Option String := none
  left : Option String := none
  right : Option String := none
  ancestor : Option String := none
  merge : Bool := false
  copy : Option Direction := none
  mirror : Bool := false
  yes : Bool := false

/-- Take in a file to compare: the left one, then the right one. -/
def CompareParts.word (p : CompareParts) (word : String) :
    Except Stop CompareParts :=
  match p.left, p.right with
  | none, _ => do return { p with left := some (← path word) }
  | some _, none => do return { p with right := some (← path word) }
  | some _, some _ => surplus p word

/-- Take in the direction of a copy. -/
def CompareParts.takeCopy (p : CompareParts) (text : String) :
    Except Stop CompareParts :=
  match Direction.ofName? text with
  | none => .error (.usage ("invalid value for --copy: " ++ text))
  | some d => do return { p with copy := ← once "copy" p.copy d }

/-- The option that says what to copy. -/
def copyOption : Switch CompareParts where
  long := "copy"
  about := "Copy one side over the other [possible values: " ++
    ", ".intercalate (Direction.all.map (·.name)) ++ "]"
  effect := .value CompareParts.takeCopy

/-- The options of the command that compares. -/
def compareLevel : Level CompareParts where
  switches := [
    pathOption "ancestor" (some 'a')
      "Common ancestor for a three-way comparison" (·.ancestor)
      fun p a => { p with ancestor := a },
    configOption (·.config) fun p c => { p with config := c },
    onceFlag "merge" none
      "Merge non-conflicting changes from both sides into the left file"
      (·.merge) fun p => { p with merge := true },
    copyOption,
    onceFlag "mirror" none
      "Show the right file on the left and vice versa" (·.mirror)
      fun p => { p with mirror := true },
    onceFlag "yes" (some 'y') "Save without asking" (·.yes)
      fun p => { p with yes := true },
    helpFlag .compare]
  word := some CompareParts.word

/-- The comparison that was asked for, if nothing is missing: a merge needs
an ancestor, and cannot be done in a mirrored view. -/
def CompareParts.finish (p : CompareParts) : Except Stop CompareArguments :=
  match p.left, p.right with
  | some left, some right =>
    if p.merge && p.ancestor.isNone then
      .error (.usage "--merge needs --ancestor")
    else if p.merge && p.mirror then
      .error (.usage "--merge cannot be used with --mirror")
    else
      .ok {
        left, right
        ancestor := p.ancestor
        merge := p.merge
        copy := p.copy
        mirror := p.mirror
        yes := p.yes }
  | _, _ => .error (.usage "two files are needed")

/-- What help is asked about by the words after the command for it. -/
def helpTopic : List String → Except Stop Topic
  | [] => .ok .program
  | [name] =>
    match Topic.ofCommand? name with
    | some topic => .ok topic
    | none => .error (.usage ("unrecognized subcommand " ++ name))
  | _ => .error (.usage "unrecognized subcommand")

/-- Read a command after the options in front of it. A settings file that
is named after the command counts more than one named before. -/
def readCommand (config : Option String) (name : String)
    (args : List String) : Except Stop Request :=
  match Topic.ofCommand? name with
  | some .init => do
    let (p, _) ← initLevel.read {} args
    return .init (p.output.getD defaultConfig)
  | some .validate => do
    let (p, _) ← validateLevel.read {} args
    return .validate ((p.config <|> config).getD defaultConfig) p.json
  | some .compare => do
    let (p, _) ← compareLevel.read {} args
    return .compare (p.config <|> config) (← p.finish)
  | some .help => do .error (.help (← helpTopic args))
  | _ => .error (.usage ("unrecognized subcommand " ++ name))

/-- Read a command line. -/
def Request.ofArguments (args : List String) : Except Stop Request := do
  match ← programLevel.read none args with
  | (config, name :: rest) => readCommand config name rest
  | (_, []) => .error (.usage "a subcommand is needed")

end Reconcile.Command
