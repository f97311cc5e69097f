/-
Reconcile.Toml.Value — the tree that a TOML document stands for, and how
its statements build that tree.

A table remembers how it came to be, because that decides what may be
added to it: a table may be opened by a header once, a table that dotted
keys made takes more dotted keys, and an inline table takes nothing.
-/

namespace Reconcile.Toml

/-! ## Values -/

/-- How a table came to be. -/
inductive Origin where
  /-- By a header of its own, or as the document itself. -/
  | header
  /-- As a part of the path of a longer header. -/
  | implied
  /-- As a part of a dotted key. -/
  | dotted
  /-- Between braces. -/
  | inline
  deriving DecidableEq, Repr

/-- A value of a document. Numbers with a fraction and dates are kept as
they are written. -/
inductive Value where
  | string (text : String)
  | integer (value : Int)
  | float (written : String)
  | boolean (value : Bool)
  | dateTime (written : String)
  | array (items : List Value)
  | table (origin : Origin) (entries : List (String × Value))
  /-- Tables with headers in double brackets. -/
  | tables (items : List (List (String × Value)))

/-- Keys with their values, each key at most once, in order of appearance. -/
abbrev Table := List (String × Value)

/-- A statement of a document. -/
inductive Statement where
  /-- A key, possibly dotted, with its value. -/
  | assign (path : List String) (value : Value)
  /-- A header in brackets. -/
  | header (path : List String)
  /-- A header in double brackets. -/
  | item (path : List String)

/-! ## Building the tree -/

namespace Table

/-- The value of a key. -/
def get? (t : Table) (key : String) : Option Value := t.lookup key

/-- Replace the value of a key that is in the table, or add it at the end. -/
def put (t : Table) (key : String) (value : Value) : Table :=
  if (t.get? key).isSome then
    t.map fun entry => if entry.1 = key then (key, value) else entry
  else t ++ [(key, value)]

/-- Whether a dotted key may go through a table. -/
def takesDotted : Origin → Bool
  | .implied | .dotted => true
  | .header | .inline => false

/-- Change the table at the end of a path, given how the way there goes:
tables that are missing come to be in that way. The way into an array of
tables is its last table. Through a value there is no way. -/
def update (way : Origin) (change : Origin → Table → Option Table) :
    List String → Origin → Table → Option Table
  | [], origin, t => change origin t
  | key :: path, _, t =>
    match t.get? key with
    | none => do
      let inner ← update way change path way []
      return t.put key (.table way inner)
    | some (.table origin inner) =>
      if origin = .inline ∨ (way = .dotted ∧ !takesDotted origin) then none
      else do
        let inner ← update way change path origin inner
        return t.put key (.table origin inner)
    | some (.tables items) =>
      match items.getLast? with
      | none => none
      | some last => do
        let last ← update way change path .header last
        return t.put key (.tables (items.dropLast ++ [last]))
    | some _ => none

/-- Add a key that is not there yet to the table that its path leads to. A
path of one key stays in the table at hand; a dotted one has to end in a
table that dotted keys made. -/
def assign (t : Table) (path : List String) (value : Value) : Option Table :=
  match path.getLast? with
  | none => none
  | some key =>
    update .dotted
      (fun origin inner =>
        if 1 < path.length ∧ origin ≠ .dotted then none
        else if (inner.get? key).isSome then none
        else some (inner.put key value))
      path.dropLast .header t

/-- Open the table of a header. It may be there already as a part of a
longer header, and in no other way. -/
def openHeader (t : Table) (path : List String) : Option Table :=
  match path.getLast? with
  | none => none
  | some key =>
    update .implied
      (fun _ parent =>
        match parent.get? key with
        | none => some (parent.put key (.table .header []))
        | some (.table .implied inner) =>
          some (parent.put key (.table .header inner))
        | some _ => none)
      path.dropLast .header t

/-- Add a table to the array of tables of a header in double brackets. -/
def openItem (t : Table) (path : List String) : Option Table :=
  match path.getLast? with
  | none => none
  | some key =>
    update .implied
      (fun _ parent =>
        match parent.get? key with
        | none => some (parent.put key (.tables [[]]))
        | some (.tables items) =>
          some (parent.put key (.tables (items ++ [[]])))
        | some _ => none)
      path.dropLast .header t

/-- Carry out a statement, given the path of the header above it; the path
for the statements that follow is part of the answer. -/
def step (t : Table) (current : List String) :
    Statement → Option (Table × List String)
  | .assign path value => do
    let t ← update .implied (fun _ inner => inner.assign path value)
      current .header t
    return (t, current)
  | .header path => do return (← t.openHeader path, path)
  | .item path => do return (← t.openItem path, path)

/-- Carry out statements from a table on. -/
def run (t : Table) (current : List String) : List Statement → Option Table
  | [] => some t
  | s :: rest =>
    match t.step current s with
    | none => none
    | some (t, current) => run t current rest

/-- The document that statements build, `none` if they contradict each
other. -/
def ofStatements (ss : List Statement) : Option Table := run [] [] ss

/-- The inline table of keys, possibly dotted, with their values. -/
def ofPairs (pairs : List (List String × Value)) : Option Table :=
  pairs.foldlM (fun t (path, value) => t.assign path value) []

end Table

end Reconcile.Toml
