/-
Reconcile.Script — edit scripts: how one list of lines becomes another.

A script is a list of edits, each of which keeps, deletes or inserts a run
of lines. `Script.old` and `Script.new` read off the two lists that a
script leads from and to; a script from `a` to `b` is one with those two
readings.
-/

namespace Reconcile

/-! ## Common ends of two lists -/

section CommonEnds

variable {α : Type} [DecidableEq α]

/-- The longest list that both lists begin with. -/
def commonPrefix : List α → List α → List α
  | a :: as, b :: bs => if a = b then a :: commonPrefix as bs else []
  | _, _ => []

/-- The longest list that both lists end in. -/
def commonSuffix (as bs : List α) : List α :=
  (commonPrefix as.reverse bs.reverse).reverse

end CommonEnds

/-! ## Edits and scripts -/

/-- What an edit does with its lines. -/
inductive EditKind where
  | keep
  | delete
  | insert
  deriving DecidableEq, Repr

/-- A run of lines that is kept, deleted or inserted. -/
structure Edit (α : Type) where
  kind : EditKind
  lines : List α
  deriving DecidableEq, Repr

/-- The edits that lead from one list of lines to another, in order. -/
abbrev Script (α : Type) := List (Edit α)

namespace Edit

variable {α : Type}

/-- The lines of an edit that are in the list it leads from. -/
def old (e : Edit α) : List α :=
  match e.kind with
  | .insert => []
  | _ => e.lines

/-- The lines of an edit that are in the list it leads to. -/
def new (e : Edit α) : List α :=
  match e.kind with
  | .delete => []
  | _ => e.lines

end Edit

namespace Script

variable {α : Type}

/-- The list that a script leads from. -/
def old (s : Script α) : List α := s.flatMap Edit.old

/-- The list that a script leads to. -/
def new (s : Script α) : List α := s.flatMap Edit.new

/-- The script of a single edit; no edit at all if it has no lines. -/
def single (kind : EditKind) (lines : List α) : Script α :=
  if lines.isEmpty then [] else [⟨kind, lines⟩]

/-- The work left in a script: its edits and their lines. -/
def weight : Script α → Nat
  | [] => 0
  | e :: rest => e.lines.length + 1 + weight rest

end Script

end Reconcile
