/-
Reconcile.Json — reports as JSON text, laid out over several lines.
-/

namespace Reconcile

/-- A value of a report. -/
inductive Json where
  | null
  | bool (value : Bool)
  | string (text : String)
  | object (fields : List (String × Json))

namespace Json

/-- A digit of a number in base sixteen. -/
def hexDigit (n : Nat) : Char :=
  if n < 10 then Char.ofNat (0x30 + n) else Char.ofNat (0x61 + (n - 10))

/-- How a character is written in a string. Control characters without a
letter of their own are written by number; all others stand for
themselves. -/
def escapeChar (c : Char) : List Char :=
  if c = '"' then ['\\', '"']
  else if c = '\\' then ['\\', '\\']
  else if c = '\x08' then ['\\', 'b']
  else if c = '\x0c' then ['\\', 'f']
  else if c = '\n' then ['\\', 'n']
  else if c = '\r' then ['\\', 'r']
  else if c = '\t' then ['\\', 't']
  else if c.toNat < 0x20 then
    ['\\', 'u', '0', '0', hexDigit (c.toNat / 16), hexDigit (c.toNat % 16)]
  else [c]

/-- A string between quotes. -/
def quote (text : String) : String :=
  "\"" ++ String.ofList (text.toList.flatMap escapeChar) ++ "\""

/-- The blanks in front of a line at a depth. -/
def indent (depth : Nat) : String :=
  String.ofList (List.replicate (2 * depth) ' ')

mutual

/-- A value as text, given how deep it stands. -/
def render (depth : Nat) : Json → String
  | null => "null"
  | bool true => "true"
  | bool false => "false"
  | string text => quote text
  | object [] => "\x7b\x7d"
  | object fields =>
    "\x7b\n" ++ ",\n".intercalate (fieldLines (depth + 1) fields) ++ "\n" ++
      indent depth ++ "\x7d"

/-- The lines of an object, one for each field and still without a comma. -/
def fieldLines (depth : Nat) : List (String × Json) → List String
  | [] => []
  | (key, value) :: fields =>
    (indent depth ++ quote key ++ ": " ++ render depth value) ::
      fieldLines depth fields

end

/-- A value as text. -/
def pretty (j : Json) : String := j.render 0

end Json

end Reconcile
