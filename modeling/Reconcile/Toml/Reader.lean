/-
Reconcile.Toml.Reader — reading a document, version 1.0 of the format.

The reader works on the characters of the document, in which a carriage
return before a line feed has been dropped: the two together are one line
end wherever the format allows one, and a carriage return alone is allowed
nowhere. Each reader answers with what it read and what is left; a loop
goes on only while something was read, so every reader ends.
-/
import Reconcile.Toml.Value
import Reconcile.Toml.Scalar

namespace Reconcile.Toml

/-- What was read and what is left; `none` if nothing fits. -/
abbrev Reads (α : Type) := Option (α × List Char)

/-! ## Characters -/

/-- A blank within a line. -/
def isGap (c : Char) : Bool := c = ' ' || c = '\t'

/-- A character of comments and strings: no control character but the tab. -/
def isText (c : Char) : Bool :=
  c = '\t' || (0x20 ≤ c.toNat && c.toNat ≠ 0x7F)

/-- A character of keys without quotes. -/
def isBareKey (c : Char) : Bool :=
  c.isAlphanum || c = '_' || c = '-'

/-- A character that ends a word. -/
def endsWord (c : Char) : Bool :=
  isGap c || c = '\n' || c = '#' || c = ',' || c = ']' || c = '}'

/-- What is left after blanks. -/
def skipGap (cs : List Char) : List Char := cs.dropWhile isGap

/-- What is left after a comment, if there is one. -/
def skipComment : List Char → List Char
  | '#' :: rest => rest.dropWhile isText
  | cs => cs

/-- What is left after blanks, comments and line ends. -/
def skipBlank (comment : Bool) : List Char → List Char
  | [] => []
  | c :: rest =>
    if c = '\n' then skipBlank false rest
    else if comment then
      if isText c then skipBlank true rest else c :: rest
    else if isGap c then skipBlank false rest
    else if c = '#' then skipBlank true rest
    else c :: rest

/-- What is left after the end of a line, where blanks and a comment may
come before. -/
def takeLineEnd? (cs : List Char) : Option (List Char) :=
  match skipComment (skipGap cs) with
  | [] => some []
  | c :: rest => if c = '\n' then some rest else none

/-! ## Strings -/

/-- How a string is quoted. -/
structure Quoting where
  mark : Char
  /-- Whether the backslash has a meaning. -/
  escapes : Bool
  /-- Whether three marks are needed to end it, and lines may. -/
  multiline : Bool

/-- The character that an escape stands for and how many characters follow
the backslash. -/
def escape? (cs : List Char) : Option (Char × Nat) :=
  let hex (count : Nat) (digits : List Char) : Option (Char × Nat) := do
    let digits := digits.take count
    if digits.length < count then none
    let n ← digitsValue? 16 digits
    if n.isValidChar then some (Char.ofNat n, count + 1) else none
  match cs with
  | 'b' :: _ => some ('\x08', 1)
  | 't' :: _ => some ('\t', 1)
  | 'n' :: _ => some ('\n', 1)
  | 'f' :: _ => some ('\x0c', 1)
  | 'r' :: _ => some ('\r', 1)
  | '"' :: _ => some ('"', 1)
  | '\\' :: _ => some ('\\', 1)
  | 'u' :: rest => hex 4 rest
  | 'U' :: rest => hex 8 rest
  | _ => none

/-- What is left when a line is continued after a backslash: all blanks and
line ends go. -/
def continueLine? (cs : List Char) : Option (List Char) :=
  match skipGap cs with
  | '\n' :: rest => some (rest.dropWhile fun c => isGap c || c = '\n')
  | _ => none

/-- The characters of a string up to the marks that end it. Two marks more
than are needed to end it still belong to it. -/
def quoted (q : Quoting) (cs : List Char) : Reads (List Char) :=
  match cs with
  | [] => none
  | c :: rest =>
    if c = q.mark then
      if q.multiline then
        let run := (cs.takeWhile (· = q.mark)).length
        if 3 ≤ run then
          let own := min (run - 3) 2
          some (List.replicate own q.mark, cs.drop (own + 3))
        else (quoted q rest).map fun (s, left) => (c :: s, left)
      else some ([], rest)
    else if q.escapes ∧ c = '\\' then
      match escape? rest with
      | some (e, count) =>
        (quoted q (rest.drop count)).map fun (s, left) => (e :: s, left)
      | none =>
        match continueLine? rest with
        | some next =>
          if q.multiline ∧ next.length ≤ rest.length then quoted q next
          else none
        | none => none
    else if isText c ∨ (q.multiline ∧ c = '\n') then
      (quoted q rest).map fun (s, left) => (c :: s, left)
    else none
termination_by cs.length
decreasing_by
  all_goals simp only [List.length_cons, List.length_drop]
  all_goals omega

/-- A string within one line. -/
def lineString? (cs : List Char) : Reads String :=
  let read (q : Quoting) (rest : List Char) : Reads String :=
    (quoted q rest).map fun (s, left) => (String.ofList s, left)
  match cs with
  | '"' :: rest => read ⟨'"', true, false⟩ rest
  | '\'' :: rest => read ⟨'\'', false, false⟩ rest
  | _ => none

/-- A string of any kind. A line end right after three marks is dropped. -/
def string? (cs : List Char) : Reads String :=
  let read (q : Quoting) (rest : List Char) : Reads String :=
    let body := if rest.head? = some '\n' then rest.drop 1 else rest
    (quoted q body).map fun (s, left) => (String.ofList s, left)
  match cs with
  | '"' :: '"' :: '"' :: rest => read ⟨'"', true, true⟩ rest
  | '\'' :: '\'' :: '\'' :: rest => read ⟨'\'', false, true⟩ rest
  | _ => lineString? cs

/-! ## Keys -/

/-- How deep brackets may be nested, and how many parts a key may have. -/
def depthLimit : Nat := 79

/-- A key that is not dotted. -/
def simpleKey? (cs : List Char) : Reads String :=
  match cs.span isBareKey with
  | ([], rest) => lineString? rest
  | (key, rest) => some (String.ofList key, rest)

/-- The parts of a key, with blanks around each. -/
def keyParts (cs : List Char) : Reads (List String) :=
  match simpleKey? (skipGap cs) with
  | none => none
  | some (key, rest) =>
    match skipGap rest with
    | '.' :: more =>
      if more.length < cs.length then
        (keyParts more).map fun (path, left) => (key :: path, left)
      else none
    | left => some ([key], left)
termination_by cs.length

/-- A key with a bounded number of parts. -/
def key? (cs : List Char) : Reads (List String) :=
  (keyParts cs).filter fun (path, _) => path.length ≤ depthLimit

/-! ## Values -/

/-- A number, boolean or date. A date may be followed by a blank and a
time. -/
def word? (cs : List Char) : Reads Value :=
  let (word, rest) := cs.span (!endsWord ·)
  let joined : Reads Value :=
    match rest with
    | ' ' :: more =>
      let (clock, left) := more.span (!endsWord ·)
      if isDate word ∧ isClock true clock then
        some (.dateTime (String.ofList (word ++ ' ' :: clock)), left)
      else none
    | _ => none
  match joined with
  | some read => some read
  | none => (scalar? word).map (·, rest)

/-- The values of an array after its bracket, given how to read a value. -/
def arrayItems (value : List Char → Reads Value) (cs : List Char) :
    Reads (List Value) :=
  match skipBlank false cs with
  | ']' :: left => some ([], left)
  | start =>
    match value start with
    | none => none
    | some (v, rest) =>
      match skipBlank false rest with
      | ']' :: left => some ([v], left)
      | ',' :: more =>
        if more.length < cs.length then
          (arrayItems value more).map fun (vs, left) => (v :: vs, left)
        else none
      | _ => none
termination_by cs.length

/-- A key and its value, given how to read a value. -/
def pair? (value : List Char → Reads Value) (cs : List Char) :
    Option ((List String × Value) × List Char) := do
  let (path, rest) ← key? cs
  let rest ← takeChar? '=' (skipGap rest)
  let (v, left) ← value (skipGap rest)
  return ((path, v), left)

/-- The pairs of an inline table after the first brace, of which there is
at least one. -/
def inlinePairs (value : List Char → Reads Value) (cs : List Char) :
    Reads (List (List String × Value)) :=
  match pair? value cs with
  | none => none
  | some (p, rest) =>
    match skipGap rest with
    | '}' :: left => some ([p], left)
    | ',' :: more =>
      if more.length < cs.length then
        (inlinePairs value more).map fun (ps, left) => (p :: ps, left)
      else none
    | _ => none
termination_by cs.length

/-- A value with brackets nested at most so deep. -/
def value? : Nat → List Char → Reads Value
  | depth, cs =>
    match cs with
    | '"' :: _ | '\'' :: _ => (string? cs).map fun (s, left) => (.string s, left)
    | '[' :: rest =>
      match depth with
      | 0 => none
      | depth + 1 =>
        (arrayItems (value? depth) rest).map fun (vs, left) => (.array vs, left)
    | '\x7b' :: rest =>
      match depth with
      | 0 => none
      | depth + 1 =>
        match skipGap rest with
        | '}' :: left => some (.table .inline [], left)
        | start =>
          match inlinePairs (value? depth) start with
          | none => none
          | some (pairs, left) =>
            (Table.ofPairs pairs).map fun t => (.table .inline t, left)
    | _ => word? cs

/-! ## Statements -/

/-- A header in brackets or in double brackets. -/
def headerLine? (cs : List Char) : Option (Statement × List Char) :=
  match cs with
  | '[' :: '[' :: rest => do
    let (path, rest) ← key? rest
    let rest ← takeChar? ']' (← takeChar? ']' rest)
    return (.item path, rest)
  | '[' :: rest => do
    let (path, rest) ← key? rest
    return (.header path, ← takeChar? ']' rest)
  | _ => none

/-- A key and its value as a statement. -/
def assignment? (cs : List Char) : Option (Statement × List Char) :=
  (pair? (value? depthLimit) cs).map
    fun ((path, v), left) => (.assign path v, left)

/-- A statement and the end of its line. -/
def statement? (cs : List Char) : Option (Statement × List Char) := do
  let (s, rest) ←
    if cs.head? = some '[' then headerLine? cs
    else assignment? cs
  return (s, ← takeLineEnd? rest)

/-- The statements of a document. -/
def statements (cs : List Char) : Option (List Statement) :=
  match skipBlank false cs with
  | [] => some []
  | start =>
    match statement? start with
    | none => none
    | some (s, rest) =>
      if rest.length < cs.length then (statements rest).map (s :: ·)
      else none
termination_by cs.length

/-- The characters without the carriage returns before line feeds. -/
def unifyLineEnds : List Char → List Char
  | '\r' :: '\n' :: rest => '\n' :: unifyLineEnds rest
  | c :: rest => c :: unifyLineEnds rest
  | [] => []

/-- The table that a document stands for, `none` if it is not well formed.
A byte order mark at its start has no meaning. -/
def parse? (text : String) : Option Table := do
  let cs := unifyLineEnds text.toList
  let cs := if cs.head? = some '\ufeff' then cs.drop 1 else cs
  Table.ofStatements (← statements cs)

end Reconcile.Toml
