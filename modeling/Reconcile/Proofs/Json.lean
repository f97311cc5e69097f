/-
Reconcile.Proofs.Json — reports are read back.

`Json.ofText?` reads a text as a value, as anybody who is given a report would:
blanks may stand between the parts, and a character of a string may be written in
each of the ways there are. Of the notation there is only what reports are made
of, so no number is read and no array.

What is printed is read back (`ofText?_pretty`). So a report says what it was made
from, and a statement about the printed text can be one about what is read in it.
-/
import Reconcile.Json
import Mathlib.Tactic.IntervalCases

namespace Reconcile.Json

/-! ## Reading -/

/-- The characters that may stand between the parts of a text. -/
def isBlank (c : Char) : Bool := c = ' ' || c = '\n' || c = '\r' || c = '\t'

/-- What comes after the blanks. -/
def skipBlanks (cs : List Char) : List Char := cs.dropWhile isBlank

/-- The value of a digit in base sixteen. -/
def hexValue? (c : Char) : Option Nat :=
  if '0' ≤ c ∧ c ≤ '9' then some (c.toNat - 0x30)
  else if 'a' ≤ c ∧ c ≤ 'f' then some (c.toNat - 0x61 + 10)
  else if 'A' ≤ c ∧ c ≤ 'F' then some (c.toNat - 0x41 + 10)
  else none

/-- The character of a number in four digits. -/
def numbered? (a b c d : Char) : Option Char := do
  let code := 4096 * (← hexValue? a) + 256 * (← hexValue? b) + 16 * (← hexValue? c) +
    (← hexValue? d)
  if code.isValidChar then some (Char.ofNat code) else none

/-- The character that a letter after a backslash stands for. -/
def lettered? : Char → Option Char
  | '"' => some '"'
  | '\\' => some '\\'
  | '/' => some '/'
  | 'b' => some '\x08'
  | 'f' => some '\x0c'
  | 'n' => some '\n'
  | 'r' => some '\r'
  | 't' => some '\t'
  | _ => none

/-- Put a character in front of what has been read, if there is one. -/
def followedBy (c : Option Char) (read : Option (List Char × List Char)) :
    Option (List Char × List Char) := do
  let c ← c
  let (cs, rest) ← read
  return (c :: cs, rest)

/-- The characters of a string after its opening quote, and what comes after the
closing one. -/
def readChars : List Char → Option (List Char × List Char)
  | [] => none
  | '"' :: rest => some ([], rest)
  | '\\' :: 'u' :: a :: b :: c :: d :: rest =>
    followedBy (numbered? a b c d) (readChars rest)
  | '\\' :: c :: rest => followedBy (lettered? c) (readChars rest)
  | c :: rest => followedBy (if c.toNat < 0x20 then none else some c) (readChars rest)

/-- The key of a field, and what comes after its colon. -/
def readKey (cs : List Char) : Option (String × List Char) :=
  match skipBlanks cs with
  | '"' :: rest => do
    let (key, rest) ← readChars rest
    match skipBlanks rest with
    | ':' :: rest => some (String.ofList key, rest)
    | _ => none
  | _ => none

mutual

/-- A value, and what comes after it. The fuel is used up by parts of parts, and
by one field after the other. -/
def readValue : Nat → List Char → Option (Json × List Char)
  | 0, _ => none
  | fuel + 1, cs =>
    match skipBlanks cs with
    | 'n' :: 'u' :: 'l' :: 'l' :: rest => some (null, rest)
    | 't' :: 'r' :: 'u' :: 'e' :: rest => some (bool true, rest)
    | 'f' :: 'a' :: 'l' :: 's' :: 'e' :: rest => some (bool false, rest)
    | '"' :: rest => (readChars rest).map fun (cs, rest) => (string (String.ofList cs), rest)
    | '\x7b' :: rest =>
      if (skipBlanks rest).head? = some '\x7d' then
        some (object [], (skipBlanks rest).tail)
      else (readFields fuel rest).map fun (fields, rest) => (object fields, rest)
    | _ => none

/-- The fields of an object up to its closing brace, and what comes after that.
There is one at least. -/
def readFields : Nat → List Char → Option (List (String × Json) × List Char)
  | 0, _ => none
  | fuel + 1, cs => do
    let (key, rest) ← readKey cs
    let (value, rest) ← readValue fuel rest
    match skipBlanks rest with
    | ',' :: rest =>
      (readFields fuel rest).map fun (fields, rest) => ((key, value) :: fields, rest)
    | '\x7d' :: rest => some ([(key, value)], rest)
    | _ => none

end

/-- The value that a text holds, if there is nothing else but blanks. Every part of
it takes a character at least. -/
def ofText? (text : String) : Option Json :=
  match readValue (text.length + 1) text.toList with
  | some (value, rest) => if (skipBlanks rest).isEmpty then some value else none
  | none => none

/-! ## Blanks -/

variable {cs rest : List Char}

theorem skipBlanks_append (h : ∀ c ∈ cs, isBlank c = true) (rest : List Char) :
    skipBlanks (cs ++ rest) = skipBlanks rest :=
  List.dropWhile_append_of_pos h

theorem skipBlanks_indent (depth : Nat) (rest : List Char) :
    skipBlanks ((indent depth).toList ++ rest) = skipBlanks rest := by
  refine skipBlanks_append (fun c hc => ?_) rest
  rw [indent, String.toList_ofList] at hc
  rw [List.eq_of_mem_replicate hc]
  rfl

theorem skipBlanks_of_not_blank {c : Char} (h : isBlank c = false) (rest : List Char) :
    skipBlanks (c :: rest) = c :: rest := by
  simp [skipBlanks, h]

/-! ## Strings -/

theorem hexValue?_hexDigit {n : Nat} (h : n < 16) : hexValue? (hexDigit n) = some n := by
  interval_cases n <;> rfl

/-- A character that is written by its number. -/
theorem numbered?_hexDigits {c : Char} (h : c.toNat < 0x20) :
    numbered? '0' '0' (hexDigit (c.toNat / 16)) (hexDigit (c.toNat % 16)) = some c := by
  have hzero : hexValue? '0' = some 0 := rfl
  have hhigh := hexValue?_hexDigit (n := c.toNat / 16) (by omega)
  have hlow := hexValue?_hexDigit (n := c.toNat % 16) (by omega)
  have hcode : 16 * (c.toNat / 16) + c.toNat % 16 = c.toNat := Nat.div_add_mod _ _
  have hvalid : c.toNat.isValidChar := c.valid
  simp [numbered?, hzero, hhigh, hlow, hcode, hvalid, Char.ofNat_toNat]

/-- **A character** is read back, however it is written. -/
theorem readChars_escapeChar (c : Char) (rest : List Char) :
    readChars (escapeChar c ++ rest) = followedBy (some c) (readChars rest) := by
  unfold escapeChar
  split_ifs with hquote hslash hb hf hn hr ht hcontrol
  · subst hquote; rfl
  · subst hslash; rfl
  · subst hb; rfl
  · subst hf; rfl
  · subst hn; rfl
  · subst hr; rfl
  · subst ht; rfl
  · simp only [List.cons_append, List.nil_append, readChars, numbered?_hexDigits hcontrol]
  · -- neither a quote nor a backslash, so it is read as it stands
    rw [List.singleton_append, readChars.eq_def]
    split <;> simp_all [Nat.not_lt.mpr]

theorem readChars_escaped (text : List Char) (rest : List Char) :
    readChars (text.flatMap escapeChar ++ '"' :: rest) = some (text, rest) := by
  induction text with
  | nil => rfl
  | cons c text ih =>
    rw [List.flatMap_cons, List.append_assoc, readChars_escapeChar, ih]
    rfl

theorem toList_quote (text : String) (rest : List Char) :
    (quote text).toList ++ rest = '"' :: (text.toList.flatMap escapeChar ++ '"' :: rest) := by
  simp [quote]

/-! ## Values -/

/-- A key is read back, whatever stands in front of it as blanks. -/
theorem readKey_quote (depth : Nat) (key : String) (rest : List Char) :
    readKey ((indent depth).toList ++ ((quote key).toList ++ ':' :: ' ' :: rest))
      = some (key, ' ' :: rest) := by
  rw [readKey, skipBlanks_indent, toList_quote, skipBlanks_of_not_blank rfl]
  simp [readChars_escaped, skipBlanks_of_not_blank (c := ':') rfl]

theorem readFields_newline (fuel : Nat) (cs : List Char) :
    readFields fuel ('\n' :: cs) = readFields fuel cs := by
  cases fuel <;> rfl

theorem readValue_blank (fuel : Nat) (cs : List Char) :
    readValue fuel (' ' :: cs) = readValue fuel cs := by
  cases fuel <;> rfl

theorem render_object (depth : Nat) (field : String × Json)
    (fields : List (String × Json)) :
    (object (field :: fields)).render depth = "\x7b\n" ++
      ",\n".intercalate (fieldLines (depth + 1) (field :: fields)) ++ "\n" ++
        indent depth ++ "\x7d" := by
  rw [render]
  simp

/-- What comes after the value of a field: the other fields, and what is after
these. -/
def moreLines (depth : Nat) (after : List Char) : List (String × Json) → List Char
  | [] => after
  | field :: fields =>
    ',' :: '\n' ::
      ((",\n".intercalate (fieldLines depth (field :: fields))).toList ++ after)

/-- The lines of some fields, from the first key on. -/
theorem toList_fieldLines (depth : Nat) (key : String) (value : Json)
    (fields : List (String × Json)) (after : List Char) :
    (",\n".intercalate (fieldLines depth ((key, value) :: fields))).toList ++ after
      = (indent depth).toList ++ ((quote key).toList ++ ':' :: ' ' ::
        ((value.render depth).toList ++ moreLines depth after fields)) := by
  cases fields with
  | nil => simp [fieldLines, moreLines]
  | cons field fields => simp [fieldLines, moreLines]

theorem length_fieldLines (depth : Nat) (key : String) (value : Json)
    (fields : List (String × Json)) :
    (value.render depth).length + (moreLines depth [] fields).length
      < (",\n".intercalate (fieldLines depth ((key, value) :: fields))).length := by
  have htext := congrArg List.length (toList_fieldLines depth key value fields [])
  simp only [List.length_append, List.length_cons, List.length_nil,
    String.length_toList] at htext
  omega

theorem length_moreLines (depth : Nat) (field : String × Json)
    (fields : List (String × Json)) :
    (moreLines depth [] (field :: fields)).length
      = (",\n".intercalate (fieldLines depth (field :: fields))).length + 2 := by
  simp only [moreLines, List.append_nil, List.length_cons, String.length_toList]

mutual

/-- **A value** is read back, if there is fuel for its text. -/
theorem readValue_render (depth : Nat) : ∀ (j : Json) (fuel : Nat) (rest : List Char),
    (j.render depth).length < fuel →
    readValue fuel ((j.render depth).toList ++ rest) = some (j, rest)
  | _, 0, _, h => by omega
  | null, _ + 1, _, _ => by
    rw [render]
    rfl
  | bool true, _ + 1, _, _ => by
    rw [render]
    rfl
  | bool false, _ + 1, _, _ => by
    rw [render]
    rfl
  | string text, fuel + 1, rest, _ => by
    rw [render, toList_quote, readValue, skipBlanks_of_not_blank rfl]
    simp [readChars_escaped]
  | object [], _ + 1, _, _ => by
    rw [render]
    rfl
  | object ((key, value) :: fields), fuel + 1, rest, h => by
    have hclose : skipBlanks ('\n' :: ((indent depth).toList ++ '\x7d' :: rest))
        = '\x7d' :: rest := skipBlanks_indent depth _
    have hopen : "\x7b\n".length = 2 := rfl
    rw [render_object] at h ⊢
    simp only [String.length_append, hopen] at h
    have hfields := readFields_fieldLines (depth + 1) key value fields fuel hclose
      (by omega)
    generalize hlines : ",\n".intercalate (fieldLines (depth + 1) ((key, value) :: fields))
      = lines at hfields ⊢
    have htext : ("\x7b\n" ++ lines ++ "\n" ++ indent depth ++ "\x7d").toList ++ rest
        = '\x7b' :: '\n' ::
          (lines.toList ++ '\n' :: ((indent depth).toList ++ '\x7d' :: rest)) := by
      simp
    have hfirst : (skipBlanks ('\n' :: (lines.toList ++
        '\n' :: ((indent depth).toList ++ '\x7d' :: rest)))).head? = some '"' := by
      rw [← hlines, toList_fieldLines, toList_quote]
      show (skipBlanks ((indent (depth + 1)).toList ++ _)).head? = some '"'
      rw [skipBlanks_indent, skipBlanks_of_not_blank rfl]
      rfl
    rw [htext, readValue, skipBlanks_of_not_blank rfl]
    simp only [hfirst]
    simp [readFields_newline, hfields]

/-- The fields of an object are read back up to its closing brace. -/
theorem readFields_fieldLines (depth : Nat) : ∀ (key : String) (value : Json)
    (fields : List (String × Json)) (fuel : Nat) {after rest : List Char},
    skipBlanks after = '\x7d' :: rest →
    (",\n".intercalate (fieldLines depth ((key, value) :: fields))).length < fuel →
    readFields fuel
      ((",\n".intercalate (fieldLines depth ((key, value) :: fields))).toList ++ after)
      = some ((key, value) :: fields, rest)
  | _, _, _, 0, _, _, _, h => by omega
  | key, value, fields, fuel + 1, after, rest, hclose, h => by
    have hlength := length_fieldLines depth key value fields
    have hvalue := readValue_render depth value fuel (moreLines depth after fields)
      (by omega)
    rw [toList_fieldLines, readFields, readKey_quote]
    simp only [Option.bind_eq_bind, Option.bind_some, readValue_blank, hvalue]
    match fields with
    | [] => simp [moreLines, hclose]
    | (key', value') :: fields =>
      rw [length_moreLines] at hlength
      have hfields := readFields_fieldLines depth key' value' fields fuel hclose
        (by omega)
      rw [moreLines, skipBlanks_of_not_blank rfl]
      simp only [readFields_newline, hfields, Option.map_some]

end

/-- **What is printed is read back**, with blanks after it or without. -/
theorem ofText?_pretty (j : Json) {after : String}
    (hafter : ∀ c ∈ after.toList, isBlank c = true) :
    ofText? (j.pretty ++ after) = some j := by
  have hread : readValue ((j.pretty ++ after).length + 1)
      (j.pretty.toList ++ after.toList) = some (j, after.toList) :=
    readValue_render 0 j _ after.toList (by rw [String.length_append, pretty]; omega)
  have hrest : skipBlanks after.toList = [] := by
    simpa [skipBlanks] using skipBlanks_append hafter []
  simp only [ofText?, String.toList_append, hread, hrest, List.isEmpty_nil, if_true]

end Reconcile.Json
