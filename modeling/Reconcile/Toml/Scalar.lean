/-
Reconcile.Toml.Scalar — numbers, booleans and dates of a document, each
read from a whole word.
-/
import Reconcile.Toml.Value

namespace Reconcile.Toml

/-! ## Digits -/

/-- A decimal digit. -/
def isDecimal (c : Char) : Bool := '0' ≤ c && c ≤ '9'

/-- The value of a digit in a base up to sixteen. -/
def digitValue? (base : Nat) (c : Char) : Option Nat :=
  let n := c.toNat
  let value :=
    if isDecimal c then some (n - 0x30)
    else if 0x61 ≤ n && n ≤ 0x66 then some (n - 0x61 + 10)
    else if 0x41 ≤ n && n ≤ 0x46 then some (n - 0x41 + 10)
    else none
  value.filter (· < base)

/-- The value of digits in a base, most significant first. -/
def digitsValue? (base : Nat) (cs : List Char) : Option Nat :=
  cs.foldlM (fun n c => do return n * base + (← digitValue? base c)) 0

/-- Digits without the underscores between them; an underscore has to stand
between two digits. -/
def joinDigits? (base : Nat) (cs : List Char) : Option (List Char) :=
  let groups := cs.splitOn '_'
  if groups.all fun g => !g.isEmpty && g.all fun c => (digitValue? base c).isSome
  then some groups.flatten
  else none

/-! ## Integers -/

/-- A sign and what follows it; without a sign a number is positive. -/
def takeSign : List Char → Bool × List Char
  | '+' :: rest => (false, rest)
  | '-' :: rest => (true, rest)
  | cs => (false, cs)

/-- Decimal digits that do not begin with a superfluous zero. -/
def wholeDigits? (cs : List Char) : Option (List Char) :=
  (joinDigits? 10 cs).filter fun ds => ds.length = 1 ∨ ds.head? ≠ some '0'

/-- The first number that is too large for 64 bits with a sign. -/
def integerLimit : Nat := Nat.pow 2 63

/-- Whether an integer fits into 64 bits with a sign. -/
def fits (n : Int) : Bool :=
  -Int.ofNat integerLimit ≤ n && n < Int.ofNat integerLimit

/-- A whole number in a base other than ten, after the letter that names
the base. -/
def basedInteger? (base : Nat) (cs : List Char) : Option Int := do
  return Int.ofNat (← digitsValue? base (← joinDigits? base cs))

/-- A word as an integer. -/
def integer? (word : List Char) : Option Int :=
  let value :=
    match word with
    | '0' :: 'x' :: rest => basedInteger? 16 rest
    | '0' :: 'o' :: rest => basedInteger? 8 rest
    | '0' :: 'b' :: rest => basedInteger? 2 rest
    | _ => do
      let (negative, cs) := takeSign word
      let n ← digitsValue? 10 (← wholeDigits? cs)
      return if negative then -Int.ofNat n else Int.ofNat n
  value.filter fits

/-! ## Numbers with a fraction -/

/-- The text before and after the first character that satisfies `p`. -/
def cutAt (p : Char → Bool) (cs : List Char) :
    List Char × Option (List Char) :=
  match cs.span (!p ·) with
  | (before, []) => (before, none)
  | (before, _ :: after) => (before, some after)

/-- The least number that a double rounds to infinity. -/
def doubleLimit : Nat := Nat.pow 2 1024 - Nat.pow 2 970

/-- Whether `digits * 10 ^ exponent` is too large for a double. The number
of digits decides unless it is near the limit. -/
def overflows (digits : List Char) (exponent : Int) : Bool :=
  let significant := digits.dropWhile (· = '0')
  let magnitude := Int.ofNat significant.length + exponent
  if significant.isEmpty ∨ magnitude < 300 then false
  else if 320 < magnitude then true
  else
    let n := (digitsValue? 10 significant).getD 0
    if 0 ≤ exponent then doubleLimit ≤ n * Nat.pow 10 exponent.toNat
    else doubleLimit * Nat.pow 10 (-exponent).toNat ≤ n

/-- Whether a word is a number with a fraction or an exponent. One that is
too large is refused; one that is too small is not. -/
def isFloat (word : List Char) : Bool :=
  let (negative, cs) := takeSign word
  if cs = "inf".toList ∨ cs = "nan".toList then true
  else
    let (mantissa, exponent?) := cutAt (fun c => c = 'e' || c = 'E') cs
    let (whole, fraction?) := cutAt (· = '.') mantissa
    let parts : Option (List Char × Int) := do
      let whole ← wholeDigits? whole
      let fraction ←
        match fraction? with
        | some fraction => joinDigits? 10 fraction
        | none => some []
      let exponent ←
        match exponent? with
        | some written => do
          let (down, digits) := takeSign written
          let n ← digitsValue? 10 (← joinDigits? 10 digits)
          pure (if down then -Int.ofNat n else Int.ofNat n)
        | none => some 0
      return (whole ++ fraction, exponent - Int.ofNat fraction.length)
    match parts with
    | none => false
    | some (digits, exponent) =>
      (fraction?.isSome || exponent?.isSome) &&
        (negative || !overflows digits exponent)

/-! ## Dates and times -/

/-- A number of exactly `count` digits from `low` to `high`, and what
follows it. -/
def takeNumber? (count low high : Nat) (cs : List Char) :
    Option (Nat × List Char) := do
  let digits := cs.take count
  if digits.length < count then none
  let n ← digitsValue? 10 digits
  if low ≤ n ∧ n ≤ high then some (n, cs.drop count) else none

/-- What follows a given character. -/
def takeChar? (c : Char) : List Char → Option (List Char)
  | d :: rest => if d = c then some rest else none
  | [] => none

/-- How many days a month has. -/
def daysIn (year month : Nat) : Nat :=
  if month = 2 then
    if year % 4 = 0 ∧ (year % 100 ≠ 0 ∨ year % 400 = 0) then 29 else 28
  else if month = 4 ∨ month = 6 ∨ month = 9 ∨ month = 11 then 30
  else 31

/-- What follows a date. -/
def takeDate? (cs : List Char) : Option (List Char) := do
  let (year, cs) ← takeNumber? 4 0 9999 cs
  let (month, cs) ← takeNumber? 2 1 12 (← takeChar? '-' cs)
  let (_, cs) ← takeNumber? 2 1 (daysIn year month) (← takeChar? '-' cs)
  return cs

/-- What follows a time of day, a leap second and a fraction included. -/
def takeTime? (cs : List Char) : Option (List Char) := do
  let (_, cs) ← takeNumber? 2 0 23 cs
  let (_, cs) ← takeNumber? 2 0 59 (← takeChar? ':' cs)
  let (_, cs) ← takeNumber? 2 0 60 (← takeChar? ':' cs)
  match cs with
  | '.' :: rest =>
    let digits := rest.takeWhile isDecimal
    if digits.isEmpty then none else some (rest.drop digits.length)
  | _ => some cs

/-- Whether a word is the distance of a time from universal time. -/
def isOffset (cs : List Char) : Bool :=
  match cs with
  | ['Z'] | ['z'] => true
  | c :: rest =>
    (c = '+' || c = '-') &&
      (do
        let (_, rest) ← takeNumber? 2 0 23 rest
        let (_, rest) ← takeNumber? 2 0 59 (← takeChar? ':' rest)
        return rest.isEmpty : Option Bool).getD false
  | [] => false

/-- Whether a word is a time of day, possibly with an offset. -/
def isClock (offset : Bool) (cs : List Char) : Bool :=
  match takeTime? cs with
  | none => false
  | some [] => true
  | some rest => offset && isOffset rest

/-- Whether a word is a date, a time, or both with the letter T between. -/
def isDateTime (word : List Char) : Bool :=
  match takeDate? word with
  | some [] => true
  | some (c :: rest) => (c = 'T' || c = 't') && isClock true rest
  | none => isClock false word

/-- Whether a word is a date alone. -/
def isDate (word : List Char) : Bool := takeDate? word == some []

/-! ## Words -/

/-- A word as a value. -/
def scalar? (word : List Char) : Option Value :=
  if word = "true".toList then some (.boolean true)
  else if word = "false".toList then some (.boolean false)
  else if isDateTime word then some (.dateTime (String.ofList word))
  else if isFloat word then some (.float (String.ofList word))
  else (integer? word).map .integer

end Reconcile.Toml
