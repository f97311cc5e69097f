/-
Reconcile.Text.Lines — text as a list of lines.

A line ends after its line feed and keeps it; what is left at the end of
the text without a line feed is a line too. So no line is empty, and the
lines put together are the text again (`join_lines`).
-/

namespace Reconcile.Text

/-- The lines of a text, each with its line feed. -/
def lineChars : List Char → List (List Char)
  | [] => []
  | c :: rest =>
    if c = '\n' then [c] :: lineChars rest
    else
      match lineChars rest with
      | [] => [[c]]
      | line :: more => (c :: line) :: more

/-- The lines of a text, each with its line feed. -/
def lines (s : String) : List String :=
  (lineChars s.toList).map String.ofList

/-- Lines put together. -/
def joinLines (ls : List String) : String := String.join ls

/-- Whether a line ends in a line feed. -/
def endsLine (line : String) : Bool := line.toList.getLast? == some '\n'

/-- Whether a line starts with the given characters. -/
def startsWith (start : String) (line : String) : Bool :=
  start.toList.isPrefixOf line.toList

theorem flatten_lineChars (cs : List Char) : (lineChars cs).flatten = cs := by
  induction cs with
  | nil => rfl
  | cons c rest ih =>
    rw [lineChars]
    split
    · simp [ih]
    · split
      · next h => rw [h] at ih; simp [← ih]
      · next line more h => rw [h] at ih; simp [← ih]

/-- A text is what its lines are when put together. -/
theorem join_lines (s : String) : joinLines (lines s) = s := by
  apply String.ext
  rw [joinLines, lines, String.toList_join, List.flatMap_map]
  simp [flatten_lineChars]

end Reconcile.Text
