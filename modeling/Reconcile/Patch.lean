/-
Reconcile.Patch — the difference of two texts in unified form.

The lines that a script deletes and inserts between two kept runs make
one replacement; replacements that are close together share a hunk, with
up to three kept lines around and all kept lines between them.

* `Patch.ofTexts` compares two texts.
* `Patch.render` writes a patch, with or without colours.
-/
import Reconcile.Text.Lines
import Reconcile.Script.Shortest
import Reconcile.Script.Compact
import Reconcile.Terminal.Style

namespace Reconcile.Patch

open Reconcile.Text (lines endsLine)
open Reconcile.Terminal (Style)

/-! ## Replacements -/

/-- Lines of the old text replaced by lines of the new text, and where
they begin, counted from zero. -/
structure Replacement where
  oldStart : Nat
  newStart : Nat
  deleted : List String
  inserted : List String
  deriving DecidableEq, Repr

namespace Replacement

/-- Where the deleted lines end in the old text. -/
def oldStop (r : Replacement) : Nat := r.oldStart + r.deleted.length

/-- Where the inserted lines end in the new text. -/
def newStop (r : Replacement) : Nat := r.newStart + r.inserted.length

/-- Whether a replacement changes nothing. -/
def isEmpty (r : Replacement) : Bool := r.deleted.isEmpty && r.inserted.isEmpty

end Replacement

/-- The replacements of a script, given the one that is being put
together: edits between two kept runs belong to one replacement. -/
def replacementsFrom (current : Replacement) :
    Script String → List Replacement
  | [] => if current.isEmpty then [] else [current]
  | ⟨.delete, ls⟩ :: rest =>
    replacementsFrom { current with deleted := current.deleted ++ ls } rest
  | ⟨.insert, ls⟩ :: rest =>
    replacementsFrom { current with inserted := current.inserted ++ ls } rest
  | ⟨.keep, ls⟩ :: rest =>
    let next : Replacement :=
      ⟨current.oldStop + ls.length, current.newStop + ls.length, [], []⟩
    if current.isEmpty then replacementsFrom next rest
    else current :: replacementsFrom next rest

/-- The replacements of a script. -/
def replacements (script : Script String) : List Replacement :=
  replacementsFrom ⟨0, 0, [], []⟩ script

/-! ## Hunks -/

/-- How many kept lines are shown around a replacement. -/
def contextLines : Nat := 3

/-- A line of a hunk. -/
inductive Line where
  | context (text : String)
  | deleted (text : String)
  | inserted (text : String)
  deriving DecidableEq, Repr

/-- Replacements shown together, with the part of either text they cover. -/
structure Hunk where
  oldStart : Nat
  oldStop : Nat
  newStart : Nat
  newStop : Nat
  lines : List Line
  deriving DecidableEq, Repr

/-- The lines from one position to another. -/
def slice (ls : List String) (start stop : Nat) : List String :=
  (ls.take stop).drop start

/-- How many lines of context follow a replacement: as many as both texts
have left, up to the usual number. -/
def trailing (old new : List String) (r : Replacement) : Nat :=
  min contextLines (min (old.length - r.oldStop) (new.length - r.newStop))

/-- The lines of a replacement: deletions, then insertions. -/
def Replacement.shown (r : Replacement) : List Line :=
  r.deleted.map .deleted ++ r.inserted.map .inserted

/-- The first replacement of a hunk with the context before it. Context is
taken from the new text. -/
def Hunk.first (old new : List String) (r : Replacement) : Hunk where
  oldStart := r.oldStart - contextLines
  newStart := r.newStart - contextLines
  oldStop := r.oldStop + trailing old new r
  newStop := r.newStop + trailing old new r
  lines :=
    (slice new (r.newStart - contextLines) r.newStart).map .context ++ r.shown

/-- The context after the last replacement of a hunk. -/
def Hunk.close (new : List String) (last : Replacement) (h : Hunk) : Hunk :=
  { h with lines :=
      h.lines ++ (slice new last.newStop h.newStop).map .context }

/-- Whether the context before a replacement reaches into a hunk. -/
def Hunk.reaches (old : List String) (h : Hunk) (r : Replacement) : Bool :=
  min r.oldStart (old.length - 1) - contextLines < h.oldStop

/-- A further replacement of a hunk, after the kept lines between. -/
def Hunk.extend (old new : List String) (last : Replacement) (h : Hunk)
    (r : Replacement) : Hunk :=
  { h with
    oldStop := r.oldStop + trailing old new r
    newStop := r.newStop + trailing old new r
    lines :=
      h.lines ++ (slice new last.newStop r.newStart).map .context ++ r.shown }

/-- Replacements gathered into hunks, given the hunk that is being put
together and its last replacement. -/
def hunksFrom (old new : List String) (h : Hunk) (last : Replacement) :
    List Replacement → List Hunk
  | [] => [h.close new last]
  | r :: rest =>
    if h.reaches old r then
      hunksFrom old new (h.extend old new last r) r rest
    else h.close new last :: hunksFrom old new (.first old new r) r rest

/-- The hunks of a list of replacements. -/
def hunks (old new : List String) : List Replacement → List Hunk
  | [] => []
  | r :: rest => hunksFrom old new (.first old new r) r rest

/-- The hunks that lead from one text to another. -/
def ofTexts (old new : String) : List Hunk :=
  let a := lines old
  let b := lines new
  hunks a b (replacements (Script.shortest a b).compact)

/-- The hunks that lead from some bytes to others, `none` if either is no
text. -/
def ofBytes (old new : ByteArray) : Option (List Hunk) := do
  return ofTexts (← String.fromUTF8? old) (← String.fromUTF8? new)

/-! ## Writing a patch -/

/-- The names of the two texts in the head of a patch. -/
def head : String := "--- original\n+++ modified\n"

/-- The remark after a line that does not end in a line feed. -/
def unended (line : String) : String :=
  if endsLine line then "" else "\n\\ No newline at end of file\n"

/-- A line of a hunk. A deleted or inserted line is coloured as a whole,
its line feed included but not the remark; an empty line of context has no
blank in front of it. -/
def Line.render (style : Style) : Line → String
  | context text =>
    if text = "\n" then "\n" else " " ++ text ++ unended text
  | deleted text => style.paint [.red] ("-" ++ text) ++ unended text
  | inserted text => style.paint [.green] ("+" ++ text) ++ unended text

/-- The lines that a hunk covers: counted from one, or from zero when there
are none; a count of one is left out. -/
def rangeText (start stop : Nat) : String :=
  let count := stop - start
  let first := if count = 0 then start else start + 1
  toString first ++ if count = 1 then "" else "," ++ toString count

/-- The line in front of a hunk. -/
def Hunk.headText (h : Hunk) : String :=
  "@@ -" ++ rangeText h.oldStart h.oldStop ++ " +" ++
    rangeText h.newStart h.newStop ++ " @@"

/-- A hunk in unified form. -/
def Hunk.render (style : Style) (h : Hunk) : String :=
  style.paint [.cyan] h.headText ++ "\n" ++
    String.join (h.lines.map (·.render style))

/-- A patch in unified form. -/
def render (style : Style) (hs : List Hunk) : String :=
  style.paint [.bold] head ++ String.join (hs.map (·.render style))

end Reconcile.Patch
