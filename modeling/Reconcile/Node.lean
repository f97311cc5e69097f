/-
Reconcile.Node — structured inputs: up to three named pieces of content
with a change kind.

* `Element.typeName` reads the type of an element off its name.
* `Node.name` puts the names of the two sides together.
* `Node.setContent` replaces what one side holds and keeps its name.
-/
import Reconcile.Side
import Reconcile.Change

namespace Reconcile

/-! ## Elements -/

/-- A named piece of content. An element may exist by name only, such as
a file that was deleted. -/
structure Element where
  name : String
  content : Option ByteArray
  deriving DecidableEq

/-- The text before and after the last occurrence of a character. -/
def splitAtLast? (c : Char) : List Char → Option (List Char × List Char)
  | [] => none
  | x :: rest =>
    match splitAtLast? c rest with
    | some (before, after) => some (x :: before, after)
    | none => if x = c then some ([], rest) else none

namespace Element

/-- The type shown when a name has none. -/
def unknownType : String := "???"

/-- The type of an element is what follows the last dot of its name,
provided that something stands on both sides of that dot. -/
def typeName (e : Element) : String :=
  match splitAtLast? '.' e.name.toList with
  | some (_ :: _, ext@(_ :: _)) => String.ofList ext
  | _ => unknownType

end Element

/-! ## Nodes -/

/-- A two-way or three-way input. -/
structure Node where
  kind : ChangeKind
  /-- A single hunk of a larger patch; always shown three-way. -/
  hunk : Bool := false
  /-- Whether names are put together left first. -/
  leftFirst : Bool := false
  elements : Paned (Option Element)
  deriving DecidableEq

namespace Node

/-- A plain comparison of two elements. -/
def twoWay (left right : Option Element) : Node where
  kind := .change
  elements := ⟨none, left, right⟩

/-- The content in a pane, `none` when there is no element or the element
exists by name only. -/
def content (n : Node) (pane : Pane) : Option ByteArray :=
  (n.elements.get pane).bind (·.content)

/-- The name in a pane; an element without a name has no label. -/
def label (n : Node) (pane : Pane) : Option String :=
  ((n.elements.get pane).map (·.name)).filter (fun name => !name.isEmpty)

/-- The key of the image for a pane is the type of its element. -/
def image (n : Node) (pane : Pane) : Option String :=
  (n.elements.get pane).map (·.typeName)

/-- Replace what a side holds. A side without an element gets one that
has no name. -/
def setContent (n : Node) (side : Side) (content : Option ByteArray) : Node :=
  let element := (n.elements.side side).getD ⟨"", none⟩
  { n with elements :=
      n.elements.setSide side (some { element with content := content }) }

/-- The display name: of one side if the other is missing or named alike,
of the ancestor if both are missing, and of both otherwise. -/
def name (n : Node) : String :=
  match n.elements.left, n.elements.right with
  | none, none => (n.elements.ancestor.map (·.name)).getD "<no name>"
  | some l, none => l.name
  | none, some r => r.name
  | some l, some r =>
    if l.name = r.name then r.name
    else if n.leftFirst then l.name ++ " - " ++ r.name
    else r.name ++ " - " ++ l.name

end Node

end Reconcile
