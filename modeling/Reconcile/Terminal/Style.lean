/-
Reconcile.Terminal.Style — coloured words for a terminal. Text without
colours is left as it is.
-/
import Reconcile.Side

namespace Reconcile.Terminal

/-- A colour or weight of text, as the number that selects it. -/
inductive Attribute where
  | bold
  | dim
  | red
  | green
  | yellow
  | blue
  | magenta
  | cyan
  deriving DecidableEq, Repr

namespace Attribute

/-- The parameter of the control sequence that selects an attribute. -/
def code : Attribute → String
  | bold => "1"
  | dim => "2"
  | red => "31"
  | green => "32"
  | yellow => "33"
  | blue => "34"
  | magenta => "35"
  | cyan => "36"

/-- The control sequence that selects an attribute. -/
def sequence (a : Attribute) : String := "\x1b[" ++ a.code ++ "m"

end Attribute

/-- The control sequence that ends all attributes. -/
def reset : String := "\x1b[0m"

/-- Whether text is coloured, and how it is written in either case. -/
structure Style where
  colour : Bool := false
  deriving DecidableEq, Repr

namespace Style

/-- Text between its attributes and a reset; plain text without colours. -/
def paint (s : Style) (attributes : List Attribute) (text : String) : String :=
  if s.colour then
    String.join (attributes.map (·.sequence)) ++ text ++ reset
  else text

/-- A report of success. -/
def success (s : Style) (text : String) : String :=
  s.paint [.green] "✓" ++ " " ++ text

/-- A report of failure. -/
def failure (s : Style) (text : String) : String :=
  s.paint [.red] "✗" ++ " " ++ text

/-- A warning. -/
def warn (s : Style) (text : String) : String :=
  s.paint [.yellow] "⚠" ++ " " ++ text

/-- A headline. -/
def header (s : Style) (text : String) : String := s.paint [.bold] text

/-- Text of less weight. -/
def dim (s : Style) (text : String) : String := s.paint [.dim] text

/-- Text filled up with blanks on the right to at least `width` characters. -/
def padRight (width : Nat) (text : String) : String :=
  text ++ String.ofList (List.replicate (width - text.length) ' ')

/-- The tag of a pane, eight characters wide, in the colour of the pane. -/
def paneTag (s : Style) (name : String) : String :=
  let colour :=
    if name = Pane.ancestor.name then Attribute.magenta
    else if name = Pane.left.name then Attribute.blue
    else Attribute.green
  s.paint [colour, .bold] (padRight 8 name)

end Style

end Reconcile.Terminal
