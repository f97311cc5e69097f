/-
Reconcile.Terminal.Screen — what a session looks like on a terminal.

Of the calls that a session makes, a terminal prints the difference of the
two sides whenever new content is shown, the headers of the panes, the
question about pending edits, and reports of failed saves. The other calls
leave no trace on it.
-/
import Reconcile.Patch
import Reconcile.Session
import Reconcile.Text.Lines

namespace Reconcile.Terminal

/-- What has been printed, and what decides how to go on. -/
structure Screen where
  style : Style := {}
  /-- Whether the ancestor pane can be shown. -/
  ancestorAvailable : Bool := false
  out : String := ""
  err : String := ""
  /-- What had been printed when the question about pending edits was last
  asked. -/
  asked : Option String := none
  deriving DecidableEq, Repr

namespace Screen

/-- Print text. -/
def print (s : Screen) (text : String) : Screen := { s with out := s.out ++ text }

/-- Print a line. -/
def line (s : Screen) (text : String) : Screen := s.print (text ++ "\n")

/-- Print a line of complaint. -/
def complain (s : Screen) (text : String) : Screen :=
  { s with err := s.err ++ s.style.failure text ++ "\n" }

/-- The difference of two sides as it is printed. A patch of no more than
the two lines of its head shows no difference. -/
def difference (style : Style) (left right : ByteArray) : String :=
  match Patch.ofBytes left right with
  | none => style.dim "(binary content differs)" ++ "\n"
  | some hunks =>
    let text := Patch.render style hunks
    if 2 < (Text.lines text).length then text
    else style.dim "(no differences)" ++ "\n"

/-- Print the difference of the sides; without any side there is none. A
missing side counts as an empty one. -/
def showContent (s : Screen) (left right : Option ByteArray) : Screen :=
  if left.isNone && right.isNone then s
  else s.print (difference s.style (left.getD .empty) (right.getD .empty))

/-- Print the header of a pane. The ancestor's is left out while its pane
cannot be shown. -/
def showHeader (s : Screen) (pane : Pane) (h : Header) : Screen :=
  if pane = .ancestor && !s.ancestorAvailable then s
  else
    let start := s.style.paneTag pane.name ++ " " ++ h.label.getD "<unnamed>"
    match h.image with
    | some image => s.line (start ++ " " ++ s.style.dim image)
    | none => s.line start

/-- The sides that have pending edits, in words. -/
def modified (p : Prompt) : String :=
  if p.leftDirty && p.rightDirty then "left and right"
  else if p.leftDirty then "left"
  else "right"

/-- Print the question about pending edits. -/
def showPrompt (s : Screen) (p : Prompt) : Screen :=
  let s := (s.line "").line (s.style.header p.title)
  let s := (s.line p.message).line
    (s.style.dim (p.input ++ " (" ++ modified p ++ " modified)"))
  { s with asked := some s.out }

/-- Print what a call of a session shows. -/
def take (s : Screen) : Call → Screen
  | .content panes => s.showContent panes.left panes.right
  | .header pane h => s.showHeader pane h
  | .ancestorAvailable value => { s with ancestorAvailable := value }
  | .prompt p => s.showPrompt p
  | .notify name side e => s.complain (e.notice name side)
  | _ => s

end Screen

end Reconcile.Terminal
