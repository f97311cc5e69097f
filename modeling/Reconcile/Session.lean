/-
Reconcile.Session — a viewer at work.

A session owns what a viewer shows and knows: the bound input, the dirty
flags of the two sides, the panes, and who listens. Before the bound input
changes, pending edits are saved, discarded, or the change is called off.

Every operation is a function on sessions; what the collaborators of the
viewer get to see of it is appended to `Session.calls`, in order. The
state behind the inputs is `σ`, and a `Model σ` says how it is read and
saved.
-/
import Reconcile.Listeners
import Reconcile.Model
import Reconcile.Prompt
import Reconcile.Settings

namespace Reconcile

/-! ## What the collaborators see -/

/-- A call that the viewer makes to one of its collaborators. -/
inductive Call where
  /-- New content is shown in the three panes. -/
  | content (panes : Paned (Option ByteArray))
  /-- The bytes of a side's pane are replaced. -/
  | setContents (side : Side) (bytes : ByteArray)
  /-- The header of a pane is replaced. -/
  | header (pane : Pane) (header : Header)
  /-- The ancestor pane can or cannot be shown. -/
  | ancestorAvailable (value : Bool)
  /-- Copying in a direction is or is not possible. -/
  | copyEnabled (direction : Direction) (value : Bool)
  /-- The panes have to be laid out again. -/
  | relayout
  /-- An event is announced to a listener. -/
  | event (listener : Listener) (event : Event)
  /-- The question about pending edits is asked. -/
  | prompt (prompt : Prompt)
  /-- A side of the model is to be saved, whether or not that works. -/
  | save (input : Place) (side : Side) (bytes : Option ByteArray)
  /-- Label changes of an input are to be reported from now on. -/
  | watchLabels (input : Place) (name : String)
  | unwatchLabels (input : Place) (name : String)
  /-- Changes of an input are to be reported from now on. -/
  | attach (input : Place) (name : String)
  | detach (input : Place) (name : String)
  /-- A side of the view could not be saved. -/
  | notify (name : String) (side : Side) (error : SaveError)
  deriving DecidableEq

/-! ## The state of a session -/

/-- A viewer with its collaborators. -/
structure Session (σ : Type) where
  settings : Settings
  /-- The state behind the inputs. -/
  state : σ
  /-- The bound input. -/
  input : Option Place := none
  /-- Which sides of the view have edits that are not saved. -/
  dirty : Sided Bool := ⟨false, false⟩
  threeWay : Bool := false
  ancestorVisible : Bool := false
  /-- Whether the ancestor pane may be shown at all. -/
  ancestorToggle : Bool := true
  mirrored : Bool := false
  /-- Whether a side of the view may be copied over. -/
  copyEnabled : Sided Bool := ⟨false, false⟩
  listeners : Listeners := {}
  panes : Paned (Option ByteArray) := ⟨none, none, none⟩
  registry : WatchRegistry := {}
  confirmer : Confirmer
  /-- What the collaborators have seen so far. -/
  calls : List Call := []

namespace Session

variable {σ : Type}

/-- A session without an input; the settings have to be valid. -/
def start? (settings : Settings) (state : σ) (confirmer : Confirmer) :
    Except SettingsError (Session σ) :=
  match settings.check with
  | .error e => .error e
  | .ok () =>
    .ok {
      settings
      state
      confirmer
      ancestorVisible := settings.viewer.ancestorVisible
      ancestorToggle := !settings.viewer.ignoreAncestor
      mirrored := settings.viewer.mirrored }

/-- Whether any side has pending edits. -/
def isDirty (s : Session σ) : Bool := s.dirty.left || s.dirty.right

/-- Whether copying in a direction is possible. -/
def canCopy (s : Session σ) (d : Direction) : Bool :=
  s.copyEnabled.get d.target

/-- Record a call. -/
def emit (s : Session σ) (c : Call) : Session σ :=
  { s with calls := s.calls ++ [c] }

/-- Announce an event to every listener. -/
def fire (s : Session σ) (e : Event) : Session σ :=
  { s with calls :=
      s.calls ++ (s.listeners.fire e).map fun (l, e) => .event l e }

/-- The model as the session shows it. -/
def view (m : Model σ) (s : Session σ) : Model σ := m.oriented s.mirrored

/-! ## Dirty flags and edits -/

/-- Set the dirty flag of a side; only a change is announced. -/
def setDirty (side : Side) (value : Bool) (s : Session σ) : Session σ :=
  if s.dirty.get side = value then s
  else
    { s with dirty := s.dirty.set side value }.fire (.dirtyState value)

/-- Clear both dirty flags. -/
def clearDirty (s : Session σ) : Session σ :=
  (s.setDirty .left false).setDirty .right false

/-- Replace the bytes of a side's pane. -/
def setContents (side : Side) (bytes : ByteArray) (s : Session σ) :
    Session σ :=
  { s with panes := s.panes.setSide side (some bytes) }.emit
    (.setContents side bytes)

/-- Replace the bytes of a side's pane as a user would. -/
def applyEdit (side : Side) (bytes : ByteArray) (s : Session σ) : Session σ :=
  (s.setContents side bytes).setDirty side true

/-- Copy one side over the other. This is refused without an input, and
when the side to write may not be edited. -/
def copy (m : Model σ) (d : Direction) (s : Session σ) : Session σ × Bool :=
  match s.input with
  | none => (s, false)
  | some input =>
    if (s.view m).editable s.state d.target input then
      (s.applyEdit d.target ((s.panes.side d.source).getD .empty), true)
    else (s, false)

/-! ## Refreshing -/

/-- Take in whether the input is three-way. The panes are laid out again
when that makes the ancestor pane appear or disappear. -/
def setThreeWay (value : Bool) (s : Session σ) : Session σ :=
  let next := { s with threeWay := value }.emit (.ancestorAvailable value)
  if s.threeWay = value then next
  else
    let next := next.fire (.threeWay value)
    if s.ancestorVisible then next.emit .relayout else next

/-- Show content in the panes. -/
def showPanes (panes : Paned (Option ByteArray)) (s : Session σ) : Session σ :=
  { s with panes }.emit (.content panes)

/-- Show the header of a pane, if there is anything to show. -/
def showHeader (m : Model σ) (input : Place) (s : Session σ) (pane : Pane) :
    Session σ :=
  let header := (s.view m).header s.state pane input
  if header.label.isSome || header.image.isSome then
    s.emit (.header pane header)
  else s

/-- Show the headers of all panes. -/
def showHeaders (m : Model σ) (input : Place) (s : Session σ) : Session σ :=
  Pane.all.foldl (showHeader m input) s

/-- Take in whether copying in a direction is possible; only a change is
announced. -/
def setCopyEnabled (d : Direction) (value : Bool) (s : Session σ) :
    Session σ :=
  let next := s.emit (.copyEnabled d value)
  if s.copyEnabled.get d.target = value then next
  else
    { next with copyEnabled := next.copyEnabled.set d.target value }.fire
      (.copyEnabled d value)

/-- Take in which copies are possible: those onto a side of the bound input
that may be edited. -/
def updateTools (m : Model σ) (s : Session σ) : Session σ :=
  let possible (s : Session σ) (d : Direction) : Bool :=
    match s.input with
    | some input => (s.view m).editable s.state d.target input
    | none => false
  Direction.all.foldl (fun s d => s.setCopyEnabled d (possible s d)) s

/-- Whether an input is three-way: a hunk always, an input with a change
kind by that kind, and any other by having an ancestor. -/
def isThreeWay (m : Model σ) (state : σ) (input : Place) : Bool :=
  m.isHunk state input ||
    match m.kind? state input with
    | some kind => kind.isThreeWay
    | none => (m.content state .ancestor input).isSome

/-- Read content, headers and tools anew. -/
def refresh (m : Model σ) (s : Session σ) : Session σ :=
  match s.input with
  | none => ((s.setThreeWay false).showPanes ⟨none, none, none⟩).updateTools m
  | some input =>
    let panes := Paned.ofFn fun p => (s.view m).content s.state p input
    (((s.setThreeWay (isThreeWay m s.state input)).showPanes panes).showHeaders m
      input).updateTools m

/-! ## Saving -/

/-- What is saved for a side: the bytes of its pane. Empty bytes are saved
as no content at all if the other side has no content, so that emptying
one side against a missing one does not leave an empty file. -/
def pendingBytes (m : Model σ) (input : Place) (side : Side) (s : Session σ) :
    Option ByteArray :=
  let bytes := s.panes.side side
  if ((s.view m).content s.state side.opposite.pane input).isNone then
    bytes.filter fun b => !b.isEmpty
  else bytes

/-- Save a side if it has pending edits and may be edited. A save that
fails is reported and leaves the edits pending. -/
def flushSide (m : Model σ) (input : Place) (side : Side) (s : Session σ) :
    Session σ × Except SaveError Unit :=
  if (s.view m).editable s.state side input && s.dirty.get side then
    let bytes := s.pendingBytes m input side
    let asked := s.emit (.save input (side.oriented s.mirrored) bytes)
    match (s.view m).save s.state side input bytes with
    | .ok state => ({ asked with state }.setDirty side false, .ok ())
    | .error e =>
      (asked.emit (.notify (m.name s.state input) side e), .error e)
  else (s, .ok ())

/-- Save both sides. Both are tried; of two failures the left one is
reported back. -/
def flushSides (m : Model σ) (input : Place) (s : Session σ) :
    Session σ × Except SaveError Unit :=
  let (s, left) := s.flushSide m input .left
  let (s, right) := s.flushSide m input .right
  match left with
  | .ok () => (s, right)
  | .error e => (s, .error e)

/-- Save a side of the bound input. -/
def flush (m : Model σ) (side : Side) (s : Session σ) :
    Session σ × Except SaveError Unit :=
  match s.input with
  | none => (s, .ok ())
  | some input => s.flushSide m input side

/-- Save both sides of the bound input. -/
def flushAll (m : Model σ) (s : Session σ) :
    Session σ × Except SaveError Unit :=
  match s.input with
  | none => (s, .ok ())
  | some input => s.flushSides m input

/-! ## Resolving pending edits -/

/-- What became of pending edits. -/
inductive Resolution where
  /-- There were none. -/
  | clean
  | saved
  | discarded
  /-- They are still pending, and what was about to happen is called off. -/
  | cancelled
  deriving DecidableEq, Repr

/-- The question about the pending edits of an input. -/
def question (m : Model σ) (input : Place) (kind : PromptKind)
    (s : Session σ) : Prompt where
  kind := kind
  title :=
    match kind with
    | .inputSwitch => s.settings.messages.saveTitle
    | .externalChange => s.settings.messages.changedTitle
  message :=
    match kind with
    | .inputSwitch => s.settings.messages.saveMessage
    | .externalChange => s.settings.messages.changedMessage
  input := m.name s.state input
  leftDirty := s.dirty.left
  rightDirty := s.dirty.right

/-- What to do with the pending edits of an input: the policy decides, or
whoever answers for the user. -/
def decision (m : Model σ) (input : Place) (kind : PromptKind)
    (s : Session σ) : Session σ × Decision :=
  match s.settings.viewer.savePolicy with
  | .silentFlush | .alwaysFlush => (s, .save)
  | .confirm =>
    let prompt := s.question m input kind
    ({ s with confirmer := s.confirmer.next }.emit (.prompt prompt),
      s.confirmer.answer prompt)

/-- Deal with the pending edits of an input. -/
def resolve (m : Model σ) (input : Place) (kind : PromptKind)
    (s : Session σ) : Session σ × Except SaveError Resolution :=
  if s.isDirty then
    match s.decision m input kind with
    | (s, .save) =>
      match s.flushSides m input with
      | (s, .ok ()) => (s.clearDirty, .ok .saved)
      | (s, .error e) => (s, .error e)
    | (s, .discard) => (s.clearDirty, .ok .discarded)
    | (s, .cancel) => (s, .ok .cancelled)
  else (s, .ok .clean)

/-- Deal with the pending edits of the bound input, if there is one. -/
def resolveBound (m : Model σ) (kind : PromptKind) (s : Session σ) :
    Session σ × Except SaveError Resolution :=
  match s.input with
  | none => (s, .ok .clean)
  | some input => s.resolve m input kind

/-! ## Binding an input -/

/-- The result of an operation that may replace what the viewer shows. -/
inductive SwitchOutcome where
  | switched
  /-- There was nothing to do. -/
  | unchanged
  /-- It was called off, and nothing changed. -/
  | cancelled
  deriving DecidableEq, Repr

/-- Stop watching the bound input. -/
def release (m : Model σ) (s : Session σ) : Session σ :=
  match s.input with
  | none => s
  | some input =>
    let name := m.name s.state input
    let s := s.emit (.unwatchLabels input name)
    { s with registry := s.registry.remove input }.emit (.detach input name)

/-- Watch an input and make it the bound one. -/
def acquire (m : Model σ) (input : Option Place) (s : Session σ) :
    Session σ :=
  match input with
  | none => { s with input := none }
  | some place =>
    let name := m.name s.state place
    let s := { s with registry := s.registry.add place }.emit
      (.attach place name)
    { s with input := some place }.emit (.watchLabels place name)

/-- Bind another input, or none. Pending edits of the old one are dealt with
first; edits made without an input have nowhere to go and are dropped. -/
def bind (m : Model σ) (input : Option Place) (s : Session σ) :
    Session σ × Except SaveError SwitchOutcome :=
  if s.input = input then (s, .ok .unchanged)
  else
    match s.resolveBound m .inputSwitch with
    | (s, .error e) => (s, .error e)
    | (s, .ok .cancelled) => (s, .ok .cancelled)
    | (s, .ok _) =>
      ((((s.release m).clearDirty).acquire m input).refresh m, .ok .switched)

/-- Show the right model on the left, or no longer. Pending edits are dealt
with first, so that no dirty flag has to change sides. -/
def setMirrored (m : Model σ) (value : Bool) (s : Session σ) :
    Session σ × Except SaveError SwitchOutcome :=
  if s.mirrored = value then (s, .ok .unchanged)
  else
    match s.resolveBound m .inputSwitch with
    | (s, .error e) => (s, .error e)
    | (s, .ok .cancelled) => (s, .ok .cancelled)
    | (s, .ok _) => ({ s with mirrored := value }.refresh m, .ok .switched)

/-! ## Changes from outside -/

/-- The bound input was changed outside the viewer. While a save is running
that is the viewer's own doing. Otherwise pending edits are dealt with; to
cancel drops them, since the input has changed already. -/
def externalChange (m : Model σ) (s : Session σ) :
    Session σ × Except SaveError Unit :=
  match s.input with
  | none => (s, .ok ())
  | some input =>
    if s.registry.isSaving then (s, .ok ())
    else
      match s.resolve m input .externalChange with
      | (s, .error e) => (s, .error e)
      | (s, .ok .cancelled) => (s.clearDirty.refresh m, .ok ())
      | (s, .ok _) => (s.refresh m, .ok ())

/-- An input reported a change; only the bound one matters. -/
def inputChanged (m : Model σ) (input : Place) (s : Session σ) :
    Session σ × Except SaveError Unit :=
  if s.input = some input then s.externalChange m else (s, .ok ())

/-- The labels of inputs changed; only the bound one matters. -/
def labelsChanged (m : Model σ) (inputs : List Place) (s : Session σ) :
    Session σ :=
  match s.input with
  | none => s
  | some input => if input ∈ inputs then s.showHeaders m input else s

/-! ## The ancestor pane -/

/-- Show or hide the ancestor pane; the answer is whether anything changed.
It cannot be shown while it is locked. -/
def setAncestorVisible (value : Bool) (s : Session σ) : Session σ × Bool :=
  if value && !s.ancestorToggle then (s, false)
  else if s.ancestorVisible = value then (s, false)
  else
    let next := { s with ancestorVisible := value }.fire
      (.ancestorVisible value)
    (if s.threeWay then next.emit .relayout else next, true)

/-- Hide the ancestor pane for good, or allow it again. -/
def setIgnoreAncestor (value : Bool) (s : Session σ) : Session σ :=
  let s := if value then (s.setAncestorVisible false).1 else s
  { s with ancestorToggle := !value }

/-! ## The end -/

/-- Let go of the bound input and of all listeners. Pending edits are not
saved. -/
def dispose (m : Model σ) (s : Session σ) : Session σ :=
  let s := s.release m
  { s with input := none, listeners := s.listeners.clear }

end Session

end Reconcile
