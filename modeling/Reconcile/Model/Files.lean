/-
Reconcile.Model.Files — a comparison of files: read from disk, shown as a
node, and saved to disk before the node takes the new content.
-/
import Reconcile.Disk
import Reconcile.Model

namespace Reconcile

/-! ## Reading the files -/

/-- The files behind the three panes. -/
structure ComparePaths where
  ancestor : Option String
  left : String
  right : String
  deriving DecidableEq, Repr

/-- Why a comparison could not be read. -/
inductive LoadError where
  | unreadable (path : String) (fault : DiskFault)
  | noAncestor (path : String)
  | noSides (left right : String)
  deriving DecidableEq, Repr

/-- The messages of an error and of what caused it, outermost first. -/
def LoadError.chain : LoadError → List String
  | unreadable path fault => ["failed to read " ++ path, fault.message]
  | noAncestor path => ["ancestor " ++ path ++ " does not exist"]
  | noSides left right => ["neither " ++ left ++ " nor " ++ right ++ " exists"]

/-- The element of a file, which is named by its path; none if there is
nothing at the path. -/
def readElement (d : Disk) (path : String) :
    Except LoadError (Option Element) :=
  if d.contains path then
    match d.read path with
    | .ok content => .ok (some ⟨path, some content⟩)
    | .error e => .error (.unreadable path e)
  else .ok none

namespace ComparePaths

/-- The path of a side. -/
def side (p : ComparePaths) : Side → String
  | .left => p.left
  | .right => p.right

/-- The ancestor, which has to be there if it is asked for. -/
def loadAncestor (p : ComparePaths) (d : Disk) :
    Except LoadError (Option Element) :=
  match p.ancestor with
  | none => .ok none
  | some path => do
    match ← readElement d path with
    | some e => .ok (some e)
    | none => .error (.noAncestor path)

/-- The comparison of the files. Of the two sides one may be missing. -/
def load (p : ComparePaths) (d : Disk) : Except LoadError Node := do
  let ancestor ← p.loadAncestor d
  let left ← readElement d p.left
  let right ← readElement d p.right
  if left.isNone && right.isNone then .error (.noSides p.left p.right)
  else
    .ok {
      kind := .classify (ancestor.bind (·.content)) (left.bind (·.content))
        (right.bind (·.content))
      elements := ⟨ancestor, left, right⟩ }

end ComparePaths

/-! ## Saving to the files -/

/-- A comparison of files with the disk that they are on. -/
structure FileStore where
  disk : Disk
  paths : ComparePaths
  node : Node
  editable : Sided Bool

namespace FileStore

/-- Write the file of a side, or remove it if the side is to have no
content at all. -/
def writeFile (s : FileStore) (side : Side) (bytes : Option ByteArray) :
    Except SaveError Disk :=
  let path := s.paths.side side
  let outcome :=
    match bytes with
    | some content => s.disk.write path content
    | none =>
      if s.disk.contains path then s.disk.remove path else .ok s.disk
  match outcome with
  | .ok disk => .ok disk
  | .error e => .error (.io side path e.message)

/-- Save a side: the disk first, then the node. -/
def save (s : FileStore) (side : Side) (bytes : Option ByteArray) :
    Except SaveError FileStore :=
  if s.editable.get side then
    match s.writeFile side bytes with
    | .ok disk =>
      .ok { s with disk := disk, node := s.node.setContent side bytes }
    | .error e => .error e
  else .error (.readOnly side)

end FileStore

/-- The model of a comparison of files, which is the only input there is. -/
def Model.files : Model FileStore where
  name s _ := s.node.name
  kind? s _ := some s.node.kind
  isHunk s _ := s.node.hunk
  content s pane _ := s.node.content pane
  label s pane _ := s.node.label pane
  image s pane _ := s.node.image pane
  editable s side _ := s.editable.get side
  save s side _ bytes := s.save side bytes

end Reconcile
