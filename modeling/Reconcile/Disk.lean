/-
Reconcile.Disk — the files and directories a program can reach, as a value.

A path is followed name by name, from the root if it begins with a slash
and from the working directory otherwise; every name but the last has to
lead to a directory. Names and paths are limited in length, counted in
bytes. An operation that fails leaves the disk as it was.

A path is not all that decides. The system may refuse to read, to write or to
remove a file for reasons that are not in its path: permissions, a disk that is
full or only to be read, a fault of the hardware. What it refuses, and in which
words, is noted with the disk. A directory is there to be looked into; what
lies in one that is not is out of reach, and no part of the disk.

* `Disk.find` is what stands at the end of a path, and `Disk.content?` what is
  in the file there, whether or not it may be read.
* `Disk.read` and `Disk.readText` read a file.
* `Disk.write` and `Disk.remove` answer with the disk afterwards.
* `Disk.changes` tells two disks apart.
-/
import Reconcile.Bytes

namespace Reconcile

/-- Why a path could not be used. -/
inductive DiskFault where
  /-- A name on the way is not there. -/
  | notFound
  /-- A file stands where a directory is needed. -/
  | notDirectory
  /-- A directory stands where a file is needed. -/
  | isDirectory
  /-- A name is too long for a directory, or the path as a whole for the
  system. -/
  | tooLong
  /-- The path has a character that no name can have. -/
  | holdsNul
  /-- The bytes of the file are no text. -/
  | notText
  /-- The system refuses, and says why. -/
  | refused (reason : String)
  deriving DecidableEq, Repr

/-- The wording of a fault. -/
def DiskFault.message : DiskFault → String
  | notFound => "No such file or directory (os error 2)"
  | notDirectory => "Not a directory (os error 20)"
  | isDirectory => "Is a directory (os error 21)"
  | tooLong => "File name too long (os error 36)"
  | holdsNul => "file name contained an unexpected NUL byte"
  | notText => "stream did not contain valid UTF-8"
  | refused reason => reason

/-- What is found at a place on the disk. -/
inductive DiskEntry where
  | file (content : ByteArray)
  | directory
  deriving DecidableEq

/-- A place on the disk: the names that lead there from the root. -/
abbrev Location := List String

/-- What can be done with a file. -/
inductive Access where
  | read
  | write
  | remove
  deriving DecidableEq, Repr

/-- What the system refuses to do at a place, with its reason. -/
abbrev Refusals := List ((Access × Location) × String)

/-- The files and directories of a disk. -/
structure Disk where
  /-- The working directory. It and all places above it are directories. -/
  home : Location
  entries : List (Location × DiskEntry) := []
  refusals : Refusals := []
  deriving DecidableEq

namespace Disk

/-! ## Places -/

/-- What is at a place. -/
def entry? (d : Disk) (l : Location) : Option DiskEntry :=
  if l.isPrefixOf d.home then some .directory else d.entries.lookup l

/-- Put an entry at a place. -/
def set (d : Disk) (l : Location) (e : DiskEntry) : Disk :=
  if (d.entries.lookup l).isSome then
    { d with entries :=
        d.entries.map fun x => if x.1 = l then (l, e) else x }
  else { d with entries := d.entries ++ [(l, e)] }

/-- Take away what is at a place. -/
def clear (d : Disk) (l : Location) : Disk :=
  { d with entries := d.entries.filter (·.1 ≠ l) }

/-! ## Paths -/

/-- The names of a path, empty ones included. -/
def names (path : String) : List String :=
  (path.toList.splitOn '/').map String.ofList

/-- The place that a name leads to. Nothing and a dot stay, two dots go up,
but not above the root. -/
def next (l : Location) (name : String) : Location :=
  if name = "" ∨ name = "." then l
  else if name = ".." then l.dropLast
  else l ++ [name]

/-- The most bytes that a name can have. -/
def nameLimit : Nat := 255

/-- The most bytes that a path can have. -/
def pathLimit : Nat := 4095

/-- Go from a place to the next name of a path. -/
def enter (d : Disk) (l : Location) (name : String) :
    Except DiskFault Location :=
  match d.entry? l with
  | some .directory =>
    if nameLimit < name.utf8ByteSize then .error .tooLong
    else .ok (next l name)
  | some (.file _) => .error .notDirectory
  | none => .error .notFound

/-- Refuse a path that leads nowhere on any disk. -/
def checkPath (path : String) : Except DiskFault Unit :=
  if '\x00' ∈ path.toList then .error .holdsNul
  else if path.isEmpty then .error .notFound
  else if pathLimit < path.utf8ByteSize then .error .tooLong
  else .ok ()

/-- Where a path with the given names begins. -/
def origin (home : Location) : List String → Location
  | "" :: _ => []
  | _ => home

/-- Follow the names of a path. -/
def follow (d : Disk) (path : List String) : Except DiskFault Location :=
  path.foldlM d.enter (origin d.home path)

/-- The place that a path leads to. Something need not be there, but what is
above it has to be a directory. -/
def locate (d : Disk) (path : String) : Except DiskFault Location := do
  checkPath path
  d.follow (names path)

/-- The places that a path leads through, as far as its names tell. -/
def route (home : Location) (path : String) : List Location :=
  let start := origin home (names path)
  (names path).foldl (fun places name =>
    places ++ [next (places.getLastD start) name]) [start]

/-- What is at the end of a path. -/
def find (d : Disk) (path : String) : Except DiskFault (Location × DiskEntry) :=
  match d.locate path with
  | .error e => .error e
  | .ok l =>
    match d.entry? l with
    | some e => .ok (l, e)
    | none => .error .notFound

/-- Whether there is anything at the end of a path. -/
def contains (d : Disk) (path : String) : Bool := (d.find path).isOk

/-! ## Files -/

/-- Ask the system for leave to do something at a place. -/
def permit (d : Disk) (access : Access) (l : Location) : Except DiskFault Unit :=
  match d.refusals.lookup (access, l) with
  | some reason => .error (.refused reason)
  | none => .ok ()

/-- The bytes of the file at the end of a path, whether or not they may be
read; none if there is no file. -/
def content? (d : Disk) (path : String) : Option ByteArray :=
  match d.find path with
  | .ok (_, .file content) => some content
  | _ => none

/-- The file at the end of a path and its place, for something that the system
has to give leave for. -/
def openFile (d : Disk) (access : Access) (path : String) :
    Except DiskFault (Location × ByteArray) := do
  let (l, e) ← d.find path
  d.permit access l
  match e with
  | .file content => .ok (l, content)
  | .directory => .error .isDirectory

/-- The bytes of a file. -/
def read (d : Disk) (path : String) : Except DiskFault ByteArray := do
  return (← d.openFile .read path).2

/-- The text of a file. -/
def readText (d : Disk) (path : String) : Except DiskFault String :=
  match d.read path with
  | .error e => .error e
  | .ok content =>
    match String.fromUTF8? content with
    | some s => .ok s
    | none => .error .notText

/-- The path without the slashes at its end; a path of slashes keeps one. -/
def withoutSlash (path : String) : String :=
  match (path.toList.reverse.dropWhile (· = '/')).reverse with
  | [] => if path.isEmpty then "" else "/"
  | cs => String.ofList cs

/-- The place that a file written at a path has. A path that ends in a
slash names a directory, whatever its last name is, and so does not name a
file; neither does a path to a directory that is there. -/
def target (d : Disk) (path : String) : Except DiskFault Location := do
  checkPath path
  if withoutSlash path ≠ path then
    let _ ← d.follow ((names (withoutSlash path)).dropLast ++ ["."])
    .error .isDirectory
  else
    let l ← d.follow (names path)
    if d.entry? l = some .directory then .error .isDirectory else .ok l

/-- Write a file, in place of the one that is there if there is one. -/
def write (d : Disk) (path : String) (content : ByteArray) :
    Except DiskFault Disk := do
  let l ← d.target path
  d.permit .write l
  return d.set l (.file content)

/-- Remove a file. -/
def remove (d : Disk) (path : String) : Except DiskFault Disk := do
  return d.clear (← d.openFile .remove path).1

/-! ## What has changed -/

/-- The places where one disk has other content than another: what has
been removed, and what has been written with its new bytes. -/
def changes (before after : Disk) : List (Location × Option ByteArray) :=
  (before.entries.filterMap fun (l, _) =>
    if (after.entry? l).isNone then some (l, none) else none) ++
  after.entries.filterMap fun (l, e) =>
    match e with
    | .file content =>
      if before.entry? l = some e then none else some (l, some content)
    | .directory => none

end Disk

end Reconcile
