-- A tree of files in memory, with the rules by which a path is followed.
-- Every part of a path but the last must lead to a directory, also a
-- part that is a dot. A path that is not absolute starts at the place
-- where the program stands.
import Recast.Disk

namespace Recast

namespace FileTree

/-- The names on the way from the root. -/
abbrev Place := List String

inductive Entry
  | directory
  | text (content : String)
  /-- A file whose bytes are no text. -/
  | binary
deriving Repr, DecidableEq, Inhabited

end FileTree

open FileTree in
/-- The entries of a tree. The root is always a directory. -/
structure FileTree where
  /-- The place where paths that are not absolute start. -/
  home : Place
  entries : List (Place × Entry)
deriving Repr, DecidableEq, Inhabited

namespace FileTree

/-! ## Entries -/

def entry? (t : FileTree) (place : Place) : Option Entry :=
  if place.isEmpty then some .directory else t.entries.lookup place

/-- The tree with one entry, in the place of what was there. -/
def put (t : FileTree) (place : Place) (e : Entry) : FileTree :=
  { t with entries := t.entries.filter (·.1 ≠ place) ++ [(place, e)] }

/-- The tree with an entry and with directories all the way to it. -/
def plant (t : FileTree) (place : Place) (e : Entry) : FileTree :=
  ((List.range place.length).foldl
    (fun t n => match t.entry? (place.take n) with
      | some .directory => t
      | _ => t.put (place.take n) .directory) t).put place e

/-! ## Following a path -/

/-- The greatest length of a name, in bytes. -/
def maxName : Nat := 255

/-- The length that a whole path does not reach, in bytes. -/
def maxPath : Nat := 4096

/-- What a directory has under a name. A name that is too long is not
looked for. -/
def find (t : FileTree) (parent : Place) (name : String) : Except IoFailure (Option Entry) :=
  if maxName < name.utf8ByteSize then .error .nameTooLong
  else .ok (t.entry? (parent ++ [name]))

/-- One step from a directory. -/
def step (t : FileTree) (place : Place) (segment : String) : Except IoFailure Place :=
  if segment = "." then .ok place
  else if segment = ".." then .ok place.dropLast
  else
    match t.find place segment with
    | .error e => .error e
    | .ok none => .error .notFound
    | .ok (some .directory) => .ok (place ++ [segment])
    | .ok (some _) => .error .notADirectory

/-- The directory at the end of some steps. -/
def walk (t : FileTree) (place : Place) : List String → Except IoFailure Place
  | [] => .ok place
  | segment :: rest =>
    match t.step place segment with
    | .ok next => t.walk next rest
    | .error e => .error e

/-- Where a path leads: to a directory that is known by dots alone or is
the root, or to a name in a directory. -/
inductive Target
  | directory (place : Place)
  | name (parent : Place) (name : String) (slashAfter : Bool)

/-- Follows a path up to its last part, which is not looked for yet. -/
def follow (t : FileTree) (p : Path) : Except IoFailure Target :=
  if Text.hasChar '\x00' p.text then .error .nulInName
  else if p.isEmpty then .error .notFound
  else if maxPath ≤ p.text.utf8ByteSize then .error .nameTooLong
  else
    let start := if p.isAbsolute then [] else t.home
    match p.segments.getLast? with
    | none => .ok (.directory start)
    | some last => do
      let parent ← t.walk start p.segments.dropLast
      if last = "." then return .directory parent
      else if last = ".." then return .directory parent.dropLast
      else return .name parent last (p.text.toList.getLast? == some '/')

/-- What stands at the end of a path. -/
def look (t : FileTree) (p : Path) : Except IoFailure Entry := do
  match ← t.follow p with
  | .directory _ => return .directory
  | .name parent name slashAfter =>
    match ← t.find parent name with
    | none => throw .notFound
    | some .directory => return .directory
    | some e => if slashAfter then throw .notADirectory else return e

/-! ## Reading and writing -/

def read (t : FileTree) (p : Path) : Except IoFailure String := do
  match ← t.look p with
  | .directory => throw .isADirectory
  | .text content => return content
  | .binary => throw .notText

def present (t : FileTree) (p : Path) : Bool := (t.look p).toBool

def isDirectory (t : FileTree) (p : Path) : Bool :=
  match t.look p with
  | .ok .directory => true
  | _ => false

/-- Writes a file. A path with a slash at its end is never that of a
file, whatever stands there. -/
def write (t : FileTree) (p : Path) (content : String) : Except IoFailure FileTree := do
  match ← t.follow p with
  | .directory _ => throw .isADirectory
  | .name parent name slashAfter =>
    if slashAfter then throw .isADirectory
    else
      match ← t.find parent name with
      | some .directory => throw .isADirectory
      | _ => return t.put (parent ++ [name]) (.text content)

/-- Makes one directory. -/
def createDir (t : FileTree) (p : Path) : Except IoFailure FileTree := do
  match ← t.follow p with
  | .directory _ => throw .alreadyThere
  | .name parent name _ =>
    match ← t.find parent name with
    | some _ => throw .alreadyThere
    | none => return t.put (parent ++ [name]) .directory

/-- Makes a directory. If the one around it is missing, that is made
first, as long as there is fuel. -/
def createDirsWith (t : FileTree) (p : Path) : Nat → Except IoFailure Unit × FileTree
  | 0 => (.error .notFound, t)
  | fuel + 1 =>
    if p.isEmpty then (.ok (), t)
    else
      match t.createDir p with
      | .ok t' => (.ok (), t')
      | .error .notFound =>
        match p.parent? with
        | none => (.error (.refused "failed to create whole tree"), t)
        | some parent =>
          match t.createDirsWith parent fuel with
          | (.error e, t') => (.error e, t')
          | (.ok (), t') =>
            match t'.createDir p with
            | .ok made => (.ok (), made)
            | .error e => if t'.isDirectory p then (.ok (), t') else (.error e, t')
      | .error e => if t.isDirectory p then (.ok (), t) else (.error e, t)

/-- Makes a directory, and those around it that are missing. Each step
outwards has one component less, so that many steps are enough. -/
def createDirs (t : FileTree) (p : Path) : Except IoFailure Unit × FileTree :=
  t.createDirsWith p (p.components.length + 1)

/-! ## The tree as a disk -/

/-- A disk that is a tree kept in the state. -/
def disk [Monad m] [MonadStateOf FileTree m] : Disk m where
  read p := ExceptT.mk do return (← getThe FileTree).read p
  present p := do return (← getThe FileTree).present p
  write p content := ExceptT.mk do
    match (← getThe FileTree).write p content with
    | .ok t => set t; return .ok ()
    | .error e => return .error e
  createDirs p := ExceptT.mk do
    let (result, t) := (← getThe FileTree).createDirs p
    set t
    return result

end FileTree

end Recast
