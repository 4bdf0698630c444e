-- Paths of units and of files. A path keeps the spelling it was given.
-- Two paths are the same path when their components are the same: a
-- repeated slash, a slash at the end and a dot inside do not count.
import Recast.Text.Split

namespace Recast

/-- A path, as it is spelled. -/
structure Path where
  text : String
deriving Repr, DecidableEq, Inhabited

namespace Path

instance : Coe String Path := ⟨Path.mk⟩

/-! ## Components -/

/-- One step of a path. -/
inductive Component
  | root
  | here
  | up
  | name (s : String)
deriving Repr, DecidableEq

/-- The parts of the text between the slashes, without the empty ones. -/
def segments (p : Path) : List String := (Text.splitOn '/' p.text).filter (· ≠ "")

def isAbsolute (p : Path) : Bool := p.text.toList.head? == some '/'

def isEmpty (p : Path) : Bool := p.text.isEmpty

/-- The step that a segment other than a single dot makes. -/
def step (segment : String) : Component :=
  if segment = ".." then .up else .name segment

/-- The steps of the segments. A single dot makes no step. -/
def steps (segments : List String) : List Component :=
  (segments.filter (· ≠ ".")).map step

/-- The steps of a path. Only a dot at the start of a relative path counts. -/
def components (p : Path) : List Component :=
  if p.isAbsolute then .root :: steps p.segments
  else
    match p.segments with
    | "." :: rest => .here :: steps rest
    | segments => steps segments

/-- The two spellings name one path. -/
def same (p q : Path) : Bool := p.components == q.components

/-! ## The order of paths -/

/-- The root comes first, then the dots, then the names. -/
def Component.rank : Component → Nat
  | .root => 0
  | .here => 1
  | .up => 2
  | .name _ => 3

def Component.compare : Component → Component → Ordering
  | .name s, .name t => Ord.compare s t
  | a, b => Ord.compare a.rank b.rank

/-- Step by step; a path comes before the paths that go on from it. -/
def compareSteps : List Component → List Component → Ordering
  | [], [] => .eq
  | [], _ :: _ => .lt
  | _ :: _, [] => .gt
  | a :: as, b :: bs =>
    match a.compare b with
    | .eq => compareSteps as bs
    | o => o

def compare (p q : Path) : Ordering := compareSteps p.components q.components

/-! ## Parts of a path -/

/-- The last step, if it is a name. -/
def fileName? (p : Path) : Option String :=
  match p.components.getLast? with
  | some (.name s) => some s
  | _ => none

/-- What follows the last dot of the file name. A name whose only dot
comes first has no extension. -/
def extension? (p : Path) : Option String := do
  let name ← p.fileName?
  if !Text.hasChar '.' name then none
  else
    let parts := Text.splitOn '.' name
    if Text.joinWith "." parts.dropLast = "" then none else parts.getLast?

/-- The file name up to its first dot. A name that starts with a dot is
kept whole, and a path without a file name gives `unit`. -/
def stem (p : Path) : String :=
  match p.fileName? with
  | none => "unit"
  | some name =>
    match Text.splitOn '.' name with
    | first :: _ => if first = "" then name else first
    | [] => name

/-- The text of a step in a path that is put together again. -/
def Component.text : Component → String
  | .root => ""
  | .here => "."
  | .up => ".."
  | .name s => s

/-- The path without its last step. The root and the empty path have none. -/
def parent? (p : Path) : Option Path :=
  match p.components with
  | [] => none
  | [.root] => none
  | [.root, _] => some ⟨"/"⟩
  | steps => some ⟨Text.joinWith "/" (steps.dropLast.map Component.text)⟩

/-- The path `tail` read from `base`. An absolute tail stands alone. -/
def join (base : Path) (tail : Path) : Path :=
  if tail.isAbsolute || base.text.isEmpty then tail
  else if base.text.toList.getLast? == some '/' then ⟨base.text ++ tail.text⟩
  else ⟨base.text ++ "/" ++ tail.text⟩

end Path

end Recast
