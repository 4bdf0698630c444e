-- Front ends read units, renderers print them. Each is found by its name,
-- and a front end also by the extension of a file.
import Recast.CSharp.Unit
import Recast.Disk
import Recast.Form.Source

namespace Recast

/-! ## Reading -/

/-- Why a unit could not be read. -/
inductive ReadError
  | io (path : Path) (cause : IoFailure)
  /-- The text stands for no unit. The cause is in the words of the reader. -/
  | malformed (path : Path) (cause : String)
  | unsupported (path : Path)
deriving Repr, DecidableEq, Inhabited

def ReadError.message : ReadError → String
  | .io path cause => s!"failed to read {path.text}: {cause.message}"
  | .malformed path cause => s!"malformed unit {path.text}: {cause}"
  | .unsupported path => s!"unsupported input: no front-end for {path.text}"

/-- The unit with the paths that it leaves open: a unit without a path
has the path it was read from, and a problem without one that of its
unit. -/
def SourceUnit.located (u : SourceUnit) (file : Path) : SourceUnit :=
  let path := if u.path.isEmpty then file else u.path
  { u with
    path := path
    problems := u.problems.map fun p => if p.path.isEmpty then { p with path := path } else p }

/-- The unit that a text stands for, as `read_json` finds it. What is wrong
with a text that stands for none, `explain` says. -/
def SourceUnit.read (explain : String → String) (file : Path) (text : String) :
    Except ReadError SourceUnit :=
  match Json.read? Form.sourceUnit text with
  | some u => .ok (u.located file)
  | none => .error (.malformed file (explain text))

structure FrontEnd where
  name : String
  extensions : List String
  read : (String → String) → Path → String → Except ReadError SourceUnit

namespace FrontEnd

def json : FrontEnd := ⟨"json", ["json"], SourceUnit.read⟩

def all : List FrontEnd := [json]

def named? (name : String) : Option FrontEnd := all.find? (·.name == name)

def forExtension? (extension : String) : Option FrontEnd :=
  all.find? (·.extensions.contains extension)

end FrontEnd

/-- Reads the unit in a file, with the front end for its extension
(`read_unit_file`). -/
def Disk.readUnit [Monad m] (disk : Disk m) (explain : String → String) (file : Path) :
    Attempt m ReadError SourceUnit :=
  match FrontEnd.forExtension? (file.extension?.getD "") with
  | none => throw (.unsupported file)
  | some frontEnd => ExceptT.mk do
    match ← (disk.read file).run with
    | .error cause => return .error (.io file cause)
    | .ok text => return frontEnd.read explain file text

/-! ## Printing -/

structure Renderer where
  language : String
  extension : String
  /-- The header as it is, and then the unit. -/
  render : String → TargetUnit → String

namespace Renderer

def csharp : Renderer := ⟨"csharp", "cs", CSharp.render⟩

def all : List Renderer := [csharp]

def forLanguage? (language : String) : Option Renderer := all.find? (·.language == language)

end Renderer

end Recast
