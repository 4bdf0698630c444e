-- Problems: what the parser or the recasting found wrong at a place of a
-- unit. A problem is shown as one line, `path(line): message`.
import Recast.Path
import Recast.Span

namespace Recast

inductive Severity
  | warning
  | error
deriving Repr, DecidableEq, Inhabited

def Severity.text : Severity → String
  | .warning => "warning"
  | .error => "error"

structure Problem where
  severity : Severity
  message : String
  /-- The file it belongs to. A reader fills in the path of the unit. -/
  path : Path
  line : UInt32
  start : UInt64
  stop : UInt64
deriving Repr, DecidableEq, Inhabited

namespace Problem

def ofSpan (severity : Severity) (path : Path) (span : Span) (message : String) : Problem :=
  ⟨severity, message, path, span.line, span.start, span.stop⟩

def isError (p : Problem) : Bool := p.severity == .error

/-- The pieces of the line, in the order in which they are written. -/
def pieces (p : Problem) : List String :=
  [p.path.text, "(", Nat.repr p.line.toNat, "): ", p.message]

/-- The problem as one line, without the line end. -/
def text (p : Problem) : String := p.pieces.foldl (· ++ ·) ""

end Problem

end Recast
