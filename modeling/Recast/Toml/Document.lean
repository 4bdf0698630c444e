-- Documents: keys, values, and the lines they stand on.
import Recast.Toml.Scalar
import Recast.Toml.Text

namespace Recast.Toml

/-! ## Keys -/

def isKeyChar (c : Char) : Bool :=
  isDigit c || ('a' ≤ c && c ≤ 'z') || ('A' ≤ c && c ≤ 'Z') || c == '_' || c == '-'

/-- One part of a key: bare, or in quotes on one line. -/
def keyPart : Scan String := do
  if ← Scan.skip "\x22" then quotedText
  else if ← Scan.skip "'" then literalText
  else
    match ← Scan.chars isKeyChar with
    | [] => failure
    | cs => return String.ofList cs

/-- The count of parts that no key reaches, and of containers that no
value reaches. -/
def maxDepth : Nat := 80

/-- A key: its parts in front, and its last part. -/
def key : Scan (List String × String) := do
  blanks
  let first ← keyPart
  blanks
  let rest ← Scan.many (do
    if ← Scan.skip "." then
      blanks
      let part ← keyPart
      blanks
      return some part
    else return none : Scan (Option String))
  let parts := first :: rest
  if parts.length < maxDepth then return (parts.dropLast, parts.getLastD first) else failure

/-! ## Values -/

/-- Whether a blank and a digit come next. -/
def seesTime : Scan Bool := fun cs =>
  match cs with
  | ' ' :: c :: _ => some (isDigit c, cs)
  | _ => some (false, cs)

/-- A value of one word. A date may be followed by a blank and a time. -/
def word : Scan Toml := do
  let cs ← Scan.chars isWordChar
  if isDate cs && (← seesTime) then
    Scan.expect " "
    let time ← Scan.chars isWordChar
    (ofWord? (cs ++ ' ' :: time) : Option Toml)
  else (ofWord? cs : Option Toml)

/-- The items of an array, after its bracket. Line ends and comments may
stand between them, and a comma may follow the last one. -/
def arrayItems (value : Scan Toml) : Scan (List Toml) := do
  gaps
  if ← Scan.skip "]" then return []
  else
    let first ← value
    gaps
    let rest ← Scan.many (do
      if ← Scan.skip "]" then return none
      else
        Scan.expect ","
        gaps
        if ← Scan.skip "]" then return none
        else
          let item ← value
          gaps
          return some item : Scan (Option Toml))
    return first :: rest

/-- A key and its value. -/
def pair (value : Scan Toml) : Scan (List String × String × Toml) := do
  let (path, last) ← key
  Scan.expect "="
  blanks
  return (path, last, ← value)

/-- The pairs of a table in braces, after the brace, on one line. -/
def inlinePairs (value : Scan Toml) : Scan (List (List String × String × Toml)) := do
  blanks
  if ← Scan.skip "\x7d" then return []
  else
    let first ← pair value
    blanks
    let rest ← Scan.many (do
      if ← Scan.skip "\x7d" then return none
      else
        Scan.expect ","
        let p ← pair value
        blanks
        return some p : Scan (Option (List String × String × Toml)))
    return first :: rest

/-- The entries that pairs give, one after the other. -/
def entriesOf (pairs : List (List String × String × Toml)) : Option Entries :=
  pairs.foldlM (fun es (path, last, v) => assign last v path es) []

/-- A value with room for so many containers inside each other. -/
def value : Nat → Scan Toml
  | 0 => do
    match ← text? with
    | some s => return .text s
    | none => word
  | room + 1 => do
    if ← Scan.skip "[" then return .array (← arrayItems (value room))
    else if ← Scan.skip "\x7b" then
      let es ← (entriesOf (← inlinePairs (value room)) : Option Entries)
      return .table .inline es
    else
      match ← text? with
      | some s => return .text s
      | none => word

/-! ## Lines -/

/-- A line that says something. -/
inductive Line
  | table (path : List String) (last : String)
  /-- A header with double brackets. -/
  | element (path : List String) (last : String)
  | pair (path : List String) (last : String) (value : Toml)

/-- The next line. Lines without content say nothing. -/
def line : Scan (Option (Option Line)) := do
  blanks
  if ← Scan.atEnd then return none
  else if ← newline? then return some none
  else if ← Scan.sees "#" then
    lineEnd
    return some none
  else if ← Scan.skip "[[" then
    let (path, last) ← key
    Scan.expect "]]"
    lineEnd
    return some (some (.element path last))
  else if ← Scan.skip "[" then
    let (path, last) ← key
    Scan.expect "]"
    lineEnd
    return some (some (.table path last))
  else
    let (path, last, v) ← pair (value (maxDepth - 1))
    lineEnd
    return some (some (.pair path last v))

/-- The lines of a document. A byte order mark may stand before them. -/
def lines : Scan (List Line) := do
  let _ ← Scan.skip "\ufeff"
  return (← Scan.many line).filterMap id

/-! ## Documents -/

/-- The tables so far, and the one that pairs go to. -/
structure Document where
  root : Entries
  current : List String

def Document.add (d : Document) : Line → Option Document
  | .table path last =>
    (enter (openTable last) path d.root).map fun root => ⟨root, path ++ [last]⟩
  | .element path last =>
    (enter (openElement last) path d.root).map fun root => ⟨root, path ++ [last]⟩
  | .pair path last v =>
    (enter (assign last v path) d.current d.root).map fun root => ⟨root, d.current⟩

/-- The entries of a document. -/
def parse? (s : String) : Option Entries := do
  let (ls, _) ← lines s.toList
  let d ← ls.foldlM Document.add ⟨[], []⟩
  return d.root

end Recast.Toml
