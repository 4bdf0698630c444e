-- Reading a text from its front, one character or one run of characters
-- at a time. A step that does not apply fails, and with it the whole.

namespace Recast.Toml

/-- A step that takes some of the text. -/
abbrev Scan := StateT (List Char) Option

namespace Scan

/-! ## Characters -/

def next : Scan Char := fun cs =>
  match cs with
  | [] => none
  | c :: cs => some (c, cs)

/-- Nothing is left. -/
def atEnd : Scan Bool := fun cs => some (cs.isEmpty, cs)

/-- Whether the text goes on with a word, which stays where it is. -/
def sees (word : String) : Scan Bool := fun cs => some (word.toList.isPrefixOf cs, cs)

/-- Takes a word that must come next. -/
def expect (word : String) : Scan Unit := fun cs =>
  if word.toList.isPrefixOf cs then some ((), cs.drop word.toList.length) else none

/-- Takes a word if it comes next, and tells whether it does. -/
def skip (word : String) : Scan Bool := fun cs =>
  if word.toList.isPrefixOf cs then some (true, cs.drop word.toList.length) else some (false, cs)

/-- Takes all characters up to the first that is of another kind. -/
def chars (p : Char → Bool) : Scan (List Char) := fun cs => some (cs.takeWhile p, cs.dropWhile p)

/-! ## Repetition -/

/-- Repeats a step until it gives nothing, as long as there is fuel. -/
def manyWith (step : Scan (Option α)) : Nat → Scan (List α)
  | 0 => failure
  | fuel + 1 => do
    match ← step with
    | none => return []
    | some a => return a :: (← manyWith step fuel)

/-- Repeats a step until it gives nothing. A step that gives something
takes at least one character, so the length of the text is fuel enough. -/
def many (step : Scan (Option α)) : Scan (List α) := fun cs => manyWith step (cs.length + 1) cs

end Scan

/-! ## Blanks, comments and line ends -/

def isBlank (c : Char) : Bool := c == ' ' || c == '\t'

/-- A character that may stand as it is: no control character but the tab. -/
def isPlain (c : Char) : Bool := c == '\t' || (0x20 ≤ c.toNat && c.toNat != 0x7f)

def blanks : Scan Unit := do
  let _ ← Scan.chars isBlank

/-- Takes a line end, if there is one. -/
def newline? : Scan Bool := do
  if ← Scan.skip "\n" then return true
  else Scan.skip "\r\n"

/-- Takes a comment, if there is one. -/
def comment? : Scan Bool := do
  if ← Scan.skip "#" then
    let _ ← Scan.chars isPlain
    return true
  else return false

/-- What may follow on a line: blanks, a comment, and the end of the line. -/
def lineEnd : Scan Unit := do
  blanks
  let _ ← comment?
  if ← newline? then return
  else guard (← Scan.atEnd)

/-- Blanks and line ends. -/
def blankLines : Scan Unit := do
  let _ ← Scan.many (do
    if ← newline? then return some ()
    else
      match ← Scan.chars isBlank with
      | [] => return none
      | _ => return some () : Scan (Option Unit))

/-- Blanks, line ends and comments. -/
def gaps : Scan Unit := do
  let _ ← Scan.many (do
    if ← newline? then return some ()
    else if ← comment? then return some ()
    else
      match ← Scan.chars isBlank with
      | [] => return none
      | _ => return some () : Scan (Option Unit))

end Recast.Toml
