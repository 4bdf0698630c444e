-- The four kinds of texts: with escapes or without, on one line or on
-- many.
import Recast.Toml.Scan

namespace Recast.Toml

/-! ## Escapes -/

def hexValue? (c : Char) : Option Nat :=
  if '0' ≤ c && c ≤ '9' then some (c.toNat - 48)
  else if 'a' ≤ c && c ≤ 'f' then some (c.toNat - 87)
  else if 'A' ≤ c && c ≤ 'F' then some (c.toNat - 55)
  else none

/-- A number of so many hexadecimal digits. -/
def hexNumber : Nat → Nat → Scan Nat
  | 0, value => return value
  | digits + 1, value => do
    let digit ← (hexValue? (← Scan.next) : Option Nat)
    hexNumber digits (value * 16 + digit)

/-- The character with a code, if there is one. -/
def charOfCode (code : Nat) : Scan Char :=
  if code.isValidChar then return Char.ofNat code else failure

/-- What follows a backslash. -/
def escape : Scan Char := do
  match ← Scan.next with
  | 'b' => return '\x08'
  | 't' => return '\t'
  | 'n' => return '\n'
  | 'f' => return '\x0c'
  | 'r' => return '\r'
  | '\x22' => return '\x22'
  | '\\' => return '\\'
  | 'u' => charOfCode (← hexNumber 4 0)
  | 'U' => charOfCode (← hexNumber 8 0)
  | _ => failure

/-! ## One line -/

/-- A text in double quotes, after the first quote. -/
def quotedText : Scan String := do
  let cs ← Scan.many (do
    match ← Scan.next with
    | '\x22' => return none
    | '\\' => return some (← escape)
    | c => if isPlain c then return some c else failure : Scan (Option Char))
  return String.ofList cs

/-- A text in single quotes, after the first quote. -/
def literalText : Scan String := do
  let cs ← Scan.many (do
    match ← Scan.next with
    | '\x27' => return none
    | c => if isPlain c then return some c else failure : Scan (Option Char))
  return String.ofList cs

/-! ## Many lines -/

/-- A backslash before the end of a line joins it with the next text. -/
def lineJoin? : Scan Bool := fun cs =>
  match (do blanks; newline? : Scan Bool) cs with
  | some (true, rest) => (do blankLines; return true : Scan Bool) rest
  | _ => some (false, cs)

/-- One piece of a text with escapes over many lines. -/
def quotedPiece : Scan (List Char) := do
  if ← newline? then return ['\n']
  else
    match ← Scan.next with
    | '\\' => if ← lineJoin? then return [] else return [← escape]
    | c => if isPlain c then return [c] else failure

/-- One piece of a text without escapes over many lines. -/
def literalPiece : Scan (List Char) := do
  if ← newline? then return ['\n']
  else
    let c ← Scan.next
    if isPlain c then return [c] else failure

/-- A text over many lines, after its three quotes. A line end right
after them does not count, and up to two quotes may stand before the
three at the end. -/
def longText (quote : Char) (piece : Scan (List Char)) : Scan String := do
  let _ ← newline?
  let close := String.ofList [quote, quote, quote]
  let pieces ← Scan.many (do
    if ← Scan.sees close then return none else return some (← piece) : Scan (Option (List Char)))
  let quotes ← Scan.chars (· == quote)
  if quotes.length ≤ 5 then return String.ofList (pieces.flatten ++ quotes.drop 3) else failure

/-- A text of any kind, if a quote comes next. -/
def text? : Scan (Option String) := do
  if ← Scan.skip "\x22\x22\x22" then return some (← longText '\x22' quotedPiece)
  else if ← Scan.skip "\x22" then return some (← quotedText)
  else if ← Scan.skip "'''" then return some (← longText '\x27' literalPiece)
  else if ← Scan.skip "'" then return some (← literalText)
  else return none

end Recast.Toml
