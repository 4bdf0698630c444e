-- Literals of the target language, as `write_literal` prints them.
import Recast.Expr
import Recast.Number.Decimal

namespace Recast.CSharp

/-! ## Texts and characters -/

/-- The text with `new` in the place of every `old`. -/
def replaceChar (old : Char) (new s : String) : String :=
  String.ofList (s.toList.flatMap fun c => if c = old then new.toList else [c])

/-- What is replaced in a string literal, in this order. The backslash comes
first, since what follows brings backslashes of its own. -/
def stringEscapes : List (Char × String) :=
  [('\\', "\\\\"), ('\x22', "\\\x22"), ('\n', "\\n"), ('\r', "\\r"), ('\t', "\\t")]

/-- The text with one replacement made after the other. -/
def replaceAll (table : List (Char × String)) (s : String) : String :=
  table.foldl (fun s (old, new) => replaceChar old new s) s

/-- The text of a string literal, without its quotes (`escape_string`). -/
def escapeString (s : String) : String := replaceAll stringEscapes s

/-- The character of a character literal (`escape_char`). -/
def escapeChar (c : Char) : String :=
  match c with
  | '\\' => "\\\\"
  | '\x27' => "\\'"
  | '\n' => "\\n"
  | '\r' => "\\r"
  | '\t' => "\\t"
  | c => String.ofList [c]

def stringText (s : String) : String := "\x22" ++ escapeString s ++ "\x22"

def charText (c : Char) : String := "'" ++ escapeChar c ++ "'"

/-! ## Literals -/

/-- A whole number with its sign. -/
def intText (n : Int) : String :=
  if n < 0 then "-" ++ Nat.repr n.natAbs else Nat.repr n.natAbs

/-- A number with a point keeps it, so that it stays a double. -/
def literalText : Literal → String
  | .null => "null"
  | .bool true => "true"
  | .bool false => "false"
  | .int n => intText n.toInt
  | .float x => x.text
  | .char c => charText c
  | .string s => stringText s

end Recast.CSharp
