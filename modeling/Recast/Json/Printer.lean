-- JSON values as text: in one line, or with one item to a line.
import Recast.Json.Basic

namespace Recast.Json

/-! ## Texts -/

def hexDigit (n : Nat) : Char := if n < 10 then Char.ofNat (48 + n) else Char.ofNat (87 + n)

/-- A character inside a text. Quotes, backslashes and control
characters are escaped, and nothing else. -/
def escapeChar (c : Char) : List Char :=
  match c with
  | '\x22' => ['\\', '\x22']
  | '\\' => ['\\', '\\']
  | '\x08' => ['\\', 'b']
  | '\x0c' => ['\\', 'f']
  | '\n' => ['\\', 'n']
  | '\r' => ['\\', 'r']
  | '\t' => ['\\', 't']
  | c =>
    if c.toNat < 0x20 then ['\\', 'u', '0', '0', hexDigit (c.toNat / 16), hexDigit (c.toNat % 16)]
    else [c]

def quote (s : String) : String :=
  "\x22" ++ String.ofList (s.toList.flatMap escapeChar) ++ "\x22"

/-! ## One line -/

mutual

/-- The value on one line, without blanks. -/
def print : Json → String
  | .null => "null"
  | .bool true => "true"
  | .bool false => "false"
  | .number lexeme => lexeme
  | .text s => quote s
  | .array items => "[" ++ printItems items ++ "]"
  | .object fields => "\x7b" ++ printFields fields ++ "\x7d"
  | .unreadable => "\x22\\ud800\x22"

def printItems : List Json → String
  | [] => ""
  | [j] => j.print
  | j :: js => j.print ++ "," ++ printItems js

def printFields : List (String × Json) → String
  | [] => ""
  | [(key, j)] => quote key ++ ":" ++ j.print
  | (key, j) :: fields => quote key ++ ":" ++ j.print ++ "," ++ printFields fields

end

/-! ## Many lines -/

/-- The start of a line inside `depth` containers. -/
def newLine (depth : Nat) : String := "\n" ++ String.ofList (List.replicate (2 * depth) ' ')

mutual

/-- The value with each item and field on its own line. -/
def prettyAt (depth : Nat) : Json → String
  | .array [] => "[]"
  | .array (j :: js) => "[" ++ prettyItems (depth + 1) (j :: js) ++ newLine depth ++ "]"
  | .object [] => "\x7b\x7d"
  | .object (f :: fs) => "\x7b" ++ prettyFields (depth + 1) (f :: fs) ++ newLine depth ++ "\x7d"
  | .null => "null"
  | .bool true => "true"
  | .bool false => "false"
  | .number lexeme => lexeme
  | .text s => quote s
  | .unreadable => "\x22\\ud800\x22"

def prettyItems (depth : Nat) : List Json → String
  | [] => ""
  | [j] => newLine depth ++ prettyAt depth j
  | j :: js => newLine depth ++ prettyAt depth j ++ "," ++ prettyItems depth js

def prettyFields (depth : Nat) : List (String × Json) → String
  | [] => ""
  | [(key, j)] => newLine depth ++ quote key ++ ": " ++ prettyAt depth j
  | (key, j) :: fields =>
    newLine depth ++ quote key ++ ": " ++ prettyAt depth j ++ "," ++ prettyFields depth fields

end

def pretty (j : Json) : String := prettyAt 0 j

end Recast.Json
