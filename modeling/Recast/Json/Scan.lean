-- The tokens of a JSON text. The scanner takes one character at a time
-- and keeps what it is in the middle of, so it reads a text of any
-- length in one pass.
import Recast.Json.Basic
import Recast.Json.Lexeme

namespace Recast.Json

inductive Token
  | openBrace | closeBrace | openBracket | closeBracket | colon | comma
  | null
  | bool (b : Bool)
  | number (lexeme : String)
  /-- A text, or `none` if it holds half of a surrogate pair. -/
  | text (s : Option String)
deriving Repr, DecidableEq

/-! ## Texts -/

/-- A piece of a text: a character, or a code unit given by an escape. -/
inductive Piece
  | char (c : Char)
  | code (unit : Nat)
deriving Repr, DecidableEq

def isHighSurrogate (n : Nat) : Bool := 0xD800 ≤ n && n < 0xDC00

def isLowSurrogate (n : Nat) : Bool := 0xDC00 ≤ n && n < 0xE000

/-- The characters of the pieces. Two code units that are the halves of
a pair give one character; a half that stands alone gives none. -/
def charsOf : List Piece → Option (List Char)
  | [] => some []
  | .char c :: rest => (charsOf rest).map (c :: ·)
  | .code hi :: .code lo :: rest =>
    if isHighSurrogate hi && isLowSurrogate lo then
      (charsOf rest).map (Char.ofNat (0x10000 + (hi - 0xD800) * 0x400 + (lo - 0xDC00)) :: ·)
    else if isHighSurrogate hi || isLowSurrogate hi then none
    else (charsOf (.code lo :: rest)).map (Char.ofNat hi :: ·)
  | .code n :: rest =>
    if isHighSurrogate n || isLowSurrogate n then none
    else (charsOf rest).map (Char.ofNat n :: ·)

/-- The character that a backslash and `c` write. -/
def escaped? (c : Char) : Option Char :=
  match c with
  | '\x22' => some '\x22'
  | '\\' => some '\\'
  | '/' => some '/'
  | 'b' => some '\x08'
  | 'f' => some '\x0c'
  | 'n' => some '\n'
  | 'r' => some '\r'
  | 't' => some '\t'
  | _ => none

def hexValue? (c : Char) : Option Nat :=
  if c.isDigit then some (c.toNat - 48)
  else if 'a' ≤ c && c ≤ 'f' then some (c.toNat - 87)
  else if 'A' ≤ c && c ≤ 'F' then some (c.toNat - 55)
  else none

/-! ## The scanner -/

/-- What the scanner is in the middle of. Rows of characters and pieces
are kept with the newest first. -/
inductive Mode
  | between
  | word (sofar : List Char)
  | number (sofar : List Char)
  | text (sofar : List Piece)
  | escape (sofar : List Piece)
  | code (sofar : List Piece) (digits : Nat) (value : Nat)
deriving Repr, DecidableEq

/-- The tokens so far, the newest first, and the mode. -/
structure Scan where
  tokens : List Token
  mode : Mode
deriving Repr, DecidableEq

namespace Scan

def start : Scan := ⟨[], .between⟩

def isBlank (c : Char) : Bool := c == ' ' || c == '\t' || c == '\n' || c == '\r'

def wordToken? (sofar : List Char) : Option Token :=
  match String.ofList sofar.reverse with
  | "null" => some .null
  | "true" => some (.bool true)
  | "false" => some (.bool false)
  | _ => none

def numberToken? (sofar : List Char) : Option Token :=
  if isNumber sofar.reverse then some (.number (String.ofList sofar.reverse)) else none

/-- The mode or the token that a character between two tokens starts. -/
def fresh (tokens : List Token) (c : Char) : Option Scan :=
  if isBlank c then some ⟨tokens, .between⟩
  else if c.isDigit || c == '-' then some ⟨tokens, .number [c]⟩
  else if c.isAlpha then some ⟨tokens, .word [c]⟩
  else
    match c with
    | '\x22' => some ⟨tokens, .text []⟩
    | '\x7b' => some ⟨.openBrace :: tokens, .between⟩
    | '\x7d' => some ⟨.closeBrace :: tokens, .between⟩
    | '[' => some ⟨.openBracket :: tokens, .between⟩
    | ']' => some ⟨.closeBracket :: tokens, .between⟩
    | ':' => some ⟨.colon :: tokens, .between⟩
    | ',' => some ⟨.comma :: tokens, .between⟩
    | _ => none

def inNumber (c : Char) : Bool :=
  c.isDigit || c == '+' || c == '-' || c == '.' || c == 'e' || c == 'E'

/-- One more character. A word or a number ends at the first character
that cannot be part of it. Control characters may not stand in a text. -/
def push (s : Scan) (c : Char) : Option Scan :=
  match s.mode with
  | .between => fresh s.tokens c
  | .word sofar =>
    if c.isAlpha then some ⟨s.tokens, .word (c :: sofar)⟩
    else (wordToken? sofar).bind fun t => fresh (t :: s.tokens) c
  | .number sofar =>
    if inNumber c then some ⟨s.tokens, .number (c :: sofar)⟩
    else (numberToken? sofar).bind fun t => fresh (t :: s.tokens) c
  | .text sofar =>
    if c == '\x22' then
      some ⟨.text ((charsOf sofar.reverse).map String.ofList) :: s.tokens, .between⟩
    else if c == '\\' then some ⟨s.tokens, .escape sofar⟩
    else if c.toNat < 0x20 then none
    else some ⟨s.tokens, .text (.char c :: sofar)⟩
  | .escape sofar =>
    if c == 'u' then some ⟨s.tokens, .code sofar 0 0⟩
    else (escaped? c).map fun e => ⟨s.tokens, .text (.char e :: sofar)⟩
  | .code sofar digits value =>
    (hexValue? c).map fun v =>
      let value := 16 * value + v
      if digits = 3 then ⟨s.tokens, .text (.code value :: sofar)⟩
      else ⟨s.tokens, .code sofar (digits + 1) value⟩

/-- The end of the input. Only a word or a number may end there. -/
def finish (s : Scan) : Option (List Token) :=
  match s.mode with
  | .between => some s.tokens.reverse
  | .word sofar => (wordToken? sofar).map fun t => (t :: s.tokens).reverse
  | .number sofar => (numberToken? sofar).map fun t => (t :: s.tokens).reverse
  | _ => none

end Scan

/-- The tokens of a text. -/
def tokens? (s : String) : Option (List Token) :=
  (s.toList.foldlM Scan.push Scan.start).bind Scan.finish

end Recast.Json
