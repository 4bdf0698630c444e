-- Values that are written as one word: numbers, dates, times and truth
-- values. A word is cut out first and then its form is checked.
import Recast.Number.Binary64
import Recast.Text.Split
import Recast.Toml.Basic

namespace Recast.Toml

/-! ## Digits -/

def isDigit (c : Char) : Bool := '0' ≤ c && c ≤ '9'

def digitsValue (base : Nat) (cs : List Char) : Nat :=
  cs.foldl (fun n c =>
    n * base + (if c ≤ '9' then c.toNat - 48 else if c ≤ 'F' then c.toNat - 55 else c.toNat - 87)) 0

/-- Digits, where single underscores may stand between digits. -/
def isGrouped (digit : Char → Bool) (cs : List Char) : Bool :=
  (Text.splitChars '_' cs).all fun part => !part.isEmpty && part.all digit

def ungrouped (cs : List Char) : List Char := cs.filter (· != '_')

/-- A decimal number without a sign. Only zero itself starts with zero. -/
def isWhole (cs : List Char) : Bool :=
  isGrouped isDigit cs && (cs.head? != some '0' || cs.length == 1)

/-- The sign and what follows it. -/
def unsigned : List Char → Bool × List Char
  | '-' :: cs => (true, cs)
  | '+' :: cs => (false, cs)
  | cs => (false, cs)

/-! ## Whole numbers -/

/-- A number that fits into 64 bits. -/
def int64? (n : Int) : Option Toml :=
  if -0x8000000000000000 ≤ n && n < 0x8000000000000000 then some (.int n) else none

def inBase? (base : Nat) (digit : Char → Bool) (cs : List Char) : Option Toml :=
  if isGrouped digit cs then int64? (digitsValue base (ungrouped cs)) else none

def isHexDigit (c : Char) : Bool :=
  isDigit c || ('a' ≤ c && c ≤ 'f') || ('A' ≤ c && c ≤ 'F')

def int? (cs : List Char) : Option Toml :=
  match cs with
  | '0' :: 'x' :: rest => inBase? 16 isHexDigit rest
  | '0' :: 'o' :: rest => inBase? 8 (fun c => '0' ≤ c && c ≤ '7') rest
  | '0' :: 'b' :: rest => inBase? 2 (fun c => c == '0' || c == '1') rest
  | cs =>
    let (negative, digits) := unsigned cs
    if isWhole digits then
      let n : Int := digitsValue 10 (ungrouped digits)
      int64? (if negative then -n else n)
    else none

/-! ## Numbers with a point or an exponent -/

/-- The value of an exponent, if it is one. -/
def exponent? (cs : List Char) : Option Int :=
  let (negative, digits) := unsigned cs
  if isGrouped isDigit digits then
    let n : Int := digitsValue 10 (ungrouped digits)
    some (if negative then -n else n)
  else none

/-- Whether a number is in the range. Only a positive number is ever too
great: a negative one counts as infinite instead. -/
def inRange (negative : Bool) (digits : List Char) (power : Int) : Bool :=
  negative || (Number.Binary64.ofDecimal? false (digitsValue 10 digits) power).isSome

def isFloat (cs : List Char) : Bool :=
  let (negative, cs) := unsigned cs
  if cs == ['i', 'n', 'f'] || cs == ['n', 'a', 'n'] then true
  else
    let mark := fun c => c == 'e' || c == 'E'
    let mantissa := cs.takeWhile (!mark ·)
    let power : Option Int :=
      match cs.dropWhile (!mark ·) with
      | [] => some 0
      | _ :: rest => exponent? rest
    match power, Text.splitChars '.' mantissa with
    | some power, [whole, fraction] =>
      isWhole whole && isGrouped isDigit fraction &&
        inRange negative (ungrouped (whole ++ fraction)) (power - (ungrouped fraction).length)
    | some power, [whole] =>
      mantissa.length < cs.length && isWhole whole && inRange negative (ungrouped whole) power
    | _, _ => false

/-! ## Dates and times -/

/-- The value of exactly so many digits. -/
def fixed? (digits : Nat) (cs : List Char) : Option Nat :=
  if cs.length == digits && cs.all isDigit then some (digitsValue 10 cs) else none

def isLeap (year : Nat) : Bool := year % 4 == 0 && (year % 100 != 0 || year % 400 == 0)

def daysIn (year month : Nat) : Nat :=
  if month == 2 then (if isLeap year then 29 else 28)
  else if month == 4 || month == 6 || month == 9 || month == 11 then 30
  else 31

def isDate (cs : List Char) : Bool :=
  match Text.splitChars '-' cs with
  | [y, m, d] =>
    match fixed? 4 y, fixed? 2 m, fixed? 2 d with
    | some year, some month, some day =>
      1 ≤ month && month ≤ 12 && 1 ≤ day && day ≤ daysIn year month
    | _, _, _ => false
  | _ => false

/-- Seconds, perhaps with a fraction. A leap second counts. -/
def isSeconds (cs : List Char) : Bool :=
  match Text.splitChars '.' cs with
  | [s] => (fixed? 2 s).any (· ≤ 60)
  | [s, fraction] => (fixed? 2 s).any (· ≤ 60) && !fraction.isEmpty && fraction.all isDigit
  | _ => false

def isTime (cs : List Char) : Bool :=
  match Text.splitChars ':' cs with
  | [h, m, s] => (fixed? 2 h).any (· ≤ 23) && (fixed? 2 m).any (· ≤ 59) && isSeconds s
  | _ => false

/-- How far a zone is from the common time. -/
def isOffset (cs : List Char) : Bool :=
  match Text.splitChars ':' cs with
  | [h, m] => (fixed? 2 h).any (· ≤ 23) && (fixed? 2 m).any (· ≤ 59)
  | _ => false

/-- A time of day, perhaps with a zone. -/
def isZonedTime (cs : List Char) : Bool :=
  let time := cs.takeWhile fun c => isDigit c || c == ':' || c == '.'
  match cs.dropWhile fun c => isDigit c || c == ':' || c == '.' with
  | [] => isTime time
  | ['Z'] => isTime time
  | ['z'] => isTime time
  | '+' :: offset => isTime time && isOffset offset
  | '-' :: offset => isTime time && isOffset offset
  | _ => false

/-- A date, a time, or a date and a time with a letter or a blank between
them. -/
def isMoment (cs : List Char) : Bool :=
  isDate cs || isTime cs ||
    (isDate (cs.take 10) &&
      (match cs.drop 10 with
        | 'T' :: time => isZonedTime time
        | 't' :: time => isZonedTime time
        | ' ' :: time => isZonedTime time
        | _ => false))

/-! ## Words -/

/-- A character of a word. -/
def isWordChar (c : Char) : Bool :=
  isDigit c || ('a' ≤ c && c ≤ 'z') || ('A' ≤ c && c ≤ 'Z') ||
    c == '_' || c == '+' || c == '-' || c == '.' || c == ':'

/-- The value that a word writes. -/
def ofWord? (cs : List Char) : Option Toml :=
  if cs == ['t', 'r', 'u', 'e'] then some (.bool true)
  else if cs == ['f', 'a', 'l', 's', 'e'] then some (.bool false)
  else if isMoment cs then some (.moment (String.ofList cs))
  else if isFloat cs then some (.float (String.ofList cs))
  else int? cs

end Recast.Toml
