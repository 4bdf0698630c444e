-- Numbers as JSON writes them, and what they mean.
import Recast.Number.Binary64

namespace Recast.Json

/-! ## The form of a number -/

/-- The value of a decimal digit. -/
def digitValue (c : Char) : Nat := c.toNat - 48

/-- The number that a row of decimal digits writes. -/
def natOfDigits (cs : List Char) : Nat := cs.foldl (fun n c => 10 * n + digitValue c) 0

/-- Nothing more, or an exponent. -/
def isExponent : List Char → Bool
  | [] => true
  | c :: cs =>
    let digits :=
      match cs with
      | '+' :: ds => ds
      | '-' :: ds => ds
      | ds => ds
    (c == 'e' || c == 'E') && !digits.isEmpty && digits.all Char.isDigit

/-- What may follow the whole digits of a number. -/
def isTail : List Char → Bool
  | '.' :: c :: cs => c.isDigit && isExponent (cs.dropWhile Char.isDigit)
  | cs => isExponent cs

/-- A number without a sign. The first digit is a zero only if it is the
only whole digit. -/
def isUnsigned : List Char → Bool
  | '0' :: cs => isTail cs
  | c :: cs => c.isDigit && isTail (cs.dropWhile Char.isDigit)
  | [] => false

def isNumber : List Char → Bool
  | '-' :: cs => isUnsigned cs
  | cs => isUnsigned cs

/-! ## The value of a number -/

/-- The parts of a number: its sign, the digits before and after the
point, and its exponent. -/
structure Parts where
  negative : Bool
  whole : List Char
  fraction : List Char
  exponent : Int
  /-- Written with neither point nor exponent. -/
  plain : Bool
deriving Repr, DecidableEq

/-- The value of an exponent, its mark included. -/
def exponentValue : List Char → Int
  | _ :: '-' :: cs => -(natOfDigits cs : Int)
  | _ :: '+' :: cs => natOfDigits cs
  | _ :: cs => natOfDigits cs
  | [] => 0

/-- The parts of a well formed number. -/
def partsOf (lexeme : String) : Parts :=
  let (negative, cs) :=
    match lexeme.toList with
    | '-' :: cs => (true, cs)
    | cs => (false, cs)
  let whole := cs.takeWhile Char.isDigit
  let rest := cs.dropWhile Char.isDigit
  match rest with
  | '.' :: ds =>
    ⟨negative, whole, ds.takeWhile Char.isDigit, exponentValue (ds.dropWhile Char.isDigit), false⟩
  | ds => ⟨negative, whole, [], exponentValue ds, ds.isEmpty⟩

/-- The whole number that a lexeme writes. A point, an exponent or a
negative zero makes it a fraction, also if the value is whole. -/
def intOf? (lexeme : String) : Option Int :=
  let p := partsOf lexeme
  let n := natOfDigits p.whole
  if !p.plain then none
  else if p.negative then (if n = 0 then none else some (-(n : Int)))
  else some n

/-! ## The value as a double -/

/-- Takes digits behind a number as long as it fits into 64 bits. Gives the
number and the digits that are left. -/
def fitted (n : Nat) : List Char → Nat × List Char
  | [] => (n, [])
  | c :: cs =>
    if 10 * n + digitValue c < 0x10000000000000000 then fitted (10 * n + digitValue c) cs
    else (n, c :: cs)

/-- The greatest power of ten that is finite. -/
def greatestPower : Nat := 308

/-- The number over a power of ten, in steps of powers that are finite. -/
def overTens (x : Number.Binary64) (power : Nat) : Number.Binary64 :=
  if power ≤ greatestPower then x.quotient (.tenTo power)
  else if x = .zero then x
  else overTens (x.quotient (.tenTo greatestPower)) (power - greatestPower)
termination_by power
decreasing_by
  unfold greatestPower at *
  omega

/-- The number times a power of ten, unless it is too great. -/
def scaled? (x : Number.Binary64) (power : Int) : Option Number.Binary64 :=
  if power < 0 then some (overTens x power.natAbs)
  else if power.toNat ≤ greatestPower then
    (some (x.product (.tenTo power.toNat))).filter Number.Binary64.isFinite
  else if x = .zero then some x
  else none

/-- The double that a number is read as (`f64_from_parts`): its first digits, as far
as they fit into 64 bits, times a power of ten. Both are rounded and so is the
product, so it is not always the nearest double. -/
def floatOf? (lexeme : String) : Option Number.Binary64 :=
  let p := partsOf lexeme
  let (n, wholeLeft) := fitted 0 p.whole
  let (n, fractionLeft) := fitted n p.fraction
  let taken : Int := p.fraction.length - fractionLeft.length
  (scaled? (.ofRatio n 1) (wholeLeft.length - taken + p.exponent)).map (·.withSign p.negative)

end Recast.Json
