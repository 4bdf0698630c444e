-- Double precision numbers, by their bits. Each step rounds to the nearest
-- number, a half to the even one, and is done on whole numbers: reading a
-- decimal in one step, and multiplying and dividing.

namespace Recast.Number

/-- A double precision number in its interchange form. -/
structure Binary64 where
  bits : UInt64
deriving Repr, DecidableEq, Inhabited

namespace Binary64

/-! ## The parts of a number -/

def negative (x : Binary64) : Bool := x.bits.toNat / Nat.pow 2 63 == 1

/-- The exponent field. -/
def field (x : Binary64) : Nat := x.bits.toNat / Nat.pow 2 52 % Nat.pow 2 11

/-- The fraction field. -/
def fraction (x : Binary64) : Nat := x.bits.toNat % Nat.pow 2 52

def isFinite (x : Binary64) : Bool := x.field != 0x7ff

/-- The size of a finite number is `significand * 2 ^ exponent`. -/
def significand (x : Binary64) : Nat :=
  if x.field = 0 then x.fraction else x.fraction + Nat.pow 2 52

def exponent (x : Binary64) : Int :=
  if x.field = 0 then -1074 else (x.field : Int) - 1075

/-- The size as a fraction of whole numbers. -/
def ratio (x : Binary64) : Nat × Nat :=
  if 0 ≤ x.exponent then (x.significand * Nat.pow 2 x.exponent.toNat, 1)
  else (x.significand, Nat.pow 2 (-x.exponent).toNat)

/-- Whether the number is finite and has no part behind the point. -/
def isWhole (x : Binary64) : Bool := x.isFinite && x.ratio.1 % x.ratio.2 == 0

/-! ## Rounding -/

/-- The whole number nearest to `num / den`, a half to the even one. -/
def roundHalfEven (num den : Nat) : Nat :=
  let q := num / den
  let r := num % den
  if 2 * r < den then q
  else if 2 * r > den then q + 1
  else q + q % 2

/-- The exponent that gives `num / den` a significand of 53 bits, but
never less than the least exponent. -/
def exponentFor (num den : Nat) : Int :=
  let guess : Int := (Nat.log2 num : Int) - (Nat.log2 den : Int) - 52
  let fits (q : Int) : Bool :=
    if 0 ≤ q then Nat.pow 2 52 * (den * Nat.pow 2 q.toNat) ≤ num
    else Nat.pow 2 52 * den ≤ num * Nat.pow 2 (-q).toNat
  max (-1074) (if fits guess then guess else guess - 1)

/-- The bits, without a sign, of the number nearest to `num / den`. A
significand that is rounded up to a power of two moves to the next
exponent by the carry. The result may be too great for a finite number. -/
def nearestBits (num den : Nat) : Nat :=
  let q := exponentFor num den
  let m :=
    if 0 ≤ q then roundHalfEven num (den * Nat.pow 2 q.toNat)
    else roundHalfEven (num * Nat.pow 2 (-q).toNat) den
  (q + 1074).toNat * Nat.pow 2 52 + m

/-! ## Products and quotients -/

def zero : Binary64 := ⟨0⟩

/-- The positive number nearest to `num / den`, which is infinite if that is too
great. -/
def ofRatio (num den : Nat) : Binary64 :=
  if num = 0 then zero
  else ⟨UInt64.ofNat (min (nearestBits num den) (0x7ff * Nat.pow 2 52))⟩

/-- The power of ten, rounded. -/
def tenTo (power : Nat) : Binary64 := ofRatio (Nat.pow 10 power) 1

/-- The product of the sizes of two finite numbers, rounded. -/
def product (x y : Binary64) : Binary64 := ofRatio (x.ratio.1 * y.ratio.1) (x.ratio.2 * y.ratio.2)

/-- The quotient of the sizes of two finite numbers, rounded. -/
def quotient (x y : Binary64) : Binary64 := ofRatio (x.ratio.1 * y.ratio.2) (x.ratio.2 * y.ratio.1)

def withSign (x : Binary64) (negative : Bool) : Binary64 :=
  ⟨if negative then x.bits ||| 0x8000000000000000 else x.bits⟩

/-! ## Reading a decimal -/

/-- The bits, without a sign, of the number nearest to
`digits * 10 ^ power`. Powers far out of the range are not raised. -/
def decimalBits (digits : Nat) (power : Int) : Nat :=
  let places : Int := (Nat.toDigits 10 digits).length
  if digits = 0 || places + power < -330 then 0
  else if places + power > 320 then 0x7ff * Nat.pow 2 52
  else if 0 ≤ power then nearestBits (digits * Nat.pow 10 power.toNat) 1
  else nearestBits digits (Nat.pow 10 (-power).toNat)

/-- The number nearest to `digits * 10 ^ power`, with a sign. `none` if
that is not finite. -/
def ofDecimal? (negative : Bool) (digits : Nat) (power : Int) : Option Binary64 :=
  let size := decimalBits digits power
  if size < 0x7ff * Nat.pow 2 52 then
    some ⟨UInt64.ofNat (size + if negative then Nat.pow 2 63 else 0)⟩
  else none

end Binary64

end Recast.Number
