-- Numbers as decimal text. A whole number is written with all its
-- digits. Any other number is written with the fewest digits that read
-- back as the same number; of those the nearest is taken, and of two
-- that are as near, the greater.
import Recast.Number.Binary64

namespace Recast.Number

/-- The digits of a size and the place of its point: the size is
`0.digits * 10 ^ point`. -/
structure Digits where
  digits : List Char
  point : Int
deriving Repr, DecidableEq

/-! ## The shortest digits -/

namespace Binary64

/-- The real numbers that round to a number of size `s * 2 ^ e` lie
between `(4 * s - below) * 2 ^ (e - 2)` and `(4 * s + 2) * 2 ^ (e - 2)`. -/
def below (x : Binary64) : Nat :=
  if x.fraction = 0 && x.field > 1 then 1 else 2

/-- The ends of that interval as fractions over one denominator. -/
def interval (x : Binary64) : Nat × Nat × Nat :=
  let e := x.exponent - 2
  let low := 4 * x.significand - x.below
  let high := 4 * x.significand + 2
  if 0 ≤ e then (low * Nat.pow 2 e.toNat, high * Nat.pow 2 e.toNat, 1)
  else (low, high, Nat.pow 2 (-e).toNat)

/-- Whether `num / den` reads back as the number. The ends of the
interval do, when the significand is even. -/
def reads (x : Binary64) (num den : Nat) : Bool :=
  let (low, high, scale) := x.interval
  if x.significand % 2 == 0 then low * den ≤ num * scale && num * scale ≤ high * den
  else low * den < num * scale && num * scale < high * den

/-- The count of digits before the point of `num / den`; less than one
if there are zeros after the point first. -/
def pointOf (num den : Nat) : Int :=
  if den ≤ num then ((Nat.toDigits 10 (num / den)).length : Int)
  else 1 - ((Nat.toDigits 10 ((den + num - 1) / num - 1)).length : Int)

/-- `k * 10 ^ power` as a fraction. -/
def scaled (k : Nat) (power : Int) : Nat × Nat :=
  if 0 ≤ power then (k * Nat.pow 10 power.toNat, 1) else (k, Nat.pow 10 (-power).toNat)

/-- The whole number of steps of `10 ^ power` in the size. -/
def stepsBelow (x : Binary64) (power : Int) : Nat :=
  let (num, den) := x.ratio
  if 0 ≤ power then num / (den * Nat.pow 10 power.toNat) else num * Nat.pow 10 (-power).toNat / den

/-- Whether the size is nearer to `k * 10 ^ power` than to the next step. -/
def nearerBelow (x : Binary64) (k : Nat) (power : Int) : Bool :=
  let (num, den) := x.ratio
  let (a, d) := scaled (2 * k + 1) power
  2 * num * d < a * den

/-- A step of `10 ^ power` next to the size that reads back as the number. -/
def hit? (x : Binary64) (power : Int) : Option Nat :=
  let k := x.stepsBelow power
  let reads (k : Nat) : Bool := x.reads (scaled k power).1 (scaled k power).2
  match reads k, reads (k + 1) with
  | true, true => some (if x.nearerBelow k power then k else k + 1)
  | true, false => some k
  | false, true => some (k + 1)
  | false, false => none

/-- The first hit with at most `count` digits, tried from few to many. -/
def shortestFrom (x : Binary64) (point : Int) : Nat → Nat → Nat × Int
  | 0, count => (x.stepsBelow (point - count), point - count)
  | more + 1, count =>
    match x.hit? (point - count) with
    | some k => (k, point - count)
    | none => shortestFrom x point more (count + 1)

/-- The shortest digits of a finite number that is not zero. -/
def shortest (x : Binary64) : Digits :=
  let point := pointOf x.ratio.1 x.ratio.2
  let (k, power) := x.shortestFrom point 17 1
  let all := Nat.toDigits 10 k
  ⟨(all.reverse.dropWhile (· == '0')).reverse, (all.length : Int) + power⟩

end Binary64

/-! ## Text -/

/-- The digits with their point, and never an exponent. -/
def Digits.positional (d : Digits) : String :=
  let count : Int := d.digits.length
  if d.point ≤ 0 then
    "0." ++ String.ofList (List.replicate (-d.point).toNat '0' ++ d.digits)
  else if count ≤ d.point then
    String.ofList (d.digits ++ List.replicate (d.point - count).toNat '0')
  else
    String.ofList (d.digits.take d.point.toNat ++ '.' :: d.digits.drop d.point.toNat)

/-- A number as a literal that keeps its point. -/
def Binary64.text (x : Binary64) : String :=
  let sign := if x.negative then "-" else ""
  if !x.isFinite then (if x.fraction = 0 then sign ++ "inf" else "NaN")
  else if x.isWhole then sign ++ Nat.repr (x.ratio.1 / x.ratio.2) ++ ".0"
  else sign ++ x.shortest.positional

end Recast.Number
