import SlideDeck.Text.Basic

/-!
# Double-precision numbers

A finite double is a whole number times a power of two; all steps are exact arithmetic on whole
numbers. `Double.nearest` rounds a decimal to the nearest double, a tie going to the even neighbour.
`Double.shortest` finds the fewest decimal digits that `nearest` reads back as the same double, and
of these the digits nearest to it.

`Double.render` writes these digits with a point where the first digit's exponent lies between -4
and 15, and with an exponent of at least two digits elsewhere.
-/

namespace SlideDeck

/-- A double-precision number; a finite one is `mantissa * 2 ^ exponent`. -/
inductive Double where
  | finite (negative : Bool) (mantissa : Nat) (exponent : Int)
  | infinite (negative : Bool)
  | nan
  deriving DecidableEq, Repr

namespace Double

/-- The quotient rounded to the nearest whole number, a half going to the even neighbour. -/
def roundQuotient (num den : Nat) : Nat :=
  let q := num / den
  let r := num % den
  if 2 * r < den then q else if den < 2 * r then q + 1 else if q % 2 = 0 then q else q + 1

/-- A positive fraction times a power, moved into numerator and denominator. -/
def scaled (base : Nat) (num den : Nat) (power : Int) : Nat × Nat :=
  if 0 ≤ power then (num * Nat.pow base power.toNat, den)
    else (num, den * Nat.pow base (-power).toNat)

/-- The smallest exponent of a double. -/
def minExponent : Int := -1074

/-- The largest exponent of a double. -/
def maxExponent : Int := 971

/-- The exponent at which the fraction `num / den` has a mantissa of 53 bits, or the smallest
exponent. -/
def exponentFor (num den : Nat) : Int :=
  let guess : Int := (num.log2 : Int) - den.log2 - 52
  let (n, d) := scaled 2 num den (-guess)
  let exact := if n < d * Nat.pow 2 52 then guess - 1 else if d * Nat.pow 2 53 ≤ n then guess + 1
      else guess
  max exact minExponent

/-- The double nearest to the positive fraction `num / den`. -/
def ofFraction (negative : Bool) (num den : Nat) : Double :=
  let exponent := exponentFor num den
  let (n, d) := scaled 2 num den (-exponent)
  let mantissa := roundQuotient n d
  let (mantissa, exponent) :=
    if mantissa = Nat.pow 2 53 then (Nat.pow 2 52, exponent + 1) else (mantissa, exponent)
  if maxExponent < exponent then .infinite negative else .finite negative mantissa exponent

/-- The double nearest to `digits * 10 ^ power`. -/
def nearest (negative : Bool) (digits : Nat) (power : Int) : Double :=
  let magnitude : Int := power + (Nat.toDigits 10 digits).length
  if digits = 0 ∨ magnitude < -330 then .finite negative 0 0
  else if 320 < magnitude then .infinite negative
  else
    let (num, den) := scaled 10 digits 1 power
    ofFraction negative num den

/-- The exponent of the first decimal digit of the positive fraction `num / den`. -/
def decimalExponent (num den : Nat) : Int :=
  if den ≤ num then ((Nat.toDigits 10 (num / den)).length : Int) - 1
  else
    let places := (Nat.toDigits 10 (den / num)).length
    if den ≤ num * Nat.pow 10 (places - 1) then -((places : Int) - 1) else -(places : Int)

/-- A positive double with the bounds between which decimals are read as it, all four times over;
the bounds themselves belong to it if its mantissa is even. -/
structure Interval where
  low : Nat
  mid : Nat
  high : Nat
  den : Nat
  closed : Bool

/-- The interval of the double `mantissa * 2 ^ exponent`. -/
def interval (mantissa : Nat) (exponent : Int) : Interval :=
  let lowGap := if mantissa = Nat.pow 2 52 ∧ minExponent < exponent then 1 else 2
  let up (n : Nat) : Nat := (scaled 2 n 4 exponent).1
  ⟨up (4 * mantissa - lowGap), up (4 * mantissa), up (4 * mantissa + 2), (scaled 2 1 4 exponent).2,
    mantissa % 2 = 0⟩

/-- Whether `digits * 10 ^ power` lies in the interval. -/
def Interval.holds (i : Interval) (digits : Nat) (power : Int) : Bool :=
  let (n, d) := scaled 10 digits 1 power
  let below := n * i.den
  if i.closed then i.low * d ≤ below && below ≤ i.high * d
  else i.low * d < below && below < i.high * d

/-- The decimal of the grid `10 ^ power` nearest to the middle of the interval that lies in the
interval. -/
def Interval.onGrid? (i : Interval) (power : Int) : Option Nat :=
  let (n, d) := scaled 10 i.mid i.den (-power)
  let best := roundQuotient n d
  let other := if best * d ≤ n then best + 1 else best - 1
  if i.holds best power then some best
  else if 0 < other && i.holds other power then some other
  else none

/-- The first grid with a decimal in the interval, from the coarsest on: the decimal and the grid's
power. -/
def Interval.search (i : Interval) (power : Int) : Nat → Nat × Int
  | 0 => (i.mid / i.den, 0)
  | fuel + 1 =>
    match i.onGrid? power with
    | some digits => (digits, power)
    | none => i.search (power - 1) fuel

/-- The shortest decimal that is read as the double `mantissa * 2 ^ exponent`, as digits and a power
of ten. -/
def shortest (mantissa : Nat) (exponent : Int) : Nat × Int :=
  let i := interval mantissa exponent
  i.search (decimalExponent i.mid i.den + 1) 19

/-- Digits without the zeros at their end, and how many those are. -/
def dropZeros (digits : Text) : Text × Nat :=
  let kept := (digits.reverse.dropWhile (· = '0')).reverse
  (kept, digits.length - kept.length)

/-- The text of the decimal `digits * 10 ^ power`. -/
def renderDecimal (digits : Nat) (power : Int) : Text :=
  let (ds, zeros) := dropZeros (Nat.toDigits 10 digits)
  let first : Int := power + zeros + ds.length - 1
  if first < -4 ∨ 16 ≤ first then
    let mantissa := match ds with
      | d :: e :: r => d :: '.' :: e :: r
      | r => r
    let exponent := Nat.toDigits 10 first.natAbs
    let padded := if exponent.length < 2 then '0' :: exponent else exponent
    mantissa ++ 'e' :: (if first < 0 then '-' else '+') :: padded
  else if first < 0 then
    '0' :: '.' :: List.replicate (-first - 1).toNat '0' ++ ds
  else
    let whole := first.toNat + 1
    let ds := ds ++ List.replicate (whole - ds.length) '0'
    let fraction := ds.drop whole
    ds.take whole ++ '.' :: (if fraction = [] then ['0'] else fraction)

/-- The text of a double. -/
def render : Double → Text
  | .nan => "NaN".toList
  | .infinite false => "Infinity".toList
  | .infinite true => "-Infinity".toList
  | .finite negative mantissa exponent =>
    let magnitude := if mantissa = 0 then "0.0".toList
      else
        let (digits, power) := shortest mantissa exponent
        renderDecimal digits power
    if negative then '-' :: magnitude else magnitude

end Double

end SlideDeck
