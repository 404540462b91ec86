import StagedCopy.Bytes

/-!
# Binary64 numbers

A double-precision number is held as the rational number that it is, so arithmetic is exact and
only `nearest` rounds. Every quantity of the program that passes through a double is finite and
far above the subnormal range, and a value that would overflow is only ever compared with smaller
ones, so `nearest` leaves the exponent unbounded above.

* `nearest` — the closest double; a tie goes to the even significand.
* `toInt64` — conversion to a signed 64-bit integer: truncation, with one value for everything
  that does not fit.
* `bits`, `ofBits` — the interchange encoding of a non-negative double.
* `oneDecimal` — the numeral with one digit after the point; a tie goes to the even digit.
-/

namespace StagedCopy

/-! ## Quotients rounded to integers -/

/-- The quotient `n / d` rounded to the nearest integer, a tie going to the even one. -/
def roundHalfEven (n d : Nat) : Nat :=
  let q := n / d
  let r := n % d
  if 2 * r < d then q else if d < 2 * r then q + 1 else q + q % 2

/-- The integer closest to a rational number, a tie going to the even one. -/
def roundToInt (q : Rat) : Int :=
  if q < 0 then -roundHalfEven q.num.natAbs q.den else roundHalfEven q.num.natAbs q.den

namespace Binary64

/-! ## Rounding -/

/-- The first of the 53 binary digits of a significand, which its encoding leaves out. -/
def hiddenBit : Nat := 1 <<< 52

/-- The power of two with the given integer exponent. -/
def twoPow (e : Int) : Rat :=
  if 0 ≤ e then (1 <<< e.toNat : Nat) else 1 / ((1 <<< (-e).toNat : Nat) : Rat)

/-- The quotient `n / d` over `2 ^ e`, as a numerator and a denominator. -/
def overTwoPow (n d : Nat) (e : Int) : Nat × Nat :=
  if 0 ≤ e then (n, d <<< e.toNat) else (n <<< (-e).toNat, d)

/-- The exponent of the unit in the last place of `n / d`: the quotient over `2 ^ e` has 53 binary
digits, or fewer at the exponent `-1074`, below which the format has none. -/
def unitExponent (n d : Nat) : Int :=
  let e := (n.log2 : Int) - d.log2 - 52
  let scaled := overTwoPow n d e
  max (if scaled.1 < scaled.2 * hiddenBit then e - 1 else e) (-1074)

/-- The double closest to the non-negative quotient `n / d`, a tie going to the even
significand. -/
def nearestQuotient (n d : Nat) : Rat :=
  if n = 0 then 0 else
    let e := unitExponent n d
    let scaled := overTwoPow n d e
    (roundHalfEven scaled.1 scaled.2 : Rat) * twoPow e

/-- The double closest to a rational number, a tie going to the even significand. -/
def nearest (q : Rat) : Rat :=
  if q < 0 then -nearestQuotient q.num.natAbs q.den else nearestQuotient q.num.natAbs q.den

/-- The double closest to a natural number. -/
def ofNat (n : Nat) : Rat := nearestQuotient n 1

/-- The double closest to an integer. -/
def ofInt (n : Int) : Rat := nearest n

/-! ## Arithmetic on doubles -/

/-- The rounded sum. -/
def add (x y : Rat) : Rat := nearest (x + y)

/-- The rounded product. -/
def mul (x y : Rat) : Rat := nearest (x * y)

/-- A product and a sum rounded once. -/
def mulAdd (x y z : Rat) : Rat := nearest (x * y + z)

/-- The rounded quotient. -/
def div (x y : Rat) : Rat := nearest (x / y)

/-- The rounded difference. -/
def sub (x y : Rat) : Rat := nearest (x - y)

/-- The smallest magnitude that the format cannot hold: a value is out of range when it rounds to
this or beyond. -/
def limit : Rat := (1 <<< 1024 : Nat)

/-! ## Conversions -/

/-- The integer part, towards zero. -/
def truncate (q : Rat) : Int := Int.tdiv q.num q.den

/-- Conversion to a signed 64-bit integer: the integer part, or `-2 ^ 63` when it does not fit. -/
def toInt64 (q : Rat) : Int :=
  let t := truncate q
  if -0x8000000000000000 ≤ t ∧ t < 0x8000000000000000 then t else -0x8000000000000000

/-- The interchange encoding of a non-negative double. -/
def bits (q : Rat) : Nat :=
  if q = 0 then 0 else
    let e := unitExponent q.num.natAbs q.den
    let scaled := overTwoPow q.num.natAbs q.den e
    let m := scaled.1 / scaled.2
    if m < hiddenBit then m
    else if 972 ≤ e then 2047 * hiddenBit
    else (e + 1075).toNat * hiddenBit + (m - hiddenBit)

/-- The number with a given interchange encoding, of the normal range and without a sign. -/
def ofBits (encoding : Nat) : Rat :=
  (hiddenBit + encoding % hiddenBit : Nat) * twoPow ((encoding / hiddenBit : Nat) - 1075)

/-- The numeral of a non-negative number with exactly one digit after the point, rounded to the
nearest tenth, a tie going to the even digit. -/
def oneDecimal (q : Rat) : Bytes :=
  let tenths := roundHalfEven (q.num.natAbs * 10) q.den
  decimal (tenths / 10) ++ [ascii '.'] ++ decimal (tenths % 10)

end Binary64

end StagedCopy
