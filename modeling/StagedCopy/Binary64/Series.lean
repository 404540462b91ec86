import StagedCopy.Binary64

/-!
# Logarithms and powers of two to many digits

Sums of power series in fixed-point arithmetic. A sum is held in units of `2 ^ (-192)`, which is
more than three times what a double holds, and enough terms are taken that those left out do not
reach a unit.

* `ln` — the natural logarithm of a quotient between a half and two.
* `twoToThe` — a power of two with a fractional exponent.
* `Parts`, `split` — a number as a short multiple of a small power of two and a double.
-/

namespace StagedCopy

namespace Binary64

/-! ## Series -/

/-- The unit in which sums are held is two to the minus this. -/
def seriesDigits : Nat := 192

/-- One in units. -/
def seriesOne : Nat := 1 <<< seriesDigits

/-- The number of terms that are summed. -/
def seriesTerms : Nat := 64

/-- The sum of the first terms of `p / k + p q / (k + 2) + p q ^ 2 / (k + 4) + …`, where `q` is the
quotient `n / d` and `p` is in units. -/
def oddTerms (n d : Nat) : Nat → Int → Nat → Int
  | 0, _, _ => 0
  | count + 1, p, k => p / k + oddTerms n d count (p * n / d) (k + 2)

/-- The natural logarithm of `a / b` in units: twice the inverse hyperbolic tangent of the quotient
of the difference and the sum. -/
def lnUnits (a b : Nat) : Int :=
  let difference : Int := a - b
  2 * oddTerms (difference.natAbs * difference.natAbs) ((a + b) * (a + b)) seriesTerms
    (difference * seriesOne / (a + b : Nat)) 1

/-- The sum of the first terms of `p + p x / k + p x ^ 2 / (k (k + 1)) + …`, where `p` and `x` are
in units. -/
def factorialTerms (x : Nat) : Nat → Nat → Nat → Nat
  | 0, _, _ => 0
  | count + 1, p, k => p + factorialTerms x count (p * x / (k * seriesOne)) (k + 1)

/-- The natural logarithm of a number between a half and two. -/
def ln (q : Rat) : Rat := mkRat (lnUnits q.num.natAbs q.den) seriesOne

/-- Two to the power `i / d`, for an exponent between zero and one. -/
def twoToThe (i d : Nat) : Rat :=
  mkRat (factorialTerms ((lnUnits 2 1).toNat * i / d) seriesTerms seriesOne 1) seriesOne

/-! ## Numbers in two parts -/

/-- A number as the sum of a double and a much smaller one. -/
structure Parts where
  high : Rat
  low : Rat

/-- The binary digits after the point of the high part of a number that is split. Few enough that
sums of such parts and their multiples by exponents are exact. -/
def highDigits : Nat := 43

/-- A number as the multiple of `2 ^ (-43)` closest to it and the double closest to the rest. -/
def split (q : Rat) : Parts :=
  let high := mkRat (roundToInt (q * (1 <<< highDigits : Nat))) (1 <<< highDigits)
  ⟨high, nearest (q - high)⟩

/-- The natural logarithm of two in two parts. -/
def lnTwo : Parts := split (ln 2)

end Binary64

end StagedCopy
