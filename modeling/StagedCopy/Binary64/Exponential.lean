import StagedCopy.Binary64.Logarithm

/-!
# The exponential of a number in two parts

The exponent is a whole number of steps of a 128th of `ln 2` and a rest. The steps give a power of
two with a fractional exponent, held as a double and the small correction to it, and the
exponential of the rest is a polynomial.

* `exponential` — the exponential of a number that is not negative.
-/

namespace StagedCopy

namespace Binary64

/-- The number of steps in which a power of two is reached from the one below. -/
def stepCount : Nat := 128

/-- The logarithm of a step, in two parts. -/
def lnStep : Parts := split (ln 2 / stepCount)

/-- The double closest to the number of steps in a unit of the exponent. -/
def stepsPerUnit : Rat := nearest (stepCount / ln 2)

/-- The coefficients that follow `1 + r` in the exponential of `r`: close to 1/2, 1/6, 1/24 and
1/120, and chosen so that the largest error over a step is smallest. -/
structure ExpCoefficients where
  c₂ : Rat := double 0x1ffffffffffdbd (-54)
  c₃ : Rat := double 0x1555555555543c (-55)
  c₄ : Rat := double 0x155555cf172b91 (-57)
  c₅ : Rat := double 0x11111167a4d017 (-59)

/-- The exponential of `r`, less one, with a correction added to it. -/
def ExpCoefficients.sum (c : ExpCoefficients) (r correction : Rat) : Rat :=
  let square := mul r r
  mulAdd (mulAdd r c.c₅ c.c₄) (mul square square)
    (mulAdd (mulAdd r c.c₃ c.c₂) square (add r correction))

/-- The exponential of a number that is not negative, as a double. -/
def exponential (x : Parts) : Rat :=
  let steps := (roundToInt (x.high * stepsPerUnit)).toNat
  let r := add (mulAdd steps (-lnStep.low) (mulAdd steps (-lnStep.high) x.high)) x.low
  let root := twoToThe (steps % stepCount) stepCount
  let scale := nearest root
  let growth := ExpCoefficients.sum {} r (nearest (root / scale - 1))
  let result := (scale + scale * growth) * twoPow (steps / stepCount : Nat)
  nearestQuotient result.num.toNat result.den

end Binary64

end StagedCopy
