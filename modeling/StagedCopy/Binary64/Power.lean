import StagedCopy.Binary64.Exponential

/-!
# Powers of a double

The power of a double of at least one to a natural exponent is the exponential of the multiple of
the logarithm. All of it is done in double precision, with the logarithm and its multiple in two
parts, so the result is one of the two doubles next to the power, and almost always the closer.
-/

namespace StagedCopy

namespace Binary64

/-- The multiple of a number in two parts. -/
def Parts.times (k : Nat) (x : Parts) : Parts :=
  let high := mul k x.high
  ⟨high, mulAdd k x.low (mulAdd k x.high (-high))⟩

/-- The logarithm from which on a power is certainly out of range. -/
def tooLarge : Rat := 1024

/-- The power of a double of at least one, as a double; everything out of range counts as
`2 ^ 1024`. -/
def power (x : Rat) (k : Nat) : Rat :=
  if k = 0 then 1
  else
    let exponent := (logarithm x).times k
    if tooLarge ≤ exponent.high then limit
    else
      let result := exponential exponent
      if limit ≤ result then limit else result

end Binary64

end StagedCopy
