import StagedCopy.Binary64.Series

/-!
# The logarithm of a double

A double is `2 ^ k * z` with `z` in an octave around one, and `z` is close to the middle of one of
the 128 pieces of the octave. With a short number `c` close to the inverse of the middle, `z * c` is
close to one, and the logarithm is `k ln 2 - ln c + ln (z * c)`. The last is a polynomial in
`r = z * c - 1`. The sum is carried in two doubles, and what each rounding of the first loses goes
into the second.

* `octaveIndex`, `inverseOf` — the piece of a double, and the short number for it.
* `logarithm` — the logarithm in two parts.
-/

namespace StagedCopy

namespace Binary64

/-! ## Pieces of an octave -/

/-- The encoding of the lower end of the octave, about 0.7057. -/
def octaveStart : Nat := 0x3fe6955500000000

/-- The number of pieces of the octave, all with as many encodings. -/
def pieceCount : Nat := 128

/-- The number of encodings of a piece. -/
def pieceEncodings : Nat := hiddenBit / pieceCount

/-- How many octaves a double is above the one around one, and the piece it is in. -/
def octaveIndex (x : Rat) : Nat × Nat :=
  let place := bits x - octaveStart
  (place / hiddenBit, place / pieceEncodings % pieceCount)

/-- The middle of a piece. -/
def middleOf (piece : Nat) : Rat :=
  ofBits (octaveStart + piece * pieceEncodings + pieceEncodings / 2)

/-- A number between a half and two rounded to eight binary digits. -/
def eightDigits (q : Rat) : Rat :=
  if q < 1 then mkRat (roundToInt (q * 256)) 256 else mkRat (roundToInt (q * 128)) 128

/-- The short number for a piece: the inverse of the middle in eight binary digits. -/
def inverseOf (piece : Nat) : Rat := eightDigits (1 / middleOf piece)

/-! ## The logarithm close to one -/

/-- A double by its significand and its exponent. -/
def double (significand exponent : Int) : Rat := significand * twoPow exponent

/-- The coefficients that follow `r - r ^ 2 / 2` in the logarithm of `1 + r`, over powers of
`-r ^ 2 / 2`: close to -2/3, 1/2, 4/5, -2/3, -8/7 and 1, and chosen so that the largest error over
a piece is smallest. -/
structure LogCoefficients where
  a₁ : Rat := double (-0x15555555555560) (-53)
  a₂ : Rat := double 0x10000000000006 (-53)
  a₃ : Rat := double 0x1999999959554e (-53)
  a₄ : Rat := double (-0x1555555529a47a) (-53)
  a₅ : Rat := double (-0x12495b9b4845e9) (-52)
  a₆ : Rat := double 0x10002b8b263fc3 (-52)

/-- The sum that follows `r - r ^ 2 / 2`, without the factor `-r ^ 3 / 2`; `s` is `-r ^ 2 / 2`. -/
def LogCoefficients.sum (a : LogCoefficients) (r s : Rat) : Rat :=
  mulAdd s (mulAdd s (mulAdd r a.a₆ a.a₅) (mulAdd r a.a₄ a.a₃)) (mulAdd r a.a₂ a.a₁)

/-! ## The logarithm -/

/-- The sum of two doubles in two parts, the second of which is what the first has lost, when the
first summand is the larger. -/
def twoSum (x y : Rat) : Parts :=
  let sum := add x y
  ⟨sum, add (sub x sum) y⟩

/-- The natural logarithm of a double of at least one, in two parts. -/
def logarithm (x : Rat) : Parts :=
  let (k, piece) := octaveIndex x
  let inverse := inverseOf piece
  let start := split (-ln inverse)
  let r := mulAdd (x * twoPow (-k)) inverse (-1)
  let half := mul (-1 / 2) r
  let square := mul r half
  let first := twoSum (mulAdd k lnTwo.high start.high) r
  let second := twoSum first.high square
  let lost := add (add (add (mulAdd k lnTwo.low start.low) first.low) (mulAdd half r (-square)))
    second.low
  twoSum second.high
    (mulAdd (mul r square) (LogCoefficients.sum {} r square) lost)

end Binary64

end StagedCopy
