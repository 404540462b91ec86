import StagedCopy.Bytes

/-!
# Sizes

A size is written as a decimal number and an optional unit: `1024`, `512K`, `10MB`, `2 GiB`. All
units are powers of 1024, in any letter case, and blanks may stand before the number and before
the unit. A size is refused when it does not fit in 64 bits.

* `Size.parse` — the number of bytes that a text denotes.
-/

namespace StagedCopy

namespace Size

/-- The sizes that fit are the numbers below `2 ^ 64`. -/
def bound : Nat := 0x10000000000000000

/-- The factor that a unit stands for, by its name in small letters; no name stands for bytes. -/
def unitFactor? (name : Bytes) : Option Nat :=
  if name = utf8 "" ∨ name = utf8 "b" then some 1
  else if name = utf8 "k" ∨ name = utf8 "kb" ∨ name = utf8 "kib" then some (1 <<< 10)
  else if name = utf8 "m" ∨ name = utf8 "mb" ∨ name = utf8 "mib" then some (1 <<< 20)
  else if name = utf8 "g" ∨ name = utf8 "gb" ∨ name = utf8 "gib" then some (1 <<< 30)
  else if name = utf8 "t" ∨ name = utf8 "tb" ∨ name = utf8 "tib" then some (1 <<< 40)
  else none

/-- The number that digits denote after those already read, unless it outgrows 64 bits on the
way. -/
def readDigits (value : Nat) : Bytes → Option Nat
  | [] => some value
  | d :: rest =>
    let next := value * 10 + digitValue d
    if next < bound then readDigits next rest else none

/-- The number of bytes that a text denotes. -/
def parse (text : Bytes) : Option Nat := do
  let text := text.dropWhile isSpace
  let digits := text.takeWhile isDigit
  let rest := (text.dropWhile isDigit).dropWhile isSpace
  if digits.isEmpty then none
  else
    let value ← readDigits 0 digits
    if rest.all isLetter then
      let factor ← unitFactor? (lower rest)
      if value * factor < bound then some (value * factor) else none
    else none

end Size

end StagedCopy
