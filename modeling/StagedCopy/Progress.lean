import StagedCopy.Binary64

/-!
# Progress texts

The status of a running copy: percentage, what is copied, and bytes done out of all. Percentages
and scaled byte counts are doubles, shown with one digit after the point.

* `formatBytes` — `512`, `1.5K`, `3.0M`: the largest unit, in steps of 1024, that does not exceed
  the count.
* `formatPercentage` — a share in percent; of nothing, everything is done.
* `progressText` — the whole status.
-/

namespace StagedCopy

/-- The letters of the units, smallest first. -/
def byteUnits : List UInt8 := utf8 "KMGTPE"

/-- A scaled count under the unit at hand: as long as it reaches 1024 and there is a larger unit,
it moves on to that. -/
def formatScaled (value : Rat) : List UInt8 → Bytes
  | [] => []
  | [unit] => Binary64.oneDecimal value ++ [unit]
  | unit :: larger :: more =>
    if 1024 ≤ value then formatScaled (Binary64.div value 1024) (larger :: more)
    else Binary64.oneDecimal value ++ [unit]

/-- A byte count with at most one decimal and the letter of its unit. -/
def formatBytes (bytes : Nat) : Bytes :=
  if bytes < 1024 then decimal bytes
  else formatScaled (Binary64.div (Binary64.ofNat bytes) 1024) byteUnits

/-- The share of `done` in `total` in percent, with one decimal; an empty total is complete. -/
def formatPercentage (done total : Nat) : Bytes :=
  Binary64.oneDecimal <|
    if total = 0 then 100
    else Binary64.div (Binary64.mul (Binary64.ofNat done) 100) (Binary64.ofNat total)

/-- The status of a copy that has moved `done` of `total` bytes. -/
def progressText (description : Bytes) (done total : Nat) : Bytes :=
  formatPercentage done total ++ utf8 "% " ++ description ++ utf8 " [" ++ formatBytes done
    ++ utf8 "/" ++ formatBytes total ++ utf8 "]"

end StagedCopy
