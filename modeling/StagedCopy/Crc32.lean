import StagedCopy.Bytes

/-!
# CRC-32

The reflected cyclic redundancy check with polynomial `04C11DB7`, all-ones initial register and
complemented result. The register takes in one byte at a time, so feeding a content in pieces is
the same fold as feeding it at once.

* `Crc32.feed` — the register after more bytes.
* `Crc32.ofBytes` — the check value of a whole content.
-/

namespace StagedCopy

namespace Crc32

/-- The polynomial, in reflected bit order. -/
def polynomial : UInt32 := 0xEDB88320

/-- One bit of division: the register moves right, and a one that falls out takes the polynomial
away. -/
def shiftBit (register : UInt32) : UInt32 :=
  if register &&& 1 = 1 then (register >>> 1) ^^^ polynomial else register >>> 1

/-- The register after one more byte. -/
def feedByte (register : UInt32) (b : UInt8) : UInt32 :=
  Nat.repeat shiftBit 8 (register ^^^ b.toUInt32)

/-- The register before any byte. -/
def start : UInt32 := 0xFFFFFFFF

/-- The register after more bytes. -/
def feed (register : UInt32) (bytes : Bytes) : UInt32 := bytes.foldl feedByte register

/-- The check value that a register stands for. -/
def value (register : UInt32) : UInt32 := register ^^^ 0xFFFFFFFF

/-- The check value of a content. -/
def ofBytes (content : Bytes) : UInt32 := value (feed start content)

theorem feed_append (register : UInt32) (s t : Bytes) :
    feed register (s ++ t) = feed (feed register s) t := List.foldl_append

end Crc32

end StagedCopy
