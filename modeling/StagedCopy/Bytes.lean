/-!
# Byte strings

Paths, messages and file contents are byte strings: nothing here assumes that they are valid
UTF-8. This module fixes the type, the text of numbers, the ASCII character classes and the byte
order by which listings are sorted.

* `utf8` — the bytes of a string literal.
* `decimal`, `signedDecimal`, `hex32` — the numerals that messages are built from.
* `bytesLe`, `sortBytes` — the order of listings, byte by byte, a proper beginning first.
-/

namespace StagedCopy

/-- A byte string: a path, a message, or the content of a file. -/
abbrev Bytes := List UInt8

/-! ## Literals and numerals -/

/-- The UTF-8 bytes of a string. -/
def utf8 (s : String) : Bytes := s.toUTF8.data.toList

/-- The byte of an ASCII character. -/
def ascii (c : Char) : UInt8 := UInt8.ofNat c.toNat

/-- The decimal numeral of a natural number, without leading zeros. -/
def decimal (n : Nat) : Bytes := (Nat.toDigits 10 n).map ascii

/-- The decimal numeral of an integer, with a minus sign when it is negative. -/
def signedDecimal (n : Int) : Bytes :=
  if n < 0 then ascii '-' :: decimal n.natAbs else decimal n.natAbs

/-- One lower-case hexadecimal digit; only the low four bits count. -/
def hexDigit (n : Nat) : UInt8 :=
  if n % 16 < 10 then UInt8.ofNat (48 + n % 16) else UInt8.ofNat (87 + n % 16)

/-- Eight lower-case hexadecimal digits, most significant first. -/
def hex32 (word : UInt32) : Bytes :=
  [28, 24, 20, 16, 12, 8, 4, 0].map fun shift => hexDigit (word.toNat >>> shift)

/-! ## Character classes -/

/-- Blank, tab, line feed, vertical tab, form feed or carriage return. -/
def isSpace (b : UInt8) : Bool := b == 32 || (9 ≤ b && b ≤ 13)

/-- One of the ten ASCII digits. -/
def isDigit (b : UInt8) : Bool := 48 ≤ b && b ≤ 57

/-- The value of an ASCII digit. -/
def digitValue (b : UInt8) : Nat := b.toNat - 48

/-- An ASCII letter of either case. -/
def isLetter (b : UInt8) : Bool := (65 ≤ b && b ≤ 90) || (97 ≤ b && b ≤ 122)

/-- ASCII capitals become small letters; every other byte stays as it is. -/
def lowerByte (b : UInt8) : UInt8 := if 65 ≤ b && b ≤ 90 then b + 32 else b

/-- `lowerByte` on every byte. -/
def lower (s : Bytes) : Bytes := s.map lowerByte

/-! ## Order -/

/-- Byte-wise lexicographic order, in which a proper beginning comes first. -/
def bytesLe : Bytes → Bytes → Bool
  | [], _ => true
  | _ :: _, [] => false
  | a :: s, b :: t => a < b || (a == b && bytesLe s t)

/-- An element goes before the first one that it does not exceed. -/
def insertBy {α : Type} (le : α → α → Bool) (a : α) : List α → List α
  | [] => [a]
  | b :: rest => if le a b then a :: b :: rest else b :: insertBy le a rest

/-- The given elements in ascending order; those that are equal keep their order. -/
def sortBy {α : Type} (le : α → α → Bool) (l : List α) : List α := l.foldr (insertBy le) []

/-- The given byte strings in ascending byte order. -/
def sortBytes (l : List Bytes) : List Bytes := sortBy bytesLe l

/-! ## Words -/

/-- Reduction modulo `2 ^ 64`, the range of counters and byte counts. -/
def wrap64 (n : Nat) : Nat := n % 0x10000000000000000

theorem wrap64_of_lt {n : Nat} (h : n < 0x10000000000000000) : wrap64 n = n := Nat.mod_eq_of_lt h

theorem wrap64_wrap64_add (n m : Nat) : wrap64 (wrap64 n + m) = wrap64 (n + m) :=
  Nat.mod_add_mod n _ m

/-- The signed 64-bit integer congruent to `n` modulo `2 ^ 64`. -/
def wrapSigned64 (n : Int) : Int := Int.bmod n 0x10000000000000000

end StagedCopy
