import StagedCopy.Json

/-!
# Reading JSON

A strict reader for the JSON of RFC 8259: no comments, no trailing commas, no control characters
or ill-formed UTF-8 inside strings, no lone surrogates, and nothing after the value. A leading
byte order mark is skipped, a number out of the range of a double is refused, and one too small
for it reads as zero.

* `Json.read` — the value that a text spells, or nothing when it spells none.
* `Json.readValue`, `Json.readElements`, `Json.readMembers` — recursive descent; the first
  argument bounds the depth of the calls, and `Json.read` passes more than any text can use.
* `Json.library` — the reader as a library.
-/

namespace StagedCopy

namespace Json

/-! ## UTF-8 -/

/-- The byte continues a character. -/
def isContinuation (b : UInt8) : Bool := 0x80 ≤ b && b ≤ 0xBF

/-- The first character of a text, as its bytes, with the rest: only well-formed UTF-8 counts, so
no overlong forms, no surrogates and nothing above U+10FFFF. -/
def takeCharacter : Bytes → Option (Bytes × Bytes)
  | [] => none
  | a :: rest =>
    if a < 0x80 then some ([a], rest)
    else match rest with
      | [] => none
      | b :: rest =>
        if 0xC2 ≤ a && a ≤ 0xDF then
          if isContinuation b then some ([a, b], rest) else none
        else match rest with
          | [] => none
          | c :: rest =>
            if 0xE0 ≤ a && a ≤ 0xEF then
              let low : UInt8 := if a == 0xE0 then 0xA0 else 0x80
              let high : UInt8 := if a == 0xED then 0x9F else 0xBF
              if low ≤ b && b ≤ high && isContinuation c then some ([a, b, c], rest) else none
            else match rest with
              | [] => none
              | d :: rest =>
                let low : UInt8 := if a == 0xF0 then 0x90 else 0x80
                let high : UInt8 := if a == 0xF4 then 0x8F else 0xBF
                if 0xF0 ≤ a && a ≤ 0xF4 && low ≤ b && b ≤ high && isContinuation c
                    && isContinuation d then
                  some ([a, b, c, d], rest)
                else none

/-- The UTF-8 bytes of a code point. -/
def encodeCodePoint (code : Nat) : Bytes :=
  if code < 0x80 then [UInt8.ofNat code]
  else if code < 0x800 then
    [UInt8.ofNat (0xC0 + code / 64), UInt8.ofNat (0x80 + code % 64)]
  else if code < 0x10000 then
    [UInt8.ofNat (0xE0 + code / 4096), UInt8.ofNat (0x80 + code / 64 % 64),
      UInt8.ofNat (0x80 + code % 64)]
  else
    [UInt8.ofNat (0xF0 + code / 262144), UInt8.ofNat (0x80 + code / 4096 % 64),
      UInt8.ofNat (0x80 + code / 64 % 64), UInt8.ofNat (0x80 + code % 64)]

/-! ## Blanks and digits -/

/-- Blank, tab, line feed or carriage return. -/
def isBlank (b : UInt8) : Bool := b == 32 || b == 9 || b == 10 || b == 13

/-- The text after the blanks it begins with. -/
def skipBlanks (s : Bytes) : Bytes := s.dropWhile isBlank

/-- The natural number that decimal digits denote. -/
def ofDigits (digits : Bytes) : Nat := digits.foldl (fun n d => 10 * n + digitValue d) 0

/-- The value of a hexadecimal digit of either case. -/
def hexValue? (b : UInt8) : Option Nat :=
  if isDigit b then some (digitValue b)
  else
    let c := lowerByte b
    if 97 ≤ c && c ≤ 102 then some (c.toNat - 87) else none

/-- Four hexadecimal digits. -/
def readHex4 : Bytes → Option (Nat × Bytes)
  | a :: b :: c :: d :: rest => do
    let a ← hexValue? a
    let b ← hexValue? b
    let c ← hexValue? c
    let d ← hexValue? d
    some (4096 * a + 256 * b + 16 * c + d, rest)
  | _ => none

/-! ## Strings -/

/-- What follows the `u` of an escape: one code point, or the two halves of a surrogate pair. -/
def readUnicodeEscape (s : Bytes) : Option (Bytes × Bytes) := do
  let (first, rest) ← readHex4 s
  if 0xD800 ≤ first ∧ first ≤ 0xDBFF then
    match rest with
    | 92 :: 117 :: rest =>
      let (second, rest) ← readHex4 rest
      if 0xDC00 ≤ second ∧ second ≤ 0xDFFF then
        some (encodeCodePoint (0x10000 + (first - 0xD800) * 1024 + (second - 0xDC00)), rest)
      else none
    | _ => none
  else if 0xDC00 ≤ first ∧ first ≤ 0xDFFF then none
  else some (encodeCodePoint first, rest)

/-- What follows the backslash of an escape. -/
def readEscape : Bytes → Option (Bytes × Bytes)
  | 34 :: rest => some ([34], rest)
  | 92 :: rest => some ([92], rest)
  | 47 :: rest => some ([47], rest)
  | 98 :: rest => some ([8], rest)
  | 102 :: rest => some ([12], rest)
  | 110 :: rest => some ([10], rest)
  | 114 :: rest => some ([13], rest)
  | 116 :: rest => some ([9], rest)
  | 117 :: rest => readUnicodeEscape rest
  | _ => none

/-- The rest of a string after its opening quote; the characters read so far stand in reverse.
The first argument bounds the number of characters. -/
def readString : Nat → Bytes → List Bytes → Option (Bytes × Bytes)
  | 0, _, _ => none
  | fuel + 1, s, done =>
    match s with
    | 34 :: rest => some (done.reverse.flatten, rest)
    | 92 :: rest => do
      let (piece, rest) ← readEscape rest
      readString fuel rest (piece :: done)
    | b :: _ =>
      if b < 32 then none
      else do
        let (piece, rest) ← takeCharacter s
        readString fuel rest (piece :: done)
    | [] => none

/-! ## Numbers -/

/-- The double closest to `digits * 10 ^ exponent`, unless it is out of range. A number with so
small an exponent that even its leading digit is lost reads as zero. -/
def scientific? (digits : Nat) (exponent : Int) : Option Rat :=
  let magnitude := exponent + (Nat.toDigits 10 digits).length
  if digits = 0 then some 0
  else if 310 < magnitude then none
  else if magnitude < -330 then some 0
  else
    let value :=
      if 0 ≤ exponent then Binary64.nearestQuotient (digits * Nat.pow 10 exponent.toNat) 1
      else Binary64.nearestQuotient digits (Nat.pow 10 (-exponent).toNat)
    if Binary64.limit ≤ value then none else some value

/-- The sign of an exponent, when one is written. -/
def readSign : Bytes → Bool × Bytes
  | 43 :: rest => (false, rest)
  | 45 :: rest => (true, rest)
  | s => (false, s)

/-- A decimal point and the digits after it, when they are written; a point without digits is
refused. -/
def readFraction : Bytes → Option (Option Bytes × Bytes)
  | 46 :: rest =>
    let digits := rest.takeWhile isDigit
    if digits.isEmpty then none else some (some digits, rest.dropWhile isDigit)
  | s => some (none, s)

/-- An exponent, when one is written; the letter without digits is refused. -/
def readExponent (s : Bytes) : Option (Option Int × Bytes) :=
  match s with
  | [] => some (none, [])
  | b :: rest =>
    if lowerByte b == 101 then
      let (negative, rest) := readSign rest
      let digits := rest.takeWhile isDigit
      if digits.isEmpty then none
      else
        let n : Int := ofDigits digits
        some (some (if negative then -n else n), rest.dropWhile isDigit)
    else some (none, s)

/-- The value of a number from its parts: a number with a point or an exponent is a double, any
other is an integer as long as it fits. -/
def number? (negative : Bool) (whole : Bytes) (fraction : Option Bytes) (exponent : Option Int) :
    Option Json :=
  let applySign (q : Rat) : Rat := if negative then -q else q
  if fraction.isNone && exponent.isNone then
    let n := ofDigits whole
    if negative then
      if n ≤ 0x8000000000000000 then some (signed (-n))
      else (scientific? n 0).map fun q => float (applySign q)
    else
      if n < 0x10000000000000000 then some (unsigned n) else (scientific? n 0).map float
  else
    let decimals := fraction.getD []
    (scientific? (ofDigits (whole ++ decimals)) (exponent.getD 0 - decimals.length)).map
      fun q => float (applySign q)

/-- A number; a leading zero stands alone. -/
def readNumber (s : Bytes) : Option (Json × Bytes) := do
  let (negative, s) := match s with
    | 45 :: rest => (true, rest)
    | s => (false, s)
  let digits := s.takeWhile isDigit
  let whole ← match digits with
    | [] => none
    | 48 :: _ => some [48]
    | digits => some digits
  let rest := s.drop whole.length
  let (fraction, rest) ← readFraction rest
  let (exponent, rest) ← readExponent rest
  let value ← number? negative whole fraction exponent
  some (value, rest)

/-! ## Values -/

mutual

/-- A value and what follows it. -/
def readValue (fuel : Nat) (s : Bytes) : Option (Json × Bytes) :=
  match fuel with
  | 0 => none
  | fuel + 1 =>
    match skipBlanks s with
    | 123 :: rest =>
      match skipBlanks rest with
      | 125 :: rest => some (object [], rest)
      | rest => readMembers fuel rest []
    | 91 :: rest =>
      match skipBlanks rest with
      | 93 :: rest => some (array [], rest)
      | rest => readElements fuel rest []
    | 34 :: rest =>
      (readString (rest.length + 1) rest []).map fun (text, rest) => (string text, rest)
    | 116 :: 114 :: 117 :: 101 :: rest => some (bool true, rest)
    | 102 :: 97 :: 108 :: 115 :: 101 :: rest => some (bool false, rest)
    | 110 :: 117 :: 108 :: 108 :: rest => some (null, rest)
    | s => readNumber s

/-- The elements of an array from the next one on; those read so far stand in reverse. -/
def readElements (fuel : Nat) (s : Bytes) (done : List Json) : Option (Json × Bytes) :=
  match fuel with
  | 0 => none
  | fuel + 1 => do
    let (value, rest) ← readValue fuel s
    match skipBlanks rest with
    | 44 :: rest => readElements fuel rest (value :: done)
    | 93 :: rest => some (array (value :: done).reverse, rest)
    | _ => none

/-- The members of an object from the next one on; those read so far stand in reverse. -/
def readMembers (fuel : Nat) (s : Bytes) (done : List (Bytes × Json)) : Option (Json × Bytes) :=
  match fuel with
  | 0 => none
  | fuel + 1 =>
    match skipBlanks s with
    | 34 :: rest => do
      let (name, rest) ← readString (rest.length + 1) rest []
      match skipBlanks rest with
      | 58 :: rest =>
        let (value, rest) ← readValue fuel rest
        match skipBlanks rest with
        | 44 :: rest => readMembers fuel rest ((name, value) :: done)
        | 125 :: rest => some (object ((name, value) :: done).reverse, rest)
        | _ => none
      | _ => none
    | _ => none

end

/-- The text after a byte order mark, when it begins with one. -/
def skipByteOrderMark : Bytes → Bytes
  | 0xEF :: 0xBB :: 0xBF :: rest => rest
  | s => s

/-- The value that a text spells, blanks around it aside. -/
def read (text : Bytes) : Option Json := do
  let s := skipByteOrderMark text
  let (value, rest) ← readValue (2 * s.length + 2) s
  if (skipBlanks rest).isEmpty then some value else none

/-! ## A library -/

/-- The name of the kind of a value. -/
def kindName : Json → String
  | null => "null"
  | bool _ => "boolean"
  | unsigned _ | signed _ | float _ => "number"
  | string _ => "string"
  | array _ => "array"
  | object _ => "object"

/-- The name of a kind that is wanted. -/
def Kind.name : Kind → String
  | boolean => "boolean"
  | number => "number"
  | string => "string"

/-- This reader, with words of its own for a value of another kind. -/
def library : JsonLibrary where
  parse := read
  mismatch wanted found := utf8 "[json.exception.type_error.302] type must be "
    ++ utf8 wanted.name ++ utf8 ", but is " ++ utf8 found.kindName

end Json

end StagedCopy
