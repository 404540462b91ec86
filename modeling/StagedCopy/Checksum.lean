import StagedCopy.Crc32

/-!
# File checksums

A store reports a checksum of its own for a file: none, the CRC-32 of the content, or the CRC-32
of the CRC-32 values of its blocks, each written in four bytes, most significant first. The last
depends on the block size, so two checksums may be compared only when algorithm and block size
agree.

* `FileChecksum` — algorithm, block size and value; `FileChecksum.comparableWith`.
* `ChecksumBuilder` — a checksum computed from a content fed in pieces of any size; asking for the
  result closes an open block but forgets nothing.
* `checksumOf`, `checksumInPieces` — the checksum of a content, taken at once or in pieces.
-/

namespace StagedCopy

/-- The kind of checksum that a store exposes. -/
inductive ChecksumKind where
  | none | crc32 | blockCrc32
  deriving DecidableEq, Repr

namespace ChecksumKind

/-- The name of the algorithm. -/
def name : ChecksumKind → Bytes
  | none => utf8 "NONE"
  | crc32 => utf8 "CRC32"
  | blockCrc32 => utf8 "BLOCK-CRC32"

/-- The kind with a given code. -/
def ofCode? : Int → Option ChecksumKind
  | 0 => some none
  | 1 => some crc32
  | 2 => some blockCrc32
  | _ => Option.none

end ChecksumKind

/-- A checksum as a store reports it. The block size is zero when the value does not depend on the
layout, and the value is a lower-case hexadecimal numeral. -/
structure FileChecksum where
  algorithm : Bytes
  blockSize : Nat
  value : Bytes
  deriving DecidableEq, Repr

namespace FileChecksum

/-- The two values may be compared: algorithm and block size agree. -/
def comparableWith (a b : FileChecksum) : Bool :=
  a.algorithm == b.algorithm && a.blockSize == b.blockSize

/-- The written form, `algorithm(block size):value`, without the block size when it is zero. -/
def text (sum : FileChecksum) : Bytes :=
  let layout := if sum.blockSize = 0 then [] else utf8 "(" ++ decimal sum.blockSize ++ utf8 ")"
  sum.algorithm ++ layout ++ utf8 ":" ++ sum.value

end FileChecksum

/-! ## Building a checksum -/

/-- The four bytes of a word, most significant first. -/
def bigEndian (word : UInt32) : Bytes :=
  [(word >>> 24).toUInt8, (word >>> 16).toUInt8, (word >>> 8).toUInt8, word.toUInt8]

/-- A checksum under construction: the register over the whole content, the register and the size
of the open block, and the register over the values of the closed blocks. -/
structure ChecksumBuilder where
  kind : ChecksumKind
  blockSize : Nat
  whole : UInt32 := Crc32.start
  block : UInt32 := Crc32.start
  blockFill : Nat := 0
  digests : UInt32 := Crc32.start
  deriving DecidableEq, Repr

namespace ChecksumBuilder

/-- A builder that has seen nothing; without a block size there are no blocks to cut, and the
plain checksum takes over. -/
def new (kind : ChecksumKind) (blockSize : Nat) : ChecksumBuilder where
  kind := if kind = .blockCrc32 ∧ blockSize = 0 then .crc32 else kind
  blockSize := blockSize

/-- The open block ends: its value goes to the register over the blocks. -/
def closeBlock (builder : ChecksumBuilder) : ChecksumBuilder :=
  { builder with
    digests := Crc32.feed builder.digests (bigEndian (Crc32.value builder.block))
    block := Crc32.start
    blockFill := 0 }

/-- What the open block has room for. -/
def room (builder : ChecksumBuilder) : Nat := builder.blockSize - builder.blockFill

/-- More of the open block, which ends when it is full. -/
def fillBlock (builder : ChecksumBuilder) (piece : Bytes) : ChecksumBuilder :=
  let grown := { builder with
    block := Crc32.feed builder.block piece
    blockFill := builder.blockFill + piece.length }
  if grown.blockFill = grown.blockSize then grown.closeBlock else grown

/-- More of the content, cut into blocks: round by round the open block takes what it has room for.
An open block that is not over always has room. -/
def feedBlocks (builder : ChecksumBuilder) (bytes : Bytes) : ChecksumBuilder :=
  if bytes = [] ∨ builder.room = 0 then builder
  else (builder.fillBlock (bytes.take builder.room)).feedBlocks (bytes.drop builder.room)
termination_by bytes.length
decreasing_by
  have := List.length_pos_iff.2 (not_or.1 ‹_›).1
  simp only [List.length_drop]
  omega

/-- More of the content. -/
def update (builder : ChecksumBuilder) (bytes : Bytes) : ChecksumBuilder :=
  match builder.kind with
  | .none => builder
  | .crc32 => { builder with whole := Crc32.feed builder.whole bytes }
  | .blockCrc32 => builder.feedBlocks bytes

/-- The checksum of the content so far, and the builder with its open block closed. -/
def finish (builder : ChecksumBuilder) : Option FileChecksum × ChecksumBuilder :=
  match builder.kind with
  | .none => (none, builder)
  | .crc32 => (some ⟨builder.kind.name, 0, hex32 (Crc32.value builder.whole)⟩, builder)
  | .blockCrc32 =>
    let closed := if 0 < builder.blockFill then builder.closeBlock else builder
    (some ⟨builder.kind.name, builder.blockSize, hex32 (Crc32.value closed.digests)⟩, closed)

end ChecksumBuilder

/-- The checksum of a whole content. -/
def checksumOf (kind : ChecksumKind) (blockSize : Nat) (content : Bytes) : Option FileChecksum :=
  ((ChecksumBuilder.new kind blockSize).update content).finish.1

/-- A content cut into pieces of a size, of which the last may be shorter; a size of zero counts as
one. -/
def cutPieces (size : Nat) : Bytes → List Bytes
  | [] => []
  | b :: rest => (b :: rest.take (size - 1)) :: cutPieces size (rest.drop (size - 1))
termination_by content => content.length
decreasing_by simp only [List.length_drop, List.length_cons]; omega

/-- The checksum of a content that is fed in pieces of a size. -/
def checksumInPieces (kind : ChecksumKind) (blockSize size : Nat) (content : Bytes) :
    Option FileChecksum :=
  ((cutPieces size content).foldl ChecksumBuilder.update
    (ChecksumBuilder.new kind blockSize)).finish.1

end StagedCopy
