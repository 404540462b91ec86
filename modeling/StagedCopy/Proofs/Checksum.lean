import StagedCopy.Copy.Verification

/-!
# Checksums of one content

A checksum is determined by the content, the algorithm and the block size. In which pieces the
content came makes no difference, so two checksums of one content that may be compared are equal.

* `getElem?_cutPieces`, `cutPieces_append` — how a content is cut.
* `blockDigests`, `blockValue` — the value that a checksum over blocks stands for.
* `ChecksumBuilder.Holds` — what a builder over blocks knows of what it was fed: the invariant of
  the cutting loop, kept by a round in `Holds.fillBlock`, by the loop in `Holds.feedBlocks`, and by
  any number of pieces in `Holds.updates`.
* `finish_updates` — the checksum of a content that came in pieces; `checksumOf_eq` and
  `checksumInPieces_eq` are read off it.
* `checksumOf_eq_of_comparable` — comparable checksums of one content are equal.
* `ChecksumReport.equal_iff` — when two checksums are found equal.
-/

namespace StagedCopy

/-! ## The blocks of a content -/

section blocks

variable {size : Nat}

theorem flatten_cutPieces (size : Nat) (content : Bytes) :
    (cutPieces size content).flatten = content := by
  induction content using cutPieces.induct size with
  | case1 => rw [cutPieces, List.flatten_nil]
  | case2 b rest ih =>
    rw [cutPieces, List.flatten_cons, ih, List.cons_append, List.take_append_drop]

/-- The first piece, and how it goes on. -/
theorem cutPieces_of_ne_nil {content : Bytes} (hsize : 0 < size) (hsome : content ≠ []) :
    cutPieces size content = content.take size :: cutPieces size (content.drop size) := by
  obtain ⟨n, rfl⟩ : ∃ n, size = n + 1 := ⟨size - 1, by omega⟩
  cases content with
  | nil => exact absurd rfl hsome
  | cons b rest =>
    rw [cutPieces, Nat.add_sub_cancel, List.take_succ_cons, List.drop_succ_cons]

/-- Something short is not cut. -/
theorem cutPieces_short {tail : Bytes} (hsize : 0 < size) (hsome : tail ≠ [])
    (hshort : tail.length ≤ size) : cutPieces size tail = [tail] := by
  rw [cutPieces_of_ne_nil hsize hsome, List.take_of_length_le hshort,
    List.drop_of_length_le hshort, cutPieces]

/-- A block at the beginning is cut off. -/
theorem cutPieces_cons {block rest : Bytes} (hsize : 0 < size) (hfull : block.length = size) :
    cutPieces size (block ++ rest) = block :: cutPieces size rest := by
  have hsome : block ++ rest ≠ [] := by
    intro hnone
    rw [(List.append_eq_nil_iff.1 hnone).1] at hfull
    exact Nat.ne_of_lt hsize hfull
  rw [cutPieces_of_ne_nil hsize hsome, List.take_left' hfull, List.drop_left' hfull]

/-- The blocks at the beginning are cut off. -/
theorem cutPieces_append {blocks : List Bytes} {rest : Bytes} (hsize : 0 < size)
    (hfull : ∀ block ∈ blocks, block.length = size) :
    cutPieces size (blocks.flatten ++ rest) = blocks ++ cutPieces size rest := by
  induction blocks with
  | nil => rfl
  | cons block blocks ih =>
    rw [List.flatten_cons, List.append_assoc, cutPieces_cons hsize (hfull block (by simp)),
      ih fun other hother => hfull other (List.mem_cons_of_mem _ hother), List.cons_append]

/-- The pieces of a content, counted from zero: each begins where the ones before it end, has the
given size as long as the content lasts, and is there as long as something is left. -/
theorem getElem?_cutPieces (hsize : 0 < size) (content : Bytes) (i : Nat) :
    (cutPieces size content)[i]? =
      if i * size < content.length then some ((content.drop (i * size)).take size) else none := by
  induction i generalizing content with
  | zero =>
    rw [Nat.zero_mul, List.drop_zero]
    cases content with
    | nil => simp [cutPieces]
    | cons b rest => simp [cutPieces_of_ne_nil hsize]
  | succ i ih =>
    by_cases hnone : content = []
    · simp [hnone, cutPieces]
    · have hleft : i * size < (content.drop size).length ↔ (i + 1) * size < content.length := by
        rw [List.length_drop, Nat.add_one_mul]
        omega
      have hplace : size + i * size = (i + 1) * size := by
        rw [Nat.add_one_mul, Nat.add_comm]
      rw [cutPieces_of_ne_nil hsize hnone, List.getElem?_cons_succ, ih, List.drop_drop, hplace]
      simp only [hleft]

end blocks

/-- The check values of blocks, one after another, each in four bytes with the most significant
first. -/
def blockDigests (blocks : List Bytes) : Bytes :=
  blocks.flatMap fun block => bigEndian (Crc32.ofBytes block)

@[simp] theorem blockDigests_nil : blockDigests [] = [] := rfl

@[simp] theorem blockDigests_append (blocks others : List Bytes) :
    blockDigests (blocks ++ others) = blockDigests blocks ++ blockDigests others :=
  List.flatMap_append

@[simp] theorem blockDigests_singleton (block : Bytes) :
    blockDigests [block] = bigEndian (Crc32.ofBytes block) :=
  List.append_nil _

/-- The value of a checksum over blocks. -/
def blockValue (blockSize : Nat) (content : Bytes) : Bytes :=
  hex32 (Crc32.ofBytes (blockDigests (cutPieces blockSize content)))

/-! ## What a builder holds -/

namespace ChecksumBuilder

/-- What a builder over blocks has been fed: whole blocks, which are closed, and the beginning of a
block, which is open and has room left. -/
structure Holds (builder : ChecksumBuilder) (blocks : List Bytes) (tail : Bytes) : Prop where
  kind : builder.kind = .blockCrc32
  full : ∀ block ∈ blocks, block.length = builder.blockSize
  short : tail.length < builder.blockSize
  fill : builder.blockFill = tail.length
  block : builder.block = Crc32.feed Crc32.start tail
  digests : builder.digests = Crc32.feed Crc32.start (blockDigests blocks)

section holds

variable {builder : ChecksumBuilder} {blocks : List Bytes} {tail : Bytes}

@[simp] theorem fillBlock_blockSize (builder : ChecksumBuilder) (piece : Bytes) :
    (builder.fillBlock piece).blockSize = builder.blockSize := by
  unfold fillBlock closeBlock
  dsimp only
  split <;> rfl

/-- A builder that has seen nothing holds nothing. -/
theorem holds_new {kind : ChecksumKind} {blockSize : Nat}
    (hkind : (new kind blockSize).kind = .blockCrc32) : (new kind blockSize).Holds [] [] where
  kind := hkind
  full := by simp
  short := by
    rw [List.length_nil, Nat.pos_iff_ne_zero]
    rintro (rfl : blockSize = 0)
    cases kind <;> cases hkind
  fill := rfl
  block := rfl
  digests := rfl

/-- The open block of such a builder has room. -/
theorem Holds.room_pos (h : builder.Holds blocks tail) : builder.room ≠ 0 := by
  have hshort := h.short
  rw [← h.fill] at hshort
  unfold room
  omega

/-- A round of the loop: the open block takes a piece that it has room for, and is closed when it
is full. -/
theorem Holds.fillBlock {piece : Bytes} (h : builder.Holds blocks tail)
    (hroom : piece.length ≤ builder.room) :
    ∃ blocks' tail', (builder.fillBlock piece).Holds blocks' tail' ∧
      blocks'.flatten ++ tail' = blocks.flatten ++ (tail ++ piece) := by
  have hopen : Crc32.feed builder.block piece = Crc32.feed Crc32.start (tail ++ piece) := by
    rw [h.block, Crc32.feed_append]
  have hfill : builder.blockFill + piece.length = (tail ++ piece).length := by
    rw [h.fill, List.length_append]
  have hshort := h.short
  unfold room at hroom
  unfold ChecksumBuilder.fillBlock
  dsimp only
  split
  case isTrue hfull =>
    -- the block is over, and its value is taken in
    refine ⟨blocks ++ [tail ++ piece], [], ⟨h.kind, ?_, ?_, rfl, rfl, ?_⟩, ?_⟩
    · intro block hblock
      rcases List.mem_append.1 hblock with hold | hnew
      · exact h.full block hold
      · rw [List.mem_singleton.1 hnew]
        exact hfill.symm.trans hfull
    · exact Nat.zero_lt_of_lt hshort
    · show Crc32.feed builder.digests
        (bigEndian (Crc32.value (Crc32.feed builder.block piece))) = _
      rw [hopen, h.digests, blockDigests_append, blockDigests_singleton,
        Crc32.feed_append _ (blockDigests blocks)]
      rfl
    · simp
  case isFalse hopened =>
    refine ⟨blocks, tail ++ piece, ⟨h.kind, h.full, ?_, hfill, hopen, h.digests⟩, rfl⟩
    show (tail ++ piece).length < builder.blockSize
    rw [← h.fill] at hshort
    omega

/-- The loop takes in all that it is given. -/
theorem Holds.feedBlocks (bytes : Bytes) (h : builder.Holds blocks tail) :
    ∃ blocks' tail', (builder.feedBlocks bytes).Holds blocks' tail' ∧
      blocks'.flatten ++ tail' = blocks.flatten ++ (tail ++ bytes) ∧
      (builder.feedBlocks bytes).blockSize = builder.blockSize := by
  induction builder, bytes using ChecksumBuilder.feedBlocks.induct generalizing blocks tail with
  | case1 builder bytes hover =>
    obtain rfl := hover.resolve_right h.room_pos
    rw [ChecksumBuilder.feedBlocks, if_pos hover]
    exact ⟨blocks, tail, h, by simp, rfl⟩
  | case2 builder bytes hmore ih =>
    rw [ChecksumBuilder.feedBlocks, if_neg hmore]
    obtain ⟨blocks₁, tail₁, hround, hcontent₁⟩ :=
      h.fillBlock (List.length_take_le builder.room bytes)
    obtain ⟨blocks₂, tail₂, hrest, hcontent₂, hsize⟩ := ih hround
    refine ⟨blocks₂, tail₂, hrest, ?_, hsize.trans (fillBlock_blockSize ..)⟩
    rw [hcontent₂, ← List.append_assoc, hcontent₁]
    simp

/-- A builder takes in every piece that it is given. -/
theorem Holds.updates (pieces : List Bytes) (h : builder.Holds blocks tail) :
    ∃ blocks' tail', (pieces.foldl update builder).Holds blocks' tail' ∧
      blocks'.flatten ++ tail' = blocks.flatten ++ (tail ++ pieces.flatten) ∧
      (pieces.foldl update builder).blockSize = builder.blockSize := by
  induction pieces generalizing builder blocks tail with
  | nil => exact ⟨blocks, tail, h, by simp, rfl⟩
  | cons piece pieces ih =>
    have hupdate : builder.update piece = builder.feedBlocks piece := by
      simp only [update, h.kind]
    obtain ⟨blocks₁, tail₁, hpiece, hcontent₁, hsize₁⟩ := h.feedBlocks piece
    obtain ⟨blocks₂, tail₂, hrest, hcontent₂, hsize₂⟩ := ih hpiece
    rw [List.foldl_cons, hupdate]
    refine ⟨blocks₂, tail₂, hrest, ?_, hsize₂.trans hsize₁⟩
    rw [hcontent₂, ← List.append_assoc, hcontent₁]
    simp

/-- What a builder over blocks answers. -/
theorem Holds.finish (h : builder.Holds blocks tail) :
    builder.finish.1 = some ⟨ChecksumKind.blockCrc32.name, builder.blockSize,
      blockValue builder.blockSize (blocks.flatten ++ tail)⟩ := by
  have hsize : 0 < builder.blockSize := Nat.zero_lt_of_lt h.short
  have hdigests : (if 0 < builder.blockFill then builder.closeBlock else builder).digests
      = Crc32.feed Crc32.start (blockDigests (cutPieces builder.blockSize
          (blocks.flatten ++ tail))) := by
    rw [cutPieces_append hsize h.full, h.fill]
    cases tail with
    | nil => simp [cutPieces, h.digests]
    | cons b rest =>
      rw [if_pos (by simp), cutPieces_short hsize (List.cons_ne_nil b rest) (Nat.le_of_lt h.short),
        blockDigests_append, blockDigests_singleton, Crc32.feed_append, ← h.digests]
      show Crc32.feed builder.digests _ = _
      rw [h.block]
      rfl
  unfold ChecksumBuilder.finish
  simp only [h.kind]
  rw [hdigests]
  rfl

end holds

/-- A builder of no checksum ignores what it is given. -/
theorem updates_none {builder : ChecksumBuilder} (hkind : builder.kind = .none)
    (pieces : List Bytes) : pieces.foldl update builder = builder := by
  induction pieces with
  | nil => rfl
  | cons piece pieces ih =>
    have hupdate : builder.update piece = builder := by
      simp only [update, hkind]
    rw [List.foldl_cons, hupdate, ih]

/-- A builder of the plain checksum feeds its register. -/
theorem updates_crc32 {builder : ChecksumBuilder} (hkind : builder.kind = .crc32)
    (pieces : List Bytes) : pieces.foldl update builder
      = { builder with whole := Crc32.feed builder.whole pieces.flatten } := by
  induction pieces generalizing builder with
  | nil => rfl
  | cons piece pieces ih =>
    have hupdate : builder.update piece
        = { builder with whole := Crc32.feed builder.whole piece } := by
      simp only [update, hkind]
    have hkept : (builder.update piece).kind = .crc32 := by
      rw [hupdate]
      exact hkind
    rw [List.foldl_cons, ih hkept, hupdate, List.flatten_cons, Crc32.feed_append]

/-- Asking again gives the same and changes nothing more. -/
theorem finish_finish (builder : ChecksumBuilder) : builder.finish.2.finish = builder.finish := by
  cases hkind : builder.kind with
  | none => simp only [finish, hkind]
  | crc32 => simp only [finish, hkind]
  | blockCrc32 =>
    by_cases hfill : 0 < builder.blockFill
    · simp [finish, closeBlock, hkind, hfill]
    · simp [finish, hkind, hfill]

end ChecksumBuilder

/-! ## The checksum of a content -/

/-- A checksum carries its algorithm and, when it is one over blocks, its block size, and its value
depends on nothing else but the content, in whichever pieces the content came. -/
theorem finish_updates (kind : ChecksumKind) (blockSize : Nat) (pieces : List Bytes) :
    (pieces.foldl ChecksumBuilder.update (.new kind blockSize)).finish.1 =
      match (ChecksumBuilder.new kind blockSize).kind with
      | .none => none
      | .crc32 => some ⟨ChecksumKind.crc32.name, 0, hex32 (Crc32.ofBytes pieces.flatten)⟩
      | .blockCrc32 =>
        some ⟨ChecksumKind.blockCrc32.name, blockSize, blockValue blockSize pieces.flatten⟩ := by
  cases hkind : (ChecksumBuilder.new kind blockSize).kind with
  | none =>
    rw [ChecksumBuilder.updates_none hkind]
    simp only [ChecksumBuilder.finish, hkind]
  | crc32 =>
    rw [ChecksumBuilder.updates_crc32 hkind]
    simp only [ChecksumBuilder.finish, hkind]
    rfl
  | blockCrc32 =>
    obtain ⟨blocks, tail, hfed, hcontent, hsize⟩ :=
      (ChecksumBuilder.holds_new hkind).updates pieces
    rw [hfed.finish, hcontent, hsize]
    rfl

/-- A checksum carries its algorithm and, when it is one over blocks, its block size, and its value
depends on nothing else but the content. -/
theorem checksumOf_eq (kind : ChecksumKind) (blockSize : Nat) (content : Bytes) :
    checksumOf kind blockSize content =
      match (ChecksumBuilder.new kind blockSize).kind with
      | .none => none
      | .crc32 => some ⟨ChecksumKind.crc32.name, 0, hex32 (Crc32.ofBytes content)⟩
      | .blockCrc32 =>
        some ⟨ChecksumKind.blockCrc32.name, blockSize, blockValue blockSize content⟩ := by
  have hpieces := finish_updates kind blockSize [content]
  rw [List.flatten_singleton] at hpieces
  exact hpieces

/-- The plain checksum of a content. -/
theorem checksumOf_crc32 (blockSize : Nat) (content : Bytes) :
    checksumOf .crc32 blockSize content
      = some ⟨ChecksumKind.crc32.name, 0, hex32 (Crc32.ofBytes content)⟩ := by
  rw [checksumOf_eq]
  rfl

/-- The checksum of a content over blocks. -/
theorem checksumOf_blockCrc32 {blockSize : Nat} (hsize : 0 < blockSize) (content : Bytes) :
    checksumOf .blockCrc32 blockSize content
      = some ⟨ChecksumKind.blockCrc32.name, blockSize, blockValue blockSize content⟩ := by
  have hkind : (ChecksumBuilder.new .blockCrc32 blockSize).kind = .blockCrc32 :=
    if_neg fun hnone => (Nat.ne_of_gt hsize) hnone.2
  rw [checksumOf_eq, hkind]

/-- In whichever pieces a content comes, its checksum is the same. -/
theorem finish_updates_eq (kind : ChecksumKind) (blockSize : Nat) (pieces : List Bytes) :
    (pieces.foldl ChecksumBuilder.update (.new kind blockSize)).finish.1
      = checksumOf kind blockSize pieces.flatten := by
  rw [finish_updates, checksumOf_eq]

/-- The checksum of a content is the same when it is read in pieces. -/
theorem checksumInPieces_eq (kind : ChecksumKind) (blockSize size : Nat) (content : Bytes) :
    checksumInPieces kind blockSize size content = checksumOf kind blockSize content := by
  rw [checksumInPieces, finish_updates_eq, flatten_cutPieces]

/-- Checksums of one content with the same algorithm and block size are equal. -/
theorem checksumOf_eq_of_comparable {kind kind' : ChecksumKind} {blockSize blockSize' : Nat}
    {content : Bytes} {a b : FileChecksum} (ha : checksumOf kind blockSize content = some a)
    (hb : checksumOf kind' blockSize' content = some b) (halgorithm : a.algorithm = b.algorithm)
    (hblocks : a.blockSize = b.blockSize) : a = b := by
  have hnames : ChecksumKind.crc32.name ≠ ChecksumKind.blockCrc32.name := by decide
  rw [checksumOf_eq] at ha hb
  cases hkind : (ChecksumBuilder.new kind blockSize).kind with
  | none =>
    rw [hkind] at ha
    cases ha
  | crc32 =>
    rw [hkind] at ha
    obtain rfl := Option.some.inj ha
    cases hkind' : (ChecksumBuilder.new kind' blockSize').kind with
    | none =>
      rw [hkind'] at hb
      cases hb
    | crc32 =>
      rw [hkind'] at hb
      exact Option.some.inj hb
    | blockCrc32 =>
      rw [hkind'] at hb
      obtain rfl := Option.some.inj hb
      exact absurd halgorithm hnames
  | blockCrc32 =>
    rw [hkind] at ha
    obtain rfl := Option.some.inj ha
    cases hkind' : (ChecksumBuilder.new kind' blockSize').kind with
    | none =>
      rw [hkind'] at hb
      cases hb
    | crc32 =>
      rw [hkind'] at hb
      obtain rfl := Option.some.inj hb
      exact absurd halgorithm.symm hnames
    | blockCrc32 =>
      rw [hkind'] at hb
      obtain rfl := Option.some.inj hb
      obtain rfl : blockSize = blockSize' := hblocks
      rfl

/-- Two checksums are found equal when both are there and agree in everything. -/
theorem ChecksumReport.equal_iff {sourceSum tempSum : Option FileChecksum} :
    (ChecksumReport.ofChecksums sourceSum tempSum).verdict = .equal ↔
      ∃ a b, sourceSum = some a ∧ tempSum = some b ∧ a.algorithm = b.algorithm ∧
        a.blockSize = b.blockSize ∧ a.value = b.value := by
  constructor
  · intro h
    match sourceSum, tempSum with
    | none, _ => cases h
    | some a, none => cases h
    | some a, some b =>
      by_cases hcomparable : a.comparableWith b
      · rw [ofChecksums, if_pos hcomparable, verdict] at h
        by_cases hvalue : a.value = b.value
        · simp only [FileChecksum.comparableWith, Bool.and_eq_true, beq_iff_eq] at hcomparable
          exact ⟨a, b, rfl, rfl, hcomparable.1, hcomparable.2, hvalue⟩
        · rw [if_neg hvalue] at h
          cases h
      · rw [ofChecksums, if_neg hcomparable] at h
        cases h
  · rintro ⟨a, b, rfl, rfl, halgorithm, hblocks, hvalue⟩
    have hcomparable : a.comparableWith b := by
      simp [FileChecksum.comparableWith, halgorithm, hblocks]
    rw [ofChecksums, if_pos hcomparable, verdict, if_pos hvalue]

end StagedCopy
