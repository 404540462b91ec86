import StagedCopy.Local
import StagedCopy.Memory
import StagedCopy.Proofs.Checksum

/-!
# Checksums of stores

A store on disk reads a file in pieces for its checksum, a store in memory takes the content at
once. What they answer is the same, because a checksum does not depend on the pieces in which a
content is fed.

* `LocalSystem.checksum_eq`, `MemoryStore.checksum_eq` — the checksum that a store answers for a
  file.
* `checksum_independent_of_pieces` — what a checksum depends on, and what it does not.
-/

namespace StagedCopy

/-- The checksum of a file on disk is that of its content. -/
theorem LocalSystem.checksum_eq {settings : LocalSettings} {system : LocalSystem} {path : Path}
    {place : Key} {number : Nat}
    (hstat : system.disk.stat path = .ok (place, .file (.regular number))) :
    system.checksum settings path = .ok (checksumOf settings.checksumKind settings.blockSize
      (system.disk.contentOf (.regular number))) := by
  unfold LocalSystem.checksum
  split
  · next hnone =>
    -- nothing is read when no checksum is asked for, and there is none of any content
    rw [hnone, checksumOf_eq]
    rfl
  · rw [hstat]
    dsimp only
    rw [checksumInPieces_eq]

/-- The checksum of a file in memory is that of its content. -/
theorem MemoryStore.checksum_eq {store : MemoryStore} {path : Path} {file : MemoryFile}
    (hfile : store.get? path.key = some (.file file)) :
    store.checksum path
      = .ok (checksumOf store.checksumKind file.layout.blockSize file.content) := by
  simp [MemoryStore.checksum, MemoryStore.file?, hfile]

/-- In whichever pieces a content is fed, empty ones among them, its checksum is the one that is
taken at once, and to ask again gives the same. Over blocks of a size, its value is the CRC-32 of
the CRC-32 values of the blocks, in order and each in four bytes, the most significant first; of
size zero it is the plain checksum. So a file on disk and one in memory with the same content have
the same checksum. -/
theorem checksum_independent_of_pieces (kind : ChecksumKind) (blockSize : Nat)
    (pieces : List Bytes) :
    let fed := pieces.foldl ChecksumBuilder.update (.new kind blockSize)
    (fed.finish.1 = checksumOf kind blockSize pieces.flatten ∧ fed.finish.2.finish = fed.finish) ∧
    (0 < blockSize → ∀ content,
      checksumOf .blockCrc32 blockSize content = some ⟨utf8 "BLOCK-CRC32", blockSize,
        hex32 (Crc32.ofBytes (blockDigests (cutPieces blockSize content)))⟩ ∧
      ∀ i, (cutPieces blockSize content)[i]? =
        if i * blockSize < content.length then
          some ((content.drop (i * blockSize)).take blockSize)
        else none) ∧
    (∀ content, checksumOf .blockCrc32 0 content = checksumOf .crc32 0 content ∧
      checksumOf .crc32 blockSize content
        = some ⟨utf8 "CRC32", 0, hex32 (Crc32.ofBytes content)⟩) ∧
    ∀ (system : LocalSystem) (path : Path) (place : Key) (number : Nat) (store : MemoryStore)
      (path' : Path) (file : MemoryFile),
      system.disk.stat path = .ok (place, .file (.regular number)) →
      store.get? path'.key = some (.file file) → store.checksumKind = kind →
      file.layout.blockSize = blockSize →
      file.content = system.disk.contentOf (.regular number) →
      system.checksum ⟨kind, blockSize⟩ path = .ok (checksumOf kind blockSize file.content) ∧
        store.checksum path' = .ok (checksumOf kind blockSize file.content) := by
  intro fed
  refine ⟨⟨finish_updates_eq kind blockSize pieces, ChecksumBuilder.finish_finish fed⟩,
    fun hsize content => ⟨?_, getElem?_cutPieces hsize content⟩, fun content => ⟨?_, ?_⟩, ?_⟩
  · exact checksumOf_blockCrc32 hsize content
  · -- without a block size the plain checksum takes over
    rw [checksumOf_eq, checksumOf_crc32]
    rfl
  · exact checksumOf_crc32 blockSize content
  · intro system path place number store path' file hstat hfile hkind hsize hcontent
    rw [LocalSystem.checksum_eq hstat, MemoryStore.checksum_eq hfile, hkind, hsize, hcontent]
    exact ⟨rfl, rfl⟩

/-- A disk with one file. -/
def loneDisk : Disk where
  tree := ⟨[([utf8 "s"], .file (.regular 0))]⟩
  contents := #[utf8 "abcde"]
  current := []

/-- A store in memory with a file of the same content, in blocks of two bytes. -/
def loneStore : MemoryStore :=
  { tree := ⟨[([utf8 "s"], .file ⟨utf8 "abcde", ⟨1, 2⟩⟩)]⟩, checksumKind := .blockCrc32 }

theorem checksum_independent_of_pieces_small :
    ((((ChecksumBuilder.new .blockCrc32 2).update (utf8 "abc")).update []).update
      (utf8 "de")).finish.1 = some ⟨utf8 "BLOCK-CRC32", 2, utf8 "e5d81649"⟩ ∧
    LocalSystem.checksum ⟨.blockCrc32, 2⟩ { disk := loneDisk } (utf8 "s")
      = .ok (some ⟨utf8 "BLOCK-CRC32", 2, utf8 "e5d81649"⟩) ∧
    loneStore.checksum (utf8 "s") = .ok (some ⟨utf8 "BLOCK-CRC32", 2, utf8 "e5d81649"⟩) := by
  obtain ⟨⟨hfed, -⟩, hblocks, -, hstores⟩ :=
    checksum_independent_of_pieces .blockCrc32 2 [utf8 "abc", [], utf8 "de"]
  obtain ⟨hsystem, hstore⟩ := hstores { disk := loneDisk } (utf8 "s") [utf8 "s"] 0 loneStore
    (utf8 "s") ⟨utf8 "abcde", ⟨1, 2⟩⟩ rfl (by decide +kernel) rfl rfl rfl
  have hvalue : checksumOf .blockCrc32 2 (utf8 "abcde")
      = some ⟨utf8 "BLOCK-CRC32", 2, utf8 "e5d81649"⟩ := by
    rw [(hblocks (by decide) _).1]
    decide +kernel
  rw [hvalue] at hsystem hstore
  exact ⟨hfed.trans hvalue, hsystem, hstore⟩

end StagedCopy
