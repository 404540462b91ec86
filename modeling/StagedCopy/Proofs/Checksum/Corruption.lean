import StagedCopy.Proofs.Checksum
import StagedCopy.Proofs.Crc32

/-!
# Corruption that checksums find

A change within four bytes that follow one another changes the plain checksum, wherever it is and
however long the content. It changes the checksum over blocks when the four bytes are in one block:
then one block has another check value, and the four bytes of that value are all that changes in
what the outer checksum is taken of.

* `DifferWithin` — contents that differ only within a window; `of_replace` makes them, and
  `take_eq`, `drop_eq`, `window_ne` take them apart.
* `DifferWithin.ofBytes_ne`, `blockValue_ne` — the check values, and the values over blocks, differ.
* `FoundDifferent` — two checksums differ, and comparing the files comes to a mismatch;
  `run_compareChecksums` — what comparing two files comes to.
* `localised_corruption_detected` — the theorem.
-/

namespace StagedCopy

open Program (Handler)

/-! ## Contents that differ within a window -/

/-- Two contents of one length that differ, but only within a number of bytes from a place on. -/
structure DifferWithin (s t : Bytes) (start width : Nat) : Prop where
  length : s.length = t.length
  outside : ∀ i, i < start ∨ start + width ≤ i → s[i]? = t[i]?
  ne : s ≠ t

namespace DifferWithin

variable {s t : Bytes} {start width : Nat}

/-- To replace bytes by others, as many and not the same, makes such a difference. -/
theorem of_replace {front s t back : Bytes} (hlength : s.length = t.length) (hne : s ≠ t) :
    DifferWithin (front ++ s ++ back) (front ++ t ++ back) front.length s.length where
  length := by simp [hlength]
  outside i hi := by
    rcases hi with hbefore | hafter
    · rw [List.append_assoc, List.append_assoc, List.getElem?_append_left hbefore,
        List.getElem?_append_left hbefore]
    · have hs : (front ++ s).length ≤ i := by simpa using hafter
      have ht : (front ++ t).length ≤ i := by simpa [hlength] using hafter
      rw [List.getElem?_append_right hs, List.getElem?_append_right ht, List.length_append,
        List.length_append, hlength]
  ne hsame := hne (List.append_cancel_left (List.append_cancel_right hsame))

/-- What is before the window is the same. -/
theorem take_eq (h : DifferWithin s t start width) {n : Nat} (hn : n ≤ start) :
    s.take n = t.take n := by
  apply List.ext_getElem?
  intro i
  by_cases hi : i < n
  · rw [List.getElem?_take_of_lt hi, List.getElem?_take_of_lt hi]
    exact h.outside i (.inl (Nat.lt_of_lt_of_le hi hn))
  · rw [List.getElem?_take_eq_none (Nat.le_of_not_lt hi),
      List.getElem?_take_eq_none (Nat.le_of_not_lt hi)]

/-- What is after the window is the same. -/
theorem drop_eq (h : DifferWithin s t start width) {n : Nat} (hn : start + width ≤ n) :
    s.drop n = t.drop n := by
  apply List.ext_getElem?
  intro i
  rw [List.getElem?_drop, List.getElem?_drop]
  exact h.outside (n + i) (.inr (Nat.le_trans hn (Nat.le_add_right n i)))

/-- The window itself is not. -/
theorem window_ne (h : DifferWithin s t start width) :
    (s.drop start).take width ≠ (t.drop start).take width := by
  intro hsame
  apply h.ne
  rw [← List.take_append_drop start s, ← List.take_append_drop start t, h.take_eq (Nat.le_refl _),
    ← List.take_append_drop width (s.drop start), ← List.take_append_drop width (t.drop start),
    hsame, List.drop_drop, List.drop_drop, h.drop_eq (Nat.le_refl _)]

/-- The window reaches into the contents. -/
theorem start_lt (h : DifferWithin s t start width) : start < s.length := by
  apply Nat.lt_of_not_le
  intro hpast
  have hs : s.drop start = [] := List.drop_eq_nil_of_le hpast
  have ht : t.drop start = [] := List.drop_eq_nil_of_le (h.length ▸ hpast)
  apply h.window_ne
  rw [hs, ht]

/-- The part of the contents that begins at a place before the window. -/
theorem drop (h : DifferWithin s t start width) {n : Nat} (hn : n ≤ start) :
    DifferWithin (s.drop n) (t.drop n) (start - n) width where
  length := by rw [List.length_drop, List.length_drop, h.length]
  outside i hi := by
    rw [List.getElem?_drop, List.getElem?_drop]
    exact h.outside (n + i) (by omega)
  ne := by
    intro hsame
    apply h.ne
    rw [← List.take_append_drop n s, h.take_eq hn, hsame, List.take_append_drop]

/-- The part of the contents that ends at a place after the window. -/
theorem take (h : DifferWithin s t start width) {n : Nat} (hn : start + width ≤ n) :
    DifferWithin (s.take n) (t.take n) start width where
  length := by rw [List.length_take, List.length_take, h.length]
  outside i hi := by
    by_cases hin : i < n
    · rw [List.getElem?_take_of_lt hin, List.getElem?_take_of_lt hin]
      exact h.outside i hi
    · rw [List.getElem?_take_eq_none (Nat.le_of_not_lt hin),
        List.getElem?_take_eq_none (Nat.le_of_not_lt hin)]
  ne := by
    intro hsame
    apply h.ne
    rw [← List.take_append_drop n s, h.drop_eq hn, hsame, List.take_append_drop]

/-- Contents that differ only within four bytes have different check values. -/
theorem ofBytes_ne (h : DifferWithin s t start width) (hwidth : width ≤ 4) :
    Crc32.ofBytes s ≠ Crc32.ofBytes t := by
  have hlength : ((s.drop start).take width).length = ((t.drop start).take width).length := by
    rw [List.length_take, List.length_take, List.length_drop, List.length_drop, h.length]
  have hshort : ((s.drop start).take width).length ≤ 4 :=
    Nat.le_trans (List.length_take_le width _) hwidth
  have hsplit (u : Bytes) : u
      = u.take start ++ (u.drop start).take width ++ u.drop (start + width) := by
    rw [List.append_assoc, ← List.drop_drop, List.take_append_drop, List.take_append_drop]
  rw [hsplit s, hsplit t, h.take_eq (Nat.le_refl _), h.drop_eq (Nat.le_refl _)]
  exact Crc32.ofBytes_window_ne hlength hshort h.window_ne

end DifferWithin

/-! ## Blocks -/

section blocks

variable {size : Nat} {s t : Bytes} {start width : Nat}

/-- The blocks before a block, the block, and those after it. -/
theorem cutPieces_around (hsize : 0 < size) {content : Bytes} {i : Nat}
    (hi : i * size < content.length) :
    cutPieces size content = cutPieces size (content.take (i * size)) ++
      [(content.drop (i * size)).take size] ++ cutPieces size (content.drop ((i + 1) * size)) := by
  have hsome : content ≠ [] := List.ne_nil_of_length_pos (Nat.zero_lt_of_lt hi)
  induction i generalizing content with
  | zero =>
    rw [cutPieces_of_ne_nil hsize hsome]
    simp [cutPieces]
  | succ i ih =>
    have hplace (j : Nat) : (j + 1) * size = size + j * size := by
      rw [Nat.add_one_mul, Nat.add_comm]
    have hi' : i * size < (content.drop size).length := by
      rw [hplace] at hi
      rw [List.length_drop]
      omega
    have hfirst : content.take (size + i * size) ≠ [] := by
      apply List.ne_nil_of_length_pos
      rw [List.length_take]
      omega
    rw [cutPieces_of_ne_nil hsize hsome,
      ih hi' (List.ne_nil_of_length_pos (Nat.zero_lt_of_lt hi')), List.drop_drop, List.drop_drop,
      ← hplace (i + 1), ← hplace i, hplace i, cutPieces_of_ne_nil hsize hfirst, List.take_take,
      Nat.min_eq_left (Nat.le_add_right _ _), List.drop_take, Nat.add_sub_cancel_left]
    rfl

/-- Contents that differ only within four bytes in one block have different values over blocks. -/
theorem blockValue_ne (hsize : 0 < size) (h : DifferWithin s t start width) (hwidth : width ≤ 4)
    {i : Nat} (hfrom : i * size ≤ start) (hto : start + width ≤ (i + 1) * size) :
    blockValue size s ≠ blockValue size t := by
  have hs : i * size < s.length := Nat.lt_of_le_of_lt hfrom h.start_lt
  have ht : i * size < t.length := h.length ▸ hs
  have hblock : DifferWithin ((s.drop (i * size)).take size) ((t.drop (i * size)).take size)
      (start - i * size) width := by
    apply (h.drop hfrom).take
    rw [Nat.add_one_mul] at hto
    omega
  have hdigest : bigEndian (Crc32.ofBytes ((s.drop (i * size)).take size))
      ≠ bigEndian (Crc32.ofBytes ((t.drop (i * size)).take size)) :=
    fun hsame => hblock.ofBytes_ne hwidth (bigEndian_injective hsame)
  intro hvalue
  have hdigests := hex32_injective hvalue
  rw [cutPieces_around hsize hs, cutPieces_around hsize ht, h.take_eq hfrom, h.drop_eq hto]
    at hdigests
  simp only [blockDigests_append, blockDigests_singleton] at hdigests
  exact Crc32.ofBytes_window_ne (by simp) (by simp) hdigest hdigests

end blocks

/-! ## Comparing -/

/-- Two checksums are there and differ, and whichever stores report them for two files, comparing
the files comes to a mismatch. -/
def FoundDifferent (sourceSum targetSum : Option FileChecksum) : Prop :=
  (∃ a b, sourceSum = some a ∧ targetSum = some b ∧ a.value ≠ b.value) ∧
    ∀ {σ : Type} (handler : Handler σ) (source target : Path) (s₀ s₁ s₂ : σ),
      handler (.storage .source (.checksum source)) s₀ = (.ok sourceSum, s₁) →
      handler (.storage .target (.checksum target)) s₁ = (.ok targetSum, s₂) →
      ∃ report after, Program.run handler (compareChecksums source target) s₀
        = (.done report, after) ∧ report.verdict = .mismatch

/-- Two stores that answer are compared by what they answer. -/
theorem run_compareChecksums {σ : Type} {handler : Handler σ} {source target : Path}
    {sourceSum targetSum : Option FileChecksum} {s₀ s₁ s₂ : σ}
    (hsource : handler (.storage .source (.checksum source)) s₀ = (.ok sourceSum, s₁))
    (htarget : handler (.storage .target (.checksum target)) s₁ = (.ok targetSum, s₂)) :
    ∃ after, Program.run handler (compareChecksums source target) s₀
      = (.done (.ofChecksums sourceSum targetSum), after) := by
  show ∃ after, Program.run handler (Program.ask (.storage .source (.checksum source)) _) s₀ = _
  rw [Program.run]
  simp only [hsource, Program.bind]
  show ∃ after, Program.run handler (Program.ask (.storage .target (.checksum target)) _) s₁ = _
  rw [Program.run]
  simp only [htarget, Program.bind]
  -- a verdict is logged or not, and the report is the same
  generalize ChecksumReport.ofChecksums sourceSum targetSum = report
  cases report with
  | compared => exact ⟨_, rfl⟩
  | _ => exact ⟨_, rfl⟩

/-- Comparable checksums with different values are found different. -/
theorem foundDifferent_of_ne {a b : FileChecksum} (halgorithm : a.algorithm = b.algorithm)
    (hblocks : a.blockSize = b.blockSize) (hvalue : a.value ≠ b.value) :
    FoundDifferent (some a) (some b) := by
  have hcomparable : a.comparableWith b := by
    simp [FileChecksum.comparableWith, halgorithm, hblocks]
  refine ⟨⟨a, b, rfl, rfl, hvalue⟩, ?_⟩
  intro σ handler source target s₀ s₁ s₂ hsource htarget
  obtain ⟨after, hrun⟩ := run_compareChecksums hsource htarget
  refine ⟨_, after, hrun, ?_⟩
  rw [ChecksumReport.ofChecksums, if_pos hcomparable, ChecksumReport.verdict, if_neg hvalue]

/-! ## The theorem -/

/-- Plain checksums of contents that differ only within four bytes are found different. -/
theorem DifferWithin.crc32_foundDifferent {s t : Bytes} {start width : Nat}
    (h : DifferWithin s t start width) (hwidth : width ≤ 4) (blockSize blockSize' : Nat) :
    FoundDifferent (checksumOf .crc32 blockSize s) (checksumOf .crc32 blockSize' t) := by
  have hvalue : hex32 (Crc32.ofBytes s) ≠ hex32 (Crc32.ofBytes t) :=
    fun hsame => h.ofBytes_ne hwidth (hex32_injective hsame)
  rw [checksumOf_crc32, checksumOf_crc32]
  exact foundDifferent_of_ne rfl rfl hvalue

/-- Checksums over blocks of contents that differ only within four bytes in one block are found
different. -/
theorem DifferWithin.blockCrc32_foundDifferent {s t : Bytes} {start width blockSize i : Nat}
    (h : DifferWithin s t start width) (hwidth : width ≤ 4) (hsize : 0 < blockSize)
    (hfrom : i * blockSize ≤ start) (hto : start + width ≤ (i + 1) * blockSize) :
    FoundDifferent (checksumOf .blockCrc32 blockSize s) (checksumOf .blockCrc32 blockSize t) := by
  rw [checksumOf_blockCrc32 hsize, checksumOf_blockCrc32 hsize]
  exact foundDifferent_of_ne rfl rfl (blockValue_ne hsize h hwidth hfrom hto)

/-- A change within four bytes is found. The plain checksums of contents that differ only there are
different, and so are the checksums over blocks when the place is within one block; comparing two
files of which these checksums are reported comes to a mismatch. A change of a single byte is
always found, over blocks of any size. -/
theorem localised_corruption_detected {s t : Bytes} {start width : Nat}
    (hdiffer : DifferWithin s t start width) (hwidth : width ≤ 4) :
    (∀ blockSize blockSize',
      FoundDifferent (checksumOf .crc32 blockSize s) (checksumOf .crc32 blockSize' t)) ∧
    (∀ blockSize, 0 < blockSize →
      (∃ i, i * blockSize ≤ start ∧ start + width ≤ (i + 1) * blockSize) →
      FoundDifferent (checksumOf .blockCrc32 blockSize s) (checksumOf .blockCrc32 blockSize t)) ∧
    (width = 1 → ∀ kind, kind ≠ .none → ∀ blockSize,
      FoundDifferent (checksumOf kind blockSize s) (checksumOf kind blockSize t)) := by
  refine ⟨hdiffer.crc32_foundDifferent hwidth, ?_, ?_⟩
  · rintro blockSize hsize ⟨i, hfrom, hto⟩
    exact hdiffer.blockCrc32_foundDifferent hwidth hsize hfrom hto
  · rintro rfl kind hkind blockSize
    have hplain := hdiffer.crc32_foundDifferent hwidth blockSize blockSize
    cases kind with
    | none => exact absurd rfl hkind
    | crc32 => exact hplain
    | blockCrc32 =>
      rcases Nat.eq_zero_or_pos blockSize with rfl | hsize
      · -- without a block size the plain checksum takes over
        exact hplain
      · have hfrom := Nat.div_mul_le_self start blockSize
        have hto : start + 1 ≤ (start / blockSize + 1) * blockSize := by
          rw [Nat.add_one_mul]
          exact Nat.lt_div_mul_add hsize
        exact hdiffer.blockCrc32_foundDifferent hwidth hsize hfrom hto

theorem localised_corruption_detected_small :
    FoundDifferent (checksumOf .crc32 0 (utf8 "ab" ++ utf8 "cdef" ++ utf8 "gh"))
      (checksumOf .crc32 0 (utf8 "ab" ++ utf8 "WXYZ" ++ utf8 "gh")) ∧
    FoundDifferent (checksumOf .blockCrc32 6 (utf8 "ab" ++ utf8 "cdef" ++ utf8 "gh"))
      (checksumOf .blockCrc32 6 (utf8 "ab" ++ utf8 "WXYZ" ++ utf8 "gh")) ∧
    FoundDifferent (checksumOf .blockCrc32 2 (utf8 "abc" ++ utf8 "d" ++ []))
      (checksumOf .blockCrc32 2 (utf8 "abc" ++ utf8 "e" ++ [])) := by
  have hfour : utf8 "cdef" ≠ utf8 "WXYZ" := by decide +kernel
  have hone : utf8 "d" ≠ utf8 "e" := by decide +kernel
  obtain ⟨hplain, hblocks, -⟩ :=
    localised_corruption_detected (.of_replace (by decide +kernel) hfour) (by decide +kernel)
  obtain ⟨-, -, hbyte⟩ :=
    localised_corruption_detected (.of_replace (by decide +kernel) hone) (by decide +kernel)
  refine ⟨hplain 0 0, hblocks 6 (by decide) ⟨0, by decide +kernel, by decide +kernel⟩, ?_⟩
  exact hbyte (by decide +kernel) .blockCrc32 (by decide) 2

end StagedCopy
