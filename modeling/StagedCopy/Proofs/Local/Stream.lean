import StagedCopy.Proofs.Disk.Sound
import StagedCopy.Proofs.Local.Outlet

/-!
# The streams of a disk lose nothing

Buffers decide when bytes move and never which. What a stream that reads has left are the bytes
that wait in it and those of the file after them; a read takes the next of these, as many as were
asked for. A regular file refuses nothing, so what a stream that writes has accepted is in the file,
in its inner buffer and in its outer one, in this order; every write adds to what was accepted, and
after the close all of it is in the file.

* `LocalReader.rest`, `LocalReader.read_eq` — what is left, and a read.
* `LocalWriter.Holds` — what was accepted; `LocalWriter.write_holds`, `LocalWriter.close_holds` —
  a write and the close.
-/

namespace StagedCopy

/-! ## Reading -/

namespace LocalReader

variable {disk after : Disk} {reader : LocalReader}

/-- The bytes that are left: those that wait, and those of the file after them. -/
def rest (disk : Disk) (reader : LocalReader) : Bytes :=
  reader.waiting ++ (disk.contentOf reader.inode).drop reader.offset

/-- Once the end was found nothing is left. -/
def Faithful (disk : Disk) (reader : LocalReader) : Prop :=
  reader.ended = true → reader.rest disk = []

theorem rest_congr (h : after.contentOf reader.inode = disk.contentOf reader.inode) :
    reader.rest after = reader.rest disk := by
  rw [rest, rest, h]

/-- A piece that is at least as long as a part of it, and what follows the piece. -/
theorem drop_take_append_drop (tail : Bytes) {missing wanted : Nat} (h : missing ≤ wanted) :
    (tail.take wanted).drop missing ++ tail.drop (tail.take wanted).length = tail.drop missing := by
  have hsplit : tail.drop (tail.take wanted).length = tail.drop wanted := by
    rw [List.length_take]
    rcases Nat.le_total wanted tail.length with hlong | hshort
    · rw [Nat.min_eq_left hlong]
    · rw [Nat.min_eq_right hshort, List.drop_length, List.drop_eq_nil_of_le hshort]
  rw [hsplit, List.drop_take]
  have hwhole := List.take_append_drop (wanted - missing) (tail.drop missing)
  rwa [List.drop_drop, Nat.add_sub_cancel' h] at hwhole

/-- A read takes the next bytes that are left, as many as were asked for. -/
theorem read_eq (h : reader.Faithful disk) (size : Nat) :
    (reader.read disk size).1 = (reader.rest disk).take size ∧
      (reader.read disk size).2.rest disk = (reader.rest disk).drop size ∧
      (reader.read disk size).2.Faithful disk ∧
      (reader.read disk size).2.inode = reader.inode := by
  unfold read
  split
  · next hnothing =>
    rcases hnothing with rfl | hended
    · exact ⟨rfl, rfl, h, rfl⟩
    · have hrest := h hended
      refine ⟨?_, ?_, h, rfl⟩
      · rw [hrest, List.take_nil]
      · rw [hrest, List.drop_nil]
  split
  · next hwaits =>
    refine ⟨?_, ?_, fun hended => ?_, rfl⟩
    · rw [rest, List.take_append_of_le_length hwaits]
    · rw [rest, rest, List.drop_append_of_le_length hwaits]
    · next hnothing => exact absurd hended fun hend => hnothing (.inr hend)
  · next hshort =>
    have hwaiting : reader.waiting.length ≤ size := Nat.le_of_not_le hshort
    have hwanted : size - reader.waiting.length ≤
        if pieceSize < size then size - reader.waiting.length else pieceSize := by
      split
      · exact Nat.le_refl _
      · omega
    have hrest : (((disk.contentOf reader.inode).drop reader.offset).take
          (if pieceSize < size then size - reader.waiting.length else pieceSize)).take
            (size - reader.waiting.length)
        = ((disk.contentOf reader.inode).drop reader.offset).take
          (size - reader.waiting.length) := by
      rw [List.take_take, Nat.min_eq_left hwanted]
    have hafter := drop_take_append_drop
      ((disk.contentOf reader.inode).drop reader.offset) hwanted
    rw [List.drop_drop] at hafter
    have hdrop : (reader.rest disk).drop size
        = ((disk.contentOf reader.inode).drop reader.offset).drop
          (size - reader.waiting.length) := by
      rw [rest, List.drop_append, List.drop_eq_nil_of_le hwaiting, List.nil_append]
    refine ⟨?_, ?_, fun hended => ?_, rfl⟩
    · simp only [hrest]
      rw [rest, List.take_append, List.take_of_length_le hwaiting]
    · rw [hdrop]
      exact hafter
    · -- the end is found when fewer bytes came than were asked for
      refine hafter.trans ?_
      have hfewer := of_decide_eq_true hended
      simp only [hrest, List.length_append, List.length_take] at hfewer
      exact List.drop_eq_nil_of_le (by omega)

theorem new_faithful {inode : Inode} : LocalReader.Faithful disk { inode := inode } :=
  fun hended => nomatch hended

theorem rest_new {inode : Inode} :
    LocalReader.rest disk { inode := inode } = disk.contentOf inode := rfl

end LocalReader

/-! ## Writing -/

namespace Disk

theorem overwrite_end (content data : Bytes) :
    overwrite content content.length data = content ++ data := by
  rw [overwrite, List.take_length, Nat.sub_self, List.replicate_zero, List.append_nil,
    List.drop_eq_nil_of_le (Nat.le_add_right _ _), List.append_nil]

variable {disk s : Disk} {n : Nat} {content data : Bytes}

/-- A regular file takes what is put at its end, and nothing else happens to the disk. -/
theorem outlet_put (hn : n < disk.contents.size) (h : disk.Refills s n content) :
    ∃ after, (outlet (.regular n)).put s (s.contentOf (.regular n)).length data = (true, after) ∧
      after.contentOf (.regular n) = s.contentOf (.regular n) ++ data ∧
      disk.Refills after n (after.contentOf (.regular n)) := by
  obtain ⟨after, hwrite, hrefills⟩ := writeAt_refills (s.contentOf (.regular n)).length data
    (h.size.symm ▸ hn : n < s.contents.size)
  rw [overwrite_end] at hrefills
  refine ⟨after, ?_, hrefills.content, hrefills.content.symm ▸ h.trans hrefills⟩
  simp only [outlet, hwrite]

/-- A regular file is an outlet; the states are the disks that differ in this file only. -/
def fileOutlet (disk : Disk) (n : Nat) (hn : n < disk.contents.size) : FileOutlet Disk where
  toOutlet := outlet (.regular n)
  sound s := disk.Refills s n (s.contentOf (.regular n))
  content s := s.contentOf (.regular n)
  sound_put {s data taken after} hsound hput := by
    obtain ⟨written, hwritten, -, hrefills⟩ := outlet_put hn hsound
    obtain ⟨-, rfl⟩ := Prod.ext_iff.1 (hwritten.symm.trans hput)
    exact hrefills
  content_taken {s data after} hsound hput := by
    obtain ⟨written, hwritten, hcontent, -⟩ := outlet_put hn hsound
    obtain ⟨-, rfl⟩ := Prod.ext_iff.1 (hwritten.symm.trans hput)
    exact hcontent
  content_refused {s data after} hsound _ hput := by
    obtain ⟨written, hwritten, -, -⟩ := outlet_put hn hsound
    cases hwritten.symm.trans hput

theorem fileOutlet_takesAll (hn : n < disk.contents.size) : (disk.fileOutlet n hn).TakesAll := by
  intro s data hsound
  obtain ⟨written, hwritten, -, -⟩ := outlet_put hn hsound
  exact congrArg Prod.fst hwritten

end Disk

namespace LocalWriter

variable {disk after : Disk} {writer : LocalWriter} {n : Nat} {accepted : Bytes}

/-- The file and the buffers hold the accepted bytes in order, and the file has refused none. -/
structure Holds (disk : Disk) (n : Nat) (accepted : Bytes) (writer : LocalWriter) : Prop where
  inode : writer.inode = .regular n
  offset : writer.offset = (disk.contentOf (.regular n)).length
  unbroken : writer.broken = false
  bytes : disk.contentOf (.regular n) ++ (writer.inner.bytes ++ writer.outer.bytes) = accepted

theorem Holds.conveys (h : writer.Holds disk n accepted) (hn : n < disk.contents.size) :
    Conveys (disk.fileOutlet n hn) disk accepted writer where
  sound := .refl disk n
  whole _ := ⟨h.offset, h.bytes⟩
  short hbroken := absurd (h.unbroken.symm.trans hbroken) Bool.false_ne_true
  unbroken _ := h.unbroken

/-- What an operation of a stream has done: it served, and bytes were moved to the file. -/
structure Served (disk : Disk) (n : Nat) (accepted : Bytes) (closed : Bool)
    (step : Step Disk) : Prop where
  answer : step.answer = .ok ()
  holds : step.writer.Holds step.outlet n accepted
  closed : step.writer.closed = closed
  refills : ∃ content, disk.Refills step.outlet n content

/-- A write to an open stream is accepted. -/
theorem write_holds (data : Bytes) (hn : n < disk.contents.size)
    (h : writer.Holds disk n accepted) (hopen : writer.closed = false) :
    Served disk n (accepted ++ data) false
      (writer.write (Disk.outlet (.regular n)) disk data) := by
  obtain ⟨hconveys, hanswer⟩ := write_conveyed (h.conveys hn) hopen data
  have hsame := write_same (Disk.outlet (.regular n)) disk writer data
  have hunbroken := hconveys.unbroken (Disk.fileOutlet_takesAll hn)
  obtain ⟨hoffset, hbytes⟩ := hconveys.whole hunbroken
  exact ⟨hanswer hunbroken, ⟨hsame.inode.trans h.inode, hoffset, hunbroken, hbytes⟩,
    hsame.closed.trans hopen, _, hconveys.sound⟩

/-- The close of an open stream brings all that was accepted to the file. -/
theorem close_holds (hn : n < disk.contents.size) (h : writer.Holds disk n accepted)
    (hopen : writer.closed = false) :
    (writer.close (Disk.outlet (.regular n)) disk).answer = .ok () ∧
      disk.Refills (writer.close (Disk.outlet (.regular n)) disk).outlet n accepted := by
  obtain ⟨hlast, -, hwhole, hiff⟩ := close_conveyed (h.conveys hn) hopen
  have hcontent := hwhole.1 (hlast.unbroken (Disk.fileOutlet_takesAll hn))
  exact ⟨hiff.2 ⟨hcontent, rfl⟩, hcontent ▸ hlast.sound⟩

/-- A stream on a file that was just emptied has accepted nothing yet. -/
theorem new_holds {path : Path} {capacity : Nat} (h : disk.contentOf (.regular n) = []) :
    Holds disk n [] { path := path, inode := .regular n, capacity := capacity } := by
  refine ⟨rfl, ?_, rfl, ?_⟩
  · rw [h]
    rfl
  · rw [h]
    rfl

end LocalWriter

end StagedCopy
