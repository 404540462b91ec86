import StagedCopy.Local.Stream

/-!
# Writing through buffers

A stream that writes has accepted more bytes than its file has. As long as the file refuses nothing,
the missing ones wait in the buffers, and buffers decide when bytes move and never which. Once the
file has refused a byte this byte is gone, since a buffer is emptied whether or not the file takes
it; but the stream stays broken then, so its close reports it, whatever later writes have answered.

* `FileOutlet` — what is known of a file: it grows at its end, by less than it was given when it
  refuses.
* `LocalWriter.Conveys` — how what was accepted, the file and the buffers belong together, with a
  lemma for every operation.
* `LocalWriter.writeAll` — writes one after another.
* `LocalWriter.conveys_everything` — the theorem.
-/

namespace StagedCopy

variable {σ : Type}

/-! ## Files -/

/-- An outlet that is a file: in a sound state, what is put at the end of the content is appended to
it, or less than that when the file refuses. -/
structure FileOutlet (σ : Type) extends Outlet σ where
  sound : σ → Prop
  content : σ → Bytes
  sound_put : ∀ {s : σ} {data : Bytes} {taken : Bool} {after : σ}, sound s →
    put s (content s).length data = (taken, after) → sound after
  content_taken : ∀ {s : σ} {data : Bytes} {after : σ}, sound s →
    put s (content s).length data = (true, after) → content after = content s ++ data
  content_refused : ∀ {s : σ} {data : Bytes} {after : σ}, sound s → data ≠ [] →
    put s (content s).length data = (false, after) →
      ∃ k < data.length, content after = content s ++ data.take k

/-- The file accepts every byte. -/
def FileOutlet.TakesAll (file : FileOutlet σ) : Prop :=
  ∀ s data, file.sound s → (file.put s (file.content s).length data).1 = true

/-- The file can be closed whatever is in it. -/
def FileOutlet.Closes (file : FileOutlet σ) : Prop :=
  ∀ s, file.sound s → file.finish s = true

/-- A file on a device with room for so many bytes. -/
def FileOutlet.limited (room : Nat) : FileOutlet Bytes where
  put s _ data := (decide (s.length + data.length ≤ room), (s ++ data).take room)
  finish _ := true
  sound s := s.length ≤ room
  content s := s
  sound_put {s data taken after} _ hput := by
    obtain ⟨-, rfl⟩ := Prod.ext_iff.1 hput
    exact List.length_take_le room (s ++ data)
  content_taken {s data after} _ hput := by
    obtain ⟨hfits, rfl⟩ := Prod.ext_iff.1 hput
    refine List.take_of_length_le ?_
    rw [List.length_append]
    exact of_decide_eq_true hfits
  content_refused {s data after} hsound _ hput := by
    obtain ⟨hfull, rfl⟩ := Prod.ext_iff.1 hput
    have hmore := of_decide_eq_false hfull
    refine ⟨room - s.length, by omega, ?_⟩
    dsimp only
    rw [List.take_append, List.take_of_length_le hsound]

namespace LocalWriter

/-- The streams differ in their buffers only. -/
structure SameStream (writer after : LocalWriter) : Prop where
  path : after.path = writer.path
  inode : after.inode = writer.inode
  capacity : after.capacity = writer.capacity
  closed : after.closed = writer.closed

theorem SameStream.refl (writer : LocalWriter) : SameStream writer writer := ⟨rfl, rfl, rfl, rfl⟩

theorem SameStream.trans {writer after last : LocalWriter} (h : SameStream writer after)
    (h' : SameStream after last) : SameStream writer last where
  path := h'.path.trans h.path
  inode := h'.inode.trans h.inode
  capacity := h'.capacity.trans h.capacity
  closed := h'.closed.trans h.closed

theorem bytes_of_size {backlog : Backlog} (h : backlog.size = 0) : backlog.bytes = [] :=
  List.eq_nil_of_length_eq_zero (backlog.length_bytes.trans h)

theorem verdict_eq_ok_iff {writer : LocalWriter} :
    writer.verdict = .ok () ↔ writer.broken = false := by
  unfold verdict
  cases writer.broken <;> simp

theorem ending_eq_ok_iff {outlet : Outlet σ} {s : σ} {writer : LocalWriter} :
    writer.ending outlet s = .ok () ↔ writer.broken = false ∧ outlet.finish s = true := by
  unfold ending verdict
  cases writer.broken <;> cases outlet.finish s <;> simp

/-! ## The outer buffer -/

section outlet

variable (outlet : Outlet σ) (s : σ) (writer : LocalWriter) (data : Bytes)

theorem empty_same : SameStream writer (writer.empty outlet s).1 ∧
    (writer.empty outlet s).1.outer = writer.outer := by
  unfold empty
  split
  · exact ⟨.refl writer, rfl⟩
  · split <;> exact ⟨⟨rfl, rfl, rfl, rfl⟩, rfl⟩

theorem pass_same : SameStream writer (writer.pass outlet s data).1 ∧
    (writer.pass outlet s data).1.outer = writer.outer := by
  unfold pass
  split
  · exact ⟨.refl writer, rfl⟩
  · dsimp only
    split
    · obtain ⟨hsame, houter⟩ :=
        empty_same outlet s { writer with inner := writer.inner.push data }
      exact ⟨⟨hsame.path, hsame.inode, hsame.capacity, hsame.closed⟩, houter⟩
    · exact ⟨⟨rfl, rfl, rfl, rfl⟩, rfl⟩

/-- A flush leaves nothing in the outer buffer, whether or not the file takes it. -/
theorem flush_same : SameStream writer (writer.flush outlet s).1 ∧
    (writer.flush outlet s).1.outer.size = 0 := by
  unfold flush
  split
  · next hsize =>
    obtain ⟨hsame, houter⟩ := empty_same outlet s writer
    exact ⟨hsame, by rw [houter, hsize]⟩
  · obtain ⟨hpass, hpassOuter⟩ :=
      pass_same outlet s { writer with outer := .empty } writer.outer.bytes
    obtain ⟨hempty, hemptyOuter⟩ := empty_same outlet
      ({ writer with outer := .empty }.pass outlet s writer.outer.bytes).2
      ({ writer with outer := .empty }.pass outlet s writer.outer.bytes).1
    have hsame := hpass.trans hempty
    refine ⟨⟨hsame.path, hsame.inode, hsame.capacity, hsame.closed⟩, ?_⟩
    dsimp only
    rw [hemptyOuter, hpassOuter]
    rfl

theorem accept_same : SameStream writer (writer.accept outlet s data).writer := by
  unfold accept
  split
  · exact (pass_same outlet s writer data).1
  · exact ⟨rfl, rfl, rfl, rfl⟩

theorem write_same : SameStream writer (writer.write outlet s data).writer := by
  unfold write
  split
  · exact .refl writer
  split
  · have hflush := (flush_same outlet s writer).1
    dsimp only
    split
    · exact hflush
    · exact hflush.trans (accept_same outlet _ _ data)
  · exact accept_same outlet s writer data

/-- A close leaves the stream closed. -/
theorem close_same : SameStream { writer with closed := true } (writer.close outlet s).writer := by
  unfold close
  split
  · next hclosed => exact ⟨rfl, rfl, rfl, hclosed⟩
  · exact (flush_same outlet s { writer with closed := true }).1

end outlet

variable {outlet : Outlet σ} {s : σ} {writer : LocalWriter} {data : Bytes}

/-- Bytes are only added to the outer buffer when they fit. -/
theorem accept_room (hroom : writer.outer.size ≤ writer.capacity)
    (hfits : writer.outer.size = 0 ∨ writer.outer.size + data.length ≤ writer.capacity) :
    (writer.accept outlet s data).writer.outer.size ≤ writer.capacity := by
  unfold accept
  split
  · rw [(pass_same outlet s writer data).2]
    exact hroom
  · simp only [Backlog.push]
    omega

/-- The outer buffer never outgrows its capacity. -/
theorem write_room (hroom : writer.outer.size ≤ writer.capacity) :
    (writer.write outlet s data).writer.outer.size ≤ writer.capacity := by
  unfold write
  split
  · exact hroom
  split
  · obtain ⟨hsame, houter⟩ := flush_same outlet s writer
    dsimp only
    split
    · exact houter ▸ Nat.zero_le _
    · rw [← hsame.capacity]
      exact accept_room (by omega) (.inl houter)
  · exact accept_room hroom (by omega)

theorem close_room (hroom : writer.outer.size ≤ writer.capacity) :
    (writer.close outlet s).writer.outer.size ≤ writer.capacity := by
  unfold close
  split
  · exact hroom
  · dsimp only
    rw [(flush_same outlet s { writer with closed := true }).2]
    exact Nat.zero_le _

/-! ## Bytes on their way -/

/-- The file has a beginning of the accepted bytes. If it refused none, then the others wait in the
buffers, in their order, and the stream goes on at the end of the file. Otherwise some are missing
from the file for good; this does not happen when the file accepts every byte. -/
structure Conveys (file : FileOutlet σ) (s : σ) (accepted : Bytes) (writer : LocalWriter) :
    Prop where
  sound : file.sound s
  whole : writer.broken = false → writer.offset = (file.content s).length ∧
    file.content s ++ (writer.inner.bytes ++ writer.outer.bytes) = accepted
  short : writer.broken = true → file.content s <+: accepted ∧
    (file.content s).length < accepted.length
  unbroken : file.TakesAll → writer.broken = false

variable {file : FileOutlet σ} {accepted : Bytes}

/-- A broken stream stays short of bytes, whatever else it accepts or loses. -/
theorem Conveys.of_broken {after : LocalWriter} (h : Conveys file s accepted writer)
    (hbroken : writer.broken = true) (hafter : after.broken = true) (data : Bytes) :
    Conveys file s (accepted ++ data) after := by
  obtain ⟨hbegins, hlength⟩ := h.short hbroken
  refine ⟨h.sound, fun hwhole => ?_, fun _ => ⟨hbegins.trans (List.prefix_append _ _), ?_⟩,
    fun hall => ?_⟩
  · rw [hafter] at hwhole
    cases hwhole
  · rw [List.length_append]
    omega
  · rw [← h.unbroken hall, hbroken, hafter]

/-- To empty the inner buffer. -/
theorem empty_conveys (h : Conveys file s accepted writer) :
    Conveys file (writer.empty file.toOutlet s).2 accepted (writer.empty file.toOutlet s).1 ∧
      ((writer.empty file.toOutlet s).1.broken = false →
        (writer.empty file.toOutlet s).1.inner.size = 0) := by
  unfold empty
  split
  · next hnothing =>
    refine ⟨h, fun (hunbroken : writer.broken = false) => ?_⟩
    simpa [hunbroken] using hnothing
  · next hwaiting =>
    obtain ⟨hunbroken, hsize⟩ : writer.broken = false ∧ writer.inner.size ≠ 0 := by
      simpa using hwaiting
    obtain ⟨hoffset, hbytes⟩ := h.whole hunbroken
    split
    · next after hput =>
      rw [hoffset] at hput
      have hcontent := file.content_taken h.sound hput
      refine ⟨⟨file.sound_put h.sound hput, fun _ => ⟨?_, ?_⟩, fun hbroken => ?_, h.unbroken⟩,
        fun _ => rfl⟩
      · rw [hcontent, List.length_append, Backlog.length_bytes, hoffset]
      · rw [hcontent, ← hbytes]
        simp
      · rw [hunbroken] at hbroken
        cases hbroken
    · next after hput =>
      rw [hoffset] at hput
      have hinner : writer.inner.bytes ≠ [] := by
        intro hnil
        rw [← Backlog.length_bytes, hnil] at hsize
        exact hsize rfl
      obtain ⟨k, hk, hcontent⟩ := file.content_refused h.sound hinner hput
      refine ⟨⟨file.sound_put h.sound hput, fun hwhole => ?_, fun _ => ⟨?_, ?_⟩, fun hall => ?_⟩,
        fun hwhole => ?_⟩
      · cases hwhole
      · rw [hcontent, ← hbytes, List.prefix_append_right_inj]
        exact (List.take_prefix _ _).trans (List.prefix_append _ _)
      · rw [hcontent, ← hbytes, List.length_append, List.length_append, List.length_append,
          List.length_take]
        omega
      · have htaken := hall s writer.inner.bytes h.sound
        rw [hput] at htaken
        cases htaken
      · cases hwhole

/-- To give bytes to the inner buffer, when none wait before them in the outer one. -/
theorem pass_conveys (h : Conveys file s accepted writer)
    (houter : writer.broken = false → writer.outer.size = 0) (data : Bytes) :
    Conveys file (writer.pass file.toOutlet s data).2 (accepted ++ data)
      (writer.pass file.toOutlet s data).1 := by
  unfold pass
  split
  · next hbroken => exact h.of_broken hbroken hbroken data
  · next hbroken =>
    have hunbroken := Bool.eq_false_iff.2 hbroken
    have hlonger : Conveys file s (accepted ++ data)
        { writer with inner := writer.inner.push data } := by
      obtain ⟨hoffset, hbytes⟩ := h.whole hunbroken
      refine ⟨h.sound, fun _ => ⟨hoffset, ?_⟩, fun hbroken' => absurd hbroken' hbroken, h.unbroken⟩
      rw [← hbytes, bytes_of_size (houter hunbroken)]
      simp
    dsimp only
    split
    · exact (empty_conveys hlonger).1
    · exact hlonger

/-- After a flush nothing waits any more. -/
theorem flush_conveys (h : Conveys file s accepted writer) :
    Conveys file (writer.flush file.toOutlet s).2 accepted (writer.flush file.toOutlet s).1 ∧
      ((writer.flush file.toOutlet s).1.broken = false →
        (writer.flush file.toOutlet s).1.inner.size = 0) := by
  unfold flush
  split
  · exact empty_conveys h
  · -- the outer buffer is emptied before its bytes are passed on
    have hpassed : Conveys file
        ({ writer with outer := .empty }.pass file.toOutlet s writer.outer.bytes).2 accepted
        ({ writer with outer := .empty }.pass file.toOutlet s writer.outer.bytes).1 := by
      by_cases hbroken : writer.broken = true
      · unfold pass
        rw [if_pos hbroken]
        rw [← List.append_nil accepted]
        refine h.of_broken hbroken ?_ []
        exact hbroken
      · obtain ⟨hoffset, hbytes⟩ := h.whole (Bool.eq_false_iff.2 hbroken)
        have hheld : Conveys file s (file.content s ++ writer.inner.bytes)
            { writer with outer := .empty } :=
          ⟨h.sound, fun _ => ⟨hoffset, by simp⟩, fun hbroken' => absurd hbroken' hbroken,
            h.unbroken⟩
        have hpassed := pass_conveys hheld (fun _ => rfl) writer.outer.bytes
        rwa [List.append_assoc, hbytes] at hpassed
    exact empty_conveys hpassed

/-- What an operation has done: it accepted the bytes, and it answers that all is well unless the
file has refused some. -/
structure Conveyed (file : FileOutlet σ) (accepted : Bytes) (step : Step σ) : Prop where
  conveys : Conveys file step.outlet accepted step.writer
  answer : step.writer.broken = false → step.answer = .ok ()

/-- To accept bytes that fit, or that are as many as an empty buffer can hold. -/
theorem accept_conveyed (h : Conveys file s accepted writer) (data : Bytes)
    (hfits : writer.outer.size = 0 ∨ writer.outer.size + data.length ≤ writer.capacity) :
    Conveyed file (accepted ++ data) (writer.accept file.toOutlet s data) := by
  unfold accept
  split
  · exact ⟨pass_conveys h (fun _ => by omega) data, verdict_eq_ok_iff.2⟩
  · refine ⟨?_, fun _ => rfl⟩
    dsimp only
    by_cases hbroken : writer.broken = true
    · refine h.of_broken hbroken ?_ data
      exact hbroken
    · obtain ⟨hoffset, hbytes⟩ := h.whole (Bool.eq_false_iff.2 hbroken)
      refine ⟨h.sound, fun _ => ⟨hoffset, ?_⟩, fun hbroken' => absurd hbroken' hbroken, h.unbroken⟩
      rw [← hbytes]
      simp

/-- A write to an open stream. The bytes of a write that fails are gone. -/
theorem write_conveyed (h : Conveys file s accepted writer) (hopen : writer.closed = false)
    (data : Bytes) : Conveyed file (accepted ++ data) (writer.write file.toOutlet s data) := by
  unfold write
  rw [hopen, if_neg Bool.false_ne_true]
  split
  · obtain ⟨hflushed, -⟩ := flush_conveys h
    have houter := (flush_same file.toOutlet s writer).2
    dsimp only
    split
    · next e herror =>
      have hbroken : (writer.flush file.toOutlet s).1.broken = true := by
        rw [← Bool.not_eq_false, ← verdict_eq_ok_iff, herror]
        exact nofun
      refine ⟨hflushed.of_broken hbroken hbroken data, fun hunbroken => ?_⟩
      rw [hbroken] at hunbroken
      cases hunbroken
    · exact accept_conveyed hflushed data (.inl houter)
  · next hroom => exact accept_conveyed h data (.inr (Nat.not_lt.1 hroom))

/-- The close of an open stream: the file has all that was accepted, unless it has refused some, and
the answer says which, and whether the file was closed. -/
theorem close_conveyed (h : Conveys file s accepted writer) (hopen : writer.closed = false) :
    let last := writer.close file.toOutlet s
    Conveys file last.outlet accepted last.writer ∧
      file.content last.outlet <+: accepted ∧
      (last.writer.broken = false ↔ file.content last.outlet = accepted) ∧
      (last.answer = .ok () ↔
        file.content last.outlet = accepted ∧ file.finish last.outlet = true) := by
  unfold close
  rw [hopen, if_neg Bool.false_ne_true]
  have hheld : Conveys file s accepted { writer with closed := true } :=
    ⟨h.sound, h.whole, h.short, h.unbroken⟩
  obtain ⟨hflushed, hinner⟩ := flush_conveys hheld
  have houter := (flush_same file.toOutlet s { writer with closed := true }).2
  dsimp only
  rw [ending_eq_ok_iff]
  refine ⟨hflushed, ?_⟩
  cases hbroken : (flush file.toOutlet s { writer with closed := true }).1.broken with
  | true =>
    obtain ⟨hbegins, hlength⟩ := hflushed.short hbroken
    have hmissing : file.content
        (flush file.toOutlet s { writer with closed := true }).2 ≠ accepted := by
      intro hall
      rw [hall] at hlength
      exact absurd hlength (Nat.lt_irrefl _)
    simpa [hmissing] using hbegins
  | false =>
    obtain ⟨-, hbytes⟩ := hflushed.whole hbroken
    rw [bytes_of_size (hinner hbroken), bytes_of_size houter, List.append_nil, List.append_nil]
      at hbytes
    simp [hbytes]

/-- A stream on an empty file has accepted nothing yet. -/
theorem new_conveys {path : Path} {inode : Inode} {capacity : Nat} (hsound : file.sound s)
    (hempty : file.content s = []) : Conveys file s [] { path, inode, capacity } := by
  refine ⟨hsound, fun _ => ⟨?_, ?_⟩, nofun, fun _ => rfl⟩
  · rw [hempty]
    rfl
  · rw [hempty]
    rfl

/-! ## Writes one after another -/

/-- The answers to writes one after another, and the stream and the outlet after them. -/
structure Run (σ : Type) where
  answers : List (Except LocalError Unit)
  writer : LocalWriter
  outlet : σ

/-- Writes one after another. -/
def writeAll (outlet : Outlet σ) (s : σ) (writer : LocalWriter) : List Bytes → Run σ
  | [] => ⟨[], writer, s⟩
  | data :: rest =>
    let step := writer.write outlet s data
    let run := writeAll outlet step.outlet step.writer rest
    ⟨step.answer :: run.answers, run.writer, run.outlet⟩

theorem writeAll_same (chunks : List Bytes) :
    SameStream writer (writeAll outlet s writer chunks).writer := by
  induction chunks generalizing s writer with
  | nil => exact .refl writer
  | cons data rest ih => exact (write_same outlet s writer data).trans ih

theorem writeAll_room (chunks : List Bytes) (hroom : writer.outer.size ≤ writer.capacity) :
    (writeAll outlet s writer chunks).writer.outer.size ≤ writer.capacity := by
  induction chunks generalizing s writer with
  | nil => exact hroom
  | cons data rest ih =>
    have hcapacity := (write_same outlet s writer data).capacity
    have hnext : (writer.write outlet s data).writer.outer.size ≤ writer.capacity :=
      write_room hroom
    rw [← hcapacity] at hnext ⊢
    exact ih hnext

/-- Every write that is made adds its bytes to those that were accepted. -/
theorem writeAll_conveys (chunks : List Bytes) (h : Conveys file s accepted writer)
    (hopen : writer.closed = false) :
    Conveys file (writeAll file.toOutlet s writer chunks).outlet (accepted ++ chunks.flatten)
        (writeAll file.toOutlet s writer chunks).writer ∧
      (file.TakesAll → ∀ answer ∈ (writeAll file.toOutlet s writer chunks).answers,
        answer = .ok ()) := by
  induction chunks generalizing s writer accepted with
  | nil =>
    rw [List.flatten_nil, List.append_nil]
    exact ⟨h, fun _ answer hanswer => absurd hanswer List.not_mem_nil⟩
  | cons data rest ih =>
    have hwritten := write_conveyed h hopen data
    have hclosed := (write_same file.toOutlet s writer data).closed
    obtain ⟨hconveys, hanswers⟩ := ih hwritten.conveys (hclosed.trans hopen)
    rw [List.append_assoc, ← List.flatten_cons] at hconveys
    refine ⟨hconveys, fun hall => List.forall_mem_cons.2 ⟨?_, hanswers hall⟩⟩
    exact hwritten.answer (hwritten.conveys.unbroken hall)

/-- Once a stream is closed, writes are refused and nothing happens. -/
theorem writeAll_of_closed (chunks : List Bytes) (hclosed : writer.closed = true) :
    writeAll outlet s writer chunks =
      ⟨chunks.map fun _ => .error (.writeAfterClose writer.path), writer, s⟩ := by
  induction chunks with
  | nil => rfl
  | cons data rest ih =>
    have hwrite : writer.write outlet s data
        = ⟨.error (.writeAfterClose writer.path), writer, s⟩ := by
      unfold write
      rw [if_pos hclosed]
    rw [writeAll, hwrite]
    dsimp only
    rw [ih]
    rfl

/-- Writes of any sizes through a buffer of any capacity, and then the close. When the file accepts
every byte, all writes are answered well, the file has just what was written, and so the close is
answered well if the file can be closed. In any case the file has a beginning of what was written,
and the close answers well only if this is all of it; so a refused byte is reported by the close at
the latest, even if writes after it were answered well. The buffer never outgrows its capacity, and
writes after the close are refused and change nothing. -/
theorem conveys_everything (file : FileOutlet σ) {s : σ} (hsound : file.sound s)
    (hempty : file.content s = []) (path : Path) (inode : Inode) (capacity : Nat)
    (chunks : List Bytes) :
    let run := writeAll file.toOutlet s { path, inode, capacity } chunks
    let last := run.writer.close file.toOutlet run.outlet
    (file.TakesAll → (∀ answer ∈ run.answers, answer = .ok ()) ∧
        file.content last.outlet = chunks.flatten ∧ (file.Closes → last.answer = .ok ())) ∧
      file.content last.outlet <+: chunks.flatten ∧
      (last.answer = .ok () ↔
        file.content last.outlet = chunks.flatten ∧ file.finish last.outlet = true) ∧
      run.writer.outer.size ≤ capacity ∧ last.writer.outer.size ≤ capacity ∧
      ∀ more, writeAll file.toOutlet last.outlet last.writer more
        = ⟨more.map fun _ => .error (.writeAfterClose path), last.writer, last.outlet⟩ := by
  intro run last
  have hsame : SameStream { path, inode, capacity } run.writer := writeAll_same chunks
  obtain ⟨hconveys, hanswers⟩ := writeAll_conveys chunks (new_conveys hsound hempty) rfl
  obtain ⟨hlast, hbegins, hwhole, hiff⟩ := close_conveyed hconveys hsame.closed
  have hroom : run.writer.outer.size ≤ capacity := writeAll_room chunks (Nat.zero_le capacity)
  refine ⟨fun hall => ?_, hbegins, hiff, hroom, ?_, fun more => ?_⟩
  · have hcontent := hwhole.1 (hlast.unbroken hall)
    exact ⟨hanswers hall, hcontent, fun hcloses => hiff.2 ⟨hcontent, hcloses _ hlast.sound⟩⟩
  · have hkept : last.writer.outer.size ≤ run.writer.capacity :=
      close_room (hsame.capacity ▸ hroom)
    rwa [hsame.capacity] at hkept
  · have hclose := close_same file.toOutlet run.outlet run.writer
    have hpath : last.writer.path = path := hclose.path.trans hsame.path
    rw [← hpath]
    exact writeAll_of_closed more hclose.closed

/-- The last of six bytes does not fit on the device. No write says so, but the close does. -/
theorem conveys_everything_limited :
    ((FileOutlet.limited 5).sound [] ∧ (FileOutlet.limited 5).content [] = []) ∧
      let run := writeAll (FileOutlet.limited 5).toOutlet []
        { path := utf8 "f", inode := .regular 0, capacity := 2 } [[1], [2, 3], [4, 5, 6]]
      run.answers = [.ok (), .ok (), .ok ()] ∧
        (run.writer.close (FileOutlet.limited 5).toOutlet run.outlet).answer ≠ .ok () := by
  have hsound : (FileOutlet.limited 5).sound [] := Nat.zero_le 5
  obtain ⟨-, -, hiff, -⟩ := conveys_everything (FileOutlet.limited 5) hsound rfl (utf8 "f")
    (.regular 0) 2 [[1], [2, 3], [4, 5, 6]]
  exact ⟨⟨hsound, rfl⟩, rfl, fun hok => absurd (hiff.1 hok).1 (by decide)⟩

end LocalWriter

end StagedCopy
