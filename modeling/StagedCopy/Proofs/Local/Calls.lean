import StagedCopy.Local
import StagedCopy.Proofs.Execution
import StagedCopy.Proofs.Copy.Phase
import StagedCopy.Proofs.Local.Stream

/-!
# What the calls on a store on disk do

For each call the change of the disk and of the streams, in terms of what the calls of the disk do.
Most calls leave everything as it is when they fail; a file that cannot be created may leave new
directories behind.

* `LocalStep` — a store on disk that answers the calls of both sides; `LocalSettings.sharing` — as a
  handler.
* `LocalSystem.Accepts`, `LocalSystem.Gives` — what a stream has accepted, and what it has left.
* `LocalStep.of_created`, `LocalStep.of_notCreated` and so on — what a call and its answer mean.
-/

namespace StagedCopy

open Program (Exchange Handler)

namespace LocalSystem

variable {system after : LocalSystem} {stream : StreamId} {n : Nat} {bytes rest : Bytes}
  {path : Path}

/-! ## Streams -/

/-- The stream is open for writing a regular file, and has accepted the bytes. -/
def Accepts (system : LocalSystem) (stream : StreamId) (n : Nat) (bytes : Bytes) : Prop :=
  n < system.disk.contents.size ∧ ∃ writer, system.writers[stream]? = some writer ∧
    writer.closed = false ∧ writer.Holds system.disk n bytes

/-- The stream reads a regular file, and has the bytes left. -/
def Gives (system : LocalSystem) (stream : StreamId) (n : Nat) (rest : Bytes) : Prop :=
  ∃ reader, system.readers[stream]? = some reader ∧ reader.inode = .regular n ∧
    reader.Faithful system.disk ∧ reader.rest system.disk = rest

theorem Accepts.of_same (h : system.Accepts stream n bytes) (hdisk : after.disk = system.disk)
    (hwriters : after.writers = system.writers) : after.Accepts stream n bytes := by
  unfold Accepts
  rw [hdisk, hwriters]
  exact h

/-- A stream that reads is not touched by what happens to other files. -/
theorem Gives.of_content (h : system.Gives stream n rest)
    (hreaders : after.readers = system.readers)
    (hcontent : after.disk.contentOf (.regular n) = system.disk.contentOf (.regular n)) :
    after.Gives stream n rest := by
  obtain ⟨reader, hreader, hinode, hfaithful, hrest⟩ := h
  have hsame : reader.rest after.disk = reader.rest system.disk :=
    LocalReader.rest_congr (hinode ▸ hcontent)
  refine ⟨reader, hreaders ▸ hreader, hinode, fun hended => ?_, hsame.trans hrest⟩
  rw [hsame]
  exact hfaithful hended

/-! ## Operations -/

theorem openFile_eq_ok {result : LocalSystem} :
    system.openFile path = (.ok stream, result) ↔
      ∃ k n, system.disk.stat path = .ok (k, .file (.regular n)) ∧
        system.readers.size = stream ∧
        { system with readers := system.readers.push { inode := .regular n } } = result := by
  unfold openFile refuse
  cases system.disk.stat path with
  | error e => simp
  | ok found =>
    obtain ⟨k, node⟩ := found
    match node with
    | .directory => simp
    | .file .full => simp
    | .file (.regular n) => simp

theorem openFile_error {e : LocalError} (h : system.openFile path = (.error e, after)) :
    after = system := by
  unfold openFile at h
  split at h
  · exact (Prod.ext_iff.1 h).2.symm
  · cases h
  · exact (Prod.ext_iff.1 h).2.symm

theorem startFile_eq_stream {size : Nat} :
    system.startFile path size = (.ok (.ok stream), after) ↔
      ∃ inode disk, system.disk.openForWriting path = .ok (inode, disk) ∧
        Breakdown.ofBuffer? system.allocator .file size = none ∧ system.writers.size = stream ∧
        { system with
          disk := disk
          writers := system.writers.push { path := path, inode := inode, capacity := size } }
          = after := by
  unfold startFile refuse
  cases system.disk.openForWriting path with
  | error e => simp
  | ok result =>
    obtain ⟨inode, disk⟩ := result
    cases Breakdown.ofBuffer? system.allocator .file size <;> simp

theorem startFile_eq_trouble {size : Nat} {trouble : Breakdown} :
    system.startFile path size = (.ok (.error trouble), after) ↔
      ∃ inode disk, system.disk.openForWriting path = .ok (inode, disk) ∧
        Breakdown.ofBuffer? system.allocator .file size = some trouble ∧
        { system with disk := disk } = after := by
  unfold startFile refuse
  cases system.disk.openForWriting path with
  | error e => simp
  | ok result =>
    obtain ⟨inode, disk⟩ := result
    cases Breakdown.ofBuffer? system.allocator .file size <;> simp

/-- What is started is a file at the place of the path, created or emptied. -/
theorem startFile_opens {size : Nat} {value : Except Breakdown StreamId}
    (hsound : system.disk.Sound) (h : system.startFile path size = (.ok value, after)) :
    ∃ n, Disk.Opens system.disk after.disk (system.disk.place path) n ∧
      after.disk.stat path = .ok (system.disk.place path, .file (.regular n)) := by
  obtain ⟨inode, disk, hopened, hdisk⟩ : ∃ inode disk,
      system.disk.openForWriting path = .ok (inode, disk) ∧ after.disk = disk := by
    cases value with
    | ok stream =>
      obtain ⟨inode, disk, hopened, -, -, rfl⟩ := startFile_eq_stream.1 h
      exact ⟨inode, disk, hopened, rfl⟩
    | error trouble =>
      obtain ⟨inode, disk, hopened, -, rfl⟩ := startFile_eq_trouble.1 h
      exact ⟨inode, disk, hopened, rfl⟩
  obtain ⟨n, rfl, hopens⟩ := Disk.openForWriting_opens hsound hopened
  rw [hdisk]
  exact ⟨n, hopens, Disk.stat_of_opened hsound hopened⟩

/-- The stream of a file that is started has accepted nothing. -/
theorem startFile_accepts {size : Nat} (hsound : system.disk.Sound)
    (h : system.startFile path size = (.ok (.ok stream), after)) :
    ∃ n, Disk.Opens system.disk after.disk (system.disk.place path) n ∧
      after.disk.stat path = .ok (system.disk.place path, .file (.regular n)) ∧
      after.Accepts stream n [] := by
  obtain ⟨inode, disk, hopened, -, rfl, rfl⟩ := startFile_eq_stream.1 h
  obtain ⟨n, rfl, hopens⟩ := Disk.openForWriting_opens hsound hopened
  have hempty : disk.contentOf (.regular n) = [] := by
    have hview := hopens.view (system.disk.place path)
    rw [if_pos rfl, Disk.view_of_file hopens.file] at hview
    simpa using hview
  obtain ⟨m, hm, hsize⟩ := hopens.sound.numbered _ _ hopens.file
  obtain rfl := Inode.regular.inj hm
  exact ⟨n, hopens, Disk.stat_of_opened hsound hopened, hsize,
    { path := path, inode := .regular n, capacity := size }, by simp, rfl,
    LocalWriter.new_holds hempty⟩

/-- A file that can be opened is not refused. -/
theorem startFile_of_opened {inode : Inode} {disk : Disk} (size : Nat)
    (hopened : system.disk.openForWriting path = .ok (inode, disk)) :
    ∃ value after, system.startFile path size = (.ok value, after) := by
  unfold startFile
  rw [hopened]
  cases Breakdown.ofBuffer? system.allocator .file size with
  | none => exact ⟨_, _, rfl⟩
  | some trouble => exact ⟨_, _, rfl⟩

theorem startFile_error {size : Nat} {e : LocalError}
    (h : system.startFile path size = (.error e, after)) : after = system := by
  unfold startFile at h
  split at h
  · exact (Prod.ext_iff.1 h).2.symm
  · split at h
    · cases h
    · cases h

/-- To create a file, directories may be made, and then the file is opened or the call refused. -/
theorem create_eq (system : LocalSystem) (path : Path) (size : Nat) :
    ∃ housed, Disk.Grows system.disk housed ∧
      (system.create path true size = { system with disk := housed }.startFile path size ∨
        ∃ e, system.create path true size = (.error e, { system with disk := housed })) := by
  unfold create
  rw [Bool.not_true, Bool.false_and, if_neg Bool.false_ne_true]
  dsimp only
  split
  · exact ⟨system.disk, .refl _, .inl rfl⟩
  · have hgrows := Disk.makeDirectories_grows system.disk path.parent
    refine ⟨_, hgrows, ?_⟩
    split
    · exact .inl rfl
    · split
      · exact .inl rfl
      · exact .inr ⟨_, rfl⟩

theorem pathExists_eq_true {disk : Disk} :
    disk.pathExists path = .ok true ↔ ∃ k node, disk.stat path = .ok (k, node) := by
  unfold Disk.pathExists
  cases disk.stat path with
  | error e => cases he : e.meansAbsent <;> simp [he]
  | ok found =>
    obtain ⟨k, node⟩ := found
    simp

theorem pathExists_eq_ok {found : Bool} :
    system.pathExists path = .ok found ↔ system.disk.pathExists path = .ok found := by
  unfold pathExists refuse
  cases system.disk.pathExists path <;> simp

theorem remove_eq_ok : system.remove path false = (.ok (), after) ↔
    system.disk.pathExists path = .ok true ∧
      ∃ disk, system.disk.removeOne path = (none, disk) ∧
        { system with disk := disk } = after := by
  unfold remove refuse
  cases hfound : system.disk.pathExists path with
  | error e => simp
  | ok found =>
    cases found with
    | false => simp
    | true =>
      rcases hremoved : system.disk.removeOne path with ⟨failure, disk⟩
      cases failure <;> simp

theorem remove_error {e : LocalError} (h : system.remove path false = (.error e, after)) :
    after = system := by
  unfold remove at h
  split at h
  · exact (Prod.ext_iff.1 h).2.symm
  · exact (Prod.ext_iff.1 h).2.symm
  · rcases hremoved : system.disk.removeOne path with ⟨failure, disk⟩
    rw [if_neg Bool.false_ne_true, hremoved] at h
    cases failure with
    | none => cases h
    | some e =>
      obtain rfl := (Prod.ext_iff.1 h).2
      rw [Disk.removeOne_error hremoved]

theorem makeDirs_system (system : LocalSystem) (path : Path) :
    (system.makeDirs path).2 =
      { system with disk := (system.disk.makeDirectories path).2 } := by
  unfold makeDirs
  dsimp only
  split
  · rfl
  · split <;> rfl

theorem rename_eq_ok {source target : Path} :
    system.rename source target = (.ok (), after) ↔
      system.disk.pathExists target ≠ .ok true ∧ parentTrouble system.disk target = none ∧
        ∃ disk, system.disk.rename source target = .ok disk ∧
          { system with disk := disk } = after := by
  have htold : (system.disk.pathExists target).toOption = some true ↔
      system.disk.pathExists target = .ok true := by
    cases system.disk.pathExists target <;> simp [Except.toOption]
  unfold rename refuse
  by_cases hfound : system.disk.pathExists target = .ok true
  · rw [if_pos (htold.2 hfound)]
    simp [hfound]
  · rw [if_neg (mt htold.1 hfound)]
    cases parentTrouble system.disk target with
    | some cause => simp
    | none =>
      cases system.disk.rename source target with
      | error e => simp
      | ok disk => simp [hfound]

theorem rename_error {source target : Path} {e : LocalError}
    (h : system.rename source target = (.error e, after)) : after = system := by
  unfold rename at h
  split at h
  · exact (Prod.ext_iff.1 h).2.symm
  split at h
  · exact (Prod.ext_iff.1 h).2.symm
  split at h
  · exact (Prod.ext_iff.1 h).2.symm
  · cases h

theorem parentTrouble_eq_none {disk : Disk} :
    parentTrouble disk path = none ↔
      path.parent = [] ∨ ∃ k, disk.stat path.parent = .ok (k, .directory) := by
  unfold parentTrouble Disk.isDirectory
  dsimp only
  by_cases hparent : path.parent = []
  · simp [hparent]
  rw [if_neg (by simpa using hparent)]
  cases disk.stat path.parent with
  | error e => simp [Except.map, hparent]
  | ok found =>
    obtain ⟨k, node⟩ := found
    cases node <;> simp [Except.map, hparent]

/-! ### The memory for buffers -/

theorem startFile_allocator (system : LocalSystem) (path : Path) (size : Nat) :
    (system.startFile path size).2.allocator = system.allocator := by
  unfold startFile
  split
  · rfl
  · split <;> rfl

theorem create_allocator (system : LocalSystem) (path : Path) (overwrite : Bool) (size : Nat) :
    (system.create path overwrite size).2.allocator = system.allocator := by
  unfold create
  split
  · rfl
  dsimp only
  split
  · exact startFile_allocator system path size
  split
  · exact startFile_allocator _ path size
  split
  · exact startFile_allocator _ path size
  · rfl

theorem remove_allocator (system : LocalSystem) (path : Path) (recursive : Bool) :
    (system.remove path recursive).2.allocator = system.allocator := by
  unfold remove
  split
  · rfl
  · rfl
  · dsimp only
    split <;> rfl

theorem rename_allocator (system : LocalSystem) (source target : Path) :
    (system.rename source target).2.allocator = system.allocator := by
  unfold rename
  split
  · rfl
  split
  · rfl
  split <;> rfl

theorem onWriter_allocator (system : LocalSystem) (stream : StreamId)
    (act : LocalWriter → Outlet Disk → Disk → LocalWriter.Step Disk) :
    (system.onWriter stream act).2.allocator = system.allocator := by
  unfold onWriter
  split <;> rfl

end LocalSystem

/-! ## Calls -/

open LocalSystem in
/-- No call changes the memory that there is for buffers. -/
theorem LocalSettings.perform_allocator (settings : LocalSettings) (call : StorageCall)
    (system : LocalSystem) : (settings.perform call system).2.allocator = system.allocator := by
  cases call with
  | openFile path =>
    show (system.openFile path).2.allocator = _
    unfold openFile
    split <;> rfl
  | createFile path overwrite size => exact create_allocator system path overwrite size
  | pathExists | status | checksum => rfl
  | remove path recursive => exact remove_allocator system path recursive
  | makeDirs path => 
    show (system.makeDirs path).2.allocator = _
    rw [makeDirs_system]
  | rename source target => exact rename_allocator system source target
  | read stream size =>
    show (system.read stream size).2.allocator = _
    unfold LocalSystem.read
    split <;> rfl
  | write stream data => exact onWriter_allocator system stream _
  | close stream => exact onWriter_allocator system stream _

theorem LocalSettings.word_eq_ok {α : Type} {outcome : LocalSystem.Outcome α} {value : α}
    {after : LocalSystem} :
    word outcome = (.ok value, after) ↔ outcome = (.ok value, after) := by
  obtain ⟨result, system⟩ := outcome
  cases result <;> simp [word, Except.mapError]

theorem LocalSettings.word_eq_error {α : Type} {outcome : LocalSystem.Outcome α}
    {message : Bytes} {after : LocalSystem} (h : word outcome = (.error message, after)) :
    ∃ e, outcome = (.error e, after) := by
  obtain ⟨result, system⟩ := outcome
  cases result with
  | ok value => simp [word, Except.mapError] at h
  | error e => exact ⟨e, Prod.ext_iff.2 ⟨rfl, (Prod.ext_iff.1 h).2⟩⟩

/-- One store on disk answers the calls of both sides, and nothing else touches it. -/
inductive LocalStep (settings : LocalSettings) : LocalSystem → Exchange → LocalSystem → Prop where
  | silent {system : LocalSystem} {x : Exchange} (h : x.request.isCall = false) :
      LocalStep settings system x system
  | call {system : LocalSystem} {side : Side} {call : StorageCall} {answer : call.Answer}
      {after : LocalSystem} (h : settings.perform call system = (answer, after)) :
      LocalStep settings system ⟨.storage side call, answer⟩ after

namespace LocalStep

open LocalSettings LocalSystem

variable {settings : LocalSettings} {system after : LocalSystem} {side : Side}
  {call : StorageCall} {x : Exchange} {path : Path} {stream : StreamId} {message : Bytes}
  {n : Nat} {bytes rest : Bytes}

theorem of_silent (h : LocalStep settings system x after) (hx : x.request.isCall = false) :
    after = system := by
  cases h with
  | silent => rfl
  | call => cases hx

theorem of_call {answer : call.Answer}
    (h : LocalStep settings system ⟨.storage side call, answer⟩ after) :
    settings.perform call system = (answer, after) := by
  cases h with
  | silent hx => cases hx
  | call h => exact h

theorem allocator (h : LocalStep settings system x after) : after.allocator = system.allocator := by
  cases h with
  | silent => rfl
  | call hcall =>
    obtain ⟨-, rfl⟩ := Prod.ext_iff.1 hcall
    exact perform_allocator settings _ system

/-- The store decides the answer. -/
theorem unique {answer answer' : call.Answer} {other : LocalSystem}
    (h : LocalStep settings system ⟨.storage side call, answer⟩ after)
    (h' : LocalStep settings system ⟨.storage side call, answer'⟩ other) :
    answer = answer' ∧ after = other :=
  Prod.ext_iff.1 (h.of_call.symm.trans h'.of_call)

theorem of_pathExists {answer : (StorageCall.pathExists path).Answer}
    (h : LocalStep settings system ⟨.storage side (.pathExists path), answer⟩ after) :
    after = system ∧
      ∀ found : Bool, answer = .ok found ↔ system.disk.pathExists path = .ok found := by
  obtain ⟨hanswer, rfl⟩ := Prod.ext_iff.1 h.of_call
  have hanswer' : (system.pathExists path).mapError LocalError.message = answer := hanswer
  refine ⟨rfl, fun found => Iff.trans ?_ pathExists_eq_ok⟩
  rw [← hanswer']
  cases system.pathExists path with
  | error e => exact ⟨fun h => (nomatch h), fun h => (nomatch h)⟩
  | ok value =>
    exact ⟨fun h => congrArg Except.ok (Except.ok.inj h),
      fun h => congrArg Except.ok (Except.ok.inj h)⟩

theorem of_status {answer : (StorageCall.status path).Answer}
    (h : LocalStep settings system ⟨.storage side (.status path), answer⟩ after) :
    after = system := (Prod.ext_iff.1 h.of_call).2.symm

theorem of_checksum {answer : (StorageCall.checksum path).Answer}
    (h : LocalStep settings system ⟨.storage side (.checksum path), answer⟩ after) :
    after = system := (Prod.ext_iff.1 h.of_call).2.symm

/-- A regular file is opened, and all of it is left to be read. -/
theorem of_openFile {k : Key} {answer : (StorageCall.openFile path).Answer}
    (hfile : system.disk.stat path = .ok (k, .file (.regular n)))
    (h : LocalStep settings system ⟨.storage side (.openFile path), answer⟩ after) :
    ∃ input, answer = .ok input ∧ after.disk = system.disk ∧ after.writers = system.writers ∧
      after.Gives input n (system.disk.contentOf (.regular n)) := by
  have hopened := openFile_eq_ok.2 ⟨k, n, hfile, rfl, rfl⟩
  have hword : word (system.openFile path) = (answer, after) := h.of_call
  rw [word_eq_ok.2 hopened] at hword
  obtain ⟨rfl, rfl⟩ := Prod.ext_iff.1 hword
  exact ⟨_, rfl, rfl, rfl, { inode := .regular n }, by simp, rfl, LocalReader.new_faithful,
    LocalReader.rest_new⟩

/-- A read takes the next bytes that are left, and some unless none are left. -/
theorem of_read {size : Nat} {answer : (StorageCall.read stream size).Answer}
    (hgives : system.Gives stream n rest)
    (h : LocalStep settings system ⟨.storage side (.read stream size), answer⟩ after) :
    answer = .ok (rest.take size) ∧ after.disk = system.disk ∧
      after.writers = system.writers ∧ after.Gives stream n (rest.drop size) := by
  obtain ⟨reader, hreader, hinode, hfaithful, rfl⟩ := hgives
  obtain ⟨hchunk, hleft, hfaithful', hinode'⟩ := LocalReader.read_eq hfaithful size
  have hread : system.read stream size = (.ok (reader.read system.disk size).1,
      { system with
        readers := system.readers.setIfInBounds stream (reader.read system.disk size).2 }) := by
    unfold LocalSystem.read
    rw [hreader]
  have hword : word (system.read stream size) = (answer, after) := h.of_call
  rw [word_eq_ok.2 hread] at hword
  obtain ⟨rfl, rfl⟩ := Prod.ext_iff.1 hword
  have hbound : stream < system.readers.size := (Array.getElem?_eq_some_iff.1 hreader).1
  exact ⟨congrArg Except.ok hchunk, rfl, rfl, (reader.read system.disk size).2, by simp [hbound],
    hinode'.trans hinode, hfaithful', hleft⟩

/-- What happens when a stream that is open for writing does something with its file. -/
theorem onWriter_eq {writer : LocalWriter} (hwriter : system.writers[stream]? = some writer)
    (act : LocalWriter → Outlet Disk → Disk → LocalWriter.Step Disk) :
    system.onWriter stream act =
      ((act writer (Disk.outlet writer.inode) system.disk).answer,
        { system with
          disk := (act writer (Disk.outlet writer.inode) system.disk).outlet
          writers := system.writers.setIfInBounds stream
            (act writer (Disk.outlet writer.inode) system.disk).writer }) := by
  unfold onWriter
  rw [hwriter]

/-- A write is accepted; the disk changes in the content of that file only. -/
theorem of_write {data : Bytes} {answer : (StorageCall.write stream data).Answer}
    (haccepts : system.Accepts stream n bytes)
    (h : LocalStep settings system ⟨.storage side (.write stream data), answer⟩ after) :
    answer = .ok () ∧ after.readers = system.readers ∧
      after.Accepts stream n (bytes ++ data) ∧
      ∃ content, Disk.Refills system.disk after.disk n content := by
  obtain ⟨hn, writer, hwriter, hopen, hholds⟩ := haccepts
  obtain ⟨hanswer, hholds', hopen', content, hrefills⟩ :=
    LocalWriter.write_holds data hn hholds hopen
  have hword : word (system.write stream data) = (answer, after) := h.of_call
  have hwritten := onWriter_eq hwriter fun writer outlet disk => writer.write outlet disk data
  rw [hholds.inode, hanswer] at hwritten
  rw [LocalSystem.write, word_eq_ok.2 hwritten] at hword
  obtain ⟨rfl, rfl⟩ := Prod.ext_iff.1 hword
  have hbound : stream < system.writers.size := (Array.getElem?_eq_some_iff.1 hwriter).1
  refine ⟨rfl, rfl, ⟨?_, (writer.write (Disk.outlet (.regular n)) system.disk data).writer,
    by simp [hbound], hopen', hholds'⟩, content, hrefills⟩
  show n < Array.size _
  rw [hrefills.size]
  exact hn

/-- The close brings all that was accepted to the file. -/
theorem of_close {answer : (StorageCall.close stream).Answer}
    (haccepts : system.Accepts stream n bytes)
    (h : LocalStep settings system ⟨.storage side (.close stream), answer⟩ after) :
    answer = .ok () ∧ Disk.Refills system.disk after.disk n bytes := by
  obtain ⟨hn, writer, hwriter, hopen, hholds⟩ := haccepts
  obtain ⟨hanswer, hrefills⟩ := LocalWriter.close_holds hn hholds hopen
  have hword : word (system.close stream) = (answer, after) := h.of_call
  have hclosed := onWriter_eq hwriter fun writer outlet disk => writer.close outlet disk
  rw [hholds.inode, hanswer] at hclosed
  rw [LocalSystem.close, word_eq_ok.2 hclosed] at hword
  obtain ⟨rfl, rfl⟩ := Prod.ext_iff.1 hword
  exact ⟨rfl, hrefills⟩

/-- Directories may be made, and then a file is started at the path. -/
theorem starts {size : Nat} {layout : Layout} {value : Except Breakdown StreamId}
    (h : LocalStep settings system
      ⟨.storage side (.createFile path true size layout), .ok value⟩ after) :
    ∃ housed, Disk.Grows system.disk housed ∧
      { system with disk := housed }.startFile path size = (.ok value, after) := by
  obtain ⟨housed, hgrows, hcreated⟩ := create_eq system path size
  have hword : word (system.create path true size) = (.ok value, after) := h.of_call
  rw [word_eq_ok] at hword
  rcases hcreated with hstarted | ⟨e, herror⟩
  · rw [hstarted] at hword
    exact ⟨housed, hgrows, hword⟩
  · rw [herror] at hword
    cases hword

/-- A file that is started is created or emptied, also when its stream gets no buffer. -/
theorem of_started {size : Nat} {layout : Layout} {value : Except Breakdown StreamId}
    (hsound : system.disk.Sound)
    (h : LocalStep settings system
      ⟨.storage side (.createFile path true size layout), .ok value⟩ after) :
    ∃ housed n, Disk.Grows system.disk housed ∧
      Disk.Opens housed after.disk (system.disk.place path) n ∧
      after.disk.stat path = .ok (system.disk.place path, .file (.regular n)) := by
  obtain ⟨housed, hgrows, hstarted⟩ := h.starts
  obtain ⟨n, hopens, hstat⟩ := startFile_opens (hgrows.sound hsound) hstarted
  have hplace := hgrows.housing.place path
  exact ⟨housed, n, hgrows, hplace ▸ hopens, hplace ▸ hstat⟩

/-- With a buffer there is a stream for it that has accepted nothing. -/
theorem of_created {size : Nat} {layout : Layout} {output : StreamId}
    (hsound : system.disk.Sound)
    (h : LocalStep settings system
      ⟨.storage side (.createFile path true size layout), .ok (.ok output)⟩ after) :
    ∃ housed n, Disk.Grows system.disk housed ∧
      Disk.Opens housed after.disk (system.disk.place path) n ∧
      after.disk.stat path = .ok (system.disk.place path, .file (.regular n)) ∧
      after.Accepts output n [] := by
  obtain ⟨housed, hgrows, hstarted⟩ := h.starts
  obtain ⟨n, hopens, hstat, haccepts⟩ := startFile_accepts (hgrows.sound hsound) hstarted
  have hplace := hgrows.housing.place path
  exact ⟨housed, n, hgrows, hplace ▸ hopens, hplace ▸ hstat, haccepts⟩

/-- A stream that gets no buffer is one for which there is no memory. -/
theorem of_unbuffered {size : Nat} {layout : Layout} {trouble : Breakdown}
    (h : LocalStep settings system
      ⟨.storage side (.createFile path true size layout), .ok (.error trouble)⟩ after) :
    Breakdown.ofBuffer? system.allocator .file size = some trouble := by
  obtain ⟨housed, -, hstarted⟩ := h.starts
  obtain ⟨-, -, -, hbuffer, -⟩ := startFile_eq_trouble.1 hstarted
  exact hbuffer

theorem of_notCreated {size : Nat} {layout : Layout}
    (h : LocalStep settings system
      ⟨.storage side (.createFile path true size layout), .error message⟩ after) :
    Disk.Grows system.disk after.disk := by
  obtain ⟨housed, hgrows, hcreated⟩ := create_eq system path size
  have hword : word (system.create path true size) = (.error message, after) := h.of_call
  obtain ⟨e, hfailed⟩ := word_eq_error hword
  rcases hcreated with hstarted | ⟨e', herror⟩
  · rw [hstarted] at hfailed
    rw [startFile_error hfailed]
    exact hgrows
  · rw [herror] at hfailed
    obtain ⟨-, rfl⟩ := Prod.ext_iff.1 hfailed
    exact hgrows

/-- What goes was there, and is no directory with anything in it. -/
theorem of_removed
    (h : LocalStep settings system ⟨.storage side (.remove path false), .ok ()⟩ after) :
    ∃ k node, system.disk.stat path = .ok (k, node) ∧ k ≠ [] ∧ system.disk.get? k = some node ∧
      (node = .directory → system.disk.tree.hasBelow k = false) ∧
      after.disk = { system.disk with tree := system.disk.tree.erase k } := by
  have hword : word (system.remove path false) = (.ok (), after) := h.of_call
  obtain ⟨hfound, disk, hremoved, rfl⟩ := remove_eq_ok.1 (word_eq_ok.1 hword)
  obtain ⟨k, node, hstat⟩ := pathExists_eq_true.1 hfound
  obtain ⟨hk, hget, hempty, rfl⟩ := Disk.removeOne_eq_none hstat hremoved
  exact ⟨k, node, hstat, hk, hget, hempty, rfl⟩

/-- A file that the path leads to is never kept. -/
theorem of_notRemoved
    (h : LocalStep settings system ⟨.storage side (.remove path false), .error message⟩ after) :
    after = system ∧ ∀ k inode, system.disk.stat path ≠ .ok (k, .file inode) := by
  have hword : word (system.remove path false) = (.error message, after) := h.of_call
  obtain ⟨e, hfailed⟩ := word_eq_error hword
  refine ⟨remove_error hfailed, fun k inode hfile => ?_⟩
  have hremoved := remove_eq_ok.2
    ⟨pathExists_eq_true.2 ⟨k, .file inode, hfile⟩, _, Disk.removeOne_file hfile, rfl⟩
  rw [hremoved] at hfailed
  cases hfailed

theorem of_makeDirs {answer : (StorageCall.makeDirs path).Answer}
    (h : LocalStep settings system ⟨.storage side (.makeDirs path), answer⟩ after) :
    Disk.Grows system.disk after.disk := by
  obtain ⟨-, hafter⟩ := Prod.ext_iff.1 h.of_call
  have hsystem : (system.makeDirs path).2 = after := hafter
  rw [← hsystem, makeDirs_system]
  exact Disk.makeDirectories_grows system.disk path

theorem of_renamed {source target : Path}
    (h : LocalStep settings system ⟨.storage side (.rename source target), .ok ()⟩ after) :
    system.disk.rename source target = .ok after.disk := by
  have hword : word (system.rename source target) = (.ok (), after) := h.of_call
  obtain ⟨-, -, disk, hrenamed, rfl⟩ := rename_eq_ok.1 (word_eq_ok.1 hword)
  exact hrenamed

theorem of_notRenamed {source target : Path}
    (h : LocalStep settings system ⟨.storage side (.rename source target), .error message⟩ after) :
    after = system ∧
      ∀ disk, system.rename source target ≠ (.ok (), { system with disk := disk }) := by
  have hword : word (system.rename source target) = (.error message, after) := h.of_call
  obtain ⟨e, hfailed⟩ := word_eq_error hword
  refine ⟨rename_error hfailed, fun disk hrenamed => ?_⟩
  rw [hrenamed] at hfailed
  cases hfailed

end LocalStep

namespace LocalSettings

variable {ε : Type} {settings : LocalSettings}

/-- A store on disk that answers the calls of both sides; all else is answered from
surroundings. -/
def sharing (settings : LocalSettings) (surroundings : Handler ε) : Handler (LocalSystem × ε)
  | .storage _ call, (system, e) =>
    ((settings.perform call system).1, (settings.perform call system).2, e)
  | r, (system, e) => ((surroundings r e).1, system, (surroundings r e).2)

theorem step_of_sharing {surroundings : Handler ε} {state after : LocalSystem × ε} {x : Exchange}
    (h : (settings.sharing surroundings).step state x after) :
    LocalStep settings state.1 x after.1 := by
  obtain ⟨r, answer⟩ := x
  obtain ⟨system, e⟩ := state
  obtain ⟨hanswer, rfl⟩ := Prod.ext_iff.1 h
  cases r with
  | storage side call => exact .call (Prod.ext_iff.2 ⟨hanswer, rfl⟩)
  | _ => exact .silent rfl

/-- What the store does while a program runs is a trail of one that answers both sides. -/
theorem trail_sharing {α : Type} (surroundings : Handler ε) (p : Program α) (system : LocalSystem)
    (e : ε) :
    Trail (LocalStep settings) system
      (Program.exchanges (settings.sharing surroundings) p (system, e))
      (Program.run (settings.sharing surroundings) p (system, e)).2.1 :=
  (Program.trail_exchanges (settings.sharing surroundings) p (system, e)).map (f := Prod.fst)
    step_of_sharing

end LocalSettings

end StagedCopy
