import StagedCopy.CommandLine
import StagedCopy.Json.Reader
import StagedCopy.Proofs.Copy.Booking
import StagedCopy.Proofs.Copy.OnDisk
import StagedCopy.Proofs.Progress

/-!
# What a run of the command line does to a disk

A run reads its arguments and the configuration, looks at the source, and copies. Nothing before the
copy changes the disk, and the copy is an attempt on one disk that never fails by reading, so there
is no second attempt and no file is skipped. What holds of one attempt then holds of the run: the
exit code tells whether the target is a copy of the source, and no other file is lost or left
behind. Which texts are configurations, and how much memory there is, is left to the platform.

* `CommandLine.Ordinary` — what is asked of arguments and disk.
* `CommandLine.Faithful` — what the exit code and the disk say at the end.
* `CommandLine.Cause` — why a run breaks down.
* `CommandLine.run_faithful` — the theorem.
* `CommandLine.run_breaks_down` — with a directory for a configuration there is no exit code.
-/

namespace StagedCopy

open Program (Handler)

namespace CommandLine

/-! ## The surroundings of the copy -/

section handler

variable {attempt : Bytes} {s s' : Surroundings} {x : Program.Exchange}

@[simp] theorem system_addLines (lines : List Log.Line) (s : Surroundings) :
    (s.addLines lines).system = s.system := rfl

theorem system_of_silent {r : Request} (h : r.isCall = false) :
    (handler attempt r s).2.system = s.system := by
  cases r with
  | storage => cases h
  | _ => rfl

/-- What a run does with the disk are steps of a store on it. -/
theorem localStep_of_handler (h : (handler attempt).step s x s') :
    LocalStep settings s.system x s'.system := by
  obtain ⟨r, answer⟩ := x
  obtain ⟨hanswer, rfl⟩ := Prod.ext_iff.1 h
  cases r with
  | storage side call => exact .call (Prod.ext_iff.2 ⟨hanswer, rfl⟩)
  | _ => exact .silent rfl

@[simp] theorem disk_finishWith (code : Nat) (level : Log.Level) (text : Bytes)
    (s : Surroundings) : (finishWith code level text s).disk = s.system.disk := rfl

@[simp] theorem code_finishWith (code : Nat) (level : Log.Level) (text : Bytes)
    (s : Surroundings) : (finishWith code level text s).code = code := rfl

end handler

/-! ## Arguments -/

section arguments

variable {disk : Disk} {path : Path}

/-- A key is spelled with its names and separators. -/
theorem mem_text {k : Key} {b : UInt8} (h : b ∈ k.text) : b = slash ∨ ∃ name ∈ k, b ∈ name := by
  unfold Key.text at h
  split at h
  · exact .inl (List.mem_singleton.1 h)
  · obtain ⟨name, hname, hb⟩ := List.mem_flatMap.1 h
    rcases List.mem_cons.1 hb with rfl | hb
    · exact .inl rfl
    · exact .inr ⟨name, hname, hb⟩

theorem absolute_plain (hcurrent : ∀ name ∈ disk.current, (0 : UInt8) ∉ name)
    (hpath : (0 : UInt8) ∉ path) : (0 : UInt8) ∉ absolute disk path := by
  have htext : (0 : UInt8) ∉ disk.current.text := by
    intro hmem
    rcases mem_text hmem with hslash | ⟨name, hname, hb⟩
    · cases hslash
    · exact hcurrent name hname hb
  unfold absolute Path.resolveIn Path.join
  split
  · exact hpath
  split
  · rw [List.mem_append, not_or]
    exact ⟨htext, hpath⟩
  · rw [List.mem_append, List.mem_cons, not_or, not_or]
    exact ⟨htext, by decide, hpath⟩

/-- The attempt id of a process can be part of a file name. -/
theorem isAttemptId_attemptId (process time : Nat) :
    isAttemptId (attemptId process time) = true := by
  have hdecimal : ∀ n, slash ∉ decimal n := by
    intro n hmem
    obtain ⟨-, -, hdigits⟩ := Size.numeral_decimal n
    cases hdigits slash hmem
  have hfree : slash ∉ attemptId process time := by
    unfold attemptId
    simp only [List.mem_append, not_or]
    exact ⟨⟨⟨by decide +kernel, hdecimal process⟩, by decide +kernel⟩, hdecimal time⟩
  have hne : attemptId process time ≠ [] := by
    unfold attemptId
    rw [List.append_assoc, List.append_assoc]
    exact List.append_ne_nil_of_left_ne_nil (by decide +kernel) _
  simp [isAttemptId, hfree, hne]

end arguments

/-! ## What is asked, and what is promised -/

section run

variable {platform : Platform} {library : JsonLibrary} {arguments : List Bytes} {attempt : Bytes}
  {disk : Disk}

/-- The path of the temporary file of a run. -/
def temp (disk : Disk) (target : Path) (config : Config) (attempt : Bytes) : Path :=
  tempPath (absolute disk target) config.options.workPath attempt

/-- What is asked of the disk and the arguments: a sound disk with a current directory, arguments
that are neither empty nor hold a NUL, and an attempt id that can be part of a file name. When the
configuration can be had, the path of the temporary file leads to no file and to the file system of
the target. -/
structure Ordinary (library : JsonLibrary) (arguments : List Bytes) (attempt : Bytes)
    (disk : Disk) : Prop where
  sound : disk.Sound
  current : disk.get? disk.current = some .directory
  named : ∀ name ∈ disk.current, (0 : UInt8) ∉ name
  given : ∀ argument ∈ arguments, argument ≠ [] ∧ (0 : UInt8) ∉ argument
  usable : isAttemptId attempt = true
  fresh : ∀ target config, arguments[1]? = some target →
    configuration library disk arguments[2]? = .ok (.ok config) →
    ∀ k inode, disk.stat (temp disk target config attempt) ≠ .ok (k, .file inode)
  devices : ∀ target config, arguments[1]? = some target →
    configuration library disk arguments[2]? = .ok (.ok config) →
    Disk.isOnDevices (disk.place (temp disk target config attempt)).parent
      = Disk.isOnDevices (disk.place (absolute disk target)).parent

/-- The path leads to a regular file with the content. -/
def Names (disk : Disk) (path : Path) (content : Bytes) : Prop :=
  ∃ k n, disk.stat path = .ok (k, .file (.regular n)) ∧ disk.contentOf (.regular n) = content

/-- The place is that of the target. -/
def IsTarget (arguments : List Bytes) (disk : Disk) (k : Key) : Prop :=
  ∃ target, arguments[1]? = some target ∧ disk.place (absolute disk target) = k

/-- The request itself is at fault: there are fewer than two paths, the configuration that is given
cannot be loaded, or the source is a directory. -/
def AtFault (library : JsonLibrary) (arguments : List Bytes) (disk : Disk) : Prop :=
  arguments.length < 2 ∨
    (∃ path error, arguments[2]? = some path ∧ Config.load library disk path = .ok (.error error)) ∨
    ∃ source k, arguments[0]? = some source ∧
      disk.stat (absolute disk source) = .ok (k, .directory)

/-- What the exit code and the disk say at the end of a run. -/
structure Faithful (library : JsonLibrary) (arguments : List Bytes) (attempt : Bytes)
    (disk : Disk) (ending : Ending) : Prop where
  copied : ending.code = 0 → ∃ source target content,
    arguments[0]? = some source ∧ arguments[1]? = some target ∧
      Names disk (absolute disk source) content ∧
      Names ending.disk (absolute disk target) content
  failed : ending.code ≠ 0 → ∀ k content, disk.view k = some (.file content) →
    ending.disk.view k = some (.file content)
  others : ∀ k content, ¬ IsTarget arguments disk k → disk.view k = some (.file content) →
    ending.disk.view k = some (.file content)
  nothingNew : ∀ k content, ending.disk.view k = some (.file content) →
    (∃ before, disk.view k = some (.file before)) ∨ IsTarget arguments disk k
  noTemp : ∀ target config, arguments[1]? = some target →
    configuration library disk arguments[2]? = .ok (.ok config) →
    ∀ k inode, ending.disk.stat (temp disk target config attempt) ≠ .ok (k, .file inode)
  fault : ending.code = 2 ↔ AtFault library arguments disk

/-- Why a run breaks down: the configuration is a directory, or the copy asks for a buffer of the
size in the configuration, for the file that it writes or for the bytes that it reads, and there is
none to be had. -/
inductive Cause (platform : Platform) (arguments : List Bytes) (disk : Disk) :
    Breakdown → Prop where
  | directory {path : Path} {k : Key} (hpath : arguments[2]? = some path)
      (hstat : disk.stat path = .ok (k, .directory)) :
      Cause platform arguments disk (.unreadable .isDirectory)
  | file {config : Config} {trouble : Breakdown}
      (hconfig : configuration platform.json disk arguments[2]? = .ok (.ok config))
      (htrouble : Breakdown.ofBuffer? platform.allocator .file config.options.bufferSize
        = some trouble) : Cause platform arguments disk trouble
  | bytes {config : Config} {trouble : Breakdown}
      (hconfig : configuration platform.json disk arguments[2]? = .ok (.ok config))
      (htrouble : Breakdown.ofBuffer? platform.allocator .bytes (max config.options.bufferSize 1)
        = some trouble) : Cause platform arguments disk trouble

/-! ## Runs that copy nothing -/

/-- A run that leaves all files as they were keeps its promises, when its exit code is not 0 and
says whose fault it was. -/
theorem faithful_of_keeps {ending : Ending}
    (hkeeps : disk.Keeps ending.disk fun _ => True) (hcode : ending.code ≠ 0)
    (hnoTemp : ∀ target config, arguments[1]? = some target →
      configuration library disk arguments[2]? = .ok (.ok config) →
      ∀ k inode, ending.disk.stat (temp disk target config attempt) ≠ .ok (k, .file inode))
    (hfault : ending.code = 2 ↔ AtFault library arguments disk) :
    Faithful library arguments attempt disk ending where
  copied hzero := absurd hzero hcode
  failed _ k content := (hkeeps.files k trivial content).2
  others k content _ := (hkeeps.files k trivial content).2
  nothingNew k content hfile := .inl ⟨content, (hkeeps.files k trivial content).1 hfile⟩
  noTemp := hnoTemp
  fault := hfault

/-- A run that touches nothing. -/
theorem faithful_of_same {ending : Ending} (h : Ordinary library arguments attempt disk)
    (hdisk : ending.disk = disk) (hcode : ending.code ≠ 0)
    (hfault : ending.code = 2 ↔ AtFault library arguments disk) :
    Faithful library arguments attempt disk ending := by
  refine faithful_of_keeps ?_ hcode ?_ hfault
  · rw [hdisk]
    exact .refl h.sound
  · rw [hdisk]
    exact h.fresh

/-! ## The copy -/

variable {source target : Path} {more : List Bytes} {config : Config} {found : FileStatus}

/-- A request for two paths is not at fault when its configuration can be had and its source is no
directory. -/
theorem not_atFault (hconfig : configuration library disk more[0]? = .ok (.ok config))
    (hsource : ∀ k, disk.stat (absolute disk source) ≠ .ok (k, .directory)) :
    ¬ AtFault library (source :: target :: more) disk := by
  rintro (hfew | ⟨path, error, hthird, hload⟩ | ⟨first, k, hfirst, hdirectory⟩)
  · simp only [List.length_cons] at hfew
    omega
  · have hpath : more[0]? = some path := hthird
    rw [hpath] at hconfig
    cases hload.symm.trans hconfig
  · obtain rfl : source = first := Option.some.inj hfirst
    exact hsource k hdirectory

/-- What the status of a source tells that is no directory. -/
theorem file_of_status {system : LocalSystem} (hsound : system.disk.Sound)
    (h : system.status settings source = .ok found) (hfound : found.isDirectory = false) :
    ∃ k n, system.disk.stat source = .ok (k, .file (.regular n)) ∧ found.path = source := by
  unfold LocalSystem.status LocalSystem.refuse at h
  dsimp only at h
  cases hstat : system.disk.stat source with
  | error e =>
    rw [hstat] at h
    cases h
  | ok reached =>
    obtain ⟨k, node⟩ := reached
    rw [hstat] at h
    cases node with
    | directory =>
      obtain rfl := Except.ok.inj h
      cases hfound
    | file inode =>
      obtain ⟨n, rfl, -⟩ := hsound.numbered k _ (Disk.get?_of_stat_file hstat)
      have hsize : system.disk.fileSize source
          = .ok (system.disk.contentOf (.regular n)).length := by
        unfold Disk.fileSize
        rw [hstat]
        rfl
      simp only [hsize, Except.ok.injEq] at h
      exact ⟨k, n, rfl, h ▸ rfl⟩

theorem directory_of_status {system : LocalSystem}
    (h : system.status settings source = .ok found) (hfound : found.isDirectory = true) :
    ∃ k, system.disk.stat source = .ok (k, .directory) := by
  unfold LocalSystem.status LocalSystem.refuse at h
  dsimp only at h
  cases hstat : system.disk.stat source with
  | error e =>
    rw [hstat] at h
    cases h
  | ok reached =>
    obtain ⟨k, node⟩ := reached
    rw [hstat] at h
    cases node with
    | directory => exact ⟨k, rfl⟩
    | file inode =>
      cases hsize : system.disk.fileSize source with
      | error e =>
        rw [hsize] at h
        cases h
      | ok length =>
        rw [hsize] at h
        obtain rfl := Except.ok.inj h
        cases hfound

theorem status_of_directory {system : LocalSystem} {k : Key}
    (hstat : system.disk.stat source = .ok (k, .directory)) :
    ∃ found, system.status settings source = .ok found ∧ found.isDirectory = true := by
  unfold LocalSystem.status
  rw [hstat]
  exact ⟨_, rfl, rfl⟩

/-- The reads of a file are fewer than the bound for them. -/
theorem lt_readBound {system : LocalSystem} {n : Nat} {k : Key}
    (hstat : system.disk.stat source = .ok (k, .file (.regular n))) :
    (system.disk.contentOf (.regular n)).length < readBound system source := by
  unfold readBound LocalSystem.get
  rw [hstat]
  exact Nat.lt_succ_self _

/-- The disk is as the copy needs it. -/
theorem undisturbed {allocator : Allocator} {n : Nat} {k : Key}
    (h : Ordinary library (source :: target :: more) attempt disk)
    (hconfig : configuration library disk more[0]? = .ok (.ok config))
    (hstat : disk.stat (absolute disk source) = .ok (k, .file (.regular n)))
    (hpath : found.path = absolute disk source) :
    (job allocator attempt found (absolute disk target) config).Undisturbed disk
      (disk.contentOf (.regular n)) where
  sound := h.sound
  current := h.current
  source := by
    refine ⟨n, ?_, rfl⟩
    show disk.stat found.path = .ok (disk.place found.path, _)
    rw [hpath, Disk.place_of_stat hstat]
    exact hstat
  usable := h.usable
  plain := absolute_plain h.named (h.given target (by simp)).2
  fresh := h.fresh target config rfl hconfig
  devices := h.devices target config rfl hconfig

/-- How the copy of a run ends: the target is a copy, or all files are as they were, unless there
was no buffer. -/
theorem copyFile_ends {content : Bytes} {s : Surroundings}
    (hjob : (job s.system.allocator attempt found target config).Undisturbed s.system.disk content)
    (hbound : content.length < readBound s.system found.path) :
    match copyFile attempt found target config s with
    | .ok ending =>
      (ending.code = 0 ∧ (job s.system.allocator attempt found target config).Published
        s.system.disk ending.disk content) ∨
      (ending.code = 1 ∧ s.system.disk.Keeps ending.disk fun _ => True)
    | .error trouble =>
      (job s.system.allocator attempt found target config).Denied s.system.allocator trouble := by
  have hserves : ∀ {t x t'}, (handler attempt).step t x t' →
      LocalStep settings t.system x t'.system := fun hstep => localStep_of_handler hstep
  obtain ⟨outcome, s', hrun, houtcome⟩ := safe_attempt hserves s hjob hbound
  let task : CopyTask := ⟨readBound s.system found.path,
    job s.system.allocator attempt found target config, config.retry, config.skipReadFailures⟩
  have htask : copyWithRetries (readBound s.system found.path)
      (job s.system.allocator attempt found target config) config.retry config.skipReadFailures
        = task.program := rfl
  unfold copyFile
  rw [htask]
  cases outcome with
  | unfinished => exact houtcome.elim
  | broken trouble =>
    rw [task.run_program_broken hrun]
    exact houtcome.1
  | done result =>
    have hread : ∀ error, result = .error error → error.kind ≠ .readFailure := by
      rintro error rfl
      exact houtcome.1
    have hquiet : ∀ (r : Request) (t : Surroundings), r.isCall = false →
        t.system = s'.system → (handler attempt r t).2.system = s'.system :=
      fun _ _ hr ht => (system_of_silent hr).trans ht
    obtain ⟨s'', hprogram, hsystem⟩ := task.run_program_once hquiet hrun hread rfl
    rw [hprogram]
    cases result with
    | ok copied =>
      refine .inl ⟨rfl, ?_⟩
      show CopyJob.Published _ _ s''.system.disk _
      rw [hsystem]
      exact houtcome
    | error error =>
      have hsettled : settledOutcome config.skipReadFailures 1 (.error error)
          = .error error := if_neg fun hboth => houtcome.1 hboth.1
      rw [hsettled]
      refine .inr ⟨rfl, ?_⟩
      show Disk.Keeps _ s''.system.disk _
      rw [hsystem]
      exact houtcome.2

/-- The configuration of a run is known, and so is its temporary file. -/
theorem noTemp_of_config {after : Disk}
    (hconfig : configuration library disk more[0]? = .ok (.ok config))
    (h : ∀ k inode, after.stat (temp disk target config attempt) ≠ .ok (k, .file inode)) :
    ∀ target' config', (source :: target :: more)[1]? = some target' →
      configuration library disk (source :: target :: more)[2]? = .ok (.ok config') →
      ∀ k inode, after.stat (temp disk target' config' attempt) ≠ .ok (k, .file inode) := by
  intro target' config' htarget hconfig'
  obtain rfl : target = target' := Option.some.inj htarget
  obtain rfl : config = config' := Except.ok.inj (Except.ok.inj (hconfig.symm.trans hconfig'))
  exact h

/-- A run that published its copy. -/
theorem faithful_of_published {allocator : Allocator} {ending : Ending} {n : Nat} {k : Key}
    (hconfig : configuration library disk more[0]? = .ok (.ok config))
    (hstat : disk.stat (absolute disk source) = .ok (k, .file (.regular n)))
    (hcode : ending.code = 0)
    (hpublished : (job allocator attempt found (absolute disk target) config).Published disk
      ending.disk (disk.contentOf (.regular n)))
    (hfault : ¬ AtFault library (source :: target :: more) disk) :
    Faithful library (source :: target :: more) attempt disk ending := by
  have hfiles : ∀ k, ¬ IsTarget (source :: target :: more) disk k →
      Disk.SameFile disk ending.disk k := fun k hk =>
    hpublished.files k fun hsame => hk ⟨target, rfl, hsame.symm⟩
  obtain ⟨m, hcopy, hcontent⟩ := hpublished.target
  exact
    { copied := fun _ =>
        ⟨source, target, _, rfl, rfl, ⟨k, n, hstat, rfl⟩, _, m, hcopy, hcontent⟩
      failed := fun hnot => absurd hcode hnot
      others := fun k content hk => (hfiles k hk content).2
      nothingNew := fun k content hfile => by
        by_cases hk : IsTarget (source :: target :: more) disk k
        · exact .inr hk
        · exact .inl ⟨content, (hfiles k hk content).1 hfile⟩
      noTemp := noTemp_of_config hconfig fun _ _ => hpublished.no_temp
      fault := by
        rw [hcode]
        exact iff_of_false (by decide) hfault }

/-- A run that got to the copy. -/
theorem faithful_of_copyFile {n : Nat} {k : Key} {s : Surroundings}
    (h : Ordinary platform.json (source :: target :: more) attempt disk)
    (hs : s.system.disk = disk) (hallocator : s.system.allocator = platform.allocator)
    (hconfig : configuration platform.json disk more[0]? = .ok (.ok config))
    (hstat : disk.stat (absolute disk source) = .ok (k, .file (.regular n)))
    (hpath : found.path = absolute disk source) :
    match copyFile attempt found (absolute disk target) config s with
    | .ok ending => Faithful platform.json (source :: target :: more) attempt disk ending
    | .error trouble => Cause platform (source :: target :: more) disk trouble := by
  have hjob : (job s.system.allocator attempt found (absolute disk target) config).Undisturbed disk
      (disk.contentOf (.regular n)) := undisturbed h hconfig hstat hpath
  have hfault : ¬ AtFault platform.json (source :: target :: more) disk := by
    refine not_atFault hconfig fun k' hdirectory => ?_
    cases hstat.symm.trans hdirectory
  subst hs
  have hends := copyFile_ends hjob (hpath ▸ lt_readBound hstat)
  cases hcopy : copyFile attempt found (absolute s.system.disk target) config s with
  | error trouble =>
    rw [hcopy] at hends
    rw [hallocator] at hends
    rcases hends with hfile | hbytes
    · exact .file hconfig hfile
    · exact .bytes hconfig hbytes
  | ok ending =>
    rw [hcopy] at hends
    rcases hends with ⟨hcode, hpublished⟩ | ⟨hcode, hkeeps⟩
    · exact faithful_of_published hconfig hstat hcode hpublished hfault
    · refine faithful_of_keeps hkeeps ?_
        (noTemp_of_config hconfig fun _ _ => hjob.fresh_of_keeps hkeeps) ?_
      all_goals rw [hcode]
      · decide
      · exact iff_of_false (by decide) hfault

/-! ## The theorem -/

/-- Reading a configuration breaks down over a directory only. -/
theorem configuration_breaks {path? : Option Path} {trouble : Breakdown}
    (h : configuration library disk path? = .error trouble) :
    trouble = .unreadable .isDirectory ∧
      ∃ path k, path? = some path ∧ disk.stat path = .ok (k, .directory) := by
  cases path? with
  | none => cases h
  | some path =>
    unfold configuration Config.load Config.fileText? at h
    dsimp only at h
    cases hstat : disk.stat path with
    | error e =>
      rw [hstat] at h
      cases h
    | ok reached =>
      obtain ⟨k, node⟩ := reached
      rw [hstat] at h
      cases node with
      | directory => exact ⟨(Except.error.inj h).symm, path, k, rfl, hstat⟩
      | file inode => cases h

/-- A run with two paths and a configuration. -/
theorem faithful_of_runConfigured {s : Surroundings}
    (h : Ordinary platform.json (source :: target :: more) attempt disk)
    (hs : s.system.disk = disk) (hallocator : s.system.allocator = platform.allocator)
    (hconfig : configuration platform.json disk more[0]? = .ok (.ok config)) :
    match runConfigured attempt (absolute disk source) (absolute disk target) config s with
    | .ok ending => Faithful platform.json (source :: target :: more) attempt disk ending
    | .error trouble => Cause platform (source :: target :: more) disk trouble := by
  unfold runConfigured
  cases hstatus : s.system.status settings (absolute disk source) with
  | error e =>
    refine faithful_of_same h hs (by simp) (iff_of_false (by simp) ?_)
    refine not_atFault hconfig fun k hdirectory => ?_
    rw [← hs] at hdirectory hstatus
    obtain ⟨found, hfound, -⟩ := status_of_directory hdirectory
    cases hfound.symm.trans hstatus
  | ok found =>
    dsimp only
    cases hdirectory : found.isDirectory with
    | true =>
      obtain ⟨k, hstat⟩ := directory_of_status hstatus hdirectory
      rw [hs] at hstat
      refine faithful_of_same h hs (by simp) (iff_of_true rfl ?_)
      exact .inr (.inr ⟨source, k, rfl, hstat⟩)
    | false =>
      obtain ⟨k, n, hstat, hpath⟩ := file_of_status (hs ▸ h.sound) hstatus hdirectory
      rw [hs] at hstat
      exact faithful_of_copyFile h hs hallocator hconfig hstat hpath

/-- A run comes to an end with an exit code, unless it breaks down for one of the causes. When the
code is 0, the target leads to a file with the bytes that the source had; otherwise every file is
kept. In either case no file but the target is touched, none is new, and the temporary file is gone.
The code is 2 exactly when the request is at fault. -/
theorem run_faithful (platform : Platform) (program : Bytes)
    (h : Ordinary platform.json arguments attempt disk) :
    match run platform program arguments attempt disk with
    | .ok ending => Faithful platform.json arguments attempt disk ending
    | .error trouble => Cause platform arguments disk trouble := by
  have hfew : arguments.length < 2 → Faithful platform.json arguments attempt disk
      (finishWith 2 .error
        (utf8 "Usage: " ++ program ++ utf8 " <source> <target> [config.json]")
        (surroundings platform disk)) := fun hfew =>
    faithful_of_same h rfl (by simp) (iff_of_true rfl (.inl hfew))
  match arguments, h, hfew with
  | [], h, hfew => exact hfew (by decide)
  | [only], h, hfew => exact hfew (by simp)
  | source :: target :: more, h, _ =>
    unfold run absolute?
    have hsource : source.isEmpty = false := by
      simpa using (h.given source (by simp)).1
    have htarget : target.isEmpty = false := by
      simpa using (h.given target (by simp)).1
    simp only [hsource, htarget, Bool.false_eq_true, if_false, bind, Except.bind,
      List.head?_eq_getElem?]
    cases hconfig : configuration platform.json disk more[0]? with
    | error trouble =>
      obtain ⟨rfl, path, k, hpath, hstat⟩ := configuration_breaks hconfig
      exact .directory hpath hstat
    | ok loaded =>
      cases loaded with
      | error e =>
        refine faithful_of_same h rfl (by simp) (iff_of_true rfl (.inr (.inl ?_)))
        cases hpath : more[0]? with
        | none =>
          rw [hpath] at hconfig
          cases hconfig
        | some path =>
          rw [hpath] at hconfig
          exact ⟨path, e, hpath, hconfig⟩
      | ok config => exact faithful_of_runConfigured h rfl rfl hconfig

end run

/-! ## A small disk -/

/-- A disk with two files and a directory in its current directory. -/
def smallDisk : Disk where
  tree := ⟨[([utf8 "d", utf8 "s"], .file (.regular 0)), ([utf8 "d", utf8 "t"], .file (.regular 1)),
    ([utf8 "d", utf8 "c"], .directory), ([utf8 "d"], .directory)]⟩
  contents := #[utf8 "abc", utf8 "old"]
  current := [utf8 "d"]

theorem smallDisk_sound : smallDisk.Sound := by
  have hlisted : ∀ k node, k ≠ [] → smallDisk.get? k = some node →
      (k, node) ∈ smallDisk.tree.entries := by
    intro k node hk hnode
    rw [Disk.get?, Tree.get?, if_neg hk, List.lookup_eq_some_iff] at hnode
    obtain ⟨before, after, hentries, -⟩ := hnode
    rw [hentries]
    exact List.mem_append_right before List.mem_cons_self
  have hfile : ∀ k inode, smallDisk.get? k = some (.file inode) →
      (k, inode) = ([utf8 "d", utf8 "s"], .regular 0) ∨
        (k, inode) = ([utf8 "d", utf8 "t"], .regular 1) := by
    intro k inode hk
    have hroot : k ≠ [] := by
      rintro rfl
      cases (Tree.get?_root smallDisk.tree).symm.trans hk
    simpa [smallDisk] using hlisted k _ hroot hk
  refine ⟨fun k hk hthere => ?_, fun k inode hk => ?_, fun k other inode hk hother => ?_⟩
  · obtain ⟨node, hnode⟩ := Option.ne_none_iff_exists'.1 hthere
    have hmem := hlisted k node hk hnode
    simp only [smallDisk, List.mem_cons, Prod.mk.injEq, List.not_mem_nil, or_false] at hmem
    rcases hmem with ⟨rfl, -⟩ | ⟨rfl, -⟩ | ⟨rfl, -⟩ | ⟨rfl, -⟩ <;> decide +kernel
  · rcases hfile k inode hk with h | h
    · exact ⟨0, (Prod.ext_iff.1 h).2, by decide⟩
    · exact ⟨1, (Prod.ext_iff.1 h).2, by decide⟩
  · have hinodes : (Inode.regular 0) ≠ .regular 1 := by decide
    rcases hfile k inode hk with h | h <;> rcases hfile other inode hother with h' | h'
    · exact (Prod.ext_iff.1 (h.trans h'.symm)).1
    · exact absurd ((Prod.ext_iff.1 h).2.symm.trans (Prod.ext_iff.1 h').2) hinodes
    · exact absurd ((Prod.ext_iff.1 h').2.symm.trans (Prod.ext_iff.1 h).2) hinodes
    · exact (Prod.ext_iff.1 (h.trans h'.symm)).1

/-- The paths of a copy of one of its files over the other. -/
def smallArguments : List Bytes := [utf8 "s", utf8 "t"]

/-- A platform with a megabyte for each buffer. -/
def smallPlatform : Platform where
  json := Json.library
  eventName _ := utf8 "event"
  allocator _ size := size ≤ 1048576

theorem smallDisk_ordinary :
    Ordinary smallPlatform.json smallArguments (attemptId 7 1) smallDisk := by
  have hconfig : ∀ config,
      configuration smallPlatform.json smallDisk smallArguments[2]? = .ok (.ok config) →
        config = {} := by
    intro config h
    exact (Except.ok.inj (Except.ok.inj h)).symm
  refine ⟨smallDisk_sound, by decide +kernel, by decide +kernel, by decide +kernel,
    isAttemptId_attemptId 7 1, fun target config htarget h => ?_,
    fun target config htarget h => ?_⟩
  · obtain rfl : utf8 "t" = target := Option.some.inj htarget
    rw [hconfig config h]
    have hstat : smallDisk.stat (temp smallDisk (utf8 "t") {} (attemptId 7 1))
        = .error .noEntry := by decide +kernel
    rw [hstat]
    exact fun k inode heq => nomatch heq
  · obtain rfl : utf8 "t" = target := Option.some.inj htarget
    rw [hconfig config h]
    decide +kernel

theorem run_faithful_small :
    Ordinary smallPlatform.json smallArguments (attemptId 7 1) smallDisk ∧
    ∃ ending, run smallPlatform (utf8 "copy") smallArguments (attemptId 7 1) smallDisk
        = .ok ending ∧
      ending.code = 0 ∧ Names ending.disk (utf8 "/d/t") (utf8 "abc") := by
  have hfaithful := run_faithful smallPlatform (utf8 "copy") smallDisk_ordinary
  have hcode : (run smallPlatform (utf8 "copy") smallArguments (attemptId 7 1)
      smallDisk).toOption.map Ending.code = some 0 := by decide +kernel
  cases hrun : run smallPlatform (utf8 "copy") smallArguments (attemptId 7 1) smallDisk with
  | error trouble =>
    rw [hrun] at hcode
    cases hcode
  | ok ending =>
  rw [hrun] at hcode hfaithful
  have hzero : ending.code = 0 := Option.some.inj hcode
  obtain ⟨source, target, content, hsource, htarget, ⟨k, n, hstat, rfl⟩, hcopy⟩ :=
    hfaithful.copied hzero
  obtain rfl : utf8 "s" = source := Option.some.inj hsource
  obtain rfl : utf8 "t" = target := Option.some.inj htarget
  have hfile : smallDisk.stat (absolute smallDisk (utf8 "s"))
      = .ok ([utf8 "d", utf8 "s"], .file (.regular 0)) := by decide +kernel
  rw [hfile] at hstat
  cases hstat
  exact ⟨smallDisk_ordinary, ending, rfl, hzero, hcopy⟩

/-- A run that is given a directory for a configuration has no exit code, although nothing is wrong
with the disk and the paths. -/
theorem run_breaks_down :
    (smallDisk.Sound ∧ smallDisk.get? smallDisk.current = some .directory ∧
      isAttemptId (attemptId 7 1) = true) ∧
    smallDisk.stat (utf8 "c") = .ok ([utf8 "d", utf8 "c"], .directory) ∧
    run smallPlatform (utf8 "copy") [utf8 "s", utf8 "t", utf8 "c"] (attemptId 7 1) smallDisk
      = .error (.unreadable .isDirectory) := by
  have hrun : run smallPlatform (utf8 "copy") [utf8 "s", utf8 "t", utf8 "c"] (attemptId 7 1)
      smallDisk = .error (.unreadable .isDirectory) := by rfl
  refine ⟨⟨smallDisk_sound, by decide +kernel, isAttemptId_attemptId 7 1⟩, by decide +kernel, hrun⟩

end CommandLine

end StagedCopy
