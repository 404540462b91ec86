import StagedCopy.Proofs.Checksum
import StagedCopy.Proofs.Local.Mirror

/-!
# Two stores that answer alike

A store on disk and a store in memory that hold the same answer a call about paths that both read
alike in the same way, both with a value or both with a refusal, and hold the same again after it.
While a file is under creation the two differ in what they show of it: the disk has what its stream
passed on so far, and the store in memory has nothing until the stream is closed.

* `LocalSystem.Fills`, `LocalSystem.Feeds` — streams that write and that read the same.
* `LocalStep.mirrored_created`, `mirrored_notCreated` and so on — one lemma for each call and
  answer of the disk, with the answer of the store in memory.
-/

namespace StagedCopy

open Program (Exchange)

/-! ## Creating -/

/-- A file can be opened for writing at a place without a directory in a directory. -/
theorem Disk.openForWriting_portable {disk : Disk} {path : Path}
    (hformed : disk.tree.WellFormed) (hpath : path.IsPortable)
    (hparent : disk.get? (disk.current ++ path.key).parent = some .directory)
    (hfree : disk.get? (disk.current ++ path.key) ≠ some .directory) :
    ∃ result, disk.openForWriting path = .ok result := by
  rw [← hpath.place_eq disk] at hparent hfree
  obtain ⟨last, hlocate, hlast, -, hlookup⟩ :=
    locate_straight hformed hpath.straight hpath.bearable hparent
  have hname : Site.name? ⟨(disk.place path).parent, some last, false⟩ = some last :=
    Site.name?_eq_some.2 ⟨rfl, hlast⟩
  cases hget : disk.get? (disk.place path) with
  | none =>
    rw [hget] at hlookup
    exact ⟨_, openForWriting_eq_ok.2 ⟨_, last, hlocate, hname, rfl, .inr ⟨hlookup, rfl⟩⟩⟩
  | some node =>
    rw [hget] at hlookup
    cases node with
    | directory => exact absurd hget hfree
    | file inode =>
      exact ⟨_, openForWriting_eq_ok.2 ⟨_, last, hlocate, hname, rfl, .inl ⟨inode, hlookup, rfl⟩⟩⟩

namespace LocalSystem

variable {system : LocalSystem} {path : Path} (size : Nat)

/-- Without a directory to be in, the file is not created. -/
theorem create_homeless {e : SystemError} (hformed : system.disk.tree.WellFormed)
    (hpath : path.IsPortable) (hparent : path.key.parent ≠ [])
    (hfails : system.disk.makeDirectories path.parent = (some e, system.disk))
    (hnot : system.disk.get? (system.disk.current ++ path.key.parent) ≠ some .directory) :
    ∃ e, system.create path true size = (.error e, system) := by
  have hasked : ¬ (system.disk.isDirectory path.parent).toOption = some true := by
    rw [Disk.isDirectory_iff hformed (hpath.parent hparent), hpath.key_parent]
    exact hnot
  have hnonempty : ¬ path.parent.isEmpty = true := by
    rw [List.isEmpty_iff, hpath.parent_eq_nil]
    exact hparent
  unfold create
  rw [Bool.not_true, Bool.false_and, if_neg Bool.false_ne_true]
  dsimp only
  rw [if_neg hnonempty, hfails]
  dsimp only
  rw [if_neg hasked]
  exact ⟨_, rfl⟩

variable (hsound : system.disk.Sound)
  (hcurrent : system.disk.get? system.disk.current = some .directory) (hpath : path.IsPortable)

include hsound hcurrent hpath

/-- A file above the path is in the way. -/
theorem create_blocked (hblocked : system.disk.Blocked path.key.parent) :
    ∃ e, system.create path true size = (.error e, system) := by
  have hparent : path.key.parent ≠ [] := by
    intro hempty
    obtain ⟨a, inode, ha, hfile⟩ := hblocked
    rw [hempty, List.prefix_nil] at ha
    rw [ha, List.append_nil, hcurrent] at hfile
    cases hfile
  obtain ⟨e, he⟩ := Disk.makeDirectories_blocked hsound.formed hcurrent
    (hpath.key_parent ▸ (hpath.parent hparent).spellable) hparent hblocked
  rw [← hpath.parent_eq] at he
  exact create_homeless size hsound.formed hpath hparent he fun hdirectory =>
    Disk.not_blocked_of_there hsound.formed hdirectory hblocked

/-- More directories are missing above the path than are made at once. -/
theorem create_many (hfree : ¬ system.disk.Blocked path.key.parent)
    (hmany : Disk.maxMissing < (system.disk.missingTo path.key.parent).length) :
    ∃ e, system.create path true size = (.error e, system) := by
  have hmissing := Disk.not_there_of_missing hsound.formed hmany
  have hparent : path.key.parent ≠ [] := by
    intro hempty
    rw [hempty, List.append_nil, hcurrent] at hmissing
    cases hmissing
  have hmade := Disk.makeDirectories_many hsound.formed hcurrent
    (hpath.key_parent ▸ (hpath.parent hparent).spellable) hparent hfree hmany
  rw [← hpath.parent_eq] at hmade
  refine create_homeless size hsound.formed hpath hparent hmade fun hdirectory => ?_
  cases hmissing.symm.trans hdirectory

/-- The directories above the path are made, and then the file is opened for writing. -/
theorem create_housed (hfree : ¬ system.disk.Blocked path.key.parent)
    (hreach : system.disk.InReach path.key.parent) :
    ∃ housed, Disk.Made system.disk housed path.key.parent ∧
      system.create path true size = { system with disk := housed }.startFile path size := by
  unfold create
  rw [Bool.not_true, Bool.false_and, if_neg Bool.false_ne_true]
  dsimp only
  by_cases hparent : path.key.parent = []
  · rw [if_pos (by rw [List.isEmpty_iff, hpath.parent_eq_nil, hparent]), hparent]
    exact ⟨system.disk, .refl (Disk.there_of_root hcurrent), rfl⟩
  · obtain ⟨housed, hmade, hspec⟩ := Disk.makeDirectories_spelled hsound.formed hcurrent
      (hpath.key_parent ▸ (hpath.parent hparent).spellable) hparent hfree (hreach hfree)
    rw [← hpath.parent_eq] at hmade
    have hnonempty : ¬ path.parent.isEmpty = true := by
      rw [List.isEmpty_iff, hpath.parent_eq_nil]
      exact hparent
    rw [if_neg hnonempty, hmade]
    exact ⟨housed, hspec, rfl⟩

end LocalSystem

/-! ## Removing and renaming -/

namespace Disk

variable {disk : Disk} {path : Path} (hformed : disk.tree.WellFormed) (hpath : path.IsPortable)

include hformed hpath

/-- A file, or a directory with nothing in it, can be removed. -/
theorem removeOne_portable {node : Node Inode}
    (hnode : disk.get? (disk.current ++ path.key) = some node)
    (hempty : node = .directory → disk.tree.hasBelow (disk.current ++ path.key) = false) :
    ∃ after, disk.removeOne path = (none, after) := by
  rw [← hpath.place_eq] at hnode hempty
  have hthere : disk.tree.get? (disk.place path) ≠ none := by
    intro hnone
    cases hnode.symm.trans hnone
  obtain ⟨last, hlocate, hlast, hconcat, hlookup⟩ := locate_straight hformed hpath.straight
    hpath.bearable (hformed _ (place_ne_root hpath.straight) hthere)
  rw [hnode] at hlookup
  have hremoved := removeOne_of_lookup hlocate (Site.name?_eq_some.2 ⟨rfl, hlast⟩) hlookup
  rw [hconcat] at hremoved
  cases node with
  | file inode => exact ⟨_, hremoved⟩
  | directory =>
    rw [hempty rfl] at hremoved
    exact ⟨_, hremoved⟩

/-- A path at which nothing stands in a directory is vacant. -/
theorem vacant_portable (hparent : disk.get? (disk.current ++ path.key.parent) = some .directory)
    (hfree : disk.get? (disk.current ++ path.key) = none) : disk.Vacant path := by
  rw [← Key.parent_append hpath.named, ← hpath.place_eq disk] at hparent
  obtain ⟨last, hlocate, hlast, -, hlookup⟩ :=
    locate_straight hformed hpath.straight hpath.bearable hparent
  rw [hpath.place_eq, hfree, ← hpath.place_eq] at hlookup
  exact ⟨_, last, hlocate, Site.name?_eq_some.2 ⟨rfl, hlast⟩, rfl, hlookup⟩

/-- What a file is renamed to has a directory to be in when that is there. -/
theorem parentTrouble_portable
    (hcurrent : disk.get? disk.current = some .directory) :
    LocalSystem.parentTrouble disk path = none ↔
      disk.get? (disk.current ++ path.key.parent) = some .directory := by
  rw [LocalSystem.parentTrouble_eq_none]
  by_cases hparent : path.key.parent = []
  · simp [hpath.parent_eq_nil.2 hparent, hparent, hcurrent]
  · rw [stat_eq_ok_iff hformed (hpath.parent hparent), hpath.key_parent]
    exact or_iff_right (mt hpath.parent_eq_nil.1 hparent)

end Disk

/-! ## Refusals of the store in memory -/

/-- No file comes to be with a content when a file is started. -/
theorem MemoryStore.file_of_startFile {store : MemoryStore} {k other : Key} {wanted : Layout}
    {f : MemoryFile} (hk : k ≠ [])
    (h : (store.startFile k wanted).2.get? other = some (.file f)) :
    f.content = [] ∨ store.get? other = some (.file f) := by
  rw [get?_startFile hk] at h
  split at h
  · cases h
    exact .inl rfl
  · split at h
    · cases h
    · exact .inr h

/-! ## Streams of both stores -/

/-- A stream of each store is open for writing the file at a place and has accepted the bytes, and
elsewhere the two hold the same. -/
structure LocalSystem.Fills (system : LocalSystem) (store : MemoryStore) (k : Key) (n : Nat)
    (output output' : StreamId) (bytes : Bytes) : Prop where
  aside : system.disk.Mirrors store fun other => other ≠ k
  file : system.disk.get? (system.disk.current ++ k) = some (.file (.regular n))
  accepts : system.Accepts output n bytes
  file' : ∃ f, store.get? k = some (.file f)
  writer : ∃ writer, store.writers[output']? = some writer ∧ writer.key = k ∧
    writer.closed = false ∧ writer.content = bytes

/-- A stream of each store is open for reading, and has the bytes left. -/
structure LocalSystem.Feeds (system : LocalSystem) (store : MemoryStore) (input input' : StreamId)
    (m : Nat) (rest : Bytes) : Prop where
  gives : system.Gives input m rest
  reader : store.readers[input']? = some ⟨rest⟩

namespace LocalSystem

variable {system after : LocalSystem} {store store' : MemoryStore} {k : Key} {m n : Nat}
  {input input' output output' : StreamId} {bytes rest : Bytes}

/-- The file is there on the disk with nothing in it, as long as nothing was accepted. -/
theorem Accepts.content_nil (h : system.Accepts output n []) :
    system.disk.contentOf (.regular n) = [] := by
  obtain ⟨-, writer, -, -, hholds⟩ := h
  exact (List.append_eq_nil_iff.1 hholds.bytes).1

theorem Fills.ne_root (h : system.Fills store k n output output' bytes) : k ≠ [] := by
  obtain ⟨f, hfile⟩ := h.file'
  exact MemoryStore.ne_root_of_file hfile

/-- What only reads leaves the file under creation alone. -/
theorem Fills.of_same (h : system.Fills store k n output output' bytes)
    (hdisk : after.disk = system.disk) (hwriters : after.writers = system.writers)
    (htree : store'.tree = store.tree) (hwriters' : store'.writers = store.writers) :
    after.Fills store' k n output output' bytes where
  aside := hdisk.symm ▸ h.aside.of_tree htree
  file := hdisk.symm ▸ h.file
  accepts := h.accepts.of_same hdisk hwriters
  file' := by
    rw [MemoryStore.get?, htree]
    exact h.file'
  writer := by
    rw [hwriters']
    exact h.writer

end LocalSystem

/-! ## What is told about a path -/

/-- The length that is told of what stands at a place. -/
def lengthSeen : Option (Node Bytes) → Option Nat
  | none => none
  | some .directory => some 0
  | some (.file content) => some (wrap64 content.length)

/-- The plain checksum of what stands at a place. -/
def sumSeen : Option (Node Bytes) → Option (Option FileChecksum)
  | some (.file content) => some (checksumOf .crc32 0 content)
  | _ => none

/-- The plain checksum does not depend on the block size. -/
theorem checksumOf_plain (blockSize : Nat) (content : Bytes) :
    checksumOf .crc32 blockSize content = checksumOf .crc32 0 content := by
  rw [checksumOf_eq, checksumOf_eq]
  rfl

theorem mapError_eq_ok {ε ε' α : Type} {f : ε → ε'} {result : Except ε α} {value : α} :
    result.mapError f = .ok value ↔ result = .ok value := by
  cases result <;> simp [Except.mapError]

theorem mapError_eq_error {ε ε' α : Type} {f : ε → ε'} {result : Except ε α} {e' : ε'}
    (h : result.mapError f = .error e') : ∃ e, result = .error e := by
  cases result with
  | ok value => cases h
  | error e => exact ⟨e, rfl⟩

section told

variable {ε ε' α β γ : Type} {first : Except ε α} {second : Except ε' β} {f : α → γ} {g : β → γ}

/-- Where two results tell the same, a value stands beside one that tells as much. -/
theorem exists_ok_of_map {value : α} (h : first.toOption.map f = second.toOption.map g)
    (hvalue : first = .ok value) : ∃ value', second = .ok value' ∧ g value' = f value := by
  rw [hvalue] at h
  cases second with
  | error e' => cases h
  | ok value' => exact ⟨value', rfl, (Option.some.inj h).symm⟩

/-- A refusal stands beside a refusal. -/
theorem exists_error_of_map {e : ε} (h : first.toOption.map f = second.toOption.map g)
    (hrefused : first = .error e) : ∃ e', second = .error e' := by
  rw [hrefused] at h
  cases second with
  | error e' => exact ⟨e', rfl⟩
  | ok value' => cases h

end told

namespace MemoryStore

variable {store : MemoryStore} {path : Path}

theorem status_length :
    (store.status path).toOption.map FileStatus.length = lengthSeen (store.view path.key) := by
  unfold status view
  dsimp only
  cases store.get? path.key with
  | none => rfl
  | some node => cases node <;> rfl

theorem checksum_plain (hkind : store.checksumKind = .crc32) :
    (store.checksum path).toOption = sumSeen (store.view path.key) := by
  unfold checksum file? view
  dsimp only
  cases store.get? path.key with
  | none => rfl
  | some node =>
    cases node with
    | directory => rfl
    | file f =>
      rw [hkind]
      exact congrArg some (checksumOf_plain _ _)

end MemoryStore

namespace LocalSystem

variable {settings : LocalSettings} {system : LocalSystem} {path : Path}

theorem status_length (settings : LocalSettings) (hsound : system.disk.Sound)
    (hpath : path.IsPortable) :
    (system.status settings path).toOption.map FileStatus.length
      = lengthSeen (system.disk.view (system.disk.current ++ path.key)) := by
  have hplace := hpath.place_eq system.disk
  unfold status Disk.view
  cases hget : system.disk.get? (system.disk.current ++ path.key) with
  | none =>
    obtain ⟨e, hstat, -⟩ := Disk.stat_absent hpath.straight hpath.bearable (hplace.symm ▸ hget)
    rw [hstat]
    rfl
  | some node =>
    have hstat := Disk.stat_straight hsound.formed hpath.straight hpath.bearable
      (hplace.symm ▸ hget)
    rw [hstat]
    cases node with
    | directory => rfl
    | file inode =>
      obtain ⟨n, rfl, -⟩ := hsound.numbered _ _ hget
      simp only [Disk.fileSize, hstat]
      rfl

theorem checksum_plain (hkind : settings.checksumKind = .crc32) (hsound : system.disk.Sound)
    (hpath : path.IsPortable) :
    (system.checksum settings path).toOption
      = sumSeen (system.disk.view (system.disk.current ++ path.key)) := by
  have hplace := hpath.place_eq system.disk
  unfold checksum Disk.view
  rw [hkind, if_neg nofun]
  cases hget : system.disk.get? (system.disk.current ++ path.key) with
  | none =>
    obtain ⟨e, hstat, -⟩ := Disk.stat_absent hpath.straight hpath.bearable (hplace.symm ▸ hget)
    rw [hstat]
    rfl
  | some node =>
    rw [Disk.stat_straight hsound.formed hpath.straight hpath.bearable (hplace.symm ▸ hget)]
    cases node with
    | directory => rfl
    | file inode =>
      obtain ⟨n, rfl, -⟩ := hsound.numbered _ _ hget
      dsimp only
      rw [checksumInPieces_eq]
      exact congrArg some (checksumOf_plain _ _)

/-- Disk and memory tell the same length. -/
theorem status_alike {store : MemoryStore} (settings : LocalSettings)
    (h : system.disk.MirrorsAll store) (hpath : path.IsPortable) :
    (system.status settings path).toOption.map FileStatus.length
      = (store.status path).toOption.map FileStatus.length := by
  rw [status_length settings h.sound hpath, MemoryStore.status_length, h.view _ trivial]

/-- Disk and memory tell the same plain checksum. -/
theorem checksum_alike {store : MemoryStore} (hkind : settings.checksumKind = .crc32)
    (hkind' : store.checksumKind = .crc32) (h : system.disk.MirrorsAll store)
    (hpath : path.IsPortable) :
    (system.checksum settings path).toOption.map id = (store.checksum path).toOption.map id := by
  rw [checksum_plain hkind h.sound hpath, MemoryStore.checksum_plain hkind', h.view _ trivial]

end LocalSystem

namespace LocalStep

open LocalSettings LocalSystem

variable {settings : LocalSettings} {system after : LocalSystem} {store : MemoryStore}
  {side : Side} {path source target : Path} {size : Nat} {layout : Layout}
  {input input' output output' : StreamId} {message data bytes rest : Bytes} {m n : Nat} {k : Key}

/-! ## Creating a file -/

/-- A file that the disk creates is created in memory. -/
theorem mirrored_created (h : system.disk.MirrorsAll store) (hpath : path.IsPortable)
    (hreach : system.disk.InReach path.key.parent) (layout' : Layout)
    (hstep : LocalStep settings system
      ⟨.storage side (.createFile path true size layout), .ok (.ok output)⟩ after) :
    ∃ output' store' n,
      store.perform (.createFile path true size layout') = (.ok (.ok output'), store') ∧
      after.disk.MirrorsAll store' ∧ after.Fills store' path.key n output output' [] ∧
      after.disk.current = system.disk.current ∧
      (∀ k, system.disk.InReachAfter path.key.parent k → after.disk.InReach k) ∧
      ∀ k f, store'.get? k = some (.file f) → f.content = [] ∨ store.get? k = some (.file f) := by
  have hcreated : system.create path true size = (.ok (.ok output), after) :=
    word_eq_ok.1 hstep.of_call
  have hfree : ¬ system.disk.Blocked path.key.parent := by
    intro hblocked
    obtain ⟨e, he⟩ := create_blocked size h.sound h.current hpath hblocked
    cases he.symm.trans hcreated
  obtain ⟨housed, hmade, hstart⟩ :=
    create_housed size h.sound h.current hpath hfree hreach
  rw [hstart] at hcreated
  obtain ⟨n, hopens, -, haccepts⟩ := startFile_accepts (hmade.grows.sound h.sound) hcreated
  have hplace : housed.place path = system.disk.current ++ path.key := by
    rw [hpath.place_eq, hmade.grows.current]
  have hopened : Disk.Opens housed after.disk (system.disk.current ++ path.key) n :=
    hplace ▸ hopens
  obtain ⟨hdirectory, habove⟩ := h.startable hpath.named hfree hmade hopened
  have hafter := h.started hpath.named hmade hopened layout'
  have hfile : (store.startFile path.key layout').2.get? path.key = some (.file _) :=
    (MemoryStore.get?_startFile hpath.named).trans (if_pos rfl)
  have hcurrent : after.disk.current = system.disk.current :=
    hopened.current.trans hmade.grows.current
  refine ⟨store.writers.size, _, n, MemoryStore.perform_createFile_eq_ok.2
    ⟨_, rfl, MemoryStore.create_eq_ok.2 ⟨hdirectory, .inr rfl, habove, rfl⟩⟩, hafter,
    ⟨hafter.mono fun _ _ => trivial, hcurrent ▸ hopened.file, haccepts, ⟨_, hfile⟩, ?_⟩, hcurrent,
    fun k hk => (hk.inReach hmade).of_opens hopened,
    fun _ _ => MemoryStore.file_of_startFile hpath.named⟩
  exact ⟨{ key := path.key }, by simp, rfl, rfl, rfl⟩

/-- A file that the disk does not create is not created in memory; directories that were missing
above it are not made then. -/
theorem mirrored_notCreated (h : system.disk.MirrorsAll store) (hpath : path.IsPortable)
    (hreach : system.disk.InReach path.key.parent) (layout' : Layout)
    (hstep : LocalStep settings system
      ⟨.storage side (.createFile path true size layout), .error message⟩ after) :
    after.disk.MirrorsAll store ∧ after.disk.current = system.disk.current ∧ ∃ message',
      store.perform (.createFile path true size layout') = (.error message', store) := by
  have hword : word (system.create path true size) = (.error message, after) := hstep.of_call
  obtain ⟨e, hfailed⟩ := word_eq_error hword
  by_cases hblocked : system.disk.Blocked path.key.parent
  · obtain ⟨e', he'⟩ := create_blocked size h.sound h.current hpath hblocked
    obtain ⟨-, rfl⟩ := Prod.ext_iff.1 (he'.symm.trans hfailed)
    refine ⟨h, rfl, MemoryStore.conclude_refused fun result hresult => ?_⟩
    obtain ⟨stream, -, hcreated⟩ := MemoryStore.unbuffered_eq_ok.1 hresult
    obtain ⟨-, -, habove, -⟩ := MemoryStore.create_eq_ok.1 hcreated
    obtain ⟨a, f, ha, hbegins, hfile⟩ := h.blocked_iff.1 hblocked
    exact MemoryStore.fileAbove?_eq_none.1 habove a
      (Key.mem_properAncestors_iff_begins.2 ⟨ha, hbegins⟩) f hfile
  · obtain ⟨housed, hmade, hstart⟩ :=
      create_housed size h.sound h.current hpath hblocked hreach
    rw [hstart] at hfailed
    obtain rfl := startFile_error hfailed
    have hcurrent : housed.current = system.disk.current := hmade.grows.current
    -- nothing but a directory at the place keeps the file from being opened
    have hdirectory : housed.get? (system.disk.current ++ path.key) = some .directory := by
      by_contra hfree
      obtain ⟨⟨inode, opened⟩, hopened⟩ := Disk.openForWriting_portable
        (hmade.grows.formed h.sound.formed) hpath
        (by rw [hcurrent, Key.parent_append hpath.named, hmade.directory hblocked])
        (hcurrent.symm ▸ hfree)
      let enclosing : LocalSystem := { system with disk := housed }
      have hstarts : ∃ value started, enclosing.startFile path size = (.ok value, started) :=
        startFile_of_opened size hopened
      obtain ⟨value, started, hstarted⟩ := hstarts
      cases hstarted.symm.trans hfailed
    rw [hmade.elsewhere (Key.not_begins_parent hpath.named)] at hdirectory
    refine ⟨h.made hmade fun a => (if_neg fun hboth => ?_).symm, hcurrent,
      MemoryStore.conclude_refused fun result hresult => ?_⟩
    · have hthere : system.disk.get? (system.disk.current ++ path.key) ≠ none := by
        rw [hdirectory]
        exact Option.some_ne_none _
      have hbegins := hboth.2.trans (List.dropLast_prefix path.key)
      have hne : a ≠ path.key := by
        rintro rfl
        exact Key.not_begins_parent hpath.named hboth.2
      have habove := Disk.directory_of_below h.sound.formed hthere hbegins hne
      cases ((h.none_iff trivial).2 hboth.1).symm.trans habove
    · obtain ⟨stream, -, hcreated⟩ := MemoryStore.unbuffered_eq_ok.1 hresult
      exact (MemoryStore.create_eq_ok.1 hcreated).1 ((h.directory_iff trivial).1 hdirectory)

/-! ## Reading a file -/

/-- A file that the disk opens is opened in memory, with the same content. -/
theorem mirrored_opened (h : system.disk.MirrorsAll store) (hpath : path.IsPortable)
    (hstep : LocalStep settings system ⟨.storage side (.openFile path), .ok input⟩ after) :
    ∃ m input' store', store.perform (.openFile path) = (.ok input', store') ∧
      store'.tree = store.tree ∧ store'.writers = store.writers ∧
      after.disk = system.disk ∧ after.writers = system.writers ∧
      system.disk.get? (system.disk.current ++ path.key) = some (.file (.regular m)) ∧
      after.Feeds store' input input' m (system.disk.contentOf (.regular m)) := by
  have hword : word (system.openFile path) = (.ok input, after) := hstep.of_call
  obtain ⟨k, m, hstat, -⟩ := openFile_eq_ok.1 (word_eq_ok.1 hword)
  have hfile := (Disk.stat_eq_ok_iff h.sound.formed hpath).1 ⟨k, hstat⟩
  obtain ⟨input₁, hinput, hdisk, hwriters, hgives⟩ := hstep.of_openFile hstat
  obtain rfl : input = input₁ := Except.ok.inj hinput
  obtain ⟨f, hfile', hcontent⟩ := h.file trivial hfile
  refine ⟨m, _, _, MemoryStore.conclude_eq_ok.2 (MemoryStore.openFile_eq_ok.2 ⟨f, hfile', rfl⟩),
    rfl, rfl, hdisk, hwriters, hfile, hgives, ?_⟩
  rw [← hcontent]
  simp

theorem mirrored_notOpened (h : system.disk.MirrorsAll store) (hpath : path.IsPortable)
    (hstep : LocalStep settings system ⟨.storage side (.openFile path), .error message⟩ after) :
    after = system ∧ ∃ message', store.perform (.openFile path) = (.error message', store) := by
  have hword : word (system.openFile path) = (.error message, after) := hstep.of_call
  obtain ⟨e, hfailed⟩ := word_eq_error hword
  refine ⟨openFile_error hfailed, MemoryStore.conclude_refused fun result hresult => ?_⟩
  obtain ⟨f, hfile, -⟩ := MemoryStore.openFile_eq_ok.1 hresult
  obtain ⟨m, hfile', -⟩ := h.regular trivial hfile
  obtain ⟨k, hstat⟩ := (Disk.stat_eq_ok_iff h.sound.formed hpath).2 hfile'
  obtain ⟨input, hinput, -⟩ := hstep.of_openFile hstat
  cases hinput

/-- Both streams give the same bytes. -/
theorem mirrored_read {answer : (StorageCall.read input size).Answer}
    (hfeeds : system.Feeds store input input' m rest)
    (hstep : LocalStep settings system ⟨.storage side (.read input size), answer⟩ after) :
    answer = .ok (rest.take size) ∧ after.disk = system.disk ∧
      after.writers = system.writers ∧
      ∃ store', store.perform (.read input' size) = (.ok (rest.take size), store') ∧
        store'.tree = store.tree ∧ store'.writers = store.writers ∧
        after.Feeds store' input input' m (rest.drop size) := by
  obtain ⟨hanswer, hdisk, hwriters, hgives⟩ := hstep.of_read hfeeds.gives
  have hbound : input' < store.readers.size := (Array.getElem?_eq_some_iff.1 hfeeds.reader).1
  refine ⟨hanswer, hdisk, hwriters, _, MemoryStore.conclude_eq_ok.2
    (MemoryStore.read_eq_ok.2 ⟨⟨rest⟩, hfeeds.reader, rfl⟩), rfl, rfl, hgives, ?_⟩
  simp [hbound]

/-! ## Writing a file -/

/-- Both streams accept the bytes, and no other file changes. -/
theorem mirrored_written {answer : (StorageCall.write output data).Answer}
    (hfills : system.Fills store k n output output' bytes)
    (hstep : LocalStep settings system ⟨.storage side (.write output data), answer⟩ after) :
    answer = .ok () ∧ ∃ store', store.perform (.write output' data) = (.ok (), store') ∧
      after.Fills store' k n output output' (bytes ++ data) ∧
      after.readers = system.readers ∧ store'.readers = store.readers ∧
      ∃ content, Disk.Refills system.disk after.disk n content := by
  obtain ⟨hanswer, hreaders, haccepts, content, hrefills⟩ := hstep.of_write hfills.accepts
  obtain ⟨writer, hwriter, hkey, hopen, hcontent⟩ := hfills.writer
  have hbound : output' < store.writers.size := (Array.getElem?_eq_some_iff.1 hwriter).1
  refine ⟨hanswer, _, MemoryStore.conclude_eq_ok.2
    (MemoryStore.write_eq_ok.2 ⟨writer, hwriter, hopen, rfl⟩),
    ⟨(hfills.aside.refilled hfills.file hrefills).of_tree rfl, ?_, haccepts, hfills.file', ?_⟩,
    hreaders, rfl, content, hrefills⟩
  · rw [hrefills.get?, hrefills.current]
    exact hfills.file
  · refine ⟨{ writer with chunks := data :: writer.chunks }, by simp [hbound], hkey, hopen, ?_⟩
    rw [← hcontent]
    simp [MemoryWriter.content]

/-- Both streams give the file its content when they are closed. -/
theorem mirrored_closed {answer : (StorageCall.close output).Answer}
    (hfills : system.Fills store k n output output' bytes)
    (hstep : LocalStep settings system ⟨.storage side (.close output), answer⟩ after) :
    answer = .ok () ∧ ∃ store', store.perform (.close output') = (.ok (), store') ∧
      after.disk.MirrorsAll store' ∧ (∃ f, store'.get? k = some (.file f)) ∧
      Disk.Refills system.disk after.disk n bytes := by
  obtain ⟨hanswer, hrefills⟩ := hstep.of_close hfills.accepts
  obtain ⟨writer, hwriter, rfl, hopen, rfl⟩ := hfills.writer
  obtain ⟨f, hfile⟩ := hfills.file'
  have hclose : store.close output' = (.ok (), (store.close output').2) := by
    rw [MemoryStore.close_eq hwriter hopen, MemoryStore.file?_eq_some.2 hfile]
  have hget : ∀ other, (store.close output').2.get? other =
      if other = writer.key then some (.file { f with content := writer.content })
      else store.get? other := fun _ => MemoryStore.get?_close hwriter hopen hfile
  refine ⟨hanswer, (store.close output').2, ?_, ?_, ⟨_, (hget _).trans (if_pos rfl)⟩, hrefills⟩
  · show ((store.close output').1.mapError MemoryError.message, (store.close output').2) = _
    rw [hclose]
    rfl
  · exact hfills.aside.replaced hfills.ne_root (hrefills.sound hfills.aside.sound)
      hrefills.current (hrefills.view hfills.aside.sound hfills.file)
      fun other => MemoryStore.view_of_get? (hget other)

/-! ## Asking about a path -/

theorem mirrored_pathExists {answer : (StorageCall.pathExists path).Answer}
    (h : system.disk.MirrorsAll store) (hpath : path.IsPortable)
    (hstep : LocalStep settings system ⟨.storage side (.pathExists path), answer⟩ after) :
    after = system ∧ answer = .ok (store.get? path.key).isSome := by
  obtain ⟨hsame, hanswer⟩ := hstep.of_pathExists
  refine ⟨hsame, (hanswer _).2 ?_⟩
  rw [Disk.pathExists_portable h.sound.formed hpath]
  refine congrArg Except.ok (Bool.eq_iff_iff.2 ?_)
  rw [Option.isSome_iff_ne_none, Option.isSome_iff_ne_none, ne_eq, ne_eq, h.none_iff trivial]

theorem mirrored_sized {status : FileStatus} (h : system.disk.MirrorsAll store)
    (hpath : path.IsPortable)
    (hstep : LocalStep settings system ⟨.storage side (.status path), .ok status⟩ after) :
    after = system ∧ ∃ status', store.perform (.status path) = (.ok status', store) ∧
      status'.length = status.length := by
  have hlocal : (system.status settings path).mapError LocalError.message = .ok status :=
    (Prod.ext_iff.1 hstep.of_call).1
  obtain ⟨status', hstatus, hlength⟩ :=
    exists_ok_of_map (status_alike settings h hpath) (mapError_eq_ok.1 hlocal)
  refine ⟨hstep.of_status, status', ?_, hlength⟩
  rw [MemoryStore.perform, hstatus]
  rfl

theorem mirrored_unsized (h : system.disk.MirrorsAll store) (hpath : path.IsPortable)
    (hstep : LocalStep settings system ⟨.storage side (.status path), .error message⟩ after) :
    after = system ∧ ∃ message', store.perform (.status path) = (.error message', store) := by
  have hlocal : (system.status settings path).mapError LocalError.message = .error message :=
    (Prod.ext_iff.1 hstep.of_call).1
  obtain ⟨e, hrefused⟩ := mapError_eq_error hlocal
  obtain ⟨e', hstatus⟩ := exists_error_of_map (status_alike settings h hpath) hrefused
  refine ⟨hstep.of_status, e'.message, ?_⟩
  rw [MemoryStore.perform, hstatus]
  rfl

section sums

variable (hkind : settings.checksumKind = .crc32) (hkind' : store.checksumKind = .crc32)

include hkind hkind'

theorem mirrored_summed {sum : Option FileChecksum} (h : system.disk.MirrorsAll store)
    (hpath : path.IsPortable)
    (hstep : LocalStep settings system ⟨.storage side (.checksum path), .ok sum⟩ after) :
    after = system ∧ store.perform (.checksum path) = (.ok sum, store) := by
  have hlocal : (system.checksum settings path).mapError LocalError.message = .ok sum :=
    (Prod.ext_iff.1 hstep.of_call).1
  obtain ⟨sum', hchecksum, hsame⟩ :=
    exists_ok_of_map (checksum_alike hkind hkind' h hpath) (mapError_eq_ok.1 hlocal)
  obtain rfl : sum' = sum := hsame
  refine ⟨hstep.of_checksum, ?_⟩
  rw [MemoryStore.perform, hchecksum]
  rfl

theorem mirrored_unsummed (h : system.disk.MirrorsAll store) (hpath : path.IsPortable)
    (hstep : LocalStep settings system ⟨.storage side (.checksum path), .error message⟩ after) :
    after = system ∧ ∃ message', store.perform (.checksum path) = (.error message', store) := by
  have hlocal : (system.checksum settings path).mapError LocalError.message = .error message :=
    (Prod.ext_iff.1 hstep.of_call).1
  obtain ⟨e, hrefused⟩ := mapError_eq_error hlocal
  obtain ⟨e', hchecksum⟩ := exists_error_of_map (checksum_alike hkind hkind' h hpath) hrefused
  refine ⟨hstep.of_checksum, e'.message, ?_⟩
  rw [MemoryStore.perform, hchecksum]
  rfl

end sums

/-! ## Removing -/

/-- What the disk removes is removed in memory. -/
theorem mirrored_removed (h : system.disk.MirrorsAll store) (hpath : path.IsPortable)
    (hstep : LocalStep settings system ⟨.storage side (.remove path false), .ok ()⟩ after) :
    ∃ store', store.perform (.remove path false) = (.ok (), store') ∧
      after.disk.MirrorsAll store' ∧ after.disk.current = system.disk.current ∧
      (∀ place, after.disk.view place =
        if place = system.disk.current ++ path.key then none else system.disk.view place) ∧
      ∀ other, store'.get? other = if other = path.key then none else store.get? other := by
  obtain ⟨k, node, hstat, hk, hnode, hempty, hafter⟩ := hstep.of_removed
  obtain rfl : system.disk.current ++ path.key = k := by
    rw [← hpath.place_eq, Disk.place_of_stat hstat]
  have hview : ∀ place, after.disk.view place =
      if place = system.disk.current ++ path.key then none else system.disk.view place := by
    rw [hafter]
    exact fun _ => Disk.view_erase hk
  have hcurrent : after.disk.current = system.disk.current := by rw [hafter]
  have hsound : after.disk.Sound := by
    rw [hafter]
    exact Disk.erase_sound h.sound hk fun _ => Disk.nothing_below h.sound hk hnode hempty
  have hremoved : ∃ node', store.get? path.key = some node' ∧
      (node' = .directory → store.tree.hasBelow path.key = false) := by
    cases node with
    | directory =>
      refine ⟨.directory, (h.directory_iff trivial).1 hnode, fun _ => ?_⟩
      rw [← h.hasBelow_eq]
      exact hempty rfl
    | file inode =>
      obtain ⟨f, hfile, -⟩ := h.file trivial hnode
      exact ⟨.file f, hfile, nofun⟩
  have hget : ∀ other, ({ store with tree := store.tree.erase path.key } : MemoryStore).get? other
      = if other = path.key then none else store.get? other :=
    fun _ => MemoryStore.get?_erase hpath.named
  exact ⟨_, MemoryStore.conclude_eq_ok.2
    (MemoryStore.remove_eq_ok.2 ⟨hpath.named, hremoved, rfl⟩),
    (h.mono fun _ _ => trivial).replaced hpath.named hsound hcurrent hview
      fun other => MemoryStore.view_of_none (hget other), hcurrent, hview, hget⟩

/-- What the disk keeps is kept in memory. -/
theorem mirrored_notRemoved (h : system.disk.MirrorsAll store) (hpath : path.IsPortable)
    (hstep : LocalStep settings system ⟨.storage side (.remove path false), .error message⟩ after) :
    after = system ∧ ∃ message', store.perform (.remove path false) = (.error message', store) := by
  have hword : word (system.remove path false) = (.error message, after) := hstep.of_call
  obtain ⟨e, hfailed⟩ := word_eq_error hword
  refine ⟨remove_error hfailed, MemoryStore.conclude_refused fun result hresult => ?_⟩
  obtain ⟨-, ⟨node', hnode', hempty'⟩, -⟩ := MemoryStore.remove_eq_ok.1 hresult
  -- what memory removes is there on the disk, and is no directory with anything in it
  have hnode : ∃ node, system.disk.get? (system.disk.current ++ path.key) = some node ∧
      (node = .directory →
        system.disk.tree.hasBelow (system.disk.current ++ path.key) = false) := by
    cases node' with
    | directory =>
      refine ⟨.directory, (h.directory_iff trivial).2 hnode', fun _ => ?_⟩
      rw [h.hasBelow_eq]
      exact hempty' rfl
    | file f =>
      obtain ⟨n, hfile, -⟩ := h.regular trivial hnode'
      exact ⟨.file (.regular n), hfile, nofun⟩
  obtain ⟨node, hnode, hempty⟩ := hnode
  obtain ⟨k, hstat⟩ := (Disk.stat_eq_ok_iff h.sound.formed hpath).2 hnode
  obtain ⟨disk, hremoved⟩ := Disk.removeOne_portable h.sound.formed hpath hnode hempty
  have hdone := remove_eq_ok.2 ⟨pathExists_eq_true.2 ⟨k, node, hstat⟩, disk, hremoved, rfl⟩
  cases hdone.symm.trans hfailed

/-! ## Making directories -/

/-- A directory that the disk makes with all above it is made in memory. -/
theorem mirrored_made (h : system.disk.MirrorsAll store) (hpath : path.IsPortable)
    (hreach : system.disk.InReach path.key)
    (hstep : LocalStep settings system ⟨.storage side (.makeDirs path), .ok ()⟩ after) :
    ∃ store', store.perform (.makeDirs path) = (.ok (), store') ∧
      after.disk.MirrorsAll store' ∧ after.disk.current = system.disk.current ∧
      ∀ a, store'.get? a =
        if store.get? a = none ∧ a <+: path.key then some .directory else store.get? a := by
  have hsystem := makeDirs_system system path
  have hword : word (system.makeDirs path) = (.ok (), after) := hstep.of_call
  rw [word_eq_ok] at hword
  have hfree : ¬ system.disk.Blocked path.key := by
    intro hblocked
    obtain ⟨e, he⟩ := Disk.makeDirectories_blocked h.sound.formed h.current hpath.spellable
      hpath.named hblocked
    rw [hpath.spelled] at he
    rw [makeDirs, he] at hword
    cases hword
  obtain ⟨disk, hdisk, hmade⟩ := Disk.makeDirectories_spelled h.sound.formed h.current
    hpath.spellable hpath.named hfree (hreach hfree)
  rw [hpath.spelled] at hdisk
  rw [hword, hdisk] at hsystem
  obtain rfl : after = { system with disk := disk } := hsystem
  have hget : ∀ a, ({ store with
      tree := (store.addParents path.key).addDirectories [path.key] } : MemoryStore).get? a =
        if store.get? a = none ∧ a <+: path.key then some .directory else store.get? a := by
    intro a
    rw [MemoryStore.get?_makeDirs]
    by_cases hnone : store.get? a = none
    · simp [hnone, Key.begins_iff (MemoryStore.ne_root_of_none hnone)]
    · simp [hnone]
  refine ⟨_, MemoryStore.conclude_eq_ok.2 (MemoryStore.makeDirs_eq_ok.2 ⟨?_, rfl⟩),
    h.made hmade hget, hmade.grows.current, hget⟩
  intro place hplace f hfile
  have hne := MemoryStore.ne_root_of_file hfile
  exact hfree (h.blocked_iff.2 ⟨place, f, hne, (Key.begins_iff hne).2 hplace, hfile⟩)

theorem mirrored_notMade (h : system.disk.MirrorsAll store) (hpath : path.IsPortable)
    (hreach : system.disk.InReach path.key)
    (hstep : LocalStep settings system ⟨.storage side (.makeDirs path), .error message⟩ after) :
    after = system ∧ ∃ message', store.perform (.makeDirs path) = (.error message', store) := by
  have hsystem := makeDirs_system system path
  have hword : word (system.makeDirs path) = (.error message, after) := hstep.of_call
  obtain ⟨e, hfailed⟩ := word_eq_error hword
  by_cases hblocked : system.disk.Blocked path.key
  · obtain ⟨e', he'⟩ := Disk.makeDirectories_blocked h.sound.formed h.current hpath.spellable
      hpath.named hblocked
    rw [hpath.spelled] at he'
    rw [hfailed, he'] at hsystem
    refine ⟨hsystem, MemoryStore.conclude_refused fun result hresult => ?_⟩
    obtain ⟨a, f, ha, hbegins, hfile⟩ := h.blocked_iff.1 hblocked
    exact (MemoryStore.makeDirs_eq_ok.1 hresult).1 a ((Key.begins_iff ha).1 hbegins) f hfile
  · -- where nothing is in the way, the directory is there in the end
    obtain ⟨disk, hdisk, hmade⟩ := Disk.makeDirectories_spelled h.sound.formed h.current
      hpath.spellable hpath.named hblocked (hreach hblocked)
    have hdirectory := hmade.directory hblocked
    rw [← hmade.grows.current] at hdirectory
    have hthere := (Disk.isDirectory_iff (hmade.grows.formed h.sound.formed) hpath).2 hdirectory
    rw [hpath.spelled] at hdisk
    exfalso
    rw [makeDirs, hdisk] at hfailed
    dsimp only at hfailed
    cases hfound : disk.isDirectory path with
    | error e' =>
      rw [hfound] at hthere
      cases hthere
    | ok found =>
      rw [hfound] at hthere hfailed
      obtain rfl : found = true := Option.some.inj hthere
      cases hfailed

/-! ## Renaming -/

section moving

variable (h : system.disk.MirrorsAll store) (hsource : source.IsPortable)
  (htarget : target.IsPortable)

include h hsource htarget

/-- A file that the disk renames is renamed in memory. -/
theorem mirrored_renamed (hnot : store.get? source.key ≠ some .directory)
    (hstep : LocalStep settings system ⟨.storage side (.rename source target), .ok ()⟩ after) :
    ∃ store', store.perform (.rename source target) = (.ok (), store') ∧
      after.disk.MirrorsAll store' ∧ after.disk.current = system.disk.current := by
  have hword : word (system.rename source target) = (.ok (), after) := hstep.of_call
  obtain ⟨-, hparent, -⟩ := rename_eq_ok.1 (word_eq_ok.1 hword)
  rw [Disk.parentTrouble_portable h.sound.formed htarget h.current] at hparent
  have hrenamed := hstep.of_renamed
  obtain ⟨inode, hfile⟩ : ∃ inode,
      system.disk.get? (system.disk.current ++ source.key) = some (.file inode) := by
    obtain ⟨old, -, oldName, -, node, hold, -, -, hname, -, hfound, -⟩ :=
      Disk.exists_of_rename hrenamed
    have hnode := (Disk.lookup_eq_ok.1 hfound).2.2
    rw [← Disk.Site.place_of_name hname, ← Disk.place_of_locate hold, hsource.place_eq] at hnode
    cases node with
    | directory => exact absurd ((h.directory_iff trivial).1 hnode) hnot
    | file inode => exact ⟨inode, hnode⟩
  have hcurrent : ¬ system.disk.place source <+: system.disk.current := by
    rw [hsource.place_eq]
    intro hbegins
    have hlength := hbegins.length_le
    rw [List.length_append] at hlength
    exact hsource.named (List.eq_nil_of_length_eq_zero (by omega))
  obtain ⟨hmoves, -⟩ := Disk.rename_moves h.sound ((hsource.place_eq _).symm ▸ hfile) hcurrent
    hrenamed
  rw [hsource.place_eq, htarget.place_eq] at hmoves
  obtain ⟨f, hfile', -⟩ := h.file trivial hfile
  exact ⟨_, MemoryStore.conclude_eq_ok.2 (MemoryStore.rename_eq_ok.2 ⟨f, hfile',
    (h.none_iff trivial).1 hmoves.free, (h.directory_iff trivial).1 hparent, rfl⟩),
    h.moved hmoves hfile' fun _ => MemoryStore.get?_rename hsource.named htarget.named,
    hmoves.current⟩

/-- On one file system, a file that the disk does not rename is not renamed in memory. -/
theorem mirrored_notRenamed
    (hdevices : Disk.isOnDevices (system.disk.place source).parent
      = Disk.isOnDevices (system.disk.place target).parent)
    (hstep : LocalStep settings system
      ⟨.storage side (.rename source target), .error message⟩ after) :
    after = system ∧
      ∃ message', store.perform (.rename source target) = (.error message', store) := by
  obtain ⟨hsame, hfailed⟩ := hstep.of_notRenamed
  refine ⟨hsame, MemoryStore.conclude_refused fun result hresult => ?_⟩
  obtain ⟨f, hfile', hfree', hparent', -⟩ := MemoryStore.rename_eq_ok.1 hresult
  obtain ⟨n, hfile, -⟩ := h.regular trivial hfile'
  have hfree := (h.none_iff trivial).2 hfree'
  have hparent := (h.directory_iff trivial).2 hparent'
  have hvacant := Disk.vacant_portable h.sound.formed htarget hparent hfree
  obtain ⟨disk, hrenamed⟩ := Disk.renames_to_vacant h.sound hsource.straight hsource.bearable
    ((hsource.place_eq _).symm ▸ hfile) hvacant hdevices
  refine hfailed disk (rename_eq_ok.2 ⟨?_, ?_, disk, hrenamed, rfl⟩)
  · rw [Disk.pathExists_portable h.sound.formed htarget, hfree]
    exact nofun
  · exact (Disk.parentTrouble_portable h.sound.formed htarget h.current).2 hparent

end moving

end LocalStep

end StagedCopy
