import StagedCopy.Proofs.Copy.Simulation
import StagedCopy.Proofs.Copy.Success
import StagedCopy.Proofs.Disk.Vacant
import StagedCopy.Proofs.Local.Calls

/-!
# An attempt on one disk

An attempt that reads from the disk that it writes to, for any spelling of the paths. The place of
the temporary file had no file before, so nothing is lost there. The target is removed only after
the source was read to its end, and only when it is found at its path; then the directory of the
target is there, and the rename that follows cannot fail. So a failure loses no file at all, and a
success none but the one that is replaced.

* `Disk.SameFile`, `Disk.Keeps` — files that are as they were.
* `CopyJob.Undisturbed` — what is asked of the disk before the attempt.
* `CopyPhase.Safe` — what the phase says about the disk; `safe_step` — kept by every step.
* `safe_attempt` — what the disk holds after an attempt, which never fails by reading.
-/

namespace StagedCopy

open Program (Exchange Handler)

/-! ## Files that are as they were -/

namespace Disk

variable {init disk after : Disk} {k other : Key} {path : Path}

/-- A place has the same file on both disks, or a file on neither. -/
def SameFile (init disk : Disk) (k : Key) : Prop :=
  ∀ content, disk.view k = some (.file content) ↔ init.view k = some (.file content)

theorem SameFile.of_view (h : SameFile init disk k) (hview : after.view k = disk.view k) :
    SameFile init after k := by
  intro content
  rw [hview]
  exact h content

theorem SameFile.of_grows (h : SameFile init disk k) (hgrows : Grows disk after) :
    SameFile init after k := fun content => hgrows.view_file_iff.trans (h content)

theorem SameFile.of_no_file (h : ∀ content, disk.view k ≠ some (.file content))
    (h' : ∀ content, init.view k ≠ some (.file content)) : SameFile init disk k :=
  fun content => ⟨fun hfile => absurd hfile (h content), fun hfile => absurd hfile (h' content)⟩

/-- What was found at a place where files are as they were was there before, if it is a file. -/
theorem SameFile.file {inode : Inode} (h : SameFile init disk k)
    (hfile : disk.get? k = some (.file inode)) : ∃ inode, init.get? k = some (.file inode) := by
  obtain ⟨inode', hinode, -⟩ := view_eq_file.1 ((h _).1 (view_of_file hfile))
  exact ⟨inode', hinode⟩

/-- A sound disk with the same files as another, wherever that is asked. -/
structure Keeps (init disk : Disk) (asked : Key → Prop) : Prop where
  sound : disk.Sound
  current : disk.current = init.current
  files : ∀ k, asked k → SameFile init disk k

namespace Keeps

variable {asked fewer : Key → Prop}

theorem refl (hsound : init.Sound) : Keeps init init asked :=
  ⟨hsound, rfl, fun _ _ _ => Iff.rfl⟩

theorem mono (h : Keeps init disk asked) (hfewer : ∀ k, fewer k → asked k) :
    Keeps init disk fewer := ⟨h.sound, h.current, fun k hk => h.files k (hfewer k hk)⟩

theorem grows (h : Keeps init disk asked) (hgrows : Grows disk after) : Keeps init after asked :=
  ⟨hgrows.sound h.sound, hgrows.current.trans h.current,
    fun k hk => (h.files k hk).of_grows hgrows⟩

theorem place (h : Keeps init disk asked) (path : Path) : disk.place path = init.place path := by
  rw [Disk.place, Disk.place, start, start, h.current]

/-- What goes from a place takes no other file away. -/
theorem erase {node : Node Inode} (h : Keeps init disk asked) (hk : k ≠ [])
    (hnode : disk.get? k = some node)
    (hempty : node = .directory → disk.tree.hasBelow k = false) :
    Keeps init { disk with tree := disk.tree.erase k } fun other => asked other ∧ other ≠ k := by
  refine ⟨erase_sound h.sound hk fun other => nothing_below h.sound hk hnode hempty, h.current,
    fun other hother => (h.files other hother.1).of_view ?_⟩
  rw [view_erase hk, if_neg hother.2]

end Keeps

end Disk

/-! ## What each phase says -/

namespace CopyJob

variable (job : CopyJob) (init disk : Disk) (content : Bytes)

/-- What is asked of the disk before the attempt: it is sound, the source is a file on it, the path
of the temporary file leads to no file, and temporary file and target are on one file system. -/
structure Undisturbed : Prop where
  sound : init.Sound
  current : init.get? init.current = some .directory
  source : ∃ n, init.stat job.source.path
      = .ok (init.place job.source.path, .file (.regular n)) ∧
    init.contentOf (.regular n) = content
  usable : isAttemptId job.attemptId = true
  plain : (0 : UInt8) ∉ job.target
  fresh : ∀ k inode, init.stat job.temp ≠ .ok (k, .file inode)
  devices : Disk.isOnDevices (init.place job.temp).parent
    = Disk.isOnDevices (init.place job.target).parent

/-- The path of the temporary file leads to a place of its own. -/
structure Apart : Prop where
  straight : job.temp.Straight
  bearable : job.temp.Bearable
  free : init.get? (init.place job.temp) = none

/-- The temporary file is there, and files are as they were but at its place and at others that are
not asked about. -/
structure Holding (asked : Key → Prop) (n : Nat) : Prop
    extends Disk.Keeps init disk fun k => asked k ∧ k ≠ init.place job.temp where
  apart : job.Apart init
  file : disk.get? (init.place job.temp) = some (.file (.regular n))

/-- The temporary file is there, and nothing else happened but that directories were made. -/
structure Staging (n : Nat) : Prop extends job.Holding init disk (fun _ => True) n where
  housing : Disk.Housing init disk

/-- The temporary file has the content and no other file has changed. -/
def Kept : Prop :=
  ∃ n, job.Holding init disk (fun _ => True) n ∧ disk.contentOf (.regular n) = content

/-- The temporary file has the content, no other file has changed but the one at the target, and
nothing prevents the rename. -/
def Ready : Prop :=
  ∃ n, job.Holding init disk (fun k => k ≠ init.place job.target) n ∧
    disk.contentOf (.regular n) = content ∧ disk.Vacant job.target

/-- The temporary file was removed as the target. -/
def Lost : Prop :=
  init.Keeps disk (fun _ => True) ∧ disk.get? (init.place job.temp) = none ∧
    disk.Vacant job.target

/-- What the disk may hold when the target is out of the way. -/
def Cleared : Prop :=
  job.Kept init disk content ∨ job.Ready init disk content ∨ job.Lost init disk

/-- After a failure files are as they were, or so but for the temporary file. -/
def Failing : Prop :=
  init.Keeps disk (fun _ => True) ∨ ∃ n, job.Holding init disk (fun _ => True) n

/-- The target has the content, the temporary file is gone, and files are as they were elsewhere. -/
structure Published : Prop
    extends Disk.Keeps init disk fun k => k ≠ init.place job.target where
  apart : job.Apart init
  gone : disk.get? (init.place job.temp) = none
  target : ∃ n, disk.stat job.target = .ok (init.place job.target, .file (.regular n)) ∧
    disk.contentOf (.regular n) = content

end CopyJob

/-- The buffer of the temporary file or that of the copy cannot be had. -/
def CopyJob.Denied (job : CopyJob) (allocator : Allocator) (trouble : Breakdown) : Prop :=
  Breakdown.ofBuffer? allocator .file job.options.bufferSize = some trouble ∨
    job.plan.bufferTrouble? = some trouble

/-- The stream has the bytes left that the chunks moved so far leave of the content, and it reads
another file than the one with the given number. -/
def LocalSystem.Delivers (system : LocalSystem) (input : StreamId) (n : Nat) (moved : List Bytes)
    (content : Bytes) : Prop :=
  (∃ m rest, m ≠ n ∧ system.Gives input m rest ∧ moved.flatten ++ rest = content) ∧
    ∀ c ∈ moved, c ≠ []

namespace CopyPhase

/-- What the phase says about the disk. -/
def Safe (job : CopyJob) (init : Disk) (content : Bytes) (system : LocalSystem) :
    CopyPhase → Prop
  | creating => system.disk = init
  | opening output => ∃ n, job.Staging init system.disk n ∧ system.Accepts output n []
  | reading output input moved =>
    ∃ n, job.Staging init system.disk n ∧ system.Accepts output n moved.flatten ∧
      system.Delivers input n moved content
  | writing output input moved chunk =>
    ∃ n, job.Staging init system.disk n ∧ system.Accepts output n moved.flatten ∧
      system.Delivers input n (moved ++ [chunk]) content
  | closing output _ none =>
    ∃ n, job.Staging init system.disk n ∧ system.Accepts output n content
  | closing _ _ (some _) => False
  | sizingSource _ | sizingTemp _ | summingSource _ | summingTemp .. | findingTarget _
  | clearingTarget _ =>
    ∃ n, job.Staging init system.disk n ∧ system.disk.contentOf (.regular n) = content
  | findingParent _ => job.target.parent ≠ [] ∧ job.Cleared init system.disk content
  | makingParent _ => job.Kept init system.disk content
  | publishing _ => job.Cleared init system.disk content
  | findingTemp (.error failure) | clearingTemp (.error failure) =>
    failure.kind ≠ .readFailure ∧ job.Failing init system.disk
  | finished (.error failure) =>
    failure.kind ≠ .readFailure ∧ init.Keeps system.disk fun _ => True
  | findingTemp (.broken trouble _) | clearingTemp (.broken trouble _) =>
    job.Denied system.allocator trouble ∧ job.Failing init system.disk
  | finished (.broken trouble _) =>
    job.Denied system.allocator trouble ∧ init.Keeps system.disk fun _ => True
  | findingTemp (.ok _) | finished (.ok _) => job.Published init system.disk content
  | clearingTemp (.ok _) => False

end CopyPhase

section places

variable {job : CopyJob} {init disk after : Disk} {content : Bytes} {n : Nat}
  {asked : Key → Prop}

/-- A disk that finds a file at the path of the temporary file, or makes one there, takes the path
as it is spelled. -/
theorem straight_of_stat (hid : isAttemptId job.attemptId = true) {k : Key} {inode : Inode}
    (h : disk.stat job.temp = .ok (k, .file inode)) : job.temp.Straight ∧ job.temp.Bearable := by
  obtain ⟨site, hsite, ⟨-, -, hnode⟩ | ⟨name, hname, -, hfound, hslashed⟩⟩ :=
    Disk.stat_eq_ok.1 h
  · cases hnode
  · exact Disk.straight_of_locate (Path.settled_tempPath _ _ hid) hsite hname hfound
      (hslashed rfl)

namespace CopyJob

/-- No file was at the place of the temporary file, as far as its path can lead there. -/
theorem Undisturbed.no_file (h : job.Undisturbed init content) (hstraight : job.temp.Straight)
    (hbearable : job.temp.Bearable) (inode : Inode) :
    init.get? (init.place job.temp) ≠ some (.file inode) := fun hfile =>
  h.fresh _ _ (Disk.stat_straight h.sound.formed hstraight hbearable hfile)

/-- Where files are as they were, the path of the temporary file leads to none. -/
theorem Undisturbed.fresh_of_keeps (h : job.Undisturbed init content)
    (hkeeps : init.Keeps disk fun _ => True) {k : Key} {inode : Inode} :
    disk.stat job.temp ≠ .ok (k, .file inode) := by
  intro hstat
  obtain ⟨hstraight, hbearable⟩ := straight_of_stat h.usable hstat
  have hfile := Disk.get?_of_stat_file hstat
  rw [← Disk.place_of_stat hstat, hkeeps.place] at hfile
  obtain ⟨inode', hinode⟩ := (hkeeps.files _ trivial).file hfile
  exact h.no_file hstraight hbearable inode' hinode

/-- After publishing, the path of the temporary file leads to no file. -/
theorem Published.no_temp {k : Key} {inode : Inode} (h : job.Published init disk content) :
    disk.stat job.temp ≠ .ok (k, .file inode) := by
  intro hstat
  have hfile := Disk.get?_of_stat_file hstat
  rw [← Disk.place_of_stat hstat, h.place] at hfile
  cases h.gone.symm.trans hfile

theorem Apart.no_file (h : job.Apart init) (content : Bytes) :
    init.view (init.place job.temp) ≠ some (.file content) := by
  rw [Disk.view_eq_none.2 h.free]
  exact fun hnone => nomatch hnone

/-- The temporary file is not above the current directory. -/
theorem Apart.not_current (h : job.Apart init) (hjob : job.Undisturbed init content) :
    ¬ init.place job.temp <+: init.current := by
  intro hbegins
  have hthere : init.tree.get? init.current ≠ none := by
    intro hnone
    cases hjob.current.symm.trans hnone
  by_cases hsame : init.place job.temp = init.current
  · exact hthere (hsame ▸ h.free)
  · have hdirectory : init.get? (init.place job.temp) = some .directory :=
      hjob.sound.formed.of_prefix hthere hbegins hsame
    rw [h.free] at hdirectory
    cases hdirectory

namespace Holding

theorem stat (h : job.Holding init disk asked n) :
    disk.stat job.temp = .ok (init.place job.temp, .file (.regular n)) := by
  have hfile := h.file
  rw [← h.place] at hfile ⊢
  exact Disk.stat_straight h.sound.formed h.apart.straight h.apart.bearable hfile

theorem mono {fewer : Key → Prop} (h : job.Holding init disk asked n)
    (hfewer : ∀ k, fewer k → asked k) : job.Holding init disk fewer n :=
  ⟨h.toKeeps.mono fun k hk => ⟨hfewer k hk.1, hk.2⟩, h.apart, h.file⟩

theorem grows (h : job.Holding init disk asked n) (hgrows : Disk.Grows disk after) :
    job.Holding init after asked n :=
  ⟨h.toKeeps.grows hgrows, h.apart, hgrows.retains _ _ h.file⟩

/-- Another content of the temporary file. -/
theorem refills (h : job.Holding init disk asked n) {content : Bytes}
    (hrefills : Disk.Refills disk after n content) : job.Holding init after asked n := by
  refine ⟨⟨hrefills.sound h.sound, hrefills.current.trans h.current, fun k hk => ?_⟩, h.apart,
    (hrefills.get? _).trans h.file⟩
  refine (h.files k hk).of_view ?_
  rw [hrefills.view h.sound h.file, if_neg hk.2]

/-- The temporary file goes, and files are as they were. -/
theorem erase (h : job.Holding init disk asked n) :
    init.Keeps { disk with tree := disk.tree.erase (init.place job.temp) } asked := by
  have hroot : init.place job.temp ≠ [] := Disk.place_ne_root h.apart.straight
  have hkeeps := h.toKeeps.erase hroot h.file fun hdirectory => nomatch hdirectory
  refine ⟨hkeeps.sound, hkeeps.current, fun k hk => ?_⟩
  by_cases hplace : k = init.place job.temp
  · rw [hplace]
    refine .of_no_file (fun content => ?_) h.apart.no_file
    rw [Disk.view_erase hroot, if_pos rfl]
    exact fun hnone => nomatch hnone
  · exact hkeeps.files k ⟨⟨hk, hplace⟩, hplace⟩

end Holding

namespace Staging

/-- Another content of the temporary file. -/
theorem refills (h : job.Staging init disk n) {content : Bytes}
    (hrefills : Disk.Refills disk after n content) : job.Staging init after n :=
  ⟨h.toHolding.refills hrefills, h.housing.trans hrefills.housing⟩

theorem of_same (h : job.Staging init disk n) (hsame : after = disk) : job.Staging init after n :=
  hsame ▸ h

theorem failing (h : job.Staging init disk n) : job.Failing init disk := .inr ⟨n, h.toHolding⟩

/-- The source is still found as it was, and it is another file than the temporary one. -/
theorem source (h : job.Staging init disk n) (hjob : job.Undisturbed init content) :
    ∃ m, disk.stat job.source.path = .ok (init.place job.source.path, .file (.regular m)) ∧
      disk.contentOf (.regular m) = content ∧ m ≠ n := by
  obtain ⟨m, hstat, hcontent⟩ := hjob.source
  have hfile := Disk.get?_of_stat_file hstat
  have hapart : init.place job.source.path ≠ init.place job.temp := by
    intro hsame
    rw [hsame, h.apart.free] at hfile
    cases hfile
  have hview := (h.files _ ⟨trivial, hapart⟩ content).2 (hcontent ▸ Disk.view_of_file hfile)
  obtain ⟨inode, hinode, hcontent'⟩ := Disk.view_eq_file.1 hview
  obtain ⟨m', rfl, -⟩ := h.sound.numbered _ _ hinode
  refine ⟨m', h.housing.stat_file hstat hinode, hcontent', ?_⟩
  rintro rfl
  exact hapart (h.sound.single _ _ _ hinode h.file)

end Staging

/-- A temporary file that was created or emptied. -/
theorem staging_of_created {housed : Disk} (hjob : job.Undisturbed init content)
    (hgrows : Disk.Grows init housed) (hopens : Disk.Opens housed disk (init.place job.temp) n)
    (hstat : disk.stat job.temp = .ok (init.place job.temp, .file (.regular n))) :
    job.Staging init disk n := by
  obtain ⟨hstraight, hbearable⟩ := straight_of_stat hjob.usable hstat
  have hfree : init.get? (init.place job.temp) = none := by
    cases hnode : init.get? (init.place job.temp) with
    | none => rfl
    | some node =>
      cases node with
      | directory => exact absurd (hgrows.retains _ _ hnode) hopens.free
      | file inode => exact absurd hnode (hjob.no_file hstraight hbearable inode)
  refine ⟨⟨⟨hopens.sound, hopens.current.trans hgrows.current, fun k hk => ?_⟩,
    ⟨hstraight, hbearable, hfree⟩, hopens.file⟩, hgrows.housing.trans hopens.housing⟩
  have hgrown : Disk.SameFile init housed k := fun content => hgrows.view_file_iff
  refine hgrown.of_view ?_
  rw [hopens.view, if_neg hk.2]

theorem Kept.failing (h : job.Kept init disk content) : job.Failing init disk := by
  obtain ⟨n, hholding, -⟩ := h
  exact .inr ⟨n, hholding⟩

theorem Kept.grows (h : job.Kept init disk content) (hgrows : Disk.Grows disk after) :
    job.Kept init after content := by
  obtain ⟨n, hholding, hcontent⟩ := h
  exact ⟨n, hholding.grows hgrows, (hgrows.contentOf _).trans hcontent⟩

/-- What stands at the target is removed. -/
theorem cleared_of_removed {k : Key} {node : Node Inode} (h : job.Staging init disk n)
    (hcontent : disk.contentOf (.regular n) = content)
    (hstat : disk.stat job.target = .ok (k, node)) (hk : k ≠ [])
    (hnode : disk.get? k = some node)
    (hempty : node = .directory → disk.tree.hasBelow k = false) :
    job.Cleared init { disk with tree := disk.tree.erase k } content := by
  have hplace : init.place job.target = k := by
    rw [← h.place]
    exact Disk.place_of_stat hstat
  by_cases hsame : k = init.place job.temp
  · subst hsame
    obtain rfl : Node.file (.regular n) = node := Option.some.inj (h.file.symm.trans hnode)
    refine .inr (.inr ⟨h.toHolding.erase, ?_, Disk.vacant_of_erase hstat⟩)
    exact (Disk.get?_erase hk).trans (if_pos rfl)
  have hkeeps := h.toKeeps.erase hk hnode hempty
  have hfile : ({ disk with tree := disk.tree.erase k } : Disk).get? (init.place job.temp)
      = some (.file (.regular n)) := by
    rw [Disk.get?_erase hk, if_neg (Ne.symm hsame)]
    exact h.file
  cases node with
  | file inode =>
    refine .inr (.inl ⟨n, ⟨hkeeps.mono fun other hother => ?_, h.apart, hfile⟩, hcontent,
      Disk.vacant_of_erase hstat⟩)
    exact ⟨⟨trivial, hother.2⟩, hplace ▸ hother.1⟩
  | directory =>
    refine .inl ⟨n, ⟨⟨hkeeps.sound, hkeeps.current, fun other hother => ?_⟩, h.apart, hfile⟩,
      hcontent⟩
    by_cases hother' : other = k
    · -- a directory was there, and no file before it
      rw [hother']
      refine .of_no_file (fun bytes => ?_) fun bytes hbytes => ?_
      · rw [Disk.view_erase hk, if_pos rfl]
        exact fun hnone => nomatch hnone
      · have hview := (h.files k ⟨trivial, hsame⟩ bytes).2 hbytes
        rw [Disk.view_eq_directory.2 hnode] at hview
        cases hview
    · exact hkeeps.files other ⟨hother, hother'⟩

/-- The directory of a target that was removed is there. -/
theorem exists_parent (hjob : job.Undisturbed init content) (hparent : job.target.parent ≠ [])
    (h : job.Ready init disk content ∨ job.Lost init disk) :
    disk.pathExists job.target.parent = .ok true := by
  have hvacant : disk.Vacant job.target := by
    rcases h with ⟨n, -, -, hvacant⟩ | ⟨-, -, hvacant⟩
    · exact hvacant
    · exact hvacant
  obtain ⟨k, hstat⟩ := hvacant.parent hjob.plain hparent
  exact LocalSystem.pathExists_eq_true.2 ⟨k, .directory, hstat⟩

/-- The rename makes the temporary file the target. -/
theorem published_of_renamed (hjob : job.Undisturbed init content)
    (h : job.Cleared init disk content) (hrenamed : disk.rename job.temp job.target = .ok after) :
    job.Published init after content := by
  have hheld : ∃ n, job.Holding init disk (fun k => k ≠ init.place job.target) n ∧
      disk.contentOf (.regular n) = content := by
    rcases h with ⟨n, hholding, hcontent⟩ | ⟨n, hholding, hcontent, -⟩ | ⟨hkeeps, hgone, -⟩
    · exact ⟨n, hholding.mono fun _ _ => trivial, hcontent⟩
    · exact ⟨n, hholding, hcontent⟩
    · -- a temporary file that is gone cannot be renamed
      obtain ⟨old, -, oldName, -, node, hold, -, -, hname, -, hfound, -⟩ :=
        Disk.exists_of_rename hrenamed
      rw [← hkeeps.place, Disk.place_of_locate hold, Disk.Site.place_of_name hname,
        (Disk.lookup_eq_ok.1 hfound).2.2] at hgone
      cases hgone
  obtain ⟨n, hholding, hcontent⟩ := hheld
  have hplace := hholding.place job.temp
  have hcurrent : ¬ disk.place job.temp <+: disk.current := by
    rw [hplace, hholding.current]
    exact hholding.apart.not_current hjob
  obtain ⟨hmoves, hstat⟩ :=
    Disk.rename_moves hholding.sound (hplace ▸ hholding.file) hcurrent hrenamed
  rw [hplace, hholding.place] at hmoves
  rw [hholding.place] at hstat
  have hne : init.place job.temp ≠ init.place job.target := by
    intro hsame
    have hfree := hmoves.free
    rw [← hsame, hholding.file] at hfree
    cases hfree
  refine ⟨⟨hmoves.sound, hmoves.current.trans hholding.current, fun k hk => ?_⟩, hholding.apart,
    ?_, n, hstat, (hmoves.contentOf _).trans hcontent⟩
  · by_cases hk' : k = init.place job.temp
    · rw [hk']
      refine .of_no_file (fun bytes => ?_) hholding.apart.no_file
      rw [hmoves.view, if_neg hne, if_pos rfl]
      exact fun hnone => nomatch hnone
    · refine (hholding.files k ⟨hk, hk'⟩).of_view ?_
      rw [hmoves.view, if_neg hk, if_neg hk']
  · rw [hmoves.get, if_neg hne, if_pos rfl]

/-- A rename that fails finds all files as they were, but for the temporary one. -/
theorem failing_of_notRenamed {system : LocalSystem} (hjob : job.Undisturbed init content)
    (h : job.Cleared init system.disk content)
    (hfailed : ∀ disk, system.rename job.temp job.target
      ≠ (.ok (), { system with disk := disk })) : job.Failing init system.disk := by
  rcases h with hkept | ⟨n, hholding, -, hvacant⟩ | ⟨hkeeps, -⟩
  · exact hkept.failing
  · -- nothing prevents the rename
    exfalso
    obtain ⟨after, hrenamed⟩ := Disk.renames_to_vacant hholding.sound hholding.apart.straight
      hholding.apart.bearable (hholding.place job.temp ▸ hholding.file) hvacant (by
        rw [hholding.place, hholding.place]
        exact hjob.devices)
    refine hfailed after (LocalSystem.rename_eq_ok.2 ⟨?_, ?_, after, hrenamed, rfl⟩)
    · intro hfound
      obtain ⟨k, node, hstat⟩ := LocalSystem.pathExists_eq_true.1 hfound
      rw [hvacant.stat] at hstat
      cases hstat
    · rw [LocalSystem.parentTrouble_eq_none, or_iff_not_imp_left]
      exact hvacant.parent hjob.plain
  · exact .inl hkeeps

end CopyJob

end places

/-! ## Steps -/

namespace CopyPhase

variable {job : CopyJob} {init : Disk} {content : Bytes} {system after : LocalSystem}
  {settings : LocalSettings}

theorem safe_afterLengths {moved : List Bytes}
    (h : ∃ n, job.Staging init system.disk n ∧ system.disk.contentOf (.regular n) = content) :
    Safe job init content system (afterLengths job moved) :=
  afterLengths_cases (fun _ => h) fun _ => h

theorem safe_afterClearing {moved : List Bytes} (h : job.Cleared init system.disk content) :
    Safe job init content system (afterClearing job moved) :=
  afterClearing_cases (fun _ => h) fun hparent => ⟨by simpa using hparent, h⟩

/-- When the temporary file is not found, files are as they were. -/
theorem keeps_of_absent (h : job.Failing init system.disk)
    (habsent : system.disk.pathExists job.temp ≠ .ok true) :
    init.Keeps system.disk fun _ => True := by
  rcases h with hkeeps | ⟨n, hholding⟩
  · exact hkeeps
  · exact absurd (LocalSystem.pathExists_eq_true.2 ⟨_, _, hholding.stat⟩) habsent

/-- A published temporary file is not found. -/
theorem absent_of_published (h : job.Published init system.disk content) :
    system.disk.pathExists job.temp ≠ .ok true := by
  intro hfound
  obtain ⟨k, node, hstat⟩ := LocalSystem.pathExists_eq_true.1 hfound
  have hgone := h.gone
  rw [← h.place] at hgone
  obtain ⟨e, herror, -⟩ := Disk.stat_absent h.apart.straight h.apart.bearable hgone
  rw [herror] at hstat
  cases hstat

/-- When the temporary file has been removed, files are as they were. -/
theorem keeps_of_removed {k : Key} {node : Node Inode} (hjob : job.Undisturbed init content)
    (h : job.Failing init system.disk)
    (hstat : system.disk.stat job.temp = .ok (k, node)) (hk : k ≠ [])
    (hnode : system.disk.get? k = some node)
    (hempty : node = .directory → system.disk.tree.hasBelow k = false) :
    init.Keeps { system.disk with tree := system.disk.tree.erase k } fun _ => True := by
  rcases h with hkeeps | ⟨n, hholding⟩
  · cases node with
    | file inode => exact absurd hstat (hjob.fresh_of_keeps hkeeps)
    | directory =>
      have herased := hkeeps.erase hk hnode hempty
      refine ⟨herased.sound, herased.current, fun other _ => ?_⟩
      by_cases hother : other = k
      · rw [hother]
        refine .of_no_file (fun bytes => ?_) fun bytes hbytes => ?_
        · rw [Disk.view_erase hk, if_pos rfl]
          exact fun hnone => nomatch hnone
        · have hview := (hkeeps.files k trivial bytes).2 hbytes
          rw [Disk.view_eq_directory.2 hnode] at hview
          cases hview
      · exact herased.files other ⟨trivial, hother⟩
  · obtain ⟨rfl, -⟩ := Prod.ext_iff.1 (Except.ok.inj (hholding.stat.symm.trans hstat))
    exact hholding.erase

/-- Whether or not the temporary file could be removed, files are as they were. -/
theorem keeps_of_answered {side : Side} {answer : (StorageCall.remove job.temp false).Answer}
    (hjob : job.Undisturbed init content) (h : job.Failing init system.disk)
    (hserved : LocalStep settings system ⟨.storage side (.remove job.temp false), answer⟩ after) :
    init.Keeps after.disk fun _ => True := by
  cases answer with
  | ok =>
    obtain ⟨k, node, hstat, hk, hnode, hempty, hafter⟩ := hserved.of_removed
    rw [hafter]
    exact keeps_of_removed hjob h hstat hk hnode hempty
  | error message =>
    obtain ⟨rfl, hkept⟩ := hserved.of_notRemoved
    rcases h with hkeeps | ⟨n, hholding⟩
    · exact hkeeps
    · exact absurd hholding.stat (hkept _ _)

/-- Every exchange keeps what the phase says. -/
theorem safe_step {phase next : CopyPhase} {x : Exchange} (hjob : job.Undisturbed init content)
    (h : Safe job init content system phase) (hstep : Step job phase x next)
    (hserved : LocalStep settings system x after) : Safe job init content after next := by
  cases hstep with
  | silent hx =>
    rw [hserved.of_silent hx]
    exact h
  | created output =>
    obtain rfl : system.disk = init := h
    obtain ⟨housed, n, hgrows, hopens, hstat, haccepts⟩ := hserved.of_created hjob.sound
    exact ⟨n, CopyJob.staging_of_created hjob hgrows hopens hstat, haccepts⟩
  | createdUnbuffered trouble =>
    obtain rfl : system.disk = init := h
    obtain ⟨housed, n, hgrows, hopens, hstat⟩ := hserved.of_started hjob.sound
    exact ⟨.inl (hserved.allocator ▸ hserved.of_unbuffered),
      (CopyJob.staging_of_created hjob hgrows hopens hstat).failing⟩
  | notCreated message =>
    obtain rfl : system.disk = init := h
    exact ⟨nofun, .inl ((Disk.Keeps.refl hjob.sound).grows hserved.of_notCreated)⟩
  | openedUnbuffered input hbuffer =>
    obtain ⟨n, hstaging, -⟩ := h
    obtain ⟨m, hstat, -, -⟩ := hstaging.source hjob
    obtain ⟨-, -, hdisk, -⟩ := hserved.of_openFile hstat
    exact ⟨.inr hbuffer, (hstaging.of_same hdisk).failing⟩
  | opened input =>
    obtain ⟨n, hstaging, haccepts⟩ := h
    obtain ⟨m, hstat, hcontent, hne⟩ := hstaging.source hjob
    obtain ⟨input', hinput, hdisk, hwriters, hgives⟩ := hserved.of_openFile hstat
    obtain rfl := Except.ok.inj hinput
    refine ⟨n, hstaging.of_same hdisk, haccepts.of_same hdisk hwriters,
      ⟨m, content, hne, hcontent ▸ hgives, rfl⟩, ?_⟩
    exact fun c hc => absurd hc List.not_mem_nil
  | notOpened message =>
    obtain ⟨n, hstaging, -⟩ := h
    obtain ⟨m, hstat, -, -⟩ := hstaging.source hjob
    obtain ⟨input, hinput, -⟩ := hserved.of_openFile hstat
    cases hinput
  | delivered hchunk =>
    obtain ⟨n, hstaging, haccepts, ⟨m, rest, hne, hgives, hcontent⟩, hchunks⟩ := h
    obtain ⟨hanswer, hdisk, hwriters, hleft⟩ := hserved.of_read hgives
    refine ⟨n, hstaging.of_same hdisk, haccepts.of_same hdisk hwriters,
      ⟨m, _, hne, hleft, ?_⟩, ?_⟩
    · rw [List.flatten_append, List.flatten_singleton, Except.ok.inj hanswer, List.append_assoc,
        List.take_append_drop]
      exact hcontent
    · intro c hc
      rcases List.mem_append.1 hc with hc | hc
      · exact hchunks c hc
      · rw [List.mem_singleton.1 hc]
        exact hchunk
  | ended =>
    obtain ⟨n, hstaging, haccepts, ⟨m, rest, -, hgives, hcontent⟩, -⟩ := h
    obtain ⟨hanswer, hdisk, hwriters, -⟩ := hserved.of_read hgives
    have hrest : rest = [] := by
      rcases List.take_eq_nil_iff.1 (Except.ok.inj hanswer).symm with hsize | hrest
      · exact absurd hsize (chunkSize_pos job).ne'
      · exact hrest
    rw [hrest, List.append_nil] at hcontent
    rw [hcontent] at haccepts
    exact ⟨n, hstaging.of_same hdisk, haccepts.of_same hdisk hwriters⟩
  | notRead message =>
    obtain ⟨n, -, -, ⟨m, rest, -, hgives, -⟩, -⟩ := h
    cases (hserved.of_read hgives).1
  | written =>
    obtain ⟨n, hstaging, haccepts, ⟨m, rest, hne, hgives, hcontent⟩, hchunks⟩ := h
    obtain ⟨-, hreaders, haccepts', bytes, hrefills⟩ := hserved.of_write haccepts
    rw [← List.flatten_concat] at haccepts'
    exact ⟨n, hstaging.refills hrefills, haccepts',
      ⟨m, rest, hne, hgives.of_content hreaders (hrefills.other m hne), hcontent⟩, hchunks⟩
  | notWritten message =>
    obtain ⟨n, -, haccepts, -⟩ := h
    cases (hserved.of_write haccepts).1
  | closed =>
    obtain ⟨n, hstaging, haccepts⟩ := h
    obtain ⟨-, hrefills⟩ := hserved.of_close haccepts
    exact ⟨n, hstaging.refills hrefills, hrefills.content⟩
  | notClosed message =>
    obtain ⟨n, -, haccepts⟩ := h
    cases (hserved.of_close haccepts).1
  | closedAfter => exact h.elim
  | sourceSized =>
    rw [hserved.of_status]
    exact h
  | tempSized =>
    rw [hserved.of_status]
    exact safe_afterLengths h
  | sourceSummed | tempSummed =>
    rw [hserved.of_checksum]
    exact h
  | sourceOff | sourceUnsized | tempOff | tempUnsized =>
    obtain ⟨n, hstaging, -⟩ := h
    rw [hserved.of_status]
    exact ⟨nofun, hstaging.failing⟩
  | sourceUnsummed | tempDiffers | tempUnsummed =>
    obtain ⟨n, hstaging, -⟩ := h
    rw [hserved.of_checksum]
    exact ⟨nofun, hstaging.failing⟩
  | targetFound =>
    rw [hserved.of_pathExists.1]
    exact h
  | targetAbsent =>
    obtain ⟨n, hstaging, hcontent⟩ := h
    rw [hserved.of_pathExists.1]
    exact safe_afterClearing (.inl ⟨n, hstaging.toHolding, hcontent⟩)
  | targetUnknown message =>
    obtain ⟨n, hstaging, -⟩ := h
    rw [hserved.of_pathExists.1]
    exact ⟨nofun, hstaging.failing⟩
  | targetCleared =>
    obtain ⟨n, hstaging, hcontent⟩ := h
    obtain ⟨k, node, hstat, hk, hnode, hempty, hafter⟩ := hserved.of_removed
    refine safe_afterClearing ?_
    rw [hafter]
    exact CopyJob.cleared_of_removed hstaging hcontent hstat hk hnode hempty
  | targetKept message =>
    obtain ⟨n, hstaging, -⟩ := h
    rw [hserved.of_notRemoved.1]
    exact ⟨nofun, hstaging.failing⟩
  | parentFound =>
    rw [hserved.of_pathExists.1]
    exact h.2
  | parentAbsent =>
    obtain ⟨rfl, hanswer⟩ := hserved.of_pathExists
    obtain ⟨hparent, hkept | hcleared⟩ := h
    · exact hkept
    · have hfound := (hanswer true).2 (CopyJob.exists_parent hjob hparent hcleared)
      cases hfound
  | parentUnknown message =>
    obtain ⟨rfl, hanswer⟩ := hserved.of_pathExists
    obtain ⟨hparent, hkept | hcleared⟩ := h
    · exact ⟨nofun, CopyJob.Kept.failing hkept⟩
    · have hfound := (hanswer true).2 (CopyJob.exists_parent hjob hparent hcleared)
      cases hfound
  | parentMade => exact .inl (CopyJob.Kept.grows h hserved.of_makeDirs)
  | parentNotMade message =>
    exact ⟨nofun, (CopyJob.Kept.grows h hserved.of_makeDirs).failing⟩
  | renamed => exact CopyJob.published_of_renamed hjob h hserved.of_renamed
  | notRenamed message =>
    obtain ⟨rfl, hfailed⟩ := hserved.of_notRenamed
    exact ⟨nofun, CopyJob.failing_of_notRenamed hjob h hfailed⟩
  | @tempFound result =>
    obtain ⟨rfl, hanswer⟩ := hserved.of_pathExists
    cases result with
    | ok copied => exact absurd ((hanswer true).1 rfl) (absent_of_published h)
    | error | broken => exact h
  | @tempAbsent result =>
    obtain ⟨rfl, hanswer⟩ := hserved.of_pathExists
    cases result with
    | ok copied => exact h
    | error | broken =>
      refine ⟨h.1, keeps_of_absent h.2 fun hfound => ?_⟩
      cases hfound.symm.trans ((hanswer false).1 rfl)
  | @tempUnknown result message =>
    obtain ⟨rfl, hanswer⟩ := hserved.of_pathExists
    cases result with
    | ok copied => exact h
    | error | broken =>
      refine ⟨h.1, keeps_of_absent h.2 fun hfound => ?_⟩
      cases (hanswer true).2 hfound
  | @tempCleared result answer =>
    cases result with
    | ok copied => exact h.elim
    | error failure => exact ⟨h.1, keeps_of_answered hjob h.2 hserved⟩
    | broken trouble => exact ⟨hserved.allocator ▸ h.1, keeps_of_answered hjob h.2 hserved⟩

end CopyPhase

/-! ## The attempt -/

/-- An attempt on one disk comes to an end, breaks down only over a buffer, and never fails by
reading. After a success the target has the content of the source and no other file has changed;
after a failure or a breakdown no file has. -/
theorem safe_attempt {σ : Type} {handler : Handler σ} {part : σ → LocalSystem}
    {settings : LocalSettings}
    (hserves : ∀ {s x s'}, handler.step s x s' → LocalStep settings (part s) x (part s'))
    {job : CopyJob} {content : Bytes} {bound : Nat} (s : σ)
    (hjob : job.Undisturbed (part s).disk content) (hbound : content.length < bound) :
    ∃ outcome s', Program.run handler (copyOnce bound job) s = (outcome, s') ∧
      match outcome with
      | .done (.ok _) => job.Published (part s).disk (part s').disk content
      | .done (.error error) =>
        error.kind ≠ .readFailure ∧ (part s).disk.Keeps (part s').disk fun _ => True
      | .broken trouble =>
        job.Denied (part s).allocator trouble ∧
          (part s).disk.Keeps (part s').disk fun _ => True
      | .unfinished => False := by
  have hsystem : Trail (LocalStep settings) (part s)
      (Program.exchanges handler (copyOnce bound job) s)
      (part (Program.run handler (copyOnce bound job) s).2) :=
    (Program.trail_exchanges handler (copyOnce bound job) s).map (f := part) hserves
  obtain ⟨phase, hphase, hend⟩ := (copyOnce_follows hjob.usable).of_handler handler s
  have htogether := Trail.together (I := fun phase system =>
    system.allocator = (part s).allocator ∧
      CopyPhase.Safe job (part s).disk content system phase) ?_ hphase hsystem ⟨rfl, rfl⟩
  swap
  · rintro phase system x phase' system' ⟨hallocator, hsafe⟩ hstep hserved
    exact ⟨hserved.allocator.trans hallocator, CopyPhase.safe_step hjob hsafe hstep hserved⟩
  obtain ⟨hallocator, hsafe⟩ := htogether
  rcases hrun : Program.run handler (copyOnce bound job) s with ⟨outcome, s'⟩
  rw [hrun] at hend hallocator hsafe
  refine ⟨outcome, s', rfl, ?_⟩
  cases outcome with
  | unfinished =>
    obtain ⟨output, input, moved, rfl, hlength⟩ := hend
    obtain ⟨n, -, -, ⟨m, rest, -, -, hcontent⟩, hchunks⟩ := hsafe
    have hmoved := CopyPhase.length_le_of_moved hchunks hcontent
    omega
  | done result =>
    obtain ⟨decided, rfl, hdecided⟩ := hend
    cases decided with
    | ok copied => cases hdecided; exact hsafe
    | error failure => cases hdecided; exact hsafe
    | broken => cases hdecided
  | broken trouble =>
    obtain ⟨decided, rfl, hdecided⟩ := hend
    cases decided with
    | ok | error => cases hdecided
    | broken other left =>
      cases hdecided
      exact ⟨hallocator ▸ hsafe.1, hsafe.2⟩

end StagedCopy
