import StagedCopy.Proofs.Copy.Stores
import StagedCopy.Proofs.Disk.Chain
import StagedCopy.Proofs.Disk.Vacant
import StagedCopy.Proofs.Local.Calls

/-!
# One tree in two stores

A store on disk and a store in memory that hold the same: what stands below the current directory
of the disk stands below the root of the store, file contents included. Each change of the disk has
one of the store after which the two hold the same again.

* `MemoryStore.view` — what stands in a store, a file with its content.
* `Disk.Mirrors` — disk and store hold the same, wherever that is asked; `Mirrors.made`,
  `Mirrors.started`, `Mirrors.replaced`, `Mirrors.refilled`, `Mirrors.moved` — after a change.
* `Disk.InReach`, `Disk.InReachAfter` — the directories on the way can be made, at once or after
  those to another place.
* `Disk.stat_eq_ok_iff`, `Disk.pathExists_portable` — what is found at a path that both read alike.
-/

namespace StagedCopy

open Program (Exchange)

/-! ## What stands where -/

namespace MemoryStore

variable {store : MemoryStore} {k : Key} {content : Bytes}

/-- What stands at a key, a file with its content. -/
def view (store : MemoryStore) (k : Key) : Option (Node Bytes) :=
  (store.get? k).map fun
    | .directory => .directory
    | .file f => .file f.content

theorem view_eq_none : store.view k = none ↔ store.get? k = none := Option.map_eq_none_iff

theorem view_eq_directory : store.view k = some .directory ↔ store.get? k = some .directory := by
  unfold view
  cases store.get? k with
  | none => simp
  | some node => cases node <;> simp

theorem view_eq_file : store.view k = some (.file content) ↔
    ∃ f, store.get? k = some (.file f) ∧ f.content = content := by
  unfold view
  cases store.get? k with
  | none => simp
  | some node => cases node <;> simp

theorem view_of_file {f : MemoryFile} (h : store.get? k = some (.file f)) :
    store.view k = some (.file f.content) := view_eq_file.2 ⟨f, h, rfl⟩

theorem view_of_get? {after : MemoryStore} {place : Key} {f : MemoryFile}
    (hget : after.get? k = if k = place then some (.file f) else store.get? k) :
    after.view k = if k = place then some (.file f.content) else store.view k := by
  unfold view
  rw [hget]
  split
  · rfl
  · rfl

theorem view_of_none {after : MemoryStore} {place : Key}
    (hget : after.get? k = if k = place then none else store.get? k) :
    after.view k = if k = place then none else store.view k := by
  unfold view
  rw [hget]
  split
  · rfl
  · rfl

end MemoryStore

namespace Disk

variable {disk after : Disk} {store : MemoryStore} {asked : Key → Prop} {k a : Key}

/-- A sound disk whose current directory is there, and a store that holds the same as it, wherever
that is asked. -/
structure Mirrors (disk : Disk) (store : MemoryStore) (asked : Key → Prop) : Prop where
  sound : disk.Sound
  current : disk.get? disk.current = some .directory
  view : ∀ k, asked k → disk.view (disk.current ++ k) = store.view k

/-- Disk and store hold the same everywhere. -/
abbrev MirrorsAll (disk : Disk) (store : MemoryStore) : Prop := disk.Mirrors store fun _ => True

namespace Mirrors

theorem none_iff (h : disk.Mirrors store asked) (hk : asked k) :
    disk.get? (disk.current ++ k) = none ↔ store.get? k = none := by
  rw [← view_eq_none, h.view k hk, MemoryStore.view_eq_none]

theorem directory_iff (h : disk.Mirrors store asked) (hk : asked k) :
    disk.get? (disk.current ++ k) = some .directory ↔ store.get? k = some .directory := by
  rw [← view_eq_directory, h.view k hk, MemoryStore.view_eq_directory]

/-- A file of the disk is one of the store, with the same content. -/
theorem file {inode : Inode} (h : disk.Mirrors store asked) (hk : asked k)
    (hfile : disk.get? (disk.current ++ k) = some (.file inode)) :
    ∃ f, store.get? k = some (.file f) ∧ f.content = disk.contentOf inode := by
  have hview := view_of_file hfile
  rw [h.view k hk] at hview
  exact MemoryStore.view_eq_file.1 hview

/-- A file of the store is one of the disk, with the same content. -/
theorem regular {f : MemoryFile} (h : disk.Mirrors store asked) (hk : asked k)
    (hfile : store.get? k = some (.file f)) :
    ∃ n, disk.get? (disk.current ++ k) = some (.file (.regular n)) ∧
      disk.contentOf (.regular n) = f.content := by
  have hview := MemoryStore.view_of_file hfile
  rw [← h.view k hk] at hview
  obtain ⟨inode, hinode, hcontent⟩ := view_eq_file.1 hview
  obtain ⟨n, rfl, -⟩ := h.sound.numbered _ _ hinode
  exact ⟨n, hinode, hcontent⟩

theorem mono {fewer : Key → Prop} (h : disk.Mirrors store asked)
    (hfewer : ∀ k, fewer k → asked k) : disk.Mirrors store fewer :=
  ⟨h.sound, h.current, fun k hk => h.view k (hfewer k hk)⟩

/-- Nothing but what stands where matters of a store. -/
theorem of_tree {store' : MemoryStore} (h : disk.Mirrors store asked)
    (htree : store'.tree = store.tree) : disk.Mirrors store' asked := by
  refine ⟨h.sound, h.current, fun k hk => ?_⟩
  rw [h.view k hk, MemoryStore.view, MemoryStore.view, MemoryStore.get?, MemoryStore.get?, htree]

/-- As much stands below a place on the disk as in the store. -/
theorem hasBelow_eq (h : disk.MirrorsAll store) (k : Key) :
    disk.tree.hasBelow (disk.current ++ k) = store.tree.hasBelow k := by
  rw [Bool.eq_iff_iff, Tree.hasBelow_iff, Tree.hasBelow_iff]
  constructor
  · rintro ⟨other, habove, hthere⟩
    obtain ⟨⟨rest, rfl⟩, hne⟩ := Key.isAbove_iff.1 habove
    rw [List.append_assoc] at hthere hne
    refine ⟨k ++ rest, Key.isAbove_iff.2 ⟨List.prefix_append k rest, ?_⟩, ?_⟩
    · exact fun heq => hne (congrArg (disk.current ++ ·) heq)
    · exact mt (h.none_iff trivial).2 hthere
  · rintro ⟨other, habove, hthere⟩
    obtain ⟨hbegins, hne⟩ := Key.isAbove_iff.1 habove
    refine ⟨disk.current ++ other, Key.isAbove_iff.2
      ⟨(List.prefix_append_right_inj _).2 hbegins, fun heq => ?_⟩, ?_⟩
    · exact hne (List.append_cancel_left heq)
    · exact mt (h.none_iff trivial).1 hthere

/-- A file on the way is one above or at the place in the store. -/
theorem blocked_iff (h : disk.MirrorsAll store) :
    disk.Blocked k ↔ ∃ a f, a ≠ [] ∧ a <+: k ∧ store.get? a = some (.file f) := by
  constructor
  · rintro ⟨a, inode, ha, hfile⟩
    obtain ⟨f, hf, -⟩ := h.file trivial hfile
    exact ⟨a, f, MemoryStore.ne_root_of_file hf, ha, hf⟩
  · rintro ⟨a, f, -, ha, hf⟩
    obtain ⟨n, hfile, -⟩ := h.regular trivial hf
    exact ⟨a, _, ha, hfile⟩

/-- After directories were made on the disk and in the store, the two hold the same. -/
theorem made {store' : MemoryStore} (h : disk.MirrorsAll store) (hmade : Made disk after k)
    (hget : ∀ a, store'.get? a =
      if store.get? a = none ∧ a <+: k then some .directory else store.get? a) :
    after.MirrorsAll store' := by
  refine ⟨hmade.grows.sound h.sound, ?_, fun a _ => ?_⟩
  · rw [hmade.grows.current]
    exact hmade.grows.retains _ _ h.current
  · have hdisk := hmade.get a
    rw [hmade.grows.current]
    by_cases hnew : store.get? a = none ∧ a <+: k
    · rw [if_pos ⟨(h.none_iff trivial).2 hnew.1, hnew.2⟩] at hdisk
      rw [view_eq_directory.2 hdisk, MemoryStore.view_eq_directory.2 ((hget a).trans (if_pos hnew))]
    · rw [if_neg fun hboth => hnew ⟨(h.none_iff trivial).1 hboth.1, hboth.2⟩] at hdisk
      rw [view_congr hdisk fun inode _ => hmade.grows.contentOf inode, h.view a trivial,
        MemoryStore.view, MemoryStore.view, hget a, if_neg hnew]

/-- After the same came to stand at one place of either, the two hold the same. -/
theorem replaced {store' : MemoryStore} {node : Option (Node Bytes)}
    (h : disk.Mirrors store fun other => other ≠ k) (hk : k ≠ []) (hsound : after.Sound)
    (hcurrent : after.current = disk.current)
    (hview : ∀ place, after.view place =
      if place = disk.current ++ k then node else disk.view place)
    (hview' : ∀ other, store'.view other = if other = k then node else store.view other) :
    after.MirrorsAll store' := by
  refine ⟨hsound, ?_, fun other _ => ?_⟩
  · have hne : disk.current ≠ disk.current ++ k := fun heq => hk (List.self_eq_append_right.1 heq)
    rw [hcurrent, ← view_eq_directory, hview, if_neg hne]
    exact view_eq_directory.2 h.current
  · rw [hcurrent, hview, hview']
    by_cases hother : other = k
    · rw [hother, if_pos rfl, if_pos rfl]
    · rw [if_neg fun heq => hother (List.append_cancel_left heq), if_neg hother]
      exact h.view other hother

/-- The content of a file is of no account where it is not asked for. -/
theorem refilled {n : Nat} {content : Bytes} (h : disk.Mirrors store fun other => other ≠ k)
    (hfile : disk.get? (disk.current ++ k) = some (.file (.regular n)))
    (hrefills : Refills disk after n content) :
    after.Mirrors store fun other => other ≠ k := by
  refine ⟨hrefills.sound h.sound, ?_, fun other hother => ?_⟩
  · rw [hrefills.get?, hrefills.current]
    exact h.current
  · rw [hrefills.current, hrefills.view h.sound hfile,
      if_neg fun heq => hother (List.append_cancel_left heq)]
    exact h.view other hother

/-- After the same file moved in either, the two hold the same. -/
theorem moved {store' : MemoryStore} {old new : Key} {inode : Inode} {f : MemoryFile}
    (h : disk.MirrorsAll store)
    (hmoves : Moves disk after (disk.current ++ old) (disk.current ++ new) inode)
    (hfile : store.get? old = some (.file f))
    (hget : ∀ k, store'.get? k =
      if k = new then some (.file f) else if k = old then none else store.get? k) :
    after.MirrorsAll store' := by
  have hcontent : disk.contentOf inode = f.content := by
    obtain ⟨f', hfile', hcontent⟩ := h.file trivial hmoves.file
    obtain rfl := Node.file.inj (Option.some.inj (hfile'.symm.trans hfile))
    exact hcontent.symm
  refine ⟨hmoves.sound, ?_, fun k _ => ?_⟩
  · -- neither place is the current directory
    rw [hmoves.current, hmoves.get, if_neg, if_neg]
    · exact h.current
    · intro heq
      cases h.current.symm.trans ((congrArg disk.get? heq).trans hmoves.file)
    · intro heq
      cases h.current.symm.trans ((congrArg disk.get? heq).trans hmoves.free)
  · rw [hmoves.current, hmoves.view, MemoryStore.view, hget, hcontent]
    by_cases hnew : k = new
    · rw [hnew, if_pos rfl, if_pos rfl]
      rfl
    · rw [if_neg fun heq => hnew (List.append_cancel_left heq), if_neg hnew]
      by_cases hold : k = old
      · rw [hold, if_pos rfl, if_pos rfl]
        rfl
      · rw [if_neg fun heq => hold (List.append_cancel_left heq), if_neg hold]
        exact h.view k trivial

/-- After a file was started in either, with the directories above it, the two hold the same. -/
theorem started {housed : Disk} {n : Nat} (h : disk.MirrorsAll store) (hk : k ≠ [])
    (hmade : Made disk housed k.parent) (hopens : Opens housed after (disk.current ++ k) n)
    (wanted : Layout) : after.MirrorsAll (store.startFile k wanted).2 := by
  have hhoused : housed.MirrorsAll { store with tree := store.addParents k } := by
    refine h.made hmade fun a => (MemoryStore.get?_addParents store k a).trans ?_
    by_cases hnone : store.get? a = none
    · have ha := MemoryStore.ne_root_of_none hnone
      simp [hnone, Key.mem_properAncestors_iff_begins, ha]
    · simp [hnone]
  have hget : ∀ other, (store.startFile k wanted).2.get? other =
      if other = k then some (.file ⟨[], store.layoutFor wanted⟩)
      else ({ store with tree := store.addParents k } : MemoryStore).get? other :=
    fun other => Tree.get?_insert _ hk _ other
  rw [← hmade.grows.current] at hopens
  exact (hhoused.mono fun _ _ => trivial).replaced hk hopens.sound hopens.current hopens.view
    fun other => MemoryStore.view_of_get? (hget other)

/-- Where the disk can start a file, so can the store. -/
theorem startable {housed : Disk} {n : Nat} (h : disk.MirrorsAll store) (hk : k ≠ [])
    (hfree : ¬ disk.Blocked k.parent) (hmade : Made disk housed k.parent)
    (hopens : Opens housed after (disk.current ++ k) n) :
    store.get? k ≠ some .directory ∧ store.tree.fileAbove? k = none := by
  refine ⟨fun hdirectory => hopens.free ?_, MemoryStore.fileAbove?_eq_none.2 fun a ha f hfile => ?_⟩
  · rw [hmade.elsewhere (Key.not_begins_parent hk)]
    exact (h.directory_iff trivial).2 hdirectory
  · obtain ⟨hne, hbegins⟩ := Key.mem_properAncestors_iff_begins.1 ha
    exact hfree (h.blocked_iff.2 ⟨a, f, hne, hbegins, hfile⟩)

end Mirrors

/-! ## Directories that can be made -/

/-- Unless a file stands on the way to a place, no more directories are missing on it than are made
at once. -/
def InReach (disk : Disk) (k : Key) : Prop :=
  ¬ disk.Blocked k → (disk.missingTo k).length ≤ maxMissing

/-- What is in reach stays so when on the way files stay files and nothing goes. -/
theorem InReach.of_kept (h : disk.InReach k) (hcurrent : after.current = disk.current)
    (hfile : ∀ a content, a <+: k → disk.view (disk.current ++ a) = some (.file content) →
      ∃ content, after.view (disk.current ++ a) = some (.file content))
    (hthere : ∀ a, a <+: k → after.view (disk.current ++ a) = none →
      disk.view (disk.current ++ a) = none) : after.InReach k := by
  intro hfree
  have hbefore : ¬ disk.Blocked k := by
    rintro ⟨a, inode, ha, hblocks⟩
    obtain ⟨content, hstill⟩ := hfile a _ ha (view_of_file hblocks)
    obtain ⟨inode', hinode, -⟩ := view_eq_file.1 hstill
    exact hfree ⟨a, inode', ha, hcurrent.symm ▸ hinode⟩
  refine Nat.le_trans ?_ (h hbefore)
  unfold missingTo
  rw [hcurrent, ← List.countP_eq_length_filter, ← List.countP_eq_length_filter]
  refine List.countP_mono_left fun a ha hnone => ?_
  rw [Option.isNone_iff_eq_none] at hnone ⊢
  exact view_eq_none.1 (hthere a ((List.mem_inits a k).1 ha) (view_eq_none.2 hnone))

/-- It brings nothing out of reach to create or to empty a file. -/
theorem InReach.of_opens {place : Key} {n : Nat} (h : disk.InReach k)
    (hopens : Opens disk after place n) : after.InReach k := by
  refine h.of_kept hopens.current (fun a content _ hfile => ?_) fun a _ hnone => ?_
  · rw [hopens.view]
    split
    · exact ⟨_, rfl⟩
    · exact ⟨content, hfile⟩
  · rw [hopens.view] at hnone
    split at hnone
    · cases hnone
    · exact hnone

theorem InReach.of_refills {n : Nat} {content : Bytes} (h : disk.InReach k)
    (hrefills : Refills disk after n content) : after.InReach k := by
  refine h.of_kept hrefills.current (fun a content _ hfile => ?_) fun a _ hnone => ?_
  · obtain ⟨inode, hinode, -⟩ := view_eq_file.1 hfile
    exact ⟨_, view_of_file ((hrefills.get? _).trans hinode)⟩
  · rw [view_eq_none, hrefills.get?] at hnone
    exact view_eq_none.2 hnone

/-- Once the directories on the way to one place are made, another one is in reach. -/
def InReachAfter (disk : Disk) (made k : Key) : Prop :=
  ¬ disk.Blocked k →
    ((disk.missingTo k).filter fun a => !a.isPrefixOf made).length ≤ maxMissing

theorem InReachAfter.inReach {made : Key} (h : disk.InReachAfter made k)
    (hmade : Made disk after made) : after.InReach k := by
  intro hfree
  have hcurrent := hmade.grows.current
  have hbefore : ¬ disk.Blocked k := by
    rintro ⟨a, inode, ha, hfile⟩
    exact hfree ⟨a, inode, ha, hcurrent.symm ▸ hmade.grows.retains _ _ hfile⟩
  refine Nat.le_trans ?_ (h hbefore)
  unfold missingTo
  rw [List.filter_filter, hcurrent, ← List.countP_eq_length_filter,
    ← List.countP_eq_length_filter]
  refine List.countP_mono_left fun a _ hmissing => ?_
  -- what is missing afterwards was missing, and is not on the way that was made
  have hnone : disk.get? (disk.current ++ a) = none ∧ ¬ a <+: made := by
    rw [Option.isNone_iff_eq_none, hmade.get] at hmissing
    split at hmissing
    · cases hmissing
    · next hboth => exact ⟨hmissing, fun hbegins => hboth ⟨hmissing, hbegins⟩⟩
  simpa [← List.isPrefixOf_iff_prefix] using hnone.symm

/-! ## Questions about paths -/

section questions

variable {path : Path} (hformed : disk.tree.WellFormed) (hpath : path.IsPortable)

include hformed hpath

theorem stat_eq_ok_iff {node : Node Inode} : (∃ k, disk.stat path = .ok (k, node)) ↔
    disk.get? (disk.current ++ path.key) = some node := by
  rw [← hpath.place_eq disk]
  constructor
  · rintro ⟨k, hstat⟩
    cases hget : disk.get? (disk.place path) with
    | none =>
      obtain ⟨e, herror, -⟩ := stat_absent hpath.straight hpath.bearable hget
      cases herror.symm.trans hstat
    | some found =>
      have hfound := stat_straight hformed hpath.straight hpath.bearable hget
      cases hfound.symm.trans hstat
      rfl
  · intro hget
    exact ⟨_, stat_straight hformed hpath.straight hpath.bearable hget⟩

theorem isDirectory_iff : (disk.isDirectory path).toOption = some true ↔
    disk.get? (disk.current ++ path.key) = some .directory := by
  rw [← stat_eq_ok_iff hformed hpath]
  unfold isDirectory
  cases disk.stat path with
  | error e => simp [Except.map, Except.toOption]
  | ok found =>
    obtain ⟨k, node⟩ := found
    cases node <;> simp [Except.map, Except.toOption]

theorem pathExists_portable :
    disk.pathExists path = .ok (disk.get? (disk.current ++ path.key)).isSome := by
  rw [pathExists_straight hformed hpath.straight hpath.bearable, hpath.place_eq]

end questions

end Disk

end StagedCopy
