import StagedCopy.Disk.Change
import StagedCopy.Proofs.Disk.Follow

/-!
# Sound disks, and what the calls of a disk do

On a sound disk the parent of whatever stands somewhere is a directory, every file is regular and
has a content, and no two names stand for one file. Every call keeps a disk sound, and for each of
those that change something it is said here when it succeeds and what stands where after it.

* `Disk.Sound` — sound disks; `Disk.view_eq_file` and so on — what stands where on them.
* `Disk.Grows` — nothing happened but that directories were made; `makeDirectories_grows`.
* `Disk.Opens`, `openForWriting_opens` — a file was created or emptied.
* `Disk.erase_sound`, `removeOne_of_lookup`, `removeOne_eq_none` — a file or an empty directory
  went.
* `Disk.Moves`, `rename_moves` — a file got another place.
* `Disk.Refills`, `writeAt_refills` — a file got another content.
-/

namespace StagedCopy

namespace Disk

variable {disk after : Disk} {k other : Key} {path : Path} {content : Bytes}

/-! ## What stands where -/

theorem view_eq_directory : disk.view k = some .directory ↔ disk.get? k = some .directory := by
  unfold view
  cases disk.get? k with
  | none => simp
  | some node => cases node <;> simp

theorem view_eq_none : disk.view k = none ↔ disk.get? k = none := by
  unfold view
  rw [Option.map_eq_none_iff]

theorem view_eq_file : disk.view k = some (.file content) ↔
    ∃ inode, disk.get? k = some (.file inode) ∧ disk.contentOf inode = content := by
  unfold view
  cases disk.get? k with
  | none => simp
  | some node => cases node <;> simp

theorem view_of_file {inode : Inode} (h : disk.get? k = some (.file inode)) :
    disk.view k = some (.file (disk.contentOf inode)) := view_eq_file.2 ⟨inode, h, rfl⟩

/-- What stands where does not change with what else is known of a disk. -/
theorem view_congr (hget : after.get? k = disk.get? k)
    (hcontent : ∀ inode, disk.get? k = some (.file inode) →
      after.contentOf inode = disk.contentOf inode) : after.view k = disk.view k := by
  unfold view
  rw [hget]
  cases hnode : disk.get? k with
  | none => rfl
  | some node =>
    cases node with
    | directory => rfl
    | file inode => simp [hcontent inode hnode]

/-! ## Sound disks -/

/-- The parent of whatever stands somewhere is a directory, every file is regular with a content of
its own, and no two places have one file. -/
structure Sound (disk : Disk) : Prop where
  formed : disk.tree.WellFormed
  numbered : ∀ k inode, disk.get? k = some (.file inode) →
    ∃ n, inode = .regular n ∧ n < disk.contents.size
  single : ∀ k other inode, disk.get? k = some (.file inode) →
    disk.get? other = some (.file inode) → k = other

theorem Housing.of_view (hcurrent : after.current = disk.current)
    (hview : ∀ k, disk.view k = some .directory → after.view k = some .directory) :
    Housing disk after :=
  ⟨hcurrent, fun k hk => view_eq_directory.1 (hview k (view_eq_directory.2 hk))⟩

/-! ## Making directories -/

/-- Nothing happened to a disk but that directories were made. -/
structure Grows (disk after : Disk) : Prop where
  contents : after.contents = disk.contents
  current : after.current = disk.current
  retains : ∀ k node, disk.get? k = some node → after.get? k = some node
  introduces : ∀ k, disk.get? k = none → after.get? k = none ∨ after.get? k = some .directory
  formed : disk.tree.WellFormed → after.tree.WellFormed

namespace Grows

theorem refl (disk : Disk) : Grows disk disk :=
  ⟨rfl, rfl, fun _ _ h => h, fun _ h => .inl h, fun h => h⟩

theorem trans {last : Disk} (h : Grows disk after) (h' : Grows after last) : Grows disk last where
  contents := h'.contents.trans h.contents
  current := h'.current.trans h.current
  retains k node hk := h'.retains k node (h.retains k node hk)
  introduces k hk := by
    rcases h.introduces k hk with hnone | hdirectory
    · exact h'.introduces k hnone
    · exact .inr (h'.retains k _ hdirectory)
  formed hformed := h'.formed (h.formed hformed)

theorem housing (h : Grows disk after) : Housing disk after :=
  ⟨h.current, fun k hk => h.retains k _ hk⟩

theorem contentOf (h : Grows disk after) (inode : Inode) :
    after.contentOf inode = disk.contentOf inode := by
  cases inode with
  | regular n => rw [Disk.contentOf, h.contents]; rfl
  | full => rfl

/-- No file came or went. -/
theorem file_iff (h : Grows disk after) {inode : Inode} :
    after.get? k = some (.file inode) ↔ disk.get? k = some (.file inode) := by
  constructor
  · intro hfile
    cases hbefore : disk.get? k with
    | none =>
      rcases h.introduces k hbefore with hnone | hdirectory
      · cases hnone.symm.trans hfile
      · cases hdirectory.symm.trans hfile
    | some node => rw [← hfile, ← h.retains k node hbefore]
  · exact h.retains k _

theorem view_file_iff (h : Grows disk after) :
    after.view k = some (.file content) ↔ disk.view k = some (.file content) := by
  simp only [view_eq_file, h.file_iff, h.contentOf]

theorem sound (h : Grows disk after) (hsound : disk.Sound) : after.Sound where
  formed := h.formed hsound.formed
  numbered k inode hk := by
    rw [h.contents]
    exact hsound.numbered k inode (h.file_iff.1 hk)
  single k other inode hk hother :=
    hsound.single k other inode (h.file_iff.1 hk) (h.file_iff.1 hother)

end Grows

theorem makeDirectory_eq_ok : disk.makeDirectory path = .ok after ↔
    ∃ site name, disk.locate path = .ok site ∧ site.name? = some name ∧
      disk.lookup site.directory name = .ok none ∧
      { disk with tree := disk.tree.insert (site.directory ++ [name]) .directory } = after := by
  unfold makeDirectory
  cases hsite : disk.locate path with
  | error e => simp [bind, Except.bind]
  | ok site =>
    simp only [bind, Except.bind, Except.ok.injEq]
    cases hname : site.name? with
    | none => simp [hname]
    | some name =>
      cases hfound : disk.lookup site.directory name with
      | error e => simp [hname, hfound]
      | ok found => cases found <;> simp [hname, hfound]

/-- A new directory in one that is there. -/
theorem insert_grows {directory : Key} {name : Bytes}
    (h : disk.lookup directory name = .ok none) :
    Grows disk { disk with tree := disk.tree.insert (directory ++ [name]) .directory } := by
  obtain ⟨hgone, -, hnone⟩ := lookup_eq_ok.1 h
  have hne : directory ++ [name] ≠ [] := by simp
  have hget : ∀ k, ({ disk with tree := disk.tree.insert (directory ++ [name]) .directory } :
      Disk).get? k = if k = directory ++ [name] then some .directory else disk.get? k :=
    Tree.get?_insert disk.tree hne .directory
  have hparent : disk.tree.get? (directory ++ [name]).parent = some .directory := by
    rw [Key.parent, List.dropLast_concat]
    rcases isGone_eq_false.1 hgone with rfl | hdirectory
    · exact Tree.get?_root disk.tree
    · exact hdirectory
  refine ⟨rfl, rfl, fun k node hk => ?_, fun k hk => ?_, fun hformed => ?_⟩
  · rw [hget, if_neg]
    · exact hk
    · rintro rfl
      cases hnone.symm.trans hk
  · rw [hget]
    split
    · exact .inr rfl
    · exact .inl hk
  · exact hformed.insert hne hparent fun _ => rfl

theorem makeDirectory_grows (h : disk.makeDirectory path = .ok after) : Grows disk after := by
  obtain ⟨site, name, -, -, hfound, rfl⟩ := makeDirectory_eq_ok.1 h
  exact insert_grows hfound

theorem ensureDirectory_grows (h : disk.ensureDirectory path = .ok after) : Grows disk after := by
  unfold ensureDirectory at h
  split at h
  · split at h
    · obtain rfl := Except.ok.inj h
      exact .refl disk
    · cases h
  · exact makeDirectory_grows h

theorem ensureDirectories_grows (paths : List Path) :
    Grows disk (disk.ensureDirectories paths).2 := by
  induction paths generalizing disk with
  | nil => exact .refl disk
  | cons path more ih =>
    rw [ensureDirectories]
    cases hmade : disk.ensureDirectory path with
    | error e => exact .refl disk
    | ok made => exact (ensureDirectory_grows hmade).trans ih

/-- Whether or not a path becomes a directory, all that happens is that directories are made. -/
theorem makeDirectories_grows (disk : Disk) (path : Path) :
    Grows disk (disk.makeDirectories path).2 := by
  unfold makeDirectories
  split
  · exact .refl disk
  split
  · exact .refl disk
  · exact .refl disk
  · split
    · dsimp only
      split
      · exact .refl disk
      · exact ensureDirectories_grows _
    · exact .refl disk

/-! ## Contents -/

theorem contentOf_truncate {n : Nat} {inode : Inode} (h : n < disk.contents.size) :
    (disk.truncate (.regular n)).contentOf inode =
      if inode = .regular n then [] else disk.contentOf inode := by
  cases inode with
  | full => simp [contentOf]
  | regular m =>
    by_cases hm : m = n
    · subst hm
      simp [contentOf, truncate, h]
    · simp [contentOf, truncate, hm, Array.getElem?_setIfInBounds_ne (Ne.symm hm)]

/-- One file got another content, and nothing else happened. -/
structure Refills (disk after : Disk) (n : Nat) (content : Bytes) : Prop where
  tree : after.tree = disk.tree
  current : after.current = disk.current
  size : after.contents.size = disk.contents.size
  content : after.contentOf (.regular n) = content
  other : ∀ m, m ≠ n → after.contentOf (.regular m) = disk.contentOf (.regular m)

namespace Refills

variable {n : Nat} {content' : Bytes}

theorem refl (disk : Disk) (n : Nat) : Refills disk disk n (disk.contentOf (.regular n)) :=
  ⟨rfl, rfl, rfl, rfl, fun _ _ => rfl⟩

theorem trans {last : Disk} (h : Refills disk after n content)
    (h' : Refills after last n content') : Refills disk last n content' where
  tree := h'.tree.trans h.tree
  current := h'.current.trans h.current
  size := h'.size.trans h.size
  content := h'.content
  other m hm := (h'.other m hm).trans (h.other m hm)

theorem get? (h : Refills disk after n content) (k : Key) : after.get? k = disk.get? k := by
  rw [Disk.get?, h.tree]
  rfl

theorem housing (h : Refills disk after n content) : Housing disk after :=
  ⟨h.current, fun k hk => (h.get? k).trans hk⟩

theorem sound (h : Refills disk after n content) (hsound : disk.Sound) : after.Sound where
  formed := by
    rw [h.tree]
    exact hsound.formed
  numbered k inode hk := by
    rw [h.size]
    exact hsound.numbered k inode ((h.get? k).symm.trans hk)
  single k other inode hk hother :=
    hsound.single k other inode ((h.get? k).symm.trans hk) ((h.get? other).symm.trans hother)

/-- The place of the file has the content, and all else is as it was. -/
theorem view (h : Refills disk after n content) (hsound : disk.Sound)
    (hfile : disk.get? k = some (.file (.regular n))) (other : Key) :
    after.view other = if other = k then some (.file content) else disk.view other := by
  by_cases hother : other = k
  · rw [if_pos hother, hother]
    exact view_eq_file.2 ⟨_, (h.get? k).trans hfile, h.content⟩
  · rw [if_neg hother]
    refine view_congr (h.get? other) fun inode hinode => ?_
    obtain ⟨m, rfl, -⟩ := hsound.numbered other inode hinode
    refine h.other m fun hm => hother ?_
    rw [hm] at hinode
    exact hsound.single other k _ hinode hfile

end Refills

/-- Bytes written to a regular file. -/
theorem writeAt_refills {n : Nat} (offset : Nat) (data : Bytes) (hn : n < disk.contents.size) :
    ∃ after, disk.writeAt (.regular n) offset data = some after ∧
      Refills disk after n (overwrite (disk.contentOf (.regular n)) offset data) := by
  refine ⟨_, rfl, rfl, rfl, ?_, ?_, fun m hm => ?_⟩
  · exact Array.size_setIfInBounds
  · simp [contentOf, hn]
  · simp [contentOf, Array.getElem?_setIfInBounds_ne hm.symm]

/-! ## Opening for writing -/

/-- A file was created at a place, or emptied. -/
structure Opens (disk after : Disk) (k : Key) (n : Nat) : Prop where
  current : after.current = disk.current
  free : disk.get? k ≠ some .directory
  file : after.get? k = some (.file (.regular n))
  view : ∀ other, after.view other = if other = k then some (.file []) else disk.view other
  sound : after.Sound

theorem Opens.housing {n : Nat} (h : Opens disk after k n) : Housing disk after := by
  refine .of_view h.current fun other hother => ?_
  rw [h.view, if_neg]
  · exact hother
  · rintro rfl
    exact h.free (view_eq_directory.1 hother)

theorem openForWriting_eq_ok {result : Inode × Disk} : disk.openForWriting path = .ok result ↔
    ∃ site name, disk.locate path = .ok site ∧ site.name? = some name ∧ site.slashed = false ∧
      ((∃ inode, disk.lookup site.directory name = .ok (some (.file inode)) ∧
          (inode, disk.truncate inode) = result) ∨
        (disk.lookup site.directory name = .ok none ∧
          (.regular disk.contents.size, { disk with
            tree := disk.tree.insert (site.directory ++ [name])
              (.file (.regular disk.contents.size))
            contents := disk.contents.push [] }) = result)) := by
  unfold openForWriting
  cases hsite : disk.locate path with
  | error e => simp [bind, Except.bind]
  | ok site =>
    simp only [bind, Except.bind, Except.ok.injEq]
    cases hname : site.name? with
    | none => simp [hname]
    | some name =>
      cases hslashed : site.slashed with
      | true => simp [hname, hslashed]
      | false =>
        cases hfound : disk.lookup site.directory name with
        | error e => simp [hname, hslashed, hfound]
        | ok found =>
          match found with
          | none => simp [hname, hslashed, hfound]
          | some .directory => simp [hname, hslashed, hfound]
          | some (.file inode) => simp [hname, hslashed, hfound]

/-- A file that was there is emptied. -/
theorem truncate_opens {n : Nat} (hsound : disk.Sound)
    (hfile : disk.get? k = some (.file (.regular n))) :
    Opens disk (disk.truncate (.regular n)) k n := by
  obtain ⟨m, hm, hsize⟩ := hsound.numbered k _ hfile
  obtain rfl := Inode.regular.inj hm
  have hrefills : Refills disk (disk.truncate (.regular n)) n [] := by
    refine ⟨rfl, rfl, Array.size_setIfInBounds, ?_, fun m hm => ?_⟩
    · rw [contentOf_truncate hsize, if_pos rfl]
    · rw [contentOf_truncate hsize, if_neg fun heq => hm (Inode.regular.inj heq)]
  refine ⟨rfl, ?_, hfile, hrefills.view hsound hfile, hrefills.sound hsound⟩
  rw [hfile]
  exact fun heq => nomatch heq

/-- A file is created in a directory. -/
theorem insert_opens {directory : Key} {name : Bytes} (hsound : disk.Sound)
    (hlookup : disk.lookup directory name = .ok none) :
    Opens disk { disk with
      tree := disk.tree.insert (directory ++ [name]) (.file (.regular disk.contents.size))
      contents := disk.contents.push [] } (directory ++ [name]) disk.contents.size := by
  obtain ⟨hgone, -, hnone⟩ := lookup_eq_ok.1 hlookup
  have hne : directory ++ [name] ≠ [] := by simp
  have hget : ∀ other, ({ disk with
      tree := disk.tree.insert (directory ++ [name]) (.file (.regular disk.contents.size))
      contents := disk.contents.push [] } : Disk).get? other =
        if other = directory ++ [name] then some (.file (.regular disk.contents.size))
        else disk.get? other := Tree.get?_insert disk.tree hne _
  have hparent : disk.tree.get? (directory ++ [name]).parent = some .directory := by
    rw [Key.parent, List.dropLast_concat]
    rcases isGone_eq_false.1 hgone with rfl | hdirectory
    · exact Tree.get?_root disk.tree
    · exact hdirectory
  -- the number of the new file is not in use
  have hfresh : ∀ other, disk.get? other ≠ some (.file (.regular disk.contents.size)) := by
    intro other hother
    obtain ⟨n, hn, hsize⟩ := hsound.numbered other _ hother
    obtain rfl := Inode.regular.inj hn
    exact Nat.lt_irrefl _ hsize
  refine ⟨rfl, ?_, ?_, fun other => ?_, ?_, fun other inode hother => ?_,
    fun one other inode hone hother => ?_⟩
  · rw [hnone]
    exact (Option.some_ne_none _).symm
  · rw [hget, if_pos rfl]
  · by_cases hother : other = directory ++ [name]
    · rw [if_pos hother, hother]
      refine view_eq_file.2 ⟨_, (hget _).trans (if_pos rfl), ?_⟩
      simp [contentOf]
    · rw [if_neg hother]
      refine view_congr ((hget other).trans (if_neg hother)) fun inode hinode => ?_
      obtain ⟨n, rfl, hsize⟩ := hsound.numbered other inode hinode
      simp [contentOf, Array.getElem?_push, hsize.ne]
  · exact hsound.formed.insert hne hparent fun hdirectory => by
      cases hnone.symm.trans hdirectory
  · rw [hget] at hother
    split at hother
    · cases hother
      exact ⟨_, rfl, by simp⟩
    · obtain ⟨n, rfl, hsize⟩ := hsound.numbered other inode hother
      exact ⟨n, rfl, by simp; omega⟩
  · rw [hget] at hone hother
    split at hone
    · next h =>
      split at hother
      · next h' => rw [h, h']
      · cases hone
        exact absurd hother (hfresh other)
    · split at hother
      · cases hother
        exact absurd hone (hfresh one)
      · exact hsound.single one other inode hone hother

/-- What is opened for writing is a file at the place of the path. -/
theorem openForWriting_opens {inode : Inode} (hsound : disk.Sound)
    (h : disk.openForWriting path = .ok (inode, after)) :
    ∃ n, inode = .regular n ∧ Opens disk after (disk.place path) n := by
  obtain ⟨site, name, hsite, hname, -, ⟨found, hfound, hresult⟩ | ⟨hfound, hresult⟩⟩ :=
    openForWriting_eq_ok.1 h
  · obtain ⟨rfl, rfl⟩ := Prod.ext_iff.1 hresult
    rw [place_of_locate hsite, Site.place_of_name hname]
    have hget := (lookup_eq_ok.1 hfound).2.2
    obtain ⟨n, rfl, -⟩ := hsound.numbered _ _ hget
    exact ⟨n, rfl, truncate_opens hsound hget⟩
  · obtain ⟨rfl, rfl⟩ := Prod.ext_iff.1 hresult
    rw [place_of_locate hsite, Site.place_of_name hname]
    exact ⟨_, rfl, insert_opens hsound hfound⟩

/-- What was opened for writing is found at the path, which ends in a name. -/
theorem stat_of_opened {inode : Inode} (hsound : disk.Sound)
    (h : disk.openForWriting path = .ok (inode, after)) :
    after.stat path = .ok (disk.place path, .file inode) := by
  obtain ⟨n, rfl, hopens⟩ := openForWriting_opens hsound h
  obtain ⟨site, name, hsite, hname, hslashed, hfound⟩ := openForWriting_eq_ok.1 h
  have hplace := place_of_locate hsite
  rw [Site.place_of_name hname] at hplace
  have hfile := hopens.file
  rw [hplace] at hfile ⊢
  refine stat_eq_ok.2 ⟨site, hopens.housing.locate hsite, .inr
    ⟨name, hname, rfl, ?_, fun _ => hslashed⟩⟩
  rcases hfound with ⟨inode, hfound, -⟩ | ⟨hfound, -⟩
  · exact hopens.housing.lookup hfound hfile
  · exact hopens.housing.lookup hfound hfile

/-! ## Removing -/

theorem get?_erase (hk : k ≠ []) : ({ disk with tree := disk.tree.erase k } : Disk).get? other =
    if other = k then none else disk.get? other := by
  show (disk.tree.erase k).get? other = _
  rw [Tree.get?_erase]
  by_cases h : other = k
  · rw [if_pos ⟨h, h ▸ hk⟩, if_pos h]
  · rw [if_neg fun hboth => h hboth.1, if_neg h]
    rfl

/-- What has nothing below it goes. -/
theorem erase_sound (hsound : disk.Sound) (hk : k ≠ [])
    (hbelow : ∀ other, k.isAbove other = true → disk.get? other = none) :
    ({ disk with tree := disk.tree.erase k } : Disk).Sound := by
  have hget : ∀ other inode,
      ({ disk with tree := disk.tree.erase k } : Disk).get? other = some (.file inode) →
        disk.get? other = some (.file inode) := by
    intro other inode h
    rw [get?_erase hk] at h
    split at h
    · cases h
    · exact h
  exact ⟨hsound.formed.erase hbelow,
    fun other inode h => hsound.numbered other inode (hget other inode h),
    fun one other inode hone hother =>
      hsound.single one other inode (hget one inode hone) (hget other inode hother)⟩

/-- Nothing stands below a file, and nothing below a directory that was found empty. -/
theorem nothing_below {node : Node Inode} (hsound : disk.Sound) (hk : k ≠ [])
    (hnode : disk.get? k = some node)
    (hempty : node = .directory → disk.tree.hasBelow k = false) (hbelow : k.isAbove other = true) :
    disk.get? other = none := by
  cases node with
  | directory => exact Tree.get?_of_hasBelow (hempty rfl) hbelow
  | file inode => exact hsound.formed.below_file hk hnode hbelow

theorem view_erase (hk : k ≠ []) : ({ disk with tree := disk.tree.erase k } : Disk).view other =
    if other = k then none else disk.view other := by
  split
  · next h =>
    rw [h]
    exact view_eq_none.2 ((get?_erase hk).trans (if_pos rfl))
  · next h =>
    refine view_congr ((get?_erase hk).trans (if_neg h)) fun inode _ => ?_
    cases inode <;> rfl

/-- What a disk does to remove what stands at the place of a path. -/
theorem removeOne_of_lookup {site : Site} {name : Bytes} {node : Node Inode}
    (hsite : disk.locate path = .ok site) (hname : site.name? = some name)
    (hfound : disk.lookup site.directory name = .ok (some node)) :
    disk.removeOne path =
      match node with
      | .file _ =>
        if site.slashed then (some .notDirectory, disk)
        else (none, { disk with tree := disk.tree.erase (site.directory ++ [name]) })
      | .directory =>
        if disk.tree.hasBelow (site.directory ++ [name]) then (some .notEmpty, disk)
        else (none, { disk with tree := disk.tree.erase (site.directory ++ [name]) }) := by
  unfold removeOne unlink removeDirectory
  cases node with
  | file inode =>
    simp only [hsite, hname, hfound, bind, Except.bind]
    cases site.slashed <;> rfl
  | directory =>
    simp only [hsite, hname, hfound, bind, Except.bind]
    cases disk.tree.hasBelow (site.directory ++ [name]) <;> rfl

/-- A path that names a directory without a name of its own is not removed. -/
theorem removeOne_of_nameless {site : Site} (hsite : disk.locate path = .ok site)
    (hname : site.name? = none) : ∃ e, disk.removeOne path = (some e, disk) := by
  unfold removeOne unlink removeDirectory
  simp only [hsite, hname, bind, Except.bind]
  by_cases hdot : site.last = some dot
  · exact ⟨_, by simp [hdot]; rfl⟩
  · by_cases hdots : site.last = some dotDot
    · exact ⟨_, by simp [hdots, show dotDot ≠ dot by decide]; rfl⟩
    · exact ⟨_, by simp [hdot, hdots]; rfl⟩

/-- What was removed without fail was there: a file, or a directory with nothing in it. -/
theorem removeOne_eq_none {node : Node Inode} (hstat : disk.stat path = .ok (k, node))
    (h : disk.removeOne path = (none, after)) :
    k ≠ [] ∧ disk.get? k = some node ∧ (node = .directory → disk.tree.hasBelow k = false) ∧
      { disk with tree := disk.tree.erase k } = after := by
  obtain ⟨site, hsite, ⟨hname, -, -⟩ | ⟨name, hname, rfl, hfound, hslashed⟩⟩ := stat_eq_ok.1 hstat
  · obtain ⟨e, he⟩ := removeOne_of_nameless hsite hname
    rw [he] at h
    cases h
  · rw [removeOne_of_lookup hsite hname hfound] at h
    refine ⟨by simp, (lookup_eq_ok.1 hfound).2.2, ?_, ?_⟩
    · rintro rfl
      cases hbelow : disk.tree.hasBelow (site.directory ++ [name]) with
      | false => rfl
      | true => simp [hbelow] at h
    · cases node with
      | file inode =>
        rw [hslashed rfl] at h
        exact (Prod.ext_iff.1 h).2
      | directory =>
        cases hbelow : disk.tree.hasBelow (site.directory ++ [name]) with
        | false =>
          simp only [hbelow, Bool.false_eq_true, if_false] at h
          exact (Prod.ext_iff.1 h).2
        | true => simp [hbelow] at h

/-- A file that a path leads to can be removed. -/
theorem removeOne_file {inode : Inode} (hstat : disk.stat path = .ok (k, .file inode)) :
    disk.removeOne path = (none, { disk with tree := disk.tree.erase k }) := by
  obtain ⟨site, hsite, ⟨-, -, hnode⟩ | ⟨name, hname, rfl, hfound, hslashed⟩⟩ := stat_eq_ok.1 hstat
  · cases hnode
  · rw [removeOne_of_lookup hsite hname hfound, hslashed rfl]
    rfl

theorem removeOne_error {e : SystemError} (h : disk.removeOne path = (some e, after)) :
    after = disk := by
  unfold removeOne at h
  dsimp only at h
  split at h
  · cases h
  · cases h
  · exact (Prod.ext_iff.1 h).2.symm

/-! ## Renaming -/

/-- A file got another place. -/
structure Moves (disk after : Disk) (old new : Key) (inode : Inode) : Prop where
  current : after.current = disk.current
  contents : after.contents = disk.contents
  file : disk.get? old = some (.file inode)
  free : disk.get? new = none
  get : ∀ k, after.get? k =
    if k = new then some (.file inode) else if k = old then none else disk.get? k
  sound : after.Sound

theorem moveKey_self (old new : Key) : moveKey old new old = new := by
  simp [moveKey]

theorem moveKey_elsewhere {old new : Key} (h : ¬ old <+: k) : moveKey old new k = k := by
  rw [moveKey, if_neg (by simpa using h)]

/-- A look-up where one key was replaced. -/
theorem lookup_moveKey {old new : Key} {entries : List (Key × Node Inode)} (hne : old ≠ new)
    (hold : ∀ entry ∈ entries, old <+: entry.1 → entry.1 = old)
    (hnew : ∀ entry ∈ entries, entry.1 ≠ new) :
    (entries.map fun entry => (moveKey old new entry.1, entry.2)).lookup k =
      if k = new then entries.lookup old else if k = old then none else entries.lookup k := by
  induction entries with
  | nil => simp
  | cons entry rest ih =>
    obtain ⟨key, node⟩ := entry
    obtain ⟨hkey, hold⟩ := List.forall_mem_cons.1 hold
    obtain ⟨hfree, hnew⟩ := List.forall_mem_cons.1 hnew
    rw [List.map_cons, List.lookup_cons, ih hold hnew]
    by_cases hbegins : old <+: key
    · obtain rfl : key = old := hkey hbegins
      rw [moveKey_self]
      by_cases hk : k = new
      · simp [hk]
      · by_cases hk' : k = key
        · simp [hk', hne, beq_eq_false_iff_ne.2 hne]
        · simp [hk, hk', List.lookup_cons, beq_eq_false_iff_ne.2 hk, beq_eq_false_iff_ne.2 hk']
    · have hdiffers : old ≠ key := by
        rintro rfl
        exact hbegins (List.prefix_refl old)
      rw [moveKey_elsewhere hbegins, List.lookup_cons, List.lookup_cons,
        beq_eq_false_iff_ne.2 hdiffers]
      by_cases hk : k = key
      · have hfree' : key ≠ new := hfree
        simp [hk, hfree', hdiffers.symm]
      · simp [beq_eq_false_iff_ne.2 hk]

theorem move_moves {old new : Key} {inode : Inode} (hsound : disk.Sound)
    (hfile : disk.get? old = some (.file inode)) (hnew : disk.get? new = none)
    (hparent : disk.get? new.parent = some .directory)
    (hcurrent : ¬ old <+: disk.current) : Moves disk (disk.move old new) old new inode := by
  have hold : old ≠ [] := by
    rintro rfl
    cases (Tree.get?_root disk.tree).symm.trans hfile
  have hroot : new ≠ [] := by
    rintro rfl
    cases (Tree.get?_root disk.tree).symm.trans hnew
  have hne : old ≠ new := by
    rintro rfl
    cases hfile.symm.trans hnew
  have hthere : ∀ entry ∈ disk.tree.entries, entry.1 ≠ [] → disk.tree.get? entry.1 ≠ none :=
    fun entry hentry hkey => (Tree.get?_ne_none_iff hkey).2 ⟨entry, hentry, rfl⟩
  have hbegins : ∀ entry ∈ disk.tree.entries, old <+: entry.1 → entry.1 = old := by
    intro entry hentry hbegins
    by_contra hdiffers
    have habove : old.isAbove entry.1 = true := Key.isAbove_iff.2 ⟨hbegins, Ne.symm hdiffers⟩
    exact hthere entry hentry (Key.ne_root_of_isAbove habove)
      (hsound.formed.below_file hold hfile habove)
  have hfree : ∀ entry ∈ disk.tree.entries, entry.1 ≠ new := by
    rintro entry hentry rfl
    exact hthere entry hentry hroot hnew
  have hget : ∀ k, (disk.move old new).get? k =
      if k = new then some (.file inode) else if k = old then none else disk.get? k := by
    intro k
    by_cases hk : k = []
    · rw [hk, if_neg hroot.symm, if_neg hold.symm]
      exact (Tree.get?_root _).trans (Tree.get?_root _).symm
    · have hlookup := lookup_moveKey (k := k) hne hbegins hfree
      have hentry : disk.tree.entries.lookup old = some (.file inode) := by
        rw [← hfile, get?, Tree.get?, if_neg hold]
      rw [hentry] at hlookup
      show (if k = [] then some Node.directory else List.lookup k (List.map _ _)) = _
      rw [if_neg hk]
      refine hlookup.trans ?_
      rw [get?, Tree.get?, if_neg hk]
  have hfiles : ∀ k i, (disk.move old new).get? k = some (.file i) →
      (k = new ∧ i = inode) ∨ (k ≠ new ∧ k ≠ old ∧ disk.get? k = some (.file i)) := by
    intro k i hk
    rw [hget] at hk
    split at hk
    · next h =>
      cases hk
      exact .inl ⟨h, rfl⟩
    · split at hk
      · cases hk
      · next h h' => exact .inr ⟨h, h', hk⟩
  refine ⟨moveKey_elsewhere hcurrent, rfl, hfile, hnew, hget, fun k hk hsome => ?_,
    fun k i hk => ?_, fun one other i hone hother => ?_⟩
  · -- the parent of what stands now was not the file that moved
    have hdirectory : ∀ above, disk.get? above = some .directory →
        (disk.move old new).get? above = some .directory := by
      intro above habove
      rw [hget, if_neg, if_neg]
      · exact habove
      · rintro rfl
        cases hfile.symm.trans habove
      · rintro rfl
        cases hnew.symm.trans habove
    refine hdirectory _ ?_
    have hsome' : (disk.move old new).get? k ≠ none := hsome
    rw [hget] at hsome'
    split at hsome'
    · next h =>
      rw [h]
      exact hparent
    · split at hsome'
      · exact absurd rfl hsome'
      · exact hsound.formed k hk hsome'
  · rcases hfiles k i hk with ⟨-, rfl⟩ | ⟨-, -, hbefore⟩
    · exact hsound.numbered old i hfile
    · exact hsound.numbered k i hbefore
  · rcases hfiles one i hone with ⟨rfl, rfl⟩ | ⟨-, hone', hbefore⟩
    · rcases hfiles other i hother with ⟨rfl, -⟩ | ⟨-, hother', hbefore'⟩
      · rfl
      · exact absurd (hsound.single other old i hbefore' hfile) hother'
    · rcases hfiles other i hother with ⟨rfl, rfl⟩ | ⟨-, -, hbefore'⟩
      · exact absurd (hsound.single one old i hbefore hfile) hone'
      · exact hsound.single one other i hbefore hbefore'

namespace Moves

variable {old new : Key} {inode : Inode}

theorem contentOf (h : Moves disk after old new inode) (i : Inode) :
    after.contentOf i = disk.contentOf i := by
  cases i with
  | regular n => rw [Disk.contentOf, h.contents]; rfl
  | full => rfl

theorem view (h : Moves disk after old new inode) (k : Key) :
    after.view k = if k = new then some (.file (disk.contentOf inode))
      else if k = old then none else disk.view k := by
  have hget := h.get k
  split
  · next hk =>
    rw [if_pos hk] at hget
    exact view_eq_file.2 ⟨inode, hget, h.contentOf inode⟩
  · next hk =>
    rw [if_neg hk] at hget
    split
    · next hk' =>
      rw [if_pos hk'] at hget
      exact view_eq_none.2 hget
    · next hk' =>
      rw [if_neg hk'] at hget
      exact view_congr hget fun i _ => h.contentOf i

theorem housing (h : Moves disk after old new inode) : Housing disk after := by
  refine ⟨h.current, fun k hk => ?_⟩
  rw [h.get, if_neg, if_neg]
  · exact hk
  · rintro rfl
    cases h.file.symm.trans hk
  · rintro rfl
    cases h.free.symm.trans hk

end Moves

/-- What a disk does to rename what stands at one path to a path at which nothing stands. -/
theorem rename_of_lookup {source target : Path} {old new : Site} {oldName newName : Bytes}
    {node : Node Inode} (hold : disk.locate source = .ok old) (hnew : disk.locate target = .ok new)
    (hdevices : isOnDevices old.directory = isOnDevices new.directory)
    (holdName : old.name? = some oldName) (hnewName : new.name? = some newName)
    (hfound : disk.lookup old.directory oldName = .ok (some node))
    (hfree : disk.lookup new.directory newName = .ok none) :
    disk.rename source target =
      if node.isFile && (old.slashed || new.slashed) then .error .notDirectory
      else if (old.directory ++ [oldName]).isPrefixOf new.directory then .error .invalid
      else .ok (disk.move (old.directory ++ [oldName]) (new.directory ++ [newName])) := by
  unfold rename
  simp only [hold, hnew, holdName, hnewName, hfound, hfree, hdevices, bind, Except.bind,
    bne_self_eq_false, Bool.false_eq_true, if_false]

/-- A rename that succeeds found something at the old path and nothing at the new one. -/
theorem exists_of_rename {source target : Path} (h : disk.rename source target = .ok after) :
    ∃ old new oldName newName node, disk.locate source = .ok old ∧
      disk.locate target = .ok new ∧
      isOnDevices old.directory = isOnDevices new.directory ∧
      old.name? = some oldName ∧ new.name? = some newName ∧
      disk.lookup old.directory oldName = .ok (some node) ∧
      disk.lookup new.directory newName = .ok none := by
  unfold rename at h
  cases hold : disk.locate source with
  | error e => simp [hold, bind, Except.bind] at h
  | ok old =>
    cases hnew : disk.locate target with
    | error e => simp [hold, hnew, bind, Except.bind] at h
    | ok new =>
      simp only [hold, hnew, bind, Except.bind] at h
      split at h
      · cases h
      next hdevices =>
      split at h
      · next oldName newName holdName hnewName =>
        cases hfound : disk.lookup old.directory oldName with
        | error e => simp [hfound] at h
        | ok found =>
          cases found with
          | none => simp [hfound] at h
          | some node =>
            cases hfree : disk.lookup new.directory newName with
            | error e => simp [hfound, hfree] at h
            | ok other =>
              cases other with
              | some other => simp [hfound, hfree] at h
              | none =>
                exact ⟨old, new, oldName, newName, node, rfl, rfl, by simpa using hdevices,
                  holdName, hnewName, hfound, hfree⟩
      · cases h

/-- A file is renamed, and the new path leads to it. -/
theorem rename_moves {source target : Path} {inode : Inode} (hsound : disk.Sound)
    (hfile : disk.get? (disk.place source) = some (.file inode))
    (hcurrent : ¬ disk.place source <+: disk.current)
    (h : disk.rename source target = .ok after) :
    Moves disk after (disk.place source) (disk.place target) inode ∧
      after.stat target = .ok (disk.place target, .file inode) := by
  obtain ⟨old, new, oldName, newName, node, hold, hnew, hdevices, holdName, hnewName, hfound,
    hfree⟩ := exists_of_rename h
  have hsource := place_of_locate hold
  rw [Site.place_of_name holdName] at hsource
  have htarget := place_of_locate hnew
  rw [Site.place_of_name hnewName] at htarget
  have hnode := (lookup_eq_ok.1 hfound).2.2
  rw [hsource] at hfile hcurrent
  obtain rfl := Option.some.inj (hnode.symm.trans hfile)
  rw [rename_of_lookup hold hnew hdevices holdName hnewName hfound hfree] at h
  split at h
  · cases h
  next hslashed =>
  split at h
  · cases h
  next hinside =>
  obtain rfl := Except.ok.inj h
  obtain ⟨hgone, hlong, hnone⟩ := lookup_eq_ok.1 hfree
  have hparent : disk.get? (new.directory ++ [newName]).parent = some .directory := by
    rw [Key.parent, List.dropLast_concat]
    rcases isGone_eq_false.1 hgone with hroot | hdirectory
    · rw [hroot]
      exact Tree.get?_root disk.tree
    · exact hdirectory
  have hmoves := move_moves hsound hnode hnone hparent hcurrent
  rw [hsource, htarget]
  refine ⟨hmoves, stat_eq_ok.2 ⟨new, hmoves.housing.locate hnew, .inr
    ⟨newName, hnewName, rfl, ?_, fun _ => ?_⟩⟩⟩
  · exact hmoves.housing.lookup hfree ((hmoves.get _).trans (if_pos rfl))
  · simp [Node.isFile] at hslashed
    exact hslashed.2

end Disk

end StagedCopy
