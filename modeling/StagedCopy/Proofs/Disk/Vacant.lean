import StagedCopy.Proofs.Disk.Sound

/-!
# Paths at which nothing stands

A path whose directory is there and does not hold its last name is free for a file to be renamed to,
and then the rename cannot fail.

* `Disk.Vacant` — such paths; `Disk.vacant_of_erase` — removal leaves one.
* `Disk.renames_to_vacant` — a file can be renamed to one.
-/

namespace StagedCopy

namespace Disk

variable {disk : Disk} {k : Key} {path : Path}

/-- The path ends in a name that its directory does not hold. -/
def Vacant (disk : Disk) (path : Path) : Prop :=
  ∃ site name, disk.locate path = .ok site ∧ site.name? = some name ∧ site.slashed = false ∧
    disk.lookup site.directory name = .ok none

theorem Vacant.get? (h : disk.Vacant path) : disk.get? (disk.place path) = none := by
  obtain ⟨site, name, hsite, hname, -, hfound⟩ := h
  rw [place_of_locate hsite, Site.place_of_name hname]
  exact (lookup_eq_ok.1 hfound).2.2

theorem Vacant.stat (h : disk.Vacant path) : disk.stat path = .error .noEntry := by
  obtain ⟨site, name, hsite, hname, -, hfound⟩ := h
  unfold Disk.stat
  simp only [hsite, hname, hfound, bind, Except.bind]

theorem Vacant.parent (h : disk.Vacant path) (hfree : (0 : UInt8) ∉ path)
    (hparent : path.parent ≠ []) : ∃ k, disk.stat path.parent = .ok (k, .directory) := by
  obtain ⟨site, name, hsite, -, hslashed, -⟩ := h
  exact ⟨_, stat_parent hfree hsite hslashed hparent⟩

/-- A file that is removed leaves its path vacant. -/
theorem vacant_of_erase {inode : Inode} (hstat : disk.stat path = .ok (k, .file inode)) :
    ({ disk with tree := disk.tree.erase k } : Disk).Vacant path := by
  have hfile := get?_of_stat_file hstat
  obtain ⟨site, hsite, ⟨-, -, hnode⟩ | ⟨name, hname, rfl, hfound, hslashed⟩⟩ := stat_eq_ok.1 hstat
  · cases hnode
  have hk : site.directory ++ [name] ≠ [] := by simp
  have hhousing : Housing disk
      { disk with tree := disk.tree.erase (site.directory ++ [name]) } := by
    refine ⟨rfl, fun k hk' => ?_⟩
    rw [get?_erase hk, if_neg]
    · exact hk'
    · rintro rfl
      cases hfile.symm.trans hk'
  exact ⟨site, name, hhousing.locate hsite, hname, hslashed rfl,
    hhousing.lookup hfound ((get?_erase hk).trans (if_pos rfl))⟩

/-- A file is renamed to a vacant path on the same file system. -/
theorem renames_to_vacant {source target : Path} {inode : Inode} (hsound : disk.Sound)
    (hstraight : source.Straight) (hbearable : source.Bearable)
    (hfile : disk.get? (disk.place source) = some (.file inode)) (hvacant : disk.Vacant target)
    (hdevices : isOnDevices (disk.place source).parent = isOnDevices (disk.place target).parent) :
    ∃ after, disk.rename source target = .ok after := by
  have hroot : disk.place source ≠ [] := place_ne_root hstraight
  have hthere : disk.tree.get? (disk.place source) ≠ none := by
    intro hnone
    cases hfile.symm.trans hnone
  obtain ⟨last, hlocate, hlast, hplace, hlookup⟩ :=
    locate_straight hsound.formed hstraight hbearable (hsound.formed _ hroot hthere)
  rw [hfile] at hlookup
  obtain ⟨site, name, hsite, hname, hslashed, hfound⟩ := hvacant
  have htarget : (disk.place target).parent = site.directory := by
    rw [place_of_locate hsite, Site.place_of_name hname, Key.parent, List.dropLast_concat]
  rw [htarget] at hdevices
  have hrename := rename_of_lookup hlocate hsite hdevices
    (Site.name?_eq_some.2 ⟨rfl, hlast⟩) hname hlookup hfound
  rw [hslashed, hplace] at hrename
  have hinside : ¬ disk.place source <+: site.directory := by
    intro hbegins
    have hdirectory : disk.get? site.directory = some .directory := by
      rcases isGone_eq_false.1 (lookup_eq_ok.1 hfound).1 with hnil | hdirectory
      · rw [hnil]
        exact Tree.get?_root disk.tree
      · exact hdirectory
    by_cases hsame : disk.place source = site.directory
    · rw [hsame, hdirectory] at hfile
      cases hfile
    · have habove : disk.get? (disk.place source) = some .directory := by
        refine hsound.formed.of_prefix ?_ hbegins hsame
        intro hnone
        cases hdirectory.symm.trans hnone
      cases hfile.symm.trans habove
  rw [if_neg (by simp [Node.isFile]), if_neg (by simpa using hinside)] at hrename
  exact ⟨_, hrename⟩

end Disk

end StagedCopy
