import Mathlib.Data.List.Infix
import StagedCopy.Proofs.Disk.Sound
import StagedCopy.Proofs.Path.Plain

/-!
# Making a directory with all above it

What becomes of a disk when a plain path is to become a directory. A file at the place or above it
prevents that, and nothing is made. Otherwise the missing directories on the way are looked up from
the place outwards and made from the outside in; but only so many are made at once, and when there
are more of them none is made.

* `Key.Spellable`, `Path.IsPortable` — the keys whose spelling a disk can follow, and such paths;
  `Path.IsPlain.portable` — the plain paths within the limits of a disk are such.
* `Disk.Blocked`, `Disk.missingTo` — a file on the way, and what is missing on it.
* `Disk.missingDirectories_spelled`, `Disk.ensureDirectories_spelled` — the two passes.
* `Disk.makeDirectories_blocked`, `makeDirectories_spelled`, `makeDirectories_many` — the whole.
-/

namespace StagedCopy

open StagedCopy.Path (joinNames)

/-! ## Spellings that a disk can follow -/

/-- The key has a spelling that ends nowhere too early and in which nothing is too long. -/
structure Key.Spellable (k : Key) : Prop where
  canonical : k.Canonical
  plain : (0 : UInt8) ∉ joinNames k
  length : (joinNames k).length < Disk.pathLimit
  short : ∀ n ∈ k, n.length ≤ Disk.maxName

namespace Key.Spellable

variable {k a : Key}

theorem of_begins (h : k.Spellable) (ha : a <+: k) : a.Spellable where
  canonical := h.canonical.of_prefix ha
  plain hmem := h.plain ((Path.joinNames_begins ha).subset hmem)
  length := Nat.lt_of_le_of_lt (Path.joinNames_begins ha).length_le h.length
  short n hn := h.short n (ha.subset hn)

theorem seen_eq (h : k.Spellable) : (joinNames k).seen = joinNames k :=
  Path.seen_eq_self h.plain

theorem bearable (h : k.Spellable) (hk : k ≠ []) : (joinNames k).Bearable where
  nonempty := h.seen_eq.symm ▸ h.canonical.joinNames_ne_nil hk
  length := h.seen_eq.symm ▸ h.length
  names := by
    rw [h.seen_eq, h.canonical.names_joinNames]
    exact h.short

theorem straight (h : k.Spellable) (hk : k ≠ []) : (joinNames k).Straight where
  names := by
    refine ⟨[], k.dropLast, k.getLast hk, ?_, fun n hn => absurd hn List.not_mem_nil, ?_⟩
    · rw [h.seen_eq, h.canonical.names_joinNames, List.nil_append, List.dropLast_concat_getLast]
    · rw [List.dropLast_concat_getLast]
      exact fun n hn => Path.isPlainName_of_isName (h.canonical n hn)
  unended := h.seen_eq.symm ▸ h.canonical.endsInSlash_joinNames

theorem place_eq (h : k.Spellable) (disk : Disk) :
    disk.place (joinNames k) = disk.current ++ k := by
  rw [Disk.place, Disk.start, h.seen_eq, h.canonical.isRooted_joinNames,
    if_neg Bool.false_ne_true, h.canonical.names_joinNames]
  exact Key.walk_of_plain fun n hn => Path.isPlainName_of_isName (h.canonical n hn)

/-- A spelling has a byte for every name at least. -/
theorem length_le (h : k.Spellable) : k.length ≤ (joinNames k).length := by
  induction k using List.reverseRecOn with
  | nil => exact Nat.le_refl 0
  | append_singleton before last ih =>
    have hbefore := ih (h.of_begins (List.prefix_append before [last]))
    obtain ⟨hlast, -⟩ := Key.isName_iff.1 (h.canonical last (by simp))
    by_cases hempty : before = []
    · rw [hempty]
      exact List.length_pos_iff.2 hlast
    · have hpos := List.length_pos_iff.2 hlast
      rw [Path.joinNames_concat hempty, List.length_append, List.length_append]
      simp only [List.length_cons, List.length_nil]
      omega

end Key.Spellable

/-- The path is plain and leads somewhere, and a disk can follow it. -/
structure Path.IsPortable (p : Path) : Prop where
  spelled : joinNames p.key = p
  spellable : p.key.Spellable
  named : p.key ≠ []

namespace Path.IsPortable

variable {p : Path}

/-- What is said of spellings holds of such paths. -/
theorem of_spelled {property : Path → Prop} (h : p.IsPortable)
    (hspelled : property (joinNames p.key)) : property p := h.spelled ▸ hspelled

theorem straight (h : p.IsPortable) : p.Straight := h.of_spelled (h.spellable.straight h.named)

theorem bearable (h : p.IsPortable) : p.Bearable := h.of_spelled (h.spellable.bearable h.named)

theorem place_eq (h : p.IsPortable) (disk : Disk) : disk.place p = disk.current ++ p.key := by
  have hspelled := h.spellable.place_eq disk
  rw [h.spelled] at hspelled
  exact hspelled

theorem key_concat (h : p.IsPortable) : ∃ last, p.key = p.key.parent ++ [last] :=
  ⟨p.key.getLast h.named, (List.dropLast_concat_getLast h.named).symm⟩

/-- The parent of such a path spells the place above. -/
theorem parent_eq (h : p.IsPortable) : p.parent = joinNames p.key.parent := by
  obtain ⟨last, hconcat⟩ := h.key_concat
  have hcanonical := h.spellable.canonical
  rw [hconcat] at hcanonical
  have hparent := hcanonical.parent_joinNames
  rw [← hconcat, h.spelled] at hparent
  exact hparent

theorem key_parent (h : p.IsPortable) : p.parent.key = p.key.parent := by
  rw [h.parent_eq]
  exact h.spellable.canonical.parent.key_joinNames

/-- The place above is the root of the relative paths, or such a path leads there. -/
theorem parent (h : p.IsPortable) (hparent : p.key.parent ≠ []) : p.parent.IsPortable where
  spelled := by rw [h.key_parent, h.parent_eq]
  spellable := by
    rw [h.key_parent]
    exact h.spellable.of_begins (List.dropLast_prefix p.key)
  named := by
    rw [h.key_parent]
    exact hparent

theorem parent_eq_nil (h : p.IsPortable) : p.parent = [] ↔ p.key.parent = [] := by
  rw [h.parent_eq]
  constructor
  · intro hempty
    by_contra hne
    exact h.spellable.canonical.parent.joinNames_ne_nil hne hempty
  · intro hempty
    rw [hempty]
    rfl

end Path.IsPortable

/-- The path is within the limits of a disk and has no zero byte. -/
structure Path.WithinLimits (p : Path) : Prop where
  plain : (0 : UInt8) ∉ p
  length : p.length < Disk.pathLimit
  short : ∀ n ∈ p.names, n.length ≤ Disk.maxName

/-- A spelling is within the limits when its names are and there are not too many of them. -/
theorem Path.withinLimits_joinNames {k : Key} (h : k.Canonical)
    (hplain : ∀ name ∈ k, (0 : UInt8) ∉ name) (hshort : ∀ name ∈ k, name.length ≤ Disk.maxName)
    (hlength : k.length + k.flatten.length < Disk.pathLimit) :
    (joinNames k).WithinLimits where
  plain hzero := by
    rcases mem_joinNames hzero with hslash | ⟨name, hname, hb⟩
    · cases hslash
    · exact hplain name hname hb
  length := Nat.lt_of_le_of_lt (length_joinNames_le k) hlength
  short := by
    rw [h.names_joinNames]
    exact hshort

/-- A plain path within the limits that is not empty leads somewhere. -/
theorem Path.IsPlain.portable {p : Path} (h : p.IsPlain) (hlimits : p.WithinLimits)
    (hp : p ≠ []) : p.IsPortable where
  spelled := h.eq_joinNames
  spellable := by
    refine ⟨key_canonical p, ?_, ?_, ?_⟩
    · rw [h.eq_joinNames]
      exact hlimits.plain
    · rw [h.eq_joinNames]
      exact hlimits.length
    · rw [h.key_eq_names]
      exact hlimits.short
  named := h.key_ne_nil hp

namespace Disk

variable {disk after : Disk} {k a : Key} {name : Bytes}

/-! ## What is on the way -/

/-- A file stands at the place, or above it. Places are read from the current directory. -/
def Blocked (disk : Disk) (k : Key) : Prop :=
  ∃ a inode, a <+: k ∧ disk.get? (disk.current ++ a) = some (.file inode)

/-- The places on the way from the current directory to a place at which nothing stands, the
outermost first. -/
def missingTo (disk : Disk) (k : Key) : List Key :=
  k.inits.filter fun a => (disk.get? (disk.current ++ a)).isNone

/-- All that is missing on the way to a place was made a directory, and nothing else happened. -/
structure Made (disk after : Disk) (k : Key) : Prop where
  grows : Grows disk after
  get : ∀ a, after.get? (disk.current ++ a) =
    if disk.get? (disk.current ++ a) = none ∧ a <+: k then some .directory
    else disk.get? (disk.current ++ a)

/-- Where nothing is missing on the way, nothing needs to be made. -/
theorem Made.refl (h : ∀ a, a <+: k → disk.get? (disk.current ++ a) ≠ none) : Made disk disk k :=
  ⟨.refl disk, fun a => (if_neg fun hboth => h a hboth.2 hboth.1).symm⟩

/-- Nothing is missing on the way to the current directory. -/
theorem there_of_root (hcurrent : disk.get? disk.current = some .directory) :
    ∀ a : Key, a <+: [] → disk.get? (disk.current ++ a) ≠ none := by
  intro a ha hnone
  rw [List.prefix_nil.1 ha, List.append_nil, hcurrent] at hnone
  cases hnone

theorem missingTo_concat : disk.missingTo (k ++ [name]) = disk.missingTo k ++
    if disk.get? (disk.current ++ (k ++ [name])) = none then [k ++ [name]] else [] := by
  unfold missingTo
  rw [List.inits_append, List.filter_append]
  refine congrArg _ ?_
  by_cases hnone : disk.get? (disk.current ++ (k ++ [name])) = none
  · simp [hnone]
  · rw [if_neg hnone]
    simp [hnone]

/-- Where nothing on the way is there, every directory is missing. -/
theorem length_le_missingTo
    (h : ∀ a, a <+: k → a ≠ [] → disk.get? (disk.current ++ a) = none) :
    k.length ≤ (disk.missingTo k).length := by
  induction k using List.reverseRecOn with
  | nil => exact Nat.zero_le _
  | append_singleton before last ih =>
    have hbefore := ih fun a ha => h a (ha.trans (List.prefix_append before [last]))
    rw [missingTo_concat, if_pos (h _ (List.prefix_refl _) (by simp)), List.length_append,
      List.length_append]
    exact Nat.add_le_add_right hbefore 1

theorem Blocked.mono (h : disk.Blocked a) (ha : a <+: k) : disk.Blocked k := by
  obtain ⟨b, inode, hb, hfile⟩ := h
  exact ⟨b, inode, hb.trans ha, hfile⟩

/-- Where nothing blocks the way, what is there on it is a directory. -/
theorem directory_of_free (h : ¬ disk.Blocked k) (ha : a <+: k)
    (hthere : disk.get? (disk.current ++ a) ≠ none) :
    disk.get? (disk.current ++ a) = some .directory := by
  cases hget : disk.get? (disk.current ++ a) with
  | none => exact absurd hget hthere
  | some node =>
    cases node with
    | directory => rfl
    | file inode => exact absurd ⟨a, inode, ha, hget⟩ h

/-- Where nothing blocked the way, the place is a directory after all that is missing was made. -/
theorem Made.directory (h : Made disk after k) (hfree : ¬ disk.Blocked k) :
    after.get? (disk.current ++ k) = some .directory := by
  rw [h.get]
  split
  · rfl
  · next hthere =>
    exact directory_of_free hfree (List.prefix_refl k) fun hnone =>
      hthere ⟨hnone, List.prefix_refl k⟩

/-- Nothing is made off the way. -/
theorem Made.elsewhere (h : Made disk after k) (ha : ¬ a <+: k) :
    after.get? (disk.current ++ a) = disk.get? (disk.current ++ a) := by
  rw [h.get, if_neg fun hboth => ha hboth.2]

section way

variable (hformed : disk.tree.WellFormed)
  (hcurrent : disk.get? disk.current = some .directory)

include hformed in
/-- Above a place where something stands there are directories. -/
theorem directory_of_below (hthere : disk.get? (disk.current ++ k) ≠ none) (ha : a <+: k)
    (hne : a ≠ k) : disk.get? (disk.current ++ a) = some .directory :=
  hformed.of_prefix hthere ((List.prefix_append_right_inj _).2 ha)
    fun heq => hne (List.append_cancel_left heq)

include hformed in
/-- Nothing is missing on the way to what is there. -/
theorem missingTo_of_there (hthere : disk.get? (disk.current ++ k) ≠ none) :
    disk.missingTo k = [] := by
  unfold missingTo
  rw [List.filter_eq_nil_iff]
  intro a ha hnone
  have hbegins := (List.mem_inits a k).1 ha
  rw [Option.isNone_iff_eq_none] at hnone
  by_cases hsame : a = k
  · rw [hsame] at hnone
    exact hthere hnone
  · cases hnone.symm.trans (directory_of_below hformed hthere hbegins hsame)

include hformed in
/-- Nothing is there when something is missing on the way. -/
theorem not_there_of_missing {count : Nat} (h : count < (disk.missingTo k).length) :
    disk.get? (disk.current ++ k) = none := by
  by_contra hthere
  rw [missingTo_of_there hformed hthere] at h
  exact Nat.not_lt_zero _ h

include hformed in
/-- Only what stands at the place itself blocks the way to what is there. -/
theorem not_blocked_of_there (hthere : disk.get? (disk.current ++ k) = some .directory) :
    ¬ disk.Blocked k := by
  rintro ⟨a, inode, ha, hfile⟩
  by_cases hsame : a = k
  · rw [hsame, hthere] at hfile
    cases hfile
  · have hsome : disk.get? (disk.current ++ k) ≠ none := by
      rw [hthere]
      exact Option.some_ne_none _
    cases hfile.symm.trans (directory_of_below hformed hsome ha hsame)

/-! ## The first pass -/

/-- One place further out. -/
theorem missingDirectories_concat (hk : Key.Canonical (k ++ [name])) (bound : Nat)
    (found : List Path) :
    disk.missingDirectories (bound + 1) (joinNames (k ++ [name])) found =
      if maxMissing < found.length + 1 then .error .nameTooLong
      else if k = [] then .ok (joinNames (k ++ [name]) :: found)
      else
        match disk.stat (joinNames k) with
        | .ok (_, .directory) => .ok (joinNames (k ++ [name]) :: found)
        | .ok (_, .file _) => .error .notDirectory
        | .error e =>
          if e.meansAbsent then
            disk.missingDirectories bound (joinNames k) (joinNames (k ++ [name]) :: found)
          else .error e := by
  obtain ⟨-, hdot, hdots, -⟩ := Key.isName_iff.1 (hk name (by simp))
  rw [missingDirectories]
  dsimp only
  rw [hk.filename_joinNames, hk.parent_joinNames, if_neg (not_or.2 ⟨hdot, hdots⟩),
    List.length_cons]
  refine if_congr Iff.rfl rfl ?_
  by_cases hempty : k = []
  · have hisEmpty : (joinNames k).isEmpty = true := by
      rw [hempty]
      rfl
    exact (if_pos hisEmpty).trans (if_pos hempty).symm
  · have hspelled := (hk.of_prefix (List.prefix_append k [name])).joinNames_ne_nil hempty
    have hnonempty : ¬ (joinNames k).isEmpty = true := by simpa using hspelled
    exact (if_neg hnonempty).trans (if_neg hempty).symm

include hformed hcurrent in
/-- The directories that are missing are found, unless they are too many. -/
theorem missingDirectories_spelled (hk : k.Spellable) (hne : k ≠ [])
    (hnone : disk.get? (disk.current ++ k) = none) (hfree : ¬ disk.Blocked k) {bound : Nat}
    (hbound : k.length ≤ bound) (found : List Path) :
    disk.missingDirectories bound (joinNames k) found =
      if maxMissing < (disk.missingTo k).length + found.length then .error .nameTooLong
      else .ok ((disk.missingTo k).map joinNames ++ found) := by
  induction k using List.reverseRecOn generalizing bound found with
  | nil => exact absurd rfl hne
  | append_singleton before last ih =>
    rw [List.length_append, List.length_singleton] at hbound
    obtain ⟨bound, rfl⟩ : ∃ rest, bound = rest + 1 := ⟨bound - 1, by omega⟩
    have hbegins := List.prefix_append before [last]
    have hbefore := hk.of_begins hbegins
    rw [missingDirectories_concat hk.canonical, missingTo_concat, if_pos hnone, List.length_append,
      List.length_singleton, List.map_append, List.append_assoc]
    by_cases hmany : maxMissing < found.length + 1
    · rw [if_pos hmany, if_pos (by omega)]
    have hlast (hthere : disk.get? (disk.current ++ before) ≠ none) :
        (if maxMissing < (disk.missingTo before).length + 1 + found.length then
            .error .nameTooLong
          else .ok ((disk.missingTo before).map joinNames ++
            ([before ++ [last]].map joinNames ++ found)) : Except SystemError (List Path))
          = .ok (joinNames (before ++ [last]) :: found) := by
      rw [missingTo_of_there hformed hthere, List.length_nil, if_neg (by omega)]
      rfl
    rw [if_neg hmany]
    by_cases hempty : before = []
    · rw [if_pos hempty, hlast]
      rw [hempty, List.append_nil, hcurrent]
      exact Option.some_ne_none _
    rw [if_neg hempty]
    cases hget : disk.get? (disk.current ++ before) with
    | some node =>
      have hthere : disk.get? (disk.current ++ before) ≠ none := by
        rw [hget]
        exact Option.some_ne_none _
      have hdirectory := directory_of_free hfree hbegins hthere
      rw [← hbefore.place_eq disk] at hdirectory
      rw [stat_straight hformed (hbefore.straight hempty) (hbefore.bearable hempty) hdirectory,
        hlast hthere]
    | none =>
      obtain ⟨e, hstat, habsent⟩ := stat_absent (hbefore.straight hempty)
        (hbefore.bearable hempty) ((hbefore.place_eq disk).symm ▸ hget)
      have hsum : (disk.missingTo before).length + (found.length + 1)
          = (disk.missingTo before).length + 1 + found.length := by omega
      rw [hstat]
      dsimp only
      rw [if_pos habsent, ih hbefore hempty hget (fun h => hfree (h.mono hbegins)) (by omega),
        List.length_cons, hsum]
      rfl

include hformed hcurrent in
/-- A file on the way is found before anything is made. -/
theorem missingDirectories_blocked (hk : k.Spellable) (hne : k ≠ [])
    (hnone : disk.get? (disk.current ++ k) = none) (hblocked : disk.Blocked k) {bound : Nat}
    (hbound : k.length ≤ bound) (found : List Path) :
    ∃ e, disk.missingDirectories bound (joinNames k) found = .error e := by
  induction k using List.reverseRecOn generalizing bound found with
  | nil => exact absurd rfl hne
  | append_singleton before last ih =>
    rw [List.length_append, List.length_singleton] at hbound
    obtain ⟨bound, rfl⟩ : ∃ rest, bound = rest + 1 := ⟨bound - 1, by omega⟩
    have hbefore := hk.of_begins (List.prefix_append before [last])
    -- the file stands at the parent or above it
    obtain ⟨a, inode, ha, hfile⟩ := hblocked
    have habove : a <+: before := by
      rcases List.prefix_concat_iff.1 ha with rfl | h
      · cases hnone.symm.trans hfile
      · exact h
    have hempty : before ≠ [] := by
      rintro rfl
      rw [List.prefix_nil.1 habove, List.append_nil, hcurrent] at hfile
      cases hfile
    rw [missingDirectories_concat hk.canonical, if_neg hempty]
    split
    · exact ⟨_, rfl⟩
    cases hget : disk.get? (disk.current ++ before) with
    | some node =>
      rw [stat_straight hformed (hbefore.straight hempty) (hbefore.bearable hempty)
        ((hbefore.place_eq disk).symm ▸ hget)]
      cases node with
      | directory =>
        exact absurd ⟨a, inode, habove, hfile⟩ (not_blocked_of_there hformed hget)
      | file inode' => exact ⟨_, rfl⟩
    | none =>
      obtain ⟨e, hstat, habsent⟩ := stat_absent (hbefore.straight hempty)
        (hbefore.bearable hempty) ((hbefore.place_eq disk).symm ▸ hget)
      rw [hstat]
      dsimp only
      rw [if_pos habsent]
      exact ih hbefore hempty hget ⟨a, inode, habove, hfile⟩ (by omega) _

/-! ## The second pass -/

theorem ensureDirectories_append {first second : List Path} {middle : Disk}
    (h : disk.ensureDirectories first = (none, middle)) :
    disk.ensureDirectories (first ++ second) = middle.ensureDirectories second := by
  induction first generalizing disk with
  | nil =>
    obtain ⟨-, rfl⟩ := Prod.ext_iff.1 h
    rfl
  | cons path more ih =>
    rw [List.cons_append, ensureDirectories]
    rw [ensureDirectories] at h
    cases hmade : disk.ensureDirectory path with
    | error e =>
      rw [hmade] at h
      cases h
    | ok made =>
      rw [hmade] at h
      exact ih h

/-- A directory is made in one that is there. -/
theorem ensureDirectory_spelled (hformed : disk.tree.WellFormed) (hk : k.Spellable)
    (hne : k ≠ []) (hparent : disk.get? (disk.current ++ k).parent = some .directory)
    (hnone : disk.get? (disk.current ++ k) = none) :
    disk.ensureDirectory (joinNames k)
      = .ok { disk with tree := disk.tree.insert (disk.current ++ k) .directory } := by
  have hplace := hk.place_eq disk
  obtain ⟨last, hlocate, hlast, hconcat, hlookup⟩ := locate_straight hformed (hk.straight hne)
    (hk.bearable hne) (hplace.symm ▸ hparent)
  rw [hplace] at hlocate hconcat hlookup
  rw [hnone] at hlookup
  have hmade : disk.makeDirectory (joinNames k)
      = .ok { disk with tree := disk.tree.insert (disk.current ++ k) .directory } :=
    makeDirectory_eq_ok.2 ⟨_, last, hlocate, Site.name?_eq_some.2 ⟨rfl, hlast⟩, hlookup,
      by rw [hconcat]⟩
  rw [ensureDirectory, hmade]

include hformed hcurrent in
/-- What is missing on a way without a file is made. -/
theorem ensureDirectories_spelled (hk : k.Spellable) (hfree : ¬ disk.Blocked k) :
    ∃ after, disk.ensureDirectories ((disk.missingTo k).map joinNames) = (none, after) ∧
      Made disk after k := by
  induction k using List.reverseRecOn with
  | nil =>
    have hthere := there_of_root hcurrent
    rw [missingTo_of_there hformed (hthere [] (List.prefix_refl []))]
    exact ⟨disk, rfl, .refl hthere⟩
  | append_singleton before last ih =>
    have hbegins := List.prefix_append before [last]
    obtain ⟨middle, hmiddle, hmade⟩ :=
      ih (hk.of_begins hbegins) fun h => hfree (h.mono hbegins)
    rw [missingTo_concat]
    by_cases hnone : disk.get? (disk.current ++ (before ++ [last])) = none
    · have hparent := hmade.directory fun h => hfree (h.mono hbegins)
      have hfresh : middle.get? (disk.current ++ (before ++ [last])) = none := by
        rw [hmade.elsewhere]
        · exact hnone
        · intro hshort
          have hlength := hshort.length_le
          rw [List.length_append, List.length_singleton] at hlength
          omega
      have hsame := hmade.grows.current
      have hconcat : (disk.current ++ (before ++ [last])).parent = disk.current ++ before := by
        rw [Key.parent, ← List.append_assoc, List.dropLast_concat]
      have hensured := ensureDirectory_spelled (hmade.grows.formed hformed) hk (by simp)
        (by rw [hsame, hconcat, hparent]) (hsame.symm ▸ hfresh)
      have hget := Tree.get?_insert middle.tree (k := middle.current ++ (before ++ [last]))
        (by simp) .directory
      rw [hsame] at hensured hget
      refine ⟨_, ?_, hmade.grows.trans (ensureDirectory_grows hensured), fun a => ?_⟩
      · rw [if_pos hnone, List.map_append, ensureDirectories_append hmiddle]
        show middle.ensureDirectories [joinNames (before ++ [last])] = _
        rw [ensureDirectories, hensured]
        rfl
      · refine (hget _).trans ?_
        by_cases hlast : a = before ++ [last]
        · rw [hlast, if_pos rfl, if_pos ⟨hnone, List.prefix_refl _⟩]
        · rw [if_neg fun h => hlast (List.append_cancel_left h)]
          refine (hmade.get a).trans ?_
          simp only [List.prefix_concat_iff, hlast, false_or]
    · rw [if_neg hnone, List.append_nil]
      refine ⟨middle, hmiddle, hmade.grows, fun a => ?_⟩
      rw [hmade.get]
      refine if_congr (and_congr_right fun hmissing => ?_) rfl rfl
      rw [List.prefix_concat_iff]
      refine ⟨.inr, ?_⟩
      rintro (rfl | h)
      · exact absurd hmissing hnone
      · exact h

/-! ## The whole -/

/-- At a place where nothing stands the two passes decide. -/
theorem makeDirectories_absent (hk : k.Spellable) (hne : k ≠ [])
    (hnone : disk.get? (disk.current ++ k) = none) :
    disk.makeDirectories (joinNames k) =
      match disk.missingDirectories ((joinNames k).length + 1) (joinNames k) [] with
      | .error e => (some e, disk)
      | .ok missing => disk.ensureDirectories missing := by
  have hspelled := hk.canonical.joinNames_ne_nil hne
  have hnonempty : ¬ (joinNames k).isEmpty = true := by simpa using hspelled
  have hfilename : (joinNames k).hasFilename = true := by
    simp [Path.hasFilename, hspelled, hk.canonical.endsInSlash_joinNames]
  obtain ⟨e, hstat, habsent⟩ := stat_absent (hk.straight hne) (hk.bearable hne)
    ((hk.place_eq disk).symm ▸ hnone)
  unfold makeDirectories
  rw [if_neg hnonempty, hstat]
  dsimp only
  rw [hfilename, Bool.not_true, Bool.and_false, if_neg Bool.false_ne_true]
  exact if_pos habsent

include hformed in
/-- At a place where something stands nothing is made. -/
theorem makeDirectories_there {node : Node Inode} (hk : k.Spellable) (hne : k ≠ [])
    (hnode : disk.get? (disk.current ++ k) = some node) :
    disk.makeDirectories (joinNames k) =
      (if node = .directory then none else some .notDirectory, disk) := by
  have hnonempty : ¬ (joinNames k).isEmpty = true := by
    simpa using hk.canonical.joinNames_ne_nil hne
  unfold makeDirectories
  rw [if_neg hnonempty, stat_straight hformed (hk.straight hne) (hk.bearable hne)
    ((hk.place_eq disk).symm ▸ hnode)]
  cases node <;> rfl

include hformed hcurrent in
/-- A plain path becomes a directory when nothing blocks the way and not too many directories are
missing on it. -/
theorem makeDirectories_spelled (hk : k.Spellable) (hne : k ≠ []) (hfree : ¬ disk.Blocked k)
    (hfew : (disk.missingTo k).length ≤ maxMissing) :
    ∃ after, disk.makeDirectories (joinNames k) = (none, after) ∧ Made disk after k := by
  cases hget : disk.get? (disk.current ++ k) with
  | some node =>
    have hthere : disk.get? (disk.current ++ k) ≠ none := by
      rw [hget]
      exact Option.some_ne_none _
    have hdirectory := directory_of_free hfree (List.prefix_refl k) hthere
    refine ⟨disk, makeDirectories_there hformed hk hne hdirectory, .refl fun a ha hnone => ?_⟩
    by_cases hsame : a = k
    · rw [hsame] at hnone
      exact hthere hnone
    · cases hnone.symm.trans (directory_of_below hformed hthere ha hsame)
  | none =>
    obtain ⟨after, hmade, hspec⟩ := ensureDirectories_spelled hformed hcurrent hk hfree
    refine ⟨after, ?_, hspec⟩
    rw [makeDirectories_absent hk hne hget, missingDirectories_spelled hformed hcurrent hk hne hget
      hfree (Nat.le_succ_of_le hk.length_le), List.length_nil, Nat.add_zero,
      if_neg (Nat.not_lt.2 hfew), List.append_nil]
    exact hmade

include hformed hcurrent in
/-- When too many directories are missing, none is made. -/
theorem makeDirectories_many (hk : k.Spellable) (hne : k ≠ []) (hfree : ¬ disk.Blocked k)
    (hmany : maxMissing < (disk.missingTo k).length) :
    disk.makeDirectories (joinNames k) = (some .nameTooLong, disk) := by
  have hnone := not_there_of_missing hformed hmany
  rw [makeDirectories_absent hk hne hnone, missingDirectories_spelled hformed hcurrent hk hne hnone
    hfree (Nat.le_succ_of_le hk.length_le), List.length_nil, Nat.add_zero, if_pos hmany]

include hformed hcurrent in
/-- When the way is blocked, nothing is made. -/
theorem makeDirectories_blocked (hk : k.Spellable) (hne : k ≠ []) (hblocked : disk.Blocked k) :
    ∃ e, disk.makeDirectories (joinNames k) = (some e, disk) := by
  cases hget : disk.get? (disk.current ++ k) with
  | some node =>
    rw [makeDirectories_there hformed hk hne hget]
    cases node with
    | directory => exact absurd hblocked (not_blocked_of_there hformed hget)
    | file inode => exact ⟨_, rfl⟩
  | none =>
    obtain ⟨e, he⟩ := missingDirectories_blocked hformed hcurrent hk hne hget hblocked
      (Nat.le_succ_of_le hk.length_le) []
    rw [makeDirectories_absent hk hne hget, he]
    exact ⟨e, rfl⟩

end way

end Disk

end StagedCopy
