import Mathlib.Data.List.Basic
import StagedCopy.Disk.Files
import StagedCopy.Proofs.Memory.Reachable
import StagedCopy.Proofs.Path.Normal

/-!
# Where paths lead on a disk

A disk follows a path name by name and looks at every directory on the way. Without links the place
where it arrives can be told from the spelling alone, by reading the names without looking; what
the disk decides is only whether it arrives.

* `Key.walk`, `Disk.place` — the place that a path spells.
* `Disk.follow_eq`, `Disk.place_of_locate`, `Disk.place_of_stat` — the disk arrives there or
  nowhere.
* `Disk.locate_eq_ok`, `Disk.lookup_eq_ok`, `Disk.stat_eq_ok` — when it arrives.
* `Disk.Housing` — what one disk has for directories, another has too, and paths lead there still.
* `Path.Straight`, `Disk.stat_straight`, `Disk.stat_absent` — a path that goes up first and down
  then leads to whatever stands at its place, when no name is too long.
-/

namespace StagedCopy

/-! ## Reading names without looking -/

namespace Key

/-- One name on the way, read without looking. -/
def enter (k : Key) (name : Bytes) : Key :=
  if name = dot then k else if name = dotDot then k.parent else k ++ [name]

/-- The place that some names lead to, read without looking. -/
def walk (k : Key) (names : List Bytes) : Key := names.foldl enter k

@[simp] theorem walk_nil (k : Key) : k.walk [] = k := rfl

theorem walk_append (k : Key) (names more : List Bytes) :
    k.walk (names ++ more) = (k.walk names).walk more := List.foldl_append

theorem enter_of_plain {k : Key} {name : Bytes} (hdot : name ≠ dot) (hdots : name ≠ dotDot) :
    k.enter name = k ++ [name] := by
  rw [enter, if_neg hdot, if_neg hdots]

theorem walk_of_plain {k : Key} {names : List Bytes} (h : ∀ n ∈ names, IsPlainName n) :
    k.walk names = k ++ names := by
  induction names generalizing k with
  | nil => rw [walk_nil, List.append_nil]
  | cons name rest ih =>
    obtain ⟨hname, hrest⟩ := List.forall_mem_cons.1 h
    show (k.enter name).walk rest = _
    rw [ih hrest, enter_of_plain hname.1 hname.2, List.append_assoc]
    rfl

end Key

namespace Path

/-- The part of a path that a disk sees: a path ends at its first NUL. -/
def seen (p : Path) : Path := p.takeWhile (· != 0)

theorem seen_eq_self {p : Path} (h : (0 : UInt8) ∉ p) : p.seen = p := by
  refine List.takeWhile_eq_self_iff.2 fun b hb => bne_iff_ne.2 ?_
  rintro rfl
  exact h hb

end Path

namespace Disk

variable {disk : Disk} {k : Key} {name : Bytes} {names : List Bytes} {path : Path} {site : Site}

/-- The directory in which a path begins. -/
def start (disk : Disk) (path : Path) : Key := if path.seen.isRooted then [] else disk.current

/-- The place that a path leads to, read without looking. -/
def place (disk : Disk) (path : Path) : Key := (disk.start path).walk path.seen.names

/-- The directory that names lead to on the disk. -/
def follow (disk : Disk) (k : Key) (names : List Bytes) : Except SystemError Key :=
  names.foldlM disk.enter k

@[simp] theorem follow_nil : disk.follow k [] = .ok k := rfl

theorem follow_cons : disk.follow k (name :: names)
    = (disk.enter k name).bind fun directory => disk.follow directory names := rfl

theorem follow_append {more : List Bytes} : disk.follow k (names ++ more)
    = (disk.follow k names).bind fun directory => disk.follow directory more :=
  List.foldlM_append

/-! ## When the disk arrives -/

theorem isGone_eq_false : disk.isGone k = false ↔ k = [] ∨ disk.get? k = some .directory := by
  unfold isGone
  cases k with
  | nil => simp
  | cons name rest => simp

theorem lookup_eq_ok {found : Option (Node Inode)} :
    disk.lookup k name = .ok found ↔
      disk.isGone k = false ∧ name.length ≤ maxName ∧ disk.get? (k ++ [name]) = found := by
  unfold lookup
  cases hgone : disk.isGone k with
  | true => simp
  | false =>
    by_cases hlong : maxName < name.length
    · simp [hlong, Nat.not_le.2 hlong]
    · simp [hlong, Nat.not_lt.1 hlong]

theorem enter_eq_ok {directory : Key} :
    disk.enter k name = .ok directory ↔
      k.enter name = directory ∧ (Key.IsPlainName name →
        disk.isGone k = false ∧ name.length ≤ maxName ∧
          disk.get? (k ++ [name]) = some .directory) := by
  unfold enter Key.enter Key.IsPlainName
  by_cases hdot : name = dot
  · simp [hdot]
  by_cases hdots : name = dotDot
  · simp [hdots, show dotDot ≠ dot by decide]
  rw [if_neg hdot, if_neg hdots, if_neg hdot, if_neg hdots]
  simp only [ne_eq, hdot, hdots, not_false_eq_true, and_self, true_imp_iff]
  constructor
  · intro h
    cases hfound : disk.lookup k name with
    | error e => simp [hfound, bind, Except.bind] at h
    | ok found =>
      obtain ⟨hgone, hlong, hget⟩ := lookup_eq_ok.1 hfound
      simp only [hfound, bind, Except.bind] at h
      cases found with
      | none => cases h
      | some node =>
        cases node with
        | file inode => cases h
        | directory => exact ⟨Except.ok.inj h, hgone, hlong, hget⟩
  · rintro ⟨rfl, hgone, hlong, hget⟩
    simp only [lookup_eq_ok.2 ⟨hgone, hlong, hget⟩, bind, Except.bind]

/-- The disk arrives at the place that the names spell, or nowhere. -/
theorem follow_eq {directory : Key} (h : disk.follow k names = .ok directory) :
    k.walk names = directory := by
  induction names generalizing k with
  | nil => exact Except.ok.inj h
  | cons name rest ih =>
    rw [follow_cons] at h
    cases hentered : disk.enter k name with
    | error e =>
      rw [hentered] at h
      cases h
    | ok middle =>
      rw [hentered] at h
      show (k.enter name).walk rest = directory
      rw [(enter_eq_ok.1 hentered).1]
      exact ih h

theorem locate_eq (disk : Disk) (path : Path) : disk.locate path =
    if path.seen.isEmpty then .error .noEntry
    else if pathLimit ≤ path.seen.length then .error .nameTooLong
    else (disk.follow (disk.start path) path.seen.names.dropLast).bind fun directory =>
      .ok ⟨directory, path.seen.names.getLast?, path.seen.endsInSlash⟩ := rfl

theorem locate_eq_ok : disk.locate path = .ok site ↔
    path.seen ≠ [] ∧ path.seen.length < pathLimit ∧
      disk.follow (disk.start path) path.seen.names.dropLast = .ok site.directory ∧
      path.seen.names.getLast? = site.last ∧ path.seen.endsInSlash = site.slashed := by
  rw [locate_eq]
  by_cases hempty : path.seen = []
  · simp [hempty]
  by_cases hlong : pathLimit ≤ path.seen.length
  · simp [hempty, hlong, Nat.not_lt.2 hlong]
  rw [if_neg (by simpa using hempty), if_neg hlong]
  simp only [ne_eq, hempty, not_false_eq_true, Nat.not_le.1 hlong, true_and]
  cases hfollow : disk.follow (disk.start path) path.seen.names.dropLast with
  | error e => simp [Except.bind]
  | ok directory =>
    obtain ⟨directory', last, slashed⟩ := site
    simp [Except.bind]

namespace Site

/-- The place of a site. -/
def place (site : Site) : Key := site.last.elim site.directory site.directory.enter

theorem name?_eq_some {site : Site} :
    site.name? = some name ↔ site.last = some name ∧ Key.IsPlainName name := by
  unfold name? Key.IsPlainName
  rw [Option.filter_eq_some_iff]
  simp

theorem place_of_name {site : Site} (h : site.name? = some name) :
    site.place = site.directory ++ [name] := by
  obtain ⟨hlast, hname⟩ := name?_eq_some.1 h
  rw [place, hlast]
  exact Key.enter_of_plain hname.1 hname.2

theorem place_of_nameless {site : Site} (h : site.name? = none) : site.place = site.itself := by
  unfold name? at h
  unfold place itself
  cases hlast : site.last with
  | none => simp
  | some name =>
    rw [hlast, Option.filter_eq_none_iff] at h
    by_cases hdot : name = dot
    · simp [hdot, Key.enter, show dot ≠ dotDot by decide]
    · have hdots : name = dotDot := by simpa [hdot] using h name rfl
      simp [hdots, Key.enter, show dotDot ≠ dot by decide]

end Site

/-- A path is located at the place that it spells. -/
theorem place_of_locate (h : disk.locate path = .ok site) : disk.place path = site.place := by
  obtain ⟨-, -, hfollow, hlast, -⟩ := locate_eq_ok.1 h
  unfold place Site.place
  rw [← hlast, ← follow_eq hfollow]
  rcases List.eq_nil_or_concat' path.seen.names with hnames | ⟨before, last, hnames⟩
  · simp [hnames]
  · rw [hnames, List.dropLast_concat, List.getLast?_concat, Key.walk_append]
    rfl

theorem stat_eq_ok {node : Node Inode} : disk.stat path = .ok (k, node) ↔
    ∃ site, disk.locate path = .ok site ∧
      ((site.name? = none ∧ site.itself = k ∧ node = .directory) ∨
        ∃ name, site.name? = some name ∧ site.directory ++ [name] = k ∧
          disk.lookup site.directory name = .ok (some node) ∧
          (node.isFile = true → site.slashed = false)) := by
  unfold stat
  cases hsite : disk.locate path with
  | error e => simp [bind, Except.bind]
  | ok site =>
    simp only [bind, Except.bind, Except.ok.injEq, exists_eq_left']
    cases hname : site.name? with
    | none =>
      simp only [Except.ok.injEq, Prod.mk.injEq, true_and, reduceCtorEq, false_and, exists_false,
        or_false]
      exact and_congr_right fun _ => eq_comm
    | some name =>
      simp only [reduceCtorEq, false_and, Option.some.injEq, exists_eq_left', false_or]
      cases hfound : disk.lookup site.directory name with
      | error e => simp
      | ok found =>
        cases found with
        | none => simp
        | some found =>
          cases found with
          | directory =>
            simp only [Except.ok.injEq, Prod.mk.injEq, Option.some.injEq]
            refine and_congr_right fun _ => ⟨?_, fun h => h.1⟩
            rintro rfl
            exact ⟨rfl, fun h => nomatch h⟩
          | file inode =>
            cases hslashed : site.slashed with
            | true =>
              simp only [if_true, reduceCtorEq, Except.ok.injEq, Option.some.injEq, false_iff,
                not_and]
              rintro - rfl h
              cases h rfl
            | false => simp

/-- What stands at a path stands at its place. -/
theorem place_of_stat {node : Node Inode} (h : disk.stat path = .ok (k, node)) :
    disk.place path = k := by
  obtain ⟨site, hsite, ⟨hname, rfl, -⟩ | ⟨name, hname, rfl, -⟩⟩ := stat_eq_ok.1 h
  · rw [place_of_locate hsite, Site.place_of_nameless hname]
  · rw [place_of_locate hsite, Site.place_of_name hname]

theorem get?_of_stat_file {inode : Inode} (h : disk.stat path = .ok (k, .file inode)) :
    disk.get? k = some (.file inode) := by
  obtain ⟨site, -, ⟨-, -, hnode⟩ | ⟨name, -, rfl, hfound, -⟩⟩ := stat_eq_ok.1 h
  · cases hnode
  · exact (lookup_eq_ok.1 hfound).2.2

/-- A path whose names can all be followed leads to a directory. -/
theorem stat_of_follow {directory : Key} (hseen : path.seen ≠ [])
    (hlength : path.seen.length < pathLimit)
    (hfollow : disk.follow (disk.start path) path.seen.names = .ok directory) :
    disk.stat path = .ok (directory, .directory) := by
  rcases List.eq_nil_or_concat' path.seen.names with hnil | ⟨before, last, hnames⟩
  · rw [hnil] at hfollow
    have hlocate : disk.locate path = .ok ⟨directory, none, path.seen.endsInSlash⟩ := by
      refine locate_eq_ok.2 ⟨hseen, hlength, ?_, ?_, rfl⟩
      · rw [hnil]
        exact hfollow
      · rw [hnil]
        rfl
    exact stat_eq_ok.2 ⟨_, hlocate, .inl ⟨rfl, rfl, rfl⟩⟩
  · rw [hnames, follow_append] at hfollow
    cases hbefore : disk.follow (disk.start path) before with
    | error e =>
      rw [hbefore] at hfollow
      cases hfollow
    | ok middle =>
      have hentered : disk.enter middle last = .ok directory := by
        rw [hbefore] at hfollow
        have hlast : disk.follow middle [last] = .ok directory := hfollow
        rw [follow_cons] at hlast
        cases hentered : disk.enter middle last with
        | error e =>
          rw [hentered] at hlast
          cases hlast
        | ok reached =>
          rw [hentered] at hlast
          exact hlast
      obtain ⟨hdirectory, hthere⟩ := enter_eq_ok.1 hentered
      have hlocate : disk.locate path = .ok ⟨middle, some last, path.seen.endsInSlash⟩ := by
        refine locate_eq_ok.2 ⟨hseen, hlength, ?_, ?_, rfl⟩
        · rw [hnames, List.dropLast_concat]
          exact hbefore
        · rw [hnames, List.getLast?_concat]
      by_cases hplain : Key.IsPlainName last
      · rw [Key.enter_of_plain hplain.1 hplain.2] at hdirectory
        exact stat_eq_ok.2 ⟨_, hlocate, .inr ⟨last, Site.name?_eq_some.2 ⟨rfl, hplain⟩, hdirectory,
          lookup_eq_ok.2 (hthere hplain), fun hfile => nomatch hfile⟩⟩
      · have hnameless :
            (⟨middle, some last, path.seen.endsInSlash⟩ : Site).name? = none := by
          refine Option.eq_none_iff_forall_ne_some.2 fun name hname => hplain ?_
          obtain ⟨hlast, hname⟩ := Site.name?_eq_some.1 hname
          exact Option.some.inj hlast ▸ hname
        exact stat_eq_ok.2 ⟨_, hlocate, .inl ⟨hnameless,
          (Site.place_of_nameless hnameless).symm.trans hdirectory, rfl⟩⟩

/-- The parent of a path that ends in a name leads to the directory of that name. -/
theorem stat_parent (hfree : (0 : UInt8) ∉ path) (hlocate : disk.locate path = .ok site)
    (hslashed : site.slashed = false) (hparent : path.parent ≠ []) :
    disk.stat path.parent = .ok (site.directory, .directory) := by
  obtain ⟨hseen, hlength, hfollow, -, hended⟩ := locate_eq_ok.1 hlocate
  have hpath : path.seen = path := Path.seen_eq_self hfree
  have hseen' : path.parent.seen = path.parent :=
    Path.seen_eq_self fun h => hfree ((Path.prefix_parent path).subset h)
  rw [hpath] at hseen hlength hfollow hended
  have hnames := Path.names_eq_parent_filename
    (Path.filename_ne_nil hseen (hended.trans hslashed))
  rw [hnames, List.dropLast_concat] at hfollow
  refine stat_of_follow ?_ ?_ ?_
  · rw [hseen']
    exact hparent
  · rw [hseen']
    exact Nat.lt_of_le_of_lt (Path.prefix_parent path).length_le hlength
  · have hstart : disk.start path.parent = disk.start path := by
      rw [start, start, hseen', hpath,
        Path.isRooted_of_begins (Path.prefix_parent path) hparent]
    rw [hseen', hstart]
    exact hfollow

/-! ## Another disk with the same directories -/

/-- Every directory of the first disk is one of the second, and paths begin in the same place. -/
structure Housing (disk after : Disk) : Prop where
  current : after.current = disk.current
  directory : ∀ k, disk.get? k = some .directory → after.get? k = some .directory

namespace Housing

variable {after : Disk}

theorem refl (disk : Disk) : Housing disk disk := ⟨rfl, fun _ h => h⟩

theorem trans {last : Disk} (h : Housing disk after) (h' : Housing after last) :
    Housing disk last :=
  ⟨h'.current.trans h.current, fun k hk => h'.directory k (h.directory k hk)⟩

theorem isGone (h : Housing disk after) (hk : disk.isGone k = false) : after.isGone k = false :=
  isGone_eq_false.2 ((isGone_eq_false.1 hk).imp id (h.directory k))

theorem start (h : Housing disk after) (path : Path) : after.start path = disk.start path := by
  rw [Disk.start, h.current]
  rfl

theorem place (h : Housing disk after) (path : Path) : after.place path = disk.place path := by
  rw [Disk.place, h.start]
  rfl

theorem follow (h : Housing disk after) {directory : Key}
    (hfollow : disk.follow k names = .ok directory) :
    after.follow k names = .ok directory := by
  induction names generalizing k with
  | nil => exact hfollow
  | cons name rest ih =>
    rw [follow_cons] at hfollow ⊢
    cases hentered : disk.enter k name with
    | error e =>
      rw [hentered] at hfollow
      cases hfollow
    | ok middle =>
      rw [hentered] at hfollow
      obtain ⟨hmiddle, hthere⟩ := enter_eq_ok.1 hentered
      have hentered' : after.enter k name = .ok middle := by
        refine enter_eq_ok.2 ⟨hmiddle, fun hname => ?_⟩
        obtain ⟨hgone, hlong, hget⟩ := hthere hname
        exact ⟨h.isGone hgone, hlong, h.directory _ hget⟩
      rw [hentered']
      exact ih hfollow

theorem locate (h : Housing disk after) (hlocate : disk.locate path = .ok site) :
    after.locate path = .ok site := by
  obtain ⟨hseen, hlimit, hfollow, hrest⟩ := locate_eq_ok.1 hlocate
  refine locate_eq_ok.2 ⟨hseen, hlimit, ?_, hrest⟩
  rw [h.start]
  exact h.follow hfollow

theorem lookup (h : Housing disk after) {found found' : Option (Node Inode)}
    (hlookup : disk.lookup k name = .ok found) (hget : after.get? (k ++ [name]) = found') :
    after.lookup k name = .ok found' := by
  obtain ⟨hgone, hlong, -⟩ := lookup_eq_ok.1 hlookup
  exact lookup_eq_ok.2 ⟨h.isGone hgone, hlong, hget⟩

/-- A file is found where one was found. -/
theorem stat_file (h : Housing disk after) {inode inode' : Inode}
    (hstat : disk.stat path = .ok (k, .file inode)) (hget : after.get? k = some (.file inode')) :
    after.stat path = .ok (k, .file inode') := by
  obtain ⟨site, hsite, ⟨-, -, hnode⟩ | ⟨name, hname, rfl, hfound, hslashed⟩⟩ := stat_eq_ok.1 hstat
  · cases hnode
  · exact stat_eq_ok.2 ⟨site, h.locate hsite, .inr
      ⟨name, hname, rfl, h.lookup hfound hget, fun _ => hslashed rfl⟩⟩

end Housing

/-! ## Straight paths -/

end Disk

namespace Path

/-- The path goes up first, if at all, then only down, and ends in a name. -/
structure Straight (p : Path) : Prop where
  names : ∃ ups before last, p.seen.names = ups ++ (before ++ [last]) ∧
    (∀ n ∈ ups, ¬ Key.IsPlainName n) ∧ ∀ n ∈ before ++ [last], Key.IsPlainName n
  unended : p.seen.endsInSlash = false

/-- Neither the path nor one of its names is too long for a disk. -/
structure Bearable (p : Path) : Prop where
  nonempty : p.seen ≠ []
  length : p.seen.length < Disk.pathLimit
  names : ∀ n ∈ p.seen.names, n.length ≤ Disk.maxName

end Path

namespace Disk

variable {disk : Disk} {k : Key} {name : Bytes} {names : List Bytes} {path : Path}
  {found : Option (Node Inode)}

/-- Nothing is looked at on the way up. -/
theorem follow_ups (h : ∀ n ∈ names, ¬ Key.IsPlainName n) :
    disk.follow k names = .ok (k.walk names) := by
  induction names generalizing k with
  | nil => rfl
  | cons name rest ih =>
    obtain ⟨hname, hrest⟩ := List.forall_mem_cons.1 h
    have hup : disk.enter k name = .ok (k.enter name) :=
      enter_eq_ok.2 ⟨rfl, fun hplain => absurd hplain hname⟩
    rw [follow_cons, hup]
    exact ih hrest

/-- The way down to a directory is open. -/
theorem follow_downs (hformed : disk.tree.WellFormed)
    (hplain : ∀ n ∈ names, Key.IsPlainName n) (hshort : ∀ n ∈ names, n.length ≤ maxName)
    (hthere : names ≠ [] → disk.get? (k ++ names) = some .directory) :
    disk.follow k names = .ok (k ++ names) := by
  induction names generalizing k with
  | nil => rw [List.append_nil, follow_nil]
  | cons name rest ih =>
    obtain ⟨hname, hplain⟩ := List.forall_mem_cons.1 hplain
    obtain ⟨hlength, hshort⟩ := List.forall_mem_cons.1 hshort
    have hget := hthere (List.cons_ne_nil name rest)
    have hend : disk.tree.get? (k ++ name :: rest) ≠ none := by
      intro hnone
      cases hget.symm.trans hnone
    have hgone : disk.isGone k = false :=
      isGone_eq_false.2 <| .inr <|
        hformed.of_prefix hend (List.prefix_append k _) (by simp)
    have hnext : disk.get? (k ++ [name]) = some .directory := by
      cases rest with
      | nil => exact hget
      | cons more rest =>
        refine hformed.of_prefix hend ⟨more :: rest, ?_⟩ (by simp)
        rw [List.append_assoc, List.singleton_append]
    have hentered : disk.enter k name = .ok (k ++ [name]) :=
      enter_eq_ok.2 ⟨Key.enter_of_plain hname.1 hname.2, fun _ => ⟨hgone, hlength, hnext⟩⟩
    have hassoc : k ++ name :: rest = k ++ [name] ++ rest := by
      rw [List.append_assoc, List.singleton_append]
    rw [follow_cons, hentered, hassoc]
    exact ih hplain hshort fun _ => hassoc ▸ hget

theorem short_of_follow {directory : Key} (h : disk.follow k names = .ok directory) :
    ∀ n ∈ names, n.length ≤ maxName := by
  induction names generalizing k with
  | nil => exact fun n hn => absurd hn List.not_mem_nil
  | cons name rest ih =>
    rw [follow_cons] at h
    cases hentered : disk.enter k name with
    | error e =>
      rw [hentered] at h
      cases h
    | ok middle =>
      rw [hentered] at h
      refine List.forall_mem_cons.2 ⟨?_, ih h⟩
      by_cases hplain : Key.IsPlainName name
      · exact ((enter_eq_ok.1 hentered).2 hplain).2.1
      · rw [Key.IsPlainName, not_and_or, not_not, not_not] at hplain
        rcases hplain with rfl | rfl <;> decide

theorem lookup_error {e : SystemError} (hshort : name.length ≤ maxName)
    (h : disk.lookup k name = .error e) : e = .noEntry := by
  unfold lookup at h
  split at h
  · exact (Except.error.inj h).symm
  · rw [if_neg (Nat.not_lt.2 hshort)] at h
    cases h

/-- When no name is too long, the way ends because something is missing or is not a directory. -/
theorem follow_error {e : SystemError} (hshort : ∀ n ∈ names, n.length ≤ maxName)
    (h : disk.follow k names = .error e) : e.meansAbsent = true := by
  induction names generalizing k with
  | nil => cases h
  | cons name rest ih =>
    obtain ⟨hlength, hshort⟩ := List.forall_mem_cons.1 hshort
    rw [follow_cons] at h
    cases hentered : disk.enter k name with
    | ok middle =>
      rw [hentered] at h
      exact ih hshort h
    | error e' =>
      rw [hentered] at h
      obtain rfl : e' = e := Except.error.inj h
      unfold enter at hentered
      split at hentered
      · cases hentered
      split at hentered
      · cases hentered
      cases hfound : disk.lookup k name with
      | error e'' =>
        simp only [hfound, bind, Except.bind, Except.error.injEq] at hentered
        rw [← hentered, lookup_error hlength hfound]
        rfl
      | ok found =>
        simp only [hfound, bind, Except.bind] at hentered
        split at hentered
        · cases hentered
          rfl
        · cases hentered
          rfl
        · cases hentered

/-- The beginning of a path that goes up first and then only down is straight and bearable, when a
disk takes it for the name of something in a directory. -/
theorem straight_of_locate {site : Site} (hsettled : path.Settled)
    (hlocate : disk.locate path = .ok site) (hname : site.name? = some name)
    (hfound : disk.lookup site.directory name = .ok found) (hslashed : site.slashed = false) :
    path.Straight ∧ path.Bearable := by
  obtain ⟨hseen, hlength, hfollow, hlast, hended⟩ := locate_eq_ok.1 hlocate
  obtain ⟨hlastName, hplain⟩ := Site.name?_eq_some.1 hname
  have hlast' : path.seen.names.getLast? = some name := hlast.trans hlastName
  have hconcat : path.seen.names = path.seen.names.dropLast ++ [name] := by
    rcases List.eq_nil_or_concat' path.seen.names with hnil | ⟨before, last, hnames⟩
    · rw [hnil] at hlast'
      cases hlast'
    · rw [hnames, List.getLast?_concat] at hlast'
      rw [hnames, List.dropLast_concat, Option.some.inj hlast']
  have hdropped : path.seen.names.dropLast <+: path.names := by
    obtain ⟨kept, last, hkept, hshort, hbegins⟩ :=
      Path.names_of_begins (List.takeWhile_prefix (l := path) (· != 0))
    refine List.IsPrefix.trans ?_ hbegins
    have hall : path.seen.names = kept ++ last := hkept
    cases last with
    | nil =>
      rw [hall, List.append_nil]
      exact List.dropLast_prefix kept
    | cons only more =>
      obtain rfl : more = [] := List.eq_nil_of_length_eq_zero (by simpa using hshort)
      exact ⟨[], by rw [List.append_nil, hall, List.dropLast_concat]⟩
  obtain ⟨ups, downs, hnames, hups, hdowns⟩ := hsettled
  rw [hnames, List.prefix_iff_eq_take, List.take_append] at hdropped
  generalize path.seen.names.dropLast.length = length at hdropped
  have hnames' : path.seen.names
      = ups.take length ++ (downs.take (length - ups.length) ++ [name]) := by
    rw [← List.append_assoc, ← hdropped]
    exact hconcat
  refine ⟨⟨⟨_, _, name, hnames', fun n hn => hups n (List.mem_of_mem_take hn), fun n hn => ?_⟩,
    hended.trans hslashed⟩, hseen, hlength, fun n hn => ?_⟩
  · rcases List.mem_append.1 hn with hn | hn
    · exact hdowns n (List.mem_of_mem_take hn)
    · rw [List.mem_singleton.1 hn]
      exact hplain
  · rw [hconcat] at hn
    rcases List.mem_append.1 hn with hn | hn
    · exact short_of_follow hfollow n hn
    · rw [List.mem_singleton.1 hn]
      exact (lookup_eq_ok.1 hfound).2.1

/-- What the place of a straight path is made of: the place above it, which the path leads to
without its last name, and that name. -/
theorem place_of_straight (h : path.Straight) :
    ∃ ups before last, path.seen.names = ups ++ (before ++ [last]) ∧
      (∀ n ∈ ups, ¬ Key.IsPlainName n) ∧ (∀ n ∈ before ++ [last], Key.IsPlainName n) ∧
      (disk.place path).parent = (disk.start path).walk ups ++ before ∧
      (disk.place path).parent ++ [last] = disk.place path := by
  obtain ⟨ups, before, last, hnames, hups, hplain⟩ := h.names
  have hplace : disk.place path = (disk.start path).walk ups ++ before ++ [last] := by
    rw [place, hnames, Key.walk_append, Key.walk_of_plain hplain, List.append_assoc]
  refine ⟨ups, before, last, hnames, hups, hplain, ?_, ?_⟩
  · rw [hplace, Key.parent, List.dropLast_concat]
  · rw [hplace, Key.parent, List.dropLast_concat]

theorem place_ne_root (h : path.Straight) : disk.place path ≠ [] := by
  obtain ⟨-, -, last, -, -, -, -, hplace⟩ := @place_of_straight disk path h
  rw [← hplace]
  simp

/-- A straight path leads to its place when the directory above it is there. -/
theorem locate_straight (hformed : disk.tree.WellFormed) (h : path.Straight)
    (hbearable : path.Bearable)
    (hparent : disk.get? (disk.place path).parent = some .directory) :
    ∃ last, disk.locate path = .ok ⟨(disk.place path).parent, some last, false⟩ ∧
      Key.IsPlainName last ∧ (disk.place path).parent ++ [last] = disk.place path ∧
      disk.lookup (disk.place path).parent last = .ok (disk.get? (disk.place path)) := by
  obtain ⟨ups, before, last, hnames, hups, hplain, hdirectory, hplace⟩ :=
    @place_of_straight disk path h
  have hshort := hbearable.names
  rw [hnames] at hshort
  refine ⟨last, ?_, hplain last (by simp), hplace, ?_⟩
  · refine locate_eq_ok.2 ⟨hbearable.nonempty, hbearable.length, ?_, ?_, h.unended⟩
    · rw [hnames, ← List.append_assoc, List.dropLast_concat, follow_append, follow_ups hups,
        hdirectory]
      refine follow_downs hformed (fun n hn => hplain n (by simp [hn]))
        (fun n hn => hshort n (by simp [hn])) fun _ => ?_
      rw [← hdirectory]
      exact hparent
    · rw [hnames, ← List.append_assoc, List.getLast?_concat]
  · refine lookup_eq_ok.2 ⟨isGone_eq_false.2 (.inr hparent), hshort last (by simp), ?_⟩
    rw [hplace]

/-- A straight path leads to what stands at its place. -/
theorem stat_straight {node : Node Inode} (hformed : disk.tree.WellFormed) (h : path.Straight)
    (hbearable : path.Bearable) (hnode : disk.get? (disk.place path) = some node) :
    disk.stat path = .ok (disk.place path, node) := by
  have hthere : disk.tree.get? (disk.place path) ≠ none := by
    intro hnone
    cases hnode.symm.trans hnone
  obtain ⟨last, hlocate, hlast, hplace, hlookup⟩ :=
    locate_straight hformed h hbearable (hformed _ (place_ne_root h) hthere)
  rw [hnode] at hlookup
  exact stat_eq_ok.2 ⟨_, hlocate, .inr
    ⟨last, Site.name?_eq_some.2 ⟨rfl, hlast⟩, hplace, hlookup, fun _ => rfl⟩⟩

/-- A bearable path that leads nowhere does so because something is missing or is not a
directory. -/
theorem stat_error {e : SystemError} (hbearable : path.Bearable) (h : disk.stat path = .error e) :
    e.meansAbsent = true := by
  unfold stat at h
  cases hlocate : disk.locate path with
  | error e' =>
    rw [hlocate] at h
    obtain rfl : e' = e := Except.error.inj h
    rw [locate_eq, if_neg (by simpa using hbearable.nonempty),
      if_neg (Nat.not_le.2 hbearable.length)] at hlocate
    cases hfollow : disk.follow (disk.start path) path.seen.names.dropLast with
    | ok directory =>
      rw [hfollow] at hlocate
      cases hlocate
    | error e =>
      rw [hfollow] at hlocate
      obtain rfl : e = e' := Except.error.inj hlocate
      exact follow_error (fun n hn => hbearable.names n (List.dropLast_subset _ hn)) hfollow
  | ok site =>
    simp only [hlocate, bind, Except.bind] at h
    obtain ⟨-, -, -, hlast, -⟩ := locate_eq_ok.1 hlocate
    split at h
    · cases h
    · next name hname =>
      have hshort : name.length ≤ maxName := by
        refine hbearable.names name (List.mem_of_getLast? ?_)
        rw [hlast, (Site.name?_eq_some.1 hname).1]
      cases hfound : disk.lookup site.directory name with
      | error e' =>
        rw [hfound] at h
        rw [← Except.error.inj h, lookup_error hshort hfound]
        rfl
      | ok found =>
        rw [hfound] at h
        match found with
        | none =>
          obtain rfl := Except.error.inj h
          rfl
        | some .directory => cases h
        | some (.file inode) =>
          cases hslashed : site.slashed with
          | true =>
            simp only [hslashed, if_true, Except.error.injEq] at h
            rw [← h]
            rfl
          | false => simp [hslashed] at h

/-- A straight path to a place where nothing stands leads nowhere. -/
theorem stat_absent (h : path.Straight) (hbearable : path.Bearable)
    (hnone : disk.get? (disk.place path) = none) :
    ∃ e, disk.stat path = .error e ∧ e.meansAbsent = true := by
  cases hstat : disk.stat path with
  | error e => exact ⟨e, rfl, stat_error hbearable hstat⟩
  | ok found =>
    obtain ⟨k, node⟩ := found
    have hk := place_of_stat hstat
    obtain ⟨site, hsite, ⟨hname, -, -⟩ | ⟨name, -, rfl, hfound, -⟩⟩ := stat_eq_ok.1 hstat
    · -- the last name of a straight path names something
      obtain ⟨ups, before, last, hnames, -, hplain⟩ := h.names
      obtain ⟨-, -, -, hlast, -⟩ := locate_eq_ok.1 hsite
      rw [hnames, ← List.append_assoc, List.getLast?_concat] at hlast
      rw [Site.name?_eq_some.2 ⟨hlast.symm, hplain last (by simp)⟩] at hname
      cases hname
    · rw [hk, (lookup_eq_ok.1 hfound).2.2] at hnone
      cases hnone

/-- Whether something stands at the place of a straight path is what a disk tells of it. -/
theorem pathExists_straight (hformed : disk.tree.WellFormed) (h : path.Straight)
    (hbearable : path.Bearable) :
    disk.pathExists path = .ok (disk.get? (disk.place path)).isSome := by
  unfold pathExists
  cases hget : disk.get? (disk.place path) with
  | none =>
    obtain ⟨e, hstat, habsent⟩ := stat_absent h hbearable hget
    rw [hstat]
    simp [habsent]
  | some node => rw [stat_straight hformed h hbearable hget]; rfl

end Disk

end StagedCopy
