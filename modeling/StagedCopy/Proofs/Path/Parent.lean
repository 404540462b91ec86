import Mathlib.Data.List.TakeWhile
import StagedCopy.Path.Key

/-!
# The place above a path

The parent of a path is spelled by its bytes, and the parent of a key is the key without its last
name. For a path in normal spelling that does not end in a separator the two agree: the last name of
the spelling is then the last name of the key. Without the normal spelling they need not: the parent
of `a/..` is spelled `a`, but its key has nothing above it.

* `Path.names_append_slash`, `Path.names_of_slash_free` — the names of a longer path.
* `Path.names_eq_parent_filename` — the names of a path are those of its parent and one more.
* `Path.key_parent_of_named`, `Path.key_parent` — the key of the parent;
  `Path.begins_parent_of_endsAsDirectory`, `Path.parent_begins` — where the parent leads otherwise
  and always.
* `Key.mem_properAncestors`, `Key.upward`, `Key.properAncestors_eq_upward` — the places above a key,
  and how they are reached one step after another.
-/

namespace StagedCopy

namespace Path

/-! ## Names -/

theorem pieces_ne_nil (p : Path) : p.pieces ≠ [] := by
  cases p with
  | nil => simp [pieces]
  | cons b rest =>
    unfold pieces
    split
    · simp
    · split <;> simp

theorem pieces_append_slash (s t : Path) : (s ++ slash :: t).pieces = s.pieces ++ t.pieces := by
  induction s with
  | nil =>
    obtain ⟨piece, more, h⟩ := List.exists_cons_of_ne_nil (pieces_ne_nil t)
    rw [List.nil_append, pieces, h]
    simp [pieces, h]
  | cons b rest ih =>
    obtain ⟨piece, more, h⟩ := List.exists_cons_of_ne_nil (pieces_ne_nil rest)
    rw [List.cons_append, pieces, ih, h, pieces, h]
    by_cases hb : b = slash
    · simp [hb]
    · simp [hb]

theorem pieces_of_slash_free {p : Path} (h : slash ∉ p) : p.pieces = [p] := by
  induction p with
  | nil => rfl
  | cons b rest ih =>
    rw [List.mem_cons, not_or] at h
    rw [pieces, ih h.2]
    simp [Ne.symm h.1]

/-- A separator parts the names before it from those after it. -/
theorem names_append_slash (s t : Path) : (s ++ slash :: t).names = s.names ++ t.names := by
  rw [names, pieces_append_slash, List.filter_append]
  rfl

/-- So does a separator that the first part ends in. -/
theorem names_append_of_ends {s : Path} (h : s = [] ∨ ∃ before, s = before ++ [slash]) (t : Path) :
    (s ++ t).names = s.names ++ t.names := by
  rcases h with rfl | ⟨before, rfl⟩
  · rfl
  · rw [List.append_assoc, List.singleton_append, names_append_slash, names_append_slash]
    exact congrArg (· ++ t.names) (List.append_nil _).symm

theorem names_append_of_endsInSlash {s : Path} (h : s.endsInSlash = true) (t : Path) :
    (s ++ t).names = s.names ++ t.names :=
  names_append_of_ends (.inr (List.getLast?_eq_some_iff.1 (beq_iff_eq.1 h))) t

theorem names_of_slash_free {p : Path} (h : slash ∉ p) (hp : p ≠ []) : p.names = [p] := by
  rw [names, pieces_of_slash_free h]
  simp [hp]

@[simp] theorem names_nil : names [] = [] := rfl

@[simp] theorem names_slash : names [slash] = [] := rfl

/-- Separators at the end add no names. -/
theorem names_append_slashes (s : Path) (n : Nat) :
    (s ++ List.replicate n slash).names = s.names := by
  induction n with
  | zero => simp
  | succ n ih =>
    rw [List.replicate_succ', ← List.append_assoc, names_append_slash, ih, names_nil,
      List.append_nil]

theorem names_dropTrailingSlashes (p : Path) : p.dropTrailingSlashes.names = p.names := by
  have hslashes : p.reverse.takeWhile (· == slash)
      = List.replicate (p.reverse.takeWhile (· == slash)).length slash := by
    refine List.eq_replicate_of_mem fun b hb => ?_
    simpa using List.mem_takeWhile_imp hb
  have hp : p = p.dropTrailingSlashes ++ (p.reverse.takeWhile (· == slash)).reverse := by
    rw [dropTrailingSlashes, ← List.reverse_append, List.takeWhile_append_dropWhile,
      List.reverse_reverse]
  rw [hslashes, List.reverse_replicate] at hp
  have hnames := congrArg names hp
  rw [names_append_slashes] at hnames
  exact hnames.symm

/-! ## The last name -/

/-- A path is what stands before its last name, which is nothing or ends in a separator, and that
name. -/
theorem eq_before_filename (p : Path) :
    ∃ before : Path, p = before ++ p.filename ∧ slash ∉ p.filename ∧
      before = (p.reverse.dropWhile (· != slash)).reverse ∧
      (before = [] ∨ ∃ s, before = s ++ [slash]) := by
  refine ⟨_, ?_, ?_, rfl, ?_⟩
  · rw [filename, ← List.reverse_append, List.takeWhile_append_dropWhile, List.reverse_reverse]
  · intro hmem
    rw [filename, List.mem_reverse] at hmem
    have hne := List.mem_takeWhile_imp hmem
    simp at hne
  · cases h : p.reverse.dropWhile (· != slash) with
    | nil => exact .inl rfl
    | cons b rest =>
      have hb := List.head?_dropWhile_not (· != slash) p.reverse
      rw [h] at hb
      obtain rfl : b = slash := by simpa using hb
      exact .inr ⟨rest.reverse, List.reverse_cons⟩

theorem hasNames_of_filename {p : Path} (h : p.filename ≠ []) : p.hasNames := by
  obtain ⟨before, hp, hfree, -, -⟩ := eq_before_filename p
  obtain ⟨b, rest, hb⟩ := List.exists_cons_of_ne_nil h
  have hmem : b ∈ p.filename := by
    rw [hb]
    exact List.mem_cons_self
  rw [hasNames, List.any_eq_true]
  refine ⟨b, ?_, ?_⟩
  · rw [hp]
    exact List.mem_append_right before hmem
  · rw [bne_iff_ne]
    rintro rfl
    exact hfree hmem

/-- The parent has the names that stand before the last one. -/
theorem names_parent {p : Path} (h : p.hasNames) :
    p.parent.names = names (p.reverse.dropWhile (· != slash)).reverse := by
  rw [parent, if_pos h]
  generalize (p.reverse.dropWhile (· != slash)).reverse = before
  show names (if (dropTrailingSlashes before).isEmpty && isRooted before then [slash]
    else dropTrailingSlashes before) = _
  split
  · next hroot =>
    rw [Bool.and_eq_true, List.isEmpty_iff] at hroot
    rw [← names_dropTrailingSlashes before, hroot.1]
    rfl
  · exact names_dropTrailingSlashes before

/-- A path that does not end in a separator has a last name. -/
theorem filename_ne_nil {p : Path} (hp : p ≠ []) (hended : p.endsInSlash = false) :
    p.filename ≠ [] := by
  intro hempty
  obtain ⟨before, hbefore, -, -, hend⟩ := eq_before_filename p
  rw [hempty, List.append_nil] at hbefore
  rcases hend with rfl | ⟨s, rfl⟩
  · exact hp hbefore
  · rw [hbefore] at hended
    simp [endsInSlash] at hended

/-- A path that goes on after its last separator has the names of its parent and one more. -/
theorem names_eq_parent_filename {p : Path} (h : p.filename ≠ []) :
    p.names = p.parent.names ++ [p.filename] := by
  obtain ⟨before, hp, hfree, hbefore, hend⟩ := eq_before_filename p
  have hsplit : (before ++ p.filename).names = before.names ++ [p.filename] := by
    rw [names_append_of_ends hend, names_of_slash_free hfree h]
  rw [names_parent (hasNames_of_filename h), ← hbefore, ← hsplit, ← hp]

/-- A path that ends in a separator has the names of its parent. -/
theorem names_parent_of_endsInSlash {p : Path} (h : p.endsInSlash = true) :
    p.parent.names = p.names := by
  by_cases hnames : p.hasNames
  · obtain ⟨before, rfl⟩ := List.getLast?_eq_some_iff.1 (beq_iff_eq.1 h)
    rw [names_parent hnames, List.reverse_append, List.reverse_singleton, List.singleton_append,
      List.dropWhile_cons_of_neg (by simp), List.reverse_cons, List.reverse_reverse]
  · rw [parent, if_neg hnames]

/-! ## Normal spelling -/

theorem pushName_dot (rooted : Bool) (kept : List Bytes) : pushName rooted kept dot = kept :=
  if_pos rfl

/-- A name `..` takes back the name before it. -/
theorem pushName_dotDot {rooted : Bool} {last : Bytes} {before : List Bytes}
    (h : last ≠ dotDot) : pushName rooted (last :: before) dotDot = before := by
  unfold pushName
  rw [if_neg (by decide), if_pos rfl]
  exact if_neg h

/-- Any other name is kept. -/
theorem pushName_of_name {rooted : Bool} {kept : List Bytes} {name : Bytes} (hdot : name ≠ dot)
    (hdotDot : name ≠ dotDot) : pushName rooted kept name = name :: kept := by
  unfold pushName
  rw [if_neg hdot, if_neg hdotDot]

/-- Away from the root, names are kept as they are from the root, below the `..` that leave the
place where they start. -/
theorem pushName_relative {kept : List Bytes} (h : dotDot ∉ kept) (m : Nat) (name : Bytes) :
    ∃ m', pushName false (kept ++ List.replicate m dotDot) name
        = pushName true kept name ++ List.replicate m' dotDot ∧
      dotDot ∉ pushName true kept name := by
  unfold pushName
  by_cases hdot : name = dot
  · rw [if_pos hdot, if_pos hdot]
    exact ⟨m, rfl, h⟩
  rw [if_neg hdot, if_neg hdot]
  by_cases hdotDot : name = dotDot
  · rw [if_pos hdotDot, if_pos hdotDot]
    cases kept with
    | nil =>
      refine ⟨m + 1, ?_, List.not_mem_nil⟩
      cases m with
      | zero => rfl
      | succ m => simp [List.replicate_succ]
    | cons last before =>
      rw [List.mem_cons, not_or] at h
      refine ⟨m, ?_, ?_⟩
      · simp [Ne.symm h.1]
      · simpa [Ne.symm h.1] using h.2
  · rw [if_neg hdotDot, if_neg hdotDot]
    refine ⟨m, rfl, ?_⟩
    rw [List.mem_cons, not_or]
    exact ⟨Ne.symm hdotDot, h⟩

theorem foldl_pushName_relative (names : List Bytes) {kept : List Bytes} (h : dotDot ∉ kept)
    (m : Nat) :
    ∃ m', names.foldl (pushName false) (kept ++ List.replicate m dotDot)
        = names.foldl (pushName true) kept ++ List.replicate m' dotDot ∧
      dotDot ∉ names.foldl (pushName true) kept := by
  induction names generalizing kept m with
  | nil => exact ⟨m, rfl, h⟩
  | cons name more ih =>
    obtain ⟨m₁, hpush, hfree⟩ := pushName_relative h m name
    rw [List.foldl_cons, List.foldl_cons, hpush]
    exact ih hfree m₁

/-- A path whose normal names end in `..` leads to the root. -/
theorem key_eq_nil_of_getLast?_dotDot {p : Path} (h : p.normalNames.getLast? = some dotDot) :
    p.key = [] := by
  obtain ⟨m, hfold, hfree⟩ := foldl_pushName_relative p.names (List.not_mem_nil (a := dotDot)) 0
  rw [normalNames, List.getLast?_reverse] at h
  have hnil : p.names.foldl (pushName true) [] = [] := by
    cases hkept : p.names.foldl (pushName true) [] with
    | nil => rfl
    | cons last before =>
      -- the last name kept from the root is the last one kept, and it is no `..`
      have hlast : last = dotDot := by
        cases hroot : p.isRooted with
        | true =>
          rw [hroot, hkept] at h
          exact Option.some.inj h
        | false =>
          rw [List.replicate_zero, List.append_nil] at hfold
          rw [hroot, hfold, hkept] at h
          exact Option.some.inj h
      rw [hkept, hlast] at hfree
      exact absurd List.mem_cons_self hfree
  rw [key, keyOfNames, hnil]
  rfl

theorem ne_nil_of_key {p : Path} (hkey : p.key ≠ []) : p ≠ [] := by
  rintro rfl
  exact hkey rfl

/-- A path in normal spelling that leads below the root and does not end in a separator ends in
neither `.` nor `..`. -/
theorem endsAsDirectory_of_normal {p : Path} (h : p.lexicallyNormal = p)
    (hslash : p.endsInSlash = false) (hkey : p.key ≠ []) : p.endsAsDirectory = false := by
  -- otherwise the normal spelling ends in a separator, unless it consists of `..` alone
  by_contra hends
  rw [Bool.not_eq_false] at hends
  have hname := filename_ne_nil (ne_nil_of_key hkey) hslash
  rw [lexicallyNormal, if_pos (hasNames_of_filename hname)] at h
  cases hlast : p.normalNames.getLast? with
  | none =>
    simp only [hlast] at h
    split at h
    · rw [← h] at hslash
      cases hslash
    · rw [← h] at hkey
      exact hkey (by decide)
  | some last =>
    simp only [hlast] at h
    by_cases hdotDot : last = dotDot
    · rw [hdotDot] at hlast
      exact hkey (key_eq_nil_of_getLast?_dotDot hlast)
    · have hcondition : (p.endsAsDirectory && last != dotDot) = true := by
        simp [hends, hdotDot]
      rw [if_pos hcondition] at h
      rw [← h] at hslash
      simp [endsInSlash] at hslash

/-! ## The place above -/

/-- The place that a path with a last name leads to, from the place that its parent leads to. -/
theorem key_eq_pushName {p : Path} (h : p.filename ≠ []) :
    p.key = (pushName true (p.parent.names.foldl (pushName true) []) p.filename).reverse := by
  rw [key, keyOfNames, names_eq_parent_filename h, List.foldl_append, List.foldl_cons,
    List.foldl_nil]

/-- For a path that leads below the root and does not name a directory by its spelling alone, the
parent of the path leads to the place right above. -/
theorem key_parent_of_named {p : Path} (h : p.endsAsDirectory = false) (hkey : p.key ≠ []) :
    p.parent.key = p.key.parent := by
  simp only [endsAsDirectory, Bool.or_eq_false_iff, beq_eq_false_iff_ne] at h
  obtain ⟨⟨hslash, hdot⟩, hdotDot⟩ := h
  rw [key_eq_pushName (filename_ne_nil (ne_nil_of_key hkey) hslash), pushName_of_name hdot hdotDot,
    List.reverse_cons, Key.parent, List.dropLast_concat]
  rfl

/-- For a path in normal spelling that leads below the root and does not end in a separator, the
parent of the path leads to the place right above. -/
theorem key_parent {p : Path} (h : p.lexicallyNormal = p) (hslash : p.endsInSlash = false)
    (hkey : p.key ≠ []) : p.parent.key = p.key.parent :=
  key_parent_of_named (endsAsDirectory_of_normal h hslash hkey) hkey

/-- The parent of a path that names a directory by its spelling alone does not lead to the place
above: it leads to that directory, or through it to a place below. -/
theorem begins_parent_of_endsAsDirectory {p : Path} (h : p.endsAsDirectory = true)
    (hkey : p.key ≠ []) : p.key <+: p.parent.key := by
  cases hslash : p.endsInSlash with
  | true =>
    have hsame : p.parent.key = p.key := by rw [key, key, names_parent_of_endsInSlash hslash]
    exact ⟨[], by rw [List.append_nil, hsame]⟩
  | false =>
    have hpush := key_eq_pushName (filename_ne_nil (ne_nil_of_key hkey) hslash)
    have hdots : p.filename = dot ∨ p.filename = dotDot := by
      simpa [endsAsDirectory, hslash] using h
    rcases hdots with hdot | hdotDot
    · rw [hdot, pushName_dot] at hpush
      rw [hpush]
      exact List.prefix_refl _
    · obtain ⟨-, -, hfree⟩ :=
        foldl_pushName_relative p.parent.names (List.not_mem_nil (a := dotDot)) 0
      rw [hpush, hdotDot, key, keyOfNames]
      -- what is kept from the root is no `..`, so the name at the end takes back one before it
      cases hkept : p.parent.names.foldl (pushName true) [] with
      | nil => exact List.prefix_refl _
      | cons last before =>
        rw [hkept, List.mem_cons, not_or] at hfree
        rw [pushName_dotDot (Ne.symm hfree.1), List.reverse_cons]
        exact List.prefix_append _ _

/-- Whatever its spelling, the parent of a path leads through the place above, or to it. -/
theorem parent_begins {p : Path} (hkey : p.key ≠ []) : p.key.parent <+: p.parent.key := by
  cases hends : p.endsAsDirectory with
  | false =>
    exact ⟨[], by rw [List.append_nil, key_parent_of_named hends hkey]⟩
  | true =>
    have hbegins := begins_parent_of_endsAsDirectory hends hkey
    exact (List.dropLast_prefix p.key).trans hbegins

end Path

namespace Key

/-! ## Places above a key -/

theorem mem_properAncestors {a k : Key} : a ∈ k.properAncestors ↔ a ≠ [] ∧ a.isAbove k = true := by
  rw [isAbove_iff]
  simp only [properAncestors, List.mem_map, List.mem_reverse, List.range_eq_range',
    List.drop_range', List.mem_range'_1]
  constructor
  · rintro ⟨n, ⟨hpos, hlt⟩, rfl⟩
    have hlength : (k.take n).length = n := by
      rw [List.length_take]
      omega
    refine ⟨?_, List.take_prefix n k, ?_⟩
    · intro hnil
      rw [hnil, List.length_nil] at hlength
      omega
    · intro heq
      rw [heq] at hlength
      omega
  · rintro ⟨ha, hbegins, hne⟩
    have hpos : 0 < a.length := List.length_pos_iff.2 ha
    have hle : a.length ≤ k.length := hbegins.length_le
    have hlt : a.length ≠ k.length := fun hlength => hne (hbegins.eq_of_length hlength)
    exact ⟨a.length, by omega, (List.prefix_iff_eq_take.1 hbegins).symm⟩

theorem nil_not_mem_properAncestors (k : Key) : [] ∉ k.properAncestors := by
  intro h
  exact (mem_properAncestors.1 h).1 rfl

theorem not_mem_properAncestors_self (k : Key) : k ∉ k.properAncestors := by
  intro h
  have habove := (mem_properAncestors.1 h).2
  rw [isAbove_iff] at habove
  exact habove.2 rfl

theorem isAbove_parent {k : Key} (hk : k ≠ []) : k.parent.isAbove k = true := by
  rw [isAbove_iff]
  refine ⟨List.dropLast_prefix k, fun heq => ?_⟩
  have hlength := congrArg List.length heq
  have hpos := List.length_pos_iff.2 hk
  rw [parent, List.length_dropLast] at hlength
  omega

theorem isAbove_of_parent {k below : Key} (h : k.isAbove below.parent = true) :
    k.isAbove below = true := by
  rw [isAbove_iff] at h ⊢
  refine ⟨h.1.trans (List.dropLast_prefix below), ?_⟩
  rintro rfl
  have hlength := h.1.length_le
  rw [parent, List.length_dropLast] at hlength
  have hempty : k.length = 0 := by omega
  rw [List.length_eq_zero_iff.1 hempty] at h
  exact h.2 rfl

/-- Above what is above a place is above that place. -/
theorem isAbove_trans {a b c : Key} (h : a.isAbove b = true) (h' : b.isAbove c = true) :
    a.isAbove c = true := by
  rw [isAbove_iff] at h h' ⊢
  refine ⟨h.1.trans h'.1, ?_⟩
  rintro rfl
  exact h.2 (h.1.eq_of_length_le h'.1.length_le)

/-- The places on the way to a place are the place and those above it. -/
theorem begins_iff {a k : Key} (ha : a ≠ []) :
    a <+: k ↔ a = k ∨ a ∈ k.properAncestors := by
  rw [mem_properAncestors, isAbove_iff]
  constructor
  · intro h
    by_cases hsame : a = k
    · exact .inl hsame
    · exact .inr ⟨ha, h, hsame⟩
  · rintro (rfl | ⟨-, h, -⟩)
    · exact List.prefix_refl _
    · exact h

/-! ### One step up after another -/

section upward

variable {k : Key}

/-- A place and the places above it, the nearest first, without the root. -/
def upward (k : Key) : List Key := if k = [] then [] else k :: k.properAncestors

theorem properAncestors_concat (before : Key) (last : Bytes) :
    (before ++ [last]).properAncestors = before.upward := by
  unfold upward
  cases before with
  | nil => rfl
  | cons first more =>
    have htake (n : Nat) (hn : n ≤ (first :: more).length) :
        (first :: more ++ [last]).take n = (first :: more).take n :=
      List.take_append_of_le_length hn
    rw [if_neg (List.cons_ne_nil _ _), properAncestors, properAncestors, List.length_append,
      List.length_singleton, List.range_succ,
      List.drop_append_of_le_length (by rw [List.length_range, List.length_cons]; omega),
      List.reverse_append, List.reverse_singleton, List.singleton_append, List.map_cons,
      htake _ le_rfl, List.take_length]
    refine congrArg _ (List.map_congr_left fun n hn => htake n ?_)
    have hrange := List.mem_of_mem_drop (List.mem_reverse.1 hn)
    exact (List.mem_range.1 hrange).le

theorem upward_concat (before : Key) (last : Bytes) :
    (before ++ [last]).upward = (before ++ [last]) :: before.upward := by
  rw [upward, if_neg (by simp), properAncestors_concat]

/-- The places above a place are its parent and those above that. -/
theorem properAncestors_eq_upward (k : Key) : k.properAncestors = k.parent.upward := by
  rcases List.eq_nil_or_concat k with rfl | ⟨before, last, rfl⟩
  · rfl
  · rw [List.concat_eq_append, properAncestors_concat, parent, List.dropLast_concat]

theorem mem_upward {a : Key} : a ∈ k.upward ↔ a ≠ [] ∧ a <+: k := by
  unfold upward
  split
  next hk =>
    rw [hk, List.prefix_nil]
    simp
  next hk =>
    rw [List.mem_cons]
    constructor
    · rintro (rfl | ha)
      · exact ⟨hk, List.prefix_rfl⟩
      · have hne := (mem_properAncestors.1 ha).1
        exact ⟨hne, (begins_iff hne).2 (.inr ha)⟩
    · rintro ⟨hne, hbegins⟩
      exact (begins_iff hne).1 hbegins

/-- The places above a place are those on the way to its parent. -/
theorem mem_properAncestors_iff_begins {a : Key} :
    a ∈ k.properAncestors ↔ a ≠ [] ∧ a <+: k.parent := by
  rw [properAncestors_eq_upward, mem_upward]

/-- The places above a place other than the root are its parent, unless that is the root, and the
places above the parent. -/
theorem mem_properAncestors_iff_parent {a : Key} :
    a ∈ k.properAncestors ↔ a ≠ [] ∧ (a = k.parent ∨ a ∈ k.parent.properAncestors) := by
  rw [mem_properAncestors_iff_begins]
  exact and_congr_right fun ha => begins_iff ha

/-- The parent of a place above another is above it as well, unless it is the root. -/
theorem parent_mem_properAncestors {a : Key} (ha : a ∈ k.properAncestors) :
    a.parent = [] ∨ a.parent ∈ k.properAncestors := by
  by_cases hparent : a.parent = []
  · exact .inl hparent
  · have hbegins := (mem_properAncestors_iff_begins.1 ha).2
    exact .inr (mem_properAncestors_iff_begins.2 ⟨hparent, (List.dropLast_prefix a).trans hbegins⟩)

end upward

/-- No place is on the way to its parent. -/
theorem not_begins_parent {k : Key} (hk : k ≠ []) : ¬ k <+: k.parent := by
  intro h
  have hself := isAbove_iff.1 (isAbove_parent hk)
  exact hself.2 (hself.1.eq_of_length_le h.length_le)

theorem parent_append {before k : Key} (hk : k ≠ []) :
    Key.parent (before ++ k) = before ++ k.parent :=
  List.dropLast_append_of_ne_nil hk

end Key

end StagedCopy
