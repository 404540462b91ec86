import Mathlib.Data.List.Basic
import StagedCopy.Proofs.Path.Normal

/-!
# Plain spellings

A relative path in normal spelling that has neither `.` nor `..` in it and does not end in a
separator is spelled by the names of its key with single separators between them. So such paths may
be taken for keys: the parent of a spelling spells the parent, and a spelling begins with those of
the places above.

* `Path.IsPlain` — plain spellings; `Path.IsPlain.eq_joinNames` — how they are spelled.
* `Key.Canonical.parent_joinNames`, `Key.Canonical.filename_joinNames` — the parts of a spelling.
* `Path.joinNames_begins` — the spellings of the places above.
* `Path.isPlain_tempPath` — the path of a temporary file is plain when the target and the work path
  are.
-/

namespace StagedCopy

namespace Path

variable {p : Path} {name : Bytes}

/-! ## Joined names -/

theorem joinNames_concat {ns : List Bytes} (h : ns ≠ []) (name : Bytes) :
    joinNames (ns ++ [name]) = joinNames ns ++ slash :: name := by
  induction ns with
  | nil => exact absurd rfl h
  | cons first more ih =>
    cases more with
    | nil => rfl
    | cons next more =>
      show first ++ slash :: joinNames ((next :: more) ++ [name])
        = (first ++ slash :: joinNames (next :: more)) ++ slash :: name
      rw [ih (List.cons_ne_nil next more), List.append_assoc, List.cons_append]

/-- A spelling begins with the spellings of the places above. -/
theorem joinNames_begins {ns more : List Bytes} (h : ns <+: more) :
    joinNames ns <+: joinNames more := by
  obtain ⟨rest, rfl⟩ := h
  induction rest using List.reverseRecOn with
  | nil => exact ⟨[], by rw [List.append_nil, List.append_nil]⟩
  | append_singleton before last ih =>
    by_cases hempty : ns ++ before = []
    · rw [(List.append_eq_nil_iff.1 hempty).1]
      exact List.nil_prefix
    · rw [← List.append_assoc, joinNames_concat hempty]
      exact ih.trans (List.prefix_append _ _)

/-- A spelling has no more than one byte for each name besides those of the names. -/
theorem length_joinNames_le (ns : List Bytes) :
    (joinNames ns).length ≤ ns.length + ns.flatten.length := by
  induction ns with
  | nil => exact Nat.le_refl 0
  | cons first more ih =>
    cases more with
    | nil => simp [joinNames]
    | cons next more =>
      show (first ++ slash :: joinNames (next :: more)).length ≤ _
      rw [List.length_append, List.length_cons, List.flatten_cons, List.length_append,
        List.length_cons]
      omega

/-- The bytes of a spelling are separators and the bytes of the names. -/
theorem mem_joinNames {ns : List Bytes} {b : UInt8} (h : b ∈ joinNames ns) :
    b = slash ∨ ∃ name ∈ ns, b ∈ name := by
  induction ns with
  | nil => cases h
  | cons first more ih =>
    cases more with
    | nil => exact .inr ⟨first, List.mem_cons_self, h⟩
    | cons next more =>
      rcases List.mem_append.1 h with hfirst | hrest
      · exact .inr ⟨first, List.mem_cons_self, hfirst⟩
      rcases List.mem_cons.1 hrest with hslash | hmore
      · exact .inl hslash
      · exact (ih hmore).imp_right fun ⟨name, hname, hb⟩ =>
          ⟨name, List.mem_cons_of_mem first hname, hb⟩

theorem joinNames_ne_nil {ns : List Bytes} (h : ∀ n ∈ ns, n ≠ [] ∧ slash ∉ n) (hns : ns ≠ []) :
    joinNames ns ≠ [] := by
  intro hempty
  have hnames := names_joinNames h
  rw [hempty] at hnames
  exact hns hnames.symm

/-- What is spelled by joining names ends in the last of them. -/
theorem endsInSlash_joinNames {ns : List Bytes} (h : ∀ n ∈ ns, n ≠ [] ∧ slash ∉ n) :
    (joinNames ns).endsInSlash = false := by
  rcases List.eq_nil_or_concat' ns with rfl | ⟨before, last, rfl⟩
  · rfl
  · obtain ⟨hlast, hfree⟩ := h last (by simp)
    obtain ⟨b, hb⟩ := Option.ne_none_iff_exists'.1 (mt List.getLast?_eq_none_iff.1 hlast)
    have hne : b ≠ slash := by
      rintro rfl
      exact hfree (List.mem_of_getLast? hb)
    have hends : (joinNames (before ++ [last])).getLast? = some b := by
      by_cases hbefore : before = []
      · rw [hbefore]
        exact hb
      · rw [joinNames_concat hbefore, List.getLast?_append, List.getLast?_cons, hb]
        rfl
    rw [endsInSlash, hends]
    simpa using hne

/-- Nothing is above a single name. -/
theorem parent_of_slash_free (hfree : slash ∉ p) (hp : p ≠ []) : p.parent = [] := by
  have hbefore : (p.reverse.dropWhile (· != slash)).reverse = [] := before_append (.inl rfl) hfree
  unfold parent
  rw [hbefore]
  split
  · rfl
  · next hnames =>
    -- a name is more than separators
    have hall := names_of_hasNames (Bool.eq_false_iff.2 hnames)
    rw [names_of_slash_free hfree hp] at hall
    cases hall

end Path

namespace Key.Canonical

open StagedCopy.Path

variable {k : Key} {name : Bytes}

theorem concat (h : k.Canonical) (hname : isName name = true) : Canonical (k ++ [name]) := by
  intro n hn
  rcases List.mem_append.1 hn with hn | hn
  · exact h n hn
  · rw [List.mem_singleton.1 hn]
    exact hname

theorem spellable (h : k.Canonical) : ∀ n ∈ k, n ≠ [] ∧ slash ∉ n :=
  fun n hn => ⟨(isName_iff.1 (h n hn)).1, h.slash_free n hn⟩

theorem names_joinNames (h : k.Canonical) : (joinNames k).names = k :=
  Path.names_joinNames h.spellable

theorem key_joinNames (h : k.Canonical) : (joinNames k).key = k := by
  rw [Path.key, Path.keyOfNames, h.names_joinNames, h.foldl_pushName, List.append_nil,
    List.reverse_reverse]

theorem joinNames_ne_nil (h : k.Canonical) (hk : k ≠ []) : joinNames k ≠ [] :=
  Path.joinNames_ne_nil h.spellable hk

theorem endsInSlash_joinNames (h : k.Canonical) : (joinNames k).endsInSlash = false :=
  Path.endsInSlash_joinNames h.spellable

theorem isRooted_joinNames (h : k.Canonical) : (joinNames k).isRooted = false := by
  cases k with
  | nil => rfl
  | cons first more =>
    obtain ⟨hfirst, -, -, hfree⟩ := isName_iff.1 (h first List.mem_cons_self)
    obtain ⟨b, rest, rfl⟩ := List.exists_cons_of_ne_nil hfirst
    have hhead : (joinNames ((b :: rest) :: more)).head? = some b := by
      cases more <;> rfl
    rw [isRooted, hhead]
    have hne : b ≠ slash := by
      rintro rfl
      exact hfree List.mem_cons_self
    simpa using hne

/-- The parent of a spelling spells the parent. -/
theorem parent_joinNames (h : Canonical (k ++ [name])) :
    (joinNames (k ++ [name])).parent = joinNames k := by
  obtain ⟨hname, -, -, hfree⟩ := isName_iff.1 (h name (by simp))
  by_cases hk : k = []
  · rw [hk]
    exact parent_of_slash_free hfree hname
  · have hbefore : k.Canonical := h.of_prefix (List.prefix_append k [name])
    rw [joinNames_concat hk, parent_append_name hname hfree hbefore.endsInSlash_joinNames,
      if_neg (hbefore.joinNames_ne_nil hk)]

theorem filename_joinNames (h : Canonical (k ++ [name])) :
    (joinNames (k ++ [name])).filename = name := by
  have hne : joinNames (k ++ [name]) ≠ [] := h.joinNames_ne_nil (by simp)
  have hnames := names_eq_parent_filename (filename_ne_nil hne h.endsInSlash_joinNames)
  rw [h.names_joinNames, h.parent_joinNames,
    (h.of_prefix (List.prefix_append k [name])).names_joinNames] at hnames
  exact (List.singleton_inj.1 (List.append_cancel_left hnames)).symm

end Key.Canonical

namespace Path

/-! ## Plain paths -/

/-- The path is relative and in normal spelling, has neither `.` nor `..` among its names, and does
not end in a separator. -/
structure IsPlain (p : Path) : Prop where
  relative : p.isRooted = false
  normal : p.lexicallyNormal = p
  plain : ∀ name ∈ p.names, Key.IsPlainName name
  unended : p.endsInSlash = false

namespace IsPlain

variable {p : Path}

theorem canonical (h : p.IsPlain) : Key.Canonical p.names := by
  intro name hname
  obtain ⟨hdot, hdots⟩ := h.plain name hname
  exact Key.isName_iff.2 ⟨ne_nil_of_mem_names hname, hdot, hdots, slash_free_of_mem_names hname⟩

theorem key_eq_names (h : p.IsPlain) : p.key = p.names := by
  rw [key, keyOfNames, h.canonical.foldl_pushName, List.append_nil, List.reverse_reverse]

/-- A plain path is spelled by the names of its key. -/
theorem eq_joinNames (h : p.IsPlain) : joinNames p.key = p := by
  rw [h.key_eq_names]
  cases hnames : p.hasNames with
  | false =>
    rw [names_of_hasNames hnames]
    cases p with
    | nil => rfl
    | cons b rest =>
      -- what consists of separators begins with one
      rw [hasNames, List.any_eq_false] at hnames
      have hb : b = slash := by simpa using hnames b List.mem_cons_self
      have hrooted := h.relative
      rw [hb] at hrooted
      cases hrooted
  | true =>
    have hnormal : p.normalNames = p.names := by
      rw [normalNames, h.canonical.foldl_pushName, List.append_nil, List.reverse_reverse]
    have hp : p ≠ [] := by
      rintro rfl
      cases hnames
    have hfilename := filename_ne_nil hp h.unended
    have hall := names_eq_parent_filename hfilename
    obtain ⟨hdot, hdots⟩ := h.plain p.filename (by rw [hall]; simp)
    have hdirectory : p.endsAsDirectory = false := by
      simp [endsAsDirectory, h.unended, hdot, hdots]
    have hspelled := h.normal
    rw [lexicallyNormal, if_pos hnames, hnormal, h.relative, hdirectory, hall] at hspelled
    simp only [List.getLast?_concat, Bool.false_eq_true, if_false, Bool.false_and,
      List.nil_append, List.append_nil] at hspelled
    rw [hall]
    exact hspelled

theorem key_ne_nil (h : p.IsPlain) (hp : p ≠ []) : p.key ≠ [] := by
  intro hkey
  have hspelled := h.eq_joinNames
  rw [hkey] at hspelled
  exact hp hspelled.symm

theorem key_parent (h : p.IsPlain) : joinNames p.key.parent = p.parent := by
  have hspelled := h.eq_joinNames
  rcases List.eq_nil_or_concat' p.key with hkey | ⟨before, last, hkey⟩
  · rw [hkey] at hspelled ⊢
    rw [← hspelled]
    rfl
  · have hcanonical := key_canonical p
    rw [hkey] at hspelled hcanonical ⊢
    rw [Key.parent, List.dropLast_concat, ← hspelled, hcanonical.parent_joinNames]

/-- A plain path has one spelling as a directory. -/
theorem withoutTrailingSeparator_eq (h : p.IsPlain) : p.withoutTrailingSeparator = p := by
  unfold withoutTrailingSeparator
  rw [h.normal]
  by_cases hp : p = []
  · rw [hp]
    rfl
  · have hfilename : p.hasFilename = true := by
      simp [hasFilename, hp, h.unended]
    simp [hfilename]

end IsPlain

/-- What spells a key is plain. -/
theorem isPlain_joinNames {k : Key} (h : k.Canonical) : (joinNames k).IsPlain where
  relative := h.isRooted_joinNames
  normal := by
    rcases List.eq_nil_or_concat' k with rfl | ⟨before, last, rfl⟩
    · rfl
    · have hnormal : (joinNames (before ++ [last])).normalNames = before ++ [last] := by
        rw [normalNames, h.names_joinNames, h.foldl_pushName, List.append_nil,
          List.reverse_reverse]
      obtain ⟨hlast, hdot, hdots, -⟩ := Key.isName_iff.1 (h last (by simp))
      have hfilename := h.filename_joinNames
      have hdirectory : (joinNames (before ++ [last])).endsAsDirectory = false := by
        simp [endsAsDirectory, h.endsInSlash_joinNames, hfilename, hdot, hdots]
      have hnames : (joinNames (before ++ [last])).hasNames = true := by
        refine hasNames_of_filename ?_
        rw [hfilename]
        exact hlast
      rw [lexicallyNormal, if_pos hnames, hnormal, h.isRooted_joinNames, hdirectory]
      simp only [List.getLast?_concat, Bool.false_eq_true, if_false, Bool.false_and,
        List.nil_append, List.append_nil]
  plain := by
    rw [h.names_joinNames]
    exact fun name hname => isPlainName_of_isName (h name hname)
  unended := h.endsInSlash_joinNames

/-! ## The path of a temporary file -/

theorem isPlain_stagingDirectory {target workPath : Path} (htarget : target.IsPlain)
    (hwork : workPath.IsPlain) : (stagingDirectory target workPath).IsPlain := by
  have hparent : ∀ {q : Path}, q.IsPlain → q.parent.IsPlain := by
    intro q hq
    rw [← hq.key_parent]
    exact isPlain_joinNames (key_canonical q).parent
  unfold stagingDirectory
  rw [htarget.withoutTrailingSeparator_eq, hwork.withoutTrailingSeparator_eq]
  dsimp only
  split
  · exact hparent htarget
  split
  · exact hparent hwork
  · exact hwork

/-- A work path that is not the target is the directory where a copy stages. -/
theorem stagingDirectory_eq {target workPath : Path} (htarget : target.IsPlain)
    (hwork : workPath.IsPlain) (hne : workPath ≠ []) (hother : target ≠ workPath) :
    stagingDirectory target workPath = workPath := by
  have hnonempty : ¬ workPath.isEmpty = true := by rwa [List.isEmpty_iff]
  unfold stagingDirectory
  rw [htarget.withoutTrailingSeparator_eq, hwork.withoutTrailingSeparator_eq]
  dsimp only
  rw [if_neg hnonempty, if_neg hother]

theorem isName_tempName {attemptId : Bytes} (hid : isAttemptId attemptId = true) :
    Key.isName (tempName attemptId) = true := by
  obtain ⟨hdot, hdots⟩ := isPlainName_tempName attemptId
  have hne : tempName attemptId ≠ [] := by
    rw [tempName, tempMark]
    exact List.append_ne_nil_of_left_ne_nil (by decide) _
  exact Key.isName_iff.2 ⟨hne, hdot, hdots, slash_free_tempName hid⟩

/-- The path of a temporary file spells a name in the directory where a copy stages. -/
theorem tempPath_eq_joinNames {target workPath : Path} {attemptId : Bytes}
    (htarget : target.IsPlain) (hwork : workPath.IsPlain) :
    tempPath target workPath attemptId
      = joinNames ((stagingDirectory target workPath).key ++ [tempName attemptId]) := by
  have hplain := isPlain_stagingDirectory htarget hwork
  unfold tempPath join
  generalize stagingDirectory target workPath = directory at hplain
  by_cases hempty : directory = []
  · rw [hempty]
    rfl
  · rw [if_neg (by simp [hempty, hplain.unended]), joinNames_concat (hplain.key_ne_nil hempty),
      hplain.eq_joinNames]

theorem isPlain_tempPath {target workPath : Path} {attemptId : Bytes} (htarget : target.IsPlain)
    (hwork : workPath.IsPlain) (hid : isAttemptId attemptId = true) :
    (tempPath target workPath attemptId).IsPlain := by
  rw [tempPath_eq_joinNames htarget hwork]
  exact isPlain_joinNames ((key_canonical _).concat (isName_tempName hid))

end Path

end StagedCopy
