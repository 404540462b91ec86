import StagedCopy.Copy.Staging
import StagedCopy.Proofs.Path.Canonical

/-!
# The names of a normal spelling

A normal spelling goes up first, if at all, and only down after that: its names are `.` or some
`..`, and then the names of the key of the path. This stays so when the last name is taken off, so
it is so for the path of a temporary file, which adds a name of its own to such a spelling.

* `Key.IsPlainName` — a name that is neither `.` nor `..`.
* `Path.spell`, `Path.lexicallyNormal_eq_spell` — the normal spelling by the names that are kept.
* `Path.Settled` — the paths that go up first and then only down.
* `Path.settled_lexicallyNormal`, `Path.settled_tempPath` — such paths.
* `Path.names_of_begins` — the names of the beginning of a path.
-/

namespace StagedCopy

/-- A name that is neither `.` nor `..`. -/
def Key.IsPlainName (name : Bytes) : Prop := name ≠ dot ∧ name ≠ dotDot

instance (name : Bytes) : Decidable (Key.IsPlainName name) :=
  inferInstanceAs (Decidable (_ ∧ _))

namespace Path

variable {p : Path}

/-- The path goes up first, if at all, and then only down. -/
def Settled (p : Path) : Prop :=
  ∃ ups downs, p.names = ups ++ downs ∧ (∀ n ∈ ups, ¬ Key.IsPlainName n) ∧
    ∀ n ∈ downs, Key.IsPlainName n

theorem isPlainName_of_isName {name : Bytes} (h : Key.isName name = true) :
    Key.IsPlainName name := by
  obtain ⟨-, hdot, hdots, -⟩ := Key.isName_iff.1 h
  exact ⟨hdot, hdots⟩

theorem Settled.of_begins {q : Path} (h : p.Settled) (hbegins : q.names <+: p.names) :
    q.Settled := by
  obtain ⟨ups, downs, hnames, hups, hdowns⟩ := h
  rw [hnames, List.prefix_iff_eq_take, List.take_append] at hbegins
  exact ⟨_, _, hbegins, fun n hn => hups n (List.mem_of_mem_take hn),
    fun n hn => hdowns n (List.mem_of_mem_take hn)⟩

theorem Settled.of_names {q : Path} (h : p.Settled) (hnames : q.names = p.names) : q.Settled :=
  h.of_begins (hnames ▸ List.prefix_refl _)

/-! ## Normal spellings -/

/-- The names kept in a normal spelling are some `..` and then the names of the key. -/
theorem normalNames_eq (p : Path) :
    ∃ m, p.normalNames = List.replicate m dotDot ++ p.key := by
  obtain ⟨m, hfold, -⟩ := foldl_pushName_relative p.names (List.not_mem_nil (a := dotDot)) 0
  rw [List.replicate_zero, List.append_nil] at hfold
  cases hroot : p.isRooted with
  | true =>
    refine ⟨0, ?_⟩
    rw [normalNames, hroot]
    rfl
  | false =>
    refine ⟨m, ?_⟩
    rw [normalNames, hroot, hfold, List.reverse_append, List.reverse_replicate]
    rfl

theorem slash_free_of_mem_names {name : Bytes} (h : name ∈ p.names) : slash ∉ name :=
  slash_not_mem_of_mem_pieces (List.mem_filter.1 h).1

theorem ne_nil_of_mem_names {name : Bytes} (h : name ∈ p.names) : name ≠ [] := by
  simpa using (List.mem_filter.1 h).2

/-- What is spelled by joining names has these names. -/
theorem names_joinNames {ns : List Bytes} (h : ∀ n ∈ ns, n ≠ [] ∧ slash ∉ n) :
    (joinNames ns).names = ns := by
  induction ns with
  | nil => rfl
  | cons name more ih =>
    obtain ⟨⟨hname, hfree⟩, hmore⟩ := List.forall_mem_cons.1 h
    cases more with
    | nil => exact names_of_slash_free hfree hname
    | cons next more =>
      rw [joinNames, names_append_slash, names_of_slash_free hfree hname, ih hmore]
      · rfl
      · exact List.cons_ne_nil next more

theorem names_of_hasNames (h : p.hasNames = false) : p.names = [] := by
  have hslashes : p = List.replicate p.length slash := by
    refine List.eq_replicate_of_mem fun b hb => ?_
    rw [hasNames, List.any_eq_false] at h
    simpa using h b hb
  rw [hslashes, ← List.nil_append (List.replicate _ _), names_append_slashes]
  rfl

theorem key_name_ne_nil {name : Bytes} (h : name ∈ p.key) : name ≠ [] ∧ slash ∉ name := by
  obtain ⟨hname, -, -, hfree⟩ := Key.isName_iff.1 (key_canonical p name h)
  exact ⟨hname, hfree⟩

/-- Kept names, spelled from the root or from where one stands; `.` when there are none. -/
def spell (rooted : Bool) (kept : List Bytes) : Path :=
  if kept = [] then if rooted then [slash] else dot
  else (if rooted then [slash] else []) ++ joinNames kept

theorem spellable_normalNames (p : Path) : ∀ n ∈ p.normalNames, n ≠ [] ∧ slash ∉ n := by
  obtain ⟨m, hm⟩ := normalNames_eq p
  intro n hn
  rw [hm] at hn
  rcases List.mem_append.1 hn with hdots | hkey
  · rw [(List.mem_replicate.1 hdots).2]
    decide
  · exact key_name_ne_nil hkey

/-- The normal spelling of a path that goes on after the separators it begins with: what is left of
its names, and perhaps a separator at the end. -/
theorem lexicallyNormal_eq_spell (h : p.hasNames = true) :
    p.lexicallyNormal = spell p.isRooted p.normalNames ∨
      p.normalNames ≠ [] ∧ p.lexicallyNormal = spell p.isRooted p.normalNames ++ [slash] := by
  cases hlast : p.normalNames.getLast? with
  | none =>
    rw [spell, if_pos (List.getLast?_eq_none_iff.1 hlast), lexicallyNormal, if_pos h]
    refine .inl ?_
    simp only [hlast]
  | some last =>
    have hkept : p.normalNames ≠ [] := by
      intro hnone
      rw [hnone] at hlast
      cases hlast
    rw [spell, if_neg hkept, lexicallyNormal, if_pos h]
    simp only [hlast]
    generalize (if p.isRooted then [slash] else [] : Path) = root
    split
    · exact .inr ⟨hkept, rfl⟩
    · exact .inl (List.append_nil _)

theorem names_spell {kept : List Bytes} (h : ∀ n ∈ kept, n ≠ [] ∧ slash ∉ n) (rooted : Bool) :
    (spell rooted kept).names = kept ∨ (spell rooted kept).names = [dot] := by
  unfold spell
  split
  next hkept =>
    rw [hkept]
    cases rooted with
    | true => exact .inl rfl
    | false => exact .inr (names_of_slash_free (p := dot) (by decide) (by decide))
  next =>
    cases rooted with
    | true => exact .inl ((names_append_slash [] _).trans (names_joinNames h))
    | false => exact .inl (names_joinNames h)

/-- The names of a normal spelling: those that were kept, or `.` when none were. -/
theorem names_lexicallyNormal (p : Path) :
    p.lexicallyNormal.names = p.normalNames ∨ p.lexicallyNormal.names = [dot] := by
  cases hnames : p.hasNames with
  | false =>
    rw [lexicallyNormal, hnames, if_neg Bool.false_ne_true]
    refine .inl ?_
    rw [normalNames, names_of_hasNames hnames]
    rfl
  | true =>
    have hspell := names_spell p.spellable_normalNames p.isRooted
    rcases lexicallyNormal_eq_spell hnames with h | ⟨-, h⟩
    · rwa [h]
    · rwa [h, names_append_slash, names_nil, List.append_nil]

theorem settled_lexicallyNormal (p : Path) : p.lexicallyNormal.Settled := by
  have hdots : ∀ n, n = dot ∨ n = dotDot → ¬ Key.IsPlainName n := by
    rintro n (rfl | rfl) hplain
    · exact hplain.1 rfl
    · exact hplain.2 rfl
  rcases names_lexicallyNormal p with hnames | hnames
  · obtain ⟨m, hm⟩ := normalNames_eq p
    refine ⟨List.replicate m dotDot, p.key, hnames.trans hm, fun n hn => ?_, fun n hn => ?_⟩
    · exact hdots n (.inr (List.mem_replicate.1 hn).2)
    · exact isPlainName_of_isName (key_canonical p n hn)
  · refine ⟨[dot], [], hnames, fun n hn => hdots n (.inl (List.mem_singleton.1 hn)), ?_⟩
    exact fun n hn => absurd hn List.not_mem_nil

/-! ## The path of a temporary file -/

theorem endsInSlash_of_not_hasFilename (hp : p ≠ []) (h : p.hasFilename = false) :
    p.endsInSlash = true := by
  simpa [hasFilename, hp] using h

/-- The parent has the names of the path, or all of them but the last. -/
theorem prefix_names_parent (p : Path) : p.parent.names <+: p.names := by
  by_cases hp : p = []
  · rw [hp]
    exact List.prefix_refl _
  cases hended : p.endsInSlash with
  | true => exact ⟨[], by rw [List.append_nil, names_parent_of_endsInSlash hended]⟩
  | false =>
    rw [names_eq_parent_filename (filename_ne_nil hp hended)]
    exact List.prefix_append _ _

theorem names_withoutTrailingSeparator (p : Path) :
    p.withoutTrailingSeparator.names = p.lexicallyNormal.names := by
  unfold withoutTrailingSeparator
  dsimp only
  split
  · next h =>
    rw [Bool.and_eq_true, Bool.not_eq_true'] at h
    refine names_parent_of_endsInSlash (endsInSlash_of_not_hasFilename ?_ h.1)
    intro hnil
    rw [hnil] at h
    cases h.2
  · rfl

theorem settled_stagingDirectory (target workPath : Path) :
    (stagingDirectory target workPath).Settled := by
  have hsettled : ∀ p : Path, p.withoutTrailingSeparator.Settled := fun p =>
    (settled_lexicallyNormal p).of_names (names_withoutTrailingSeparator p)
  unfold stagingDirectory
  dsimp only
  split
  · exact (hsettled target).of_begins (prefix_names_parent _)
  split
  · exact (hsettled workPath).of_begins (prefix_names_parent _)
  · exact hsettled workPath

theorem names_join (directory relative : Path) :
    (directory.join relative).names = directory.names ++ relative.names := by
  unfold join
  split
  · next h =>
    rcases Bool.or_eq_true_iff.1 h with hempty | hended
    · rw [List.isEmpty_iff.1 hempty]
      rfl
    · exact names_append_of_endsInSlash hended relative
  · exact names_append_slash directory relative

theorem isPlainName_tempName (attemptId : Bytes) : Key.IsPlainName (tempName attemptId) := by
  have hlong : 2 < (tempName attemptId).length := by
    rw [tempName, List.length_append]
    have hmark : tempMark.length = 9 := by decide
    omega
  constructor
  · intro h
    rw [h] at hlong
    exact absurd hlong (by decide)
  · intro h
    rw [h] at hlong
    exact absurd hlong (by decide)

theorem slash_free_tempName {attemptId : Bytes} (hid : isAttemptId attemptId = true) :
    slash ∉ tempName attemptId := by
  have hfree : slash ∉ attemptId := by
    rw [isAttemptId, Bool.and_eq_true, Bool.not_eq_true', Bool.not_eq_true',
      List.contains_eq_mem, decide_eq_false_iff_not] at hid
    exact hid.2
  rw [tempName, List.mem_append, not_or]
  exact ⟨by decide, hfree⟩

/-- The names of the temporary file are those of its directory and its own. -/
theorem names_tempPath {attemptId : Bytes} (target workPath : Path)
    (hid : isAttemptId attemptId = true) :
    (tempPath target workPath attemptId).names
      = (stagingDirectory target workPath).names ++ [tempName attemptId] := by
  have hname : tempName attemptId ≠ [] := by
    rw [tempName, tempMark]
    exact List.append_ne_nil_of_left_ne_nil (by decide) _
  rw [tempPath, names_join, names_of_slash_free (slash_free_tempName hid) hname]

theorem settled_tempPath {attemptId : Bytes} (target workPath : Path)
    (hid : isAttemptId attemptId = true) : (tempPath target workPath attemptId).Settled := by
  obtain ⟨ups, downs, hnames, hups, hdowns⟩ := settled_stagingDirectory target workPath
  refine ⟨ups, downs ++ [tempName attemptId], ?_, hups, fun n hn => ?_⟩
  · rw [names_tempPath target workPath hid, hnames, List.append_assoc]
  · rcases List.mem_append.1 hn with hn | hn
    · exact hdowns n hn
    · rw [List.mem_singleton.1 hn]
      exact isPlainName_tempName attemptId

/-! ## The beginning of a path -/

theorem prefix_reverse_dropWhile (p : Path) (f : UInt8 → Bool) :
    (p.reverse.dropWhile f).reverse <+: p := by
  have hsuffix := List.dropWhile_suffix (l := p.reverse) f
  rw [← List.reverse_prefix, List.reverse_reverse] at hsuffix
  exact hsuffix

/-- A path begins with its parent. -/
theorem prefix_parent (p : Path) : p.parent <+: p := by
  unfold parent
  split
  · have hbefore := prefix_reverse_dropWhile p (· != slash)
    generalize (p.reverse.dropWhile (· != slash)).reverse = before at hbefore
    show (if (dropTrailingSlashes before).isEmpty && isRooted before then [slash]
      else dropTrailingSlashes before) <+: p
    split
    · next hroot =>
      rw [Bool.and_eq_true, isRooted, beq_iff_eq] at hroot
      obtain ⟨rest, rfl⟩ := List.head?_eq_some_iff.1 hroot.2
      exact List.IsPrefix.trans ⟨rest, rfl⟩ hbefore
    · exact List.IsPrefix.trans (prefix_reverse_dropWhile before _) hbefore
  · exact List.prefix_refl p

theorem isRooted_of_begins {q : Path} (h : q <+: p) (hq : q ≠ []) : q.isRooted = p.isRooted := by
  obtain ⟨more, rfl⟩ := h
  obtain ⟨b, rest, rfl⟩ := List.exists_cons_of_ne_nil hq
  rfl

/-- The beginning of a path has names that the path begins with, and after them at most one that
the path may go on with. -/
theorem names_of_begins {s : Path} (h : s <+: p) :
    ∃ kept last, s.names = kept ++ last ∧ last.length ≤ 1 ∧ kept <+: p.names := by
  obtain ⟨t, rfl⟩ := h
  obtain ⟨before, hs, hfree, -, hend⟩ := eq_before_filename s
  have hsplit : ∀ more : Path, (before ++ more).names = before.names ++ more.names :=
    names_append_of_ends hend
  refine ⟨before.names, names s.filename, ?_, ?_, ?_⟩
  · rw [← hsplit, ← hs]
  · by_cases hempty : s.filename = []
    · rw [hempty]
      exact Nat.zero_le 1
    · rw [names_of_slash_free hfree hempty]
      exact Nat.le_refl 1
  · conv => rhs; rw [hs, List.append_assoc, hsplit]
    exact List.prefix_append _ _

end Path

end StagedCopy
