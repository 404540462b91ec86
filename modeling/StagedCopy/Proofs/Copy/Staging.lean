import StagedCopy.Proofs.Path.Plain

/-!
# Temporary files of different attempts

The name of a temporary file ends in the attempt id, and that name survives everything that is done
to a path: it stays the last name in normal spelling and is the last name of the key, whatever the
directory in front of it is. So two attempts with different ids never stage in one file, neither by
path nor by key.

* `Path.filename_append` — the last name of a spelling.
* `Path.filename_lexicallyNormal`, `Path.getLast?_key` — what becomes of the last name of a path
  that does not end as a directory.
* `filename_tempPath`, `endsAsDirectory_tempPath` — the path of a temporary file is such a path.
* `tempPaths_never_collide` — the theorem.
-/

namespace StagedCopy

namespace Path

variable {p : Path} {name : Bytes}

/-! ## The last name of a spelling -/

/-- What stands after the last separator is the last name. -/
theorem filename_append {front : Path} (hfront : front = [] ∨ ∃ s, front = s ++ [slash])
    (hfree : slash ∉ name) : filename (front ++ name) = name := by
  have hkept : ∀ b ∈ name.reverse, (b != slash) = true := by
    intro b hb
    rw [bne_iff_ne]
    rintro rfl
    exact hfree (List.mem_reverse.1 hb)
  rw [filename, List.reverse_append, List.takeWhile_append_of_pos hkept]
  rcases hfront with rfl | ⟨s, rfl⟩
  · rw [List.reverse_nil, List.takeWhile_nil, List.append_nil, List.reverse_reverse]
  · rw [List.reverse_concat, List.takeWhile_cons_of_neg (by simp), List.append_nil,
      List.reverse_reverse]

theorem filename_of_endsInSlash (h : p.endsInSlash = true) : p.filename = [] := by
  obtain ⟨s, rfl⟩ := List.getLast?_eq_some_iff.1 (beq_iff_eq.1 h)
  have hname := filename_append (.inr ⟨s, rfl⟩) (List.not_mem_nil (a := slash))
  rwa [List.append_nil] at hname

/-- Names joined after a root end in the last of them. -/
theorem filename_joinNames_concat {root : Path} (hroot : root = [] ∨ ∃ s, root = s ++ [slash])
    (before : List Bytes) (hfree : slash ∉ name) :
    filename (root ++ joinNames (before ++ [name])) = name := by
  by_cases hbefore : before = []
  · rw [hbefore]
    exact filename_append hroot hfree
  · rw [joinNames_concat hbefore, List.append_cons (joinNames before), ← List.append_assoc]
    exact filename_append (.inr ⟨root ++ joinNames before, (List.append_assoc _ _ _).symm⟩) hfree

theorem filename_join (directory : Path) (hfree : slash ∉ name) :
    (directory.join name).filename = name := by
  unfold join
  split
  · next h =>
    refine filename_append ?_ hfree
    rcases Bool.or_eq_true_iff.1 h with hempty | hended
    · exact .inl (List.isEmpty_iff.1 hempty)
    · exact .inr (List.getLast?_eq_some_iff.1 (beq_iff_eq.1 hended))
  · rw [List.append_cons]
    exact filename_append (.inr ⟨directory, rfl⟩) hfree

/-- The spelling of a key ends in the last name of the key. -/
theorem filename_text {k : Key} (hcanonical : k.Canonical) (h : k.getLast? = some name) :
    k.text.filename = name := by
  obtain ⟨before, rfl⟩ := List.getLast?_eq_some_iff.1 h
  have hfree : slash ∉ name := hcanonical.slash_free name (by simp)
  rw [Key.text_of_ne_root (by simp), Key.flatMap_concat, List.append_cons]
  exact filename_append (.inr ⟨_, rfl⟩) hfree

/-! ## The last name in normal spelling and in the key -/

theorem endsAsDirectory_eq_false_iff :
    p.endsAsDirectory = false ↔
      p.endsInSlash = false ∧ p.filename ≠ dot ∧ p.filename ≠ dotDot := by
  simp [endsAsDirectory, and_assoc]

/-- The last name is read last and is kept, so what is kept of a path ends in it. -/
theorem getLast?_foldl_pushName (rooted : Bool) (hp : p ≠ []) (h : p.endsAsDirectory = false) :
    (p.names.foldl (pushName rooted) []).reverse.getLast? = some p.filename := by
  obtain ⟨hended, hdot, hdots⟩ := endsAsDirectory_eq_false_iff.1 h
  rw [names_eq_parent_filename (filename_ne_nil hp hended), List.foldl_append, List.foldl_cons,
    List.foldl_nil, pushName_of_name hdot hdots, List.reverse_cons, List.getLast?_concat]

/-- A path that does not end as a directory leads to a place of its last name. -/
theorem getLast?_key (hp : p ≠ []) (h : p.endsAsDirectory = false) :
    p.key.getLast? = some p.filename :=
  getLast?_foldl_pushName true hp h

/-- The normal spelling of a path that does not end as a directory ends in the same name. -/
theorem filename_lexicallyNormal (h : p.endsAsDirectory = false) :
    p.lexicallyNormal.filename = p.filename := by
  by_cases hp : p = []
  · rw [hp]
    rfl
  have hlast : p.normalNames.getLast? = some p.filename := getLast?_foldl_pushName p.isRooted hp h
  obtain ⟨before, hkept⟩ := List.getLast?_eq_some_iff.1 hlast
  have hnames := hasNames_of_filename (filename_ne_nil hp (endsAsDirectory_eq_false_iff.1 h).1)
  obtain ⟨-, -, hfree, -, -⟩ := eq_before_filename p
  rw [lexicallyNormal, if_pos hnames]
  simp only [hlast, h, Bool.false_and, Bool.false_eq_true, if_false, List.append_nil]
  rw [hkept]
  refine filename_joinNames_concat ?_ before hfree
  cases p.isRooted
  · exact .inl rfl
  · exact .inr ⟨[], rfl⟩

end Path

/-! ## The path of a temporary file -/

section temp

open StagedCopy.Path

variable {attemptId : Bytes}

theorem filename_tempPath (target workPath : Path) (hid : isAttemptId attemptId = true) :
    (tempPath target workPath attemptId).filename = tempName attemptId :=
  filename_join (stagingDirectory target workPath) (slash_free_tempName hid)

theorem tempPath_ne_nil (target workPath : Path) (hid : isAttemptId attemptId = true) :
    tempPath target workPath attemptId ≠ [] := by
  intro hempty
  have hname := filename_tempPath target workPath hid
  rw [hempty] at hname
  exact (Key.isName_iff.1 (isName_tempName hid)).1 hname.symm

/-- The path of a temporary file does not end as a directory. -/
theorem endsAsDirectory_tempPath (target workPath : Path) (hid : isAttemptId attemptId = true) :
    (tempPath target workPath attemptId).endsAsDirectory = false := by
  obtain ⟨hname, hdot, hdots, -⟩ := Key.isName_iff.1 (isName_tempName hid)
  rw [endsAsDirectory_eq_false_iff, filename_tempPath target workPath hid]
  refine ⟨?_, hdot, hdots⟩
  rw [Bool.eq_false_iff]
  intro hended
  have hempty := filename_of_endsInSlash hended
  rw [filename_tempPath target workPath hid] at hempty
  exact hname hempty

/-- The key of a temporary file is spelled with the name of the file at the end. -/
theorem filename_key_tempPath (target workPath : Path) (hid : isAttemptId attemptId = true) :
    (tempPath target workPath attemptId).key.text.filename = tempName attemptId := by
  refine filename_text (key_canonical _) ?_
  rw [getLast?_key (tempPath_ne_nil target workPath hid)
    (endsAsDirectory_tempPath target workPath hid), filename_tempPath target workPath hid]

theorem tempName_injective {a b : Bytes} (h : tempName a = tempName b) : a = b :=
  List.append_cancel_left h

end temp

/-- The last name of the path of a temporary file, in any spelling and in the key, is the mark of
such files and the attempt id after it. So attempts with different ids stage in different files,
whatever their targets and work paths: the paths differ in their names, and the keys differ. -/
theorem tempPaths_never_collide {attemptId : Bytes} (hid : isAttemptId attemptId = true)
    (target workPath : Path) :
    (tempPath target workPath attemptId).filename = utf8 ".dcp.tmp." ++ attemptId ∧
      (tempPath target workPath attemptId).lexicallyNormal.filename
        = utf8 ".dcp.tmp." ++ attemptId ∧
      (tempPath target workPath attemptId).key.text.filename = utf8 ".dcp.tmp." ++ attemptId ∧
      ∀ otherId, isAttemptId otherId = true → otherId ≠ attemptId →
        ∀ otherTarget otherWorkPath : Path,
          (tempPath otherTarget otherWorkPath otherId).names
              ≠ (tempPath target workPath attemptId).names ∧
            (tempPath otherTarget otherWorkPath otherId).key.text
              ≠ (tempPath target workPath attemptId).key.text := by
  have hnormal := Path.filename_lexicallyNormal (endsAsDirectory_tempPath target workPath hid)
  refine ⟨filename_tempPath target workPath hid,
    hnormal.trans (filename_tempPath target workPath hid),
    filename_key_tempPath target workPath hid,
    fun otherId hother hne otherTarget otherWorkPath => ?_⟩
  constructor
  · intro hnames
    rw [Path.names_tempPath otherTarget otherWorkPath hother,
      Path.names_tempPath target workPath hid] at hnames
    have hlast := (List.append_inj' hnames rfl).2
    exact hne (tempName_injective (List.singleton_inj.1 hlast))
  · intro hkeys
    have hlast := filename_key_tempPath otherTarget otherWorkPath hother
    rw [hkeys, filename_key_tempPath target workPath hid] at hlast
    exact hne (tempName_injective hlast.symm)

/-- Ids that look like directories, with a work path above the start and a target at the root. -/
theorem tempPaths_never_collide_dots :
    isAttemptId (utf8 "..") = true ∧ isAttemptId (utf8 ".") = true ∧ utf8 "." ≠ utf8 ".." ∧
      tempPath (utf8 "/") (utf8 "a/../..") (utf8 "..") = utf8 "../.dcp.tmp..." ∧
      tempPath (utf8 "t//") (utf8 "./t") (utf8 ".") = utf8 ".dcp.tmp.." ∧
      (tempPath (utf8 "/") (utf8 "a/../..") (utf8 "..")).key.text.filename
        = utf8 ".dcp.tmp." ++ utf8 ".." ∧
      (tempPath (utf8 "t//") (utf8 "./t") (utf8 ".")).key.text
        ≠ (tempPath (utf8 "/") (utf8 "a/../..") (utf8 "..")).key.text := by
  have hid : isAttemptId (utf8 "..") = true := by decide
  have hother : isAttemptId (utf8 ".") = true := by decide
  have hne : utf8 "." ≠ utf8 ".." := by decide
  obtain ⟨-, -, hkey, hdistinct⟩ := tempPaths_never_collide hid (utf8 "/") (utf8 "a/../..")
  exact ⟨hid, hother, hne, by decide, by decide, hkey,
    (hdistinct _ hother hne (utf8 "t//") (utf8 "./t")).2⟩

end StagedCopy
