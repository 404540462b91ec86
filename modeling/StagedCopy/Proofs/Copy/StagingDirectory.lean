import StagedCopy.Proofs.Copy.Staging
import StagedCopy.Proofs.Path.Respelling

/-!
# Where a copy stages, whatever the spelling

The path of a temporary file depends on the target and the work path alone, not on how they are
spelled: longer spellings of either give the same path, byte for byte unless one of the two is
spelled by separators alone, which all stand for the root. The temporary file is in the work path,
or next to the target when there is no work path or the target is the work path. An attempt id with
a separator in it would name a file further down; a copy refuses such ids.

* `stagingDirectory_respelled` — longer spellings lead to one staging directory.
* `Path.parent_join_of_unended`, `Path.parent_join_of_separators` — the parent of a name in a
  directory.
* `tempPath_settled` — the theorem; `tempPath_unsettled` — what separators in an attempt id and
  further spellings of the root do.
-/

namespace StagedCopy

/-! ## A name in a directory -/

namespace Path

variable {directory other : Path} {name : Bytes}

theorem parent_join_of_unended (hended : directory.endsInSlash = false) (hname : name ≠ [])
    (hfree : slash ∉ name) : (directory.join name).parent = directory := by
  by_cases hempty : directory = []
  · rw [hempty]
    exact parent_of_slash_free hfree hname
  · rw [join, if_neg (by simp [hempty, hended]), parent_append_name hname hfree hended,
      if_neg hempty]

theorem join_of_separators (h : directory.IsSeparators) (name : Bytes) :
    directory.join name = directory ++ name :=
  if_pos (by simp [h.endsInSlash])

theorem parent_join_of_separators (h : directory.IsSeparators) (hname : name ≠ [])
    (hfree : slash ∉ name) : (directory.join name).parent = [slash] := by
  have hbefore : ((directory ++ name).reverse.dropWhile (· != slash)).reverse = directory :=
    before_append (.inr (List.getLast?_eq_some_iff.1 (beq_iff_eq.1 h.endsInSlash))) hfree
  have hnamed : (directory ++ name).hasNames = true := by
    by_contra hnameless
    have hnames := names_of_hasNames (Bool.eq_false_iff.2 hnameless)
    rw [names_append_of_endsInSlash h.endsInSlash, names_of_slash_free hfree hname] at hnames
    exact List.append_ne_nil_of_right_ne_nil _ (List.cons_ne_nil _ _) hnames
  rw [join_of_separators h, parent, if_pos hnamed, hbefore]
  show (if directory.dropTrailingSlashes.isEmpty && directory.isRooted then [slash] else _) = _
  rw [h.dropTrailingSlashes, h.isRooted]
  rfl

/-- A name has the same path in the root, however many separators spell the root. -/
theorem same_join_of_separators (h : directory.IsSeparators) (h' : other.IsSeparators)
    (hname : name ≠ []) : Same (directory.join name) (other.join name) := by
  have hended : ∀ d : Path, (d ++ name).hasFilename = !endsInSlash name := by
    intro d
    simp [hasFilename, endsInSlash, List.getLast?_append_of_ne_nil d hname, hname]
  rw [join_of_separators h, join_of_separators h']
  refine ⟨?_, ?_, by rw [hended, hended]⟩
  · rw [isRooted_append h.1, isRooted_append h'.1, h.isRooted, h'.isRooted]
  · rw [names_append_of_endsInSlash h.endsInSlash, names_append_of_endsInSlash h'.endsInSlash,
      h.names, h'.names]

theorem IsSeparators.same (h : directory.IsSeparators) (h' : other.IsSeparators) :
    Same directory other := by
  refine ⟨by rw [h.isRooted, h'.isRooted], by rw [h.names, h'.names], ?_⟩
  simp [hasFilename, h.endsInSlash, h'.endsInSlash]

end Path

/-! ## The staging directory -/

open StagedCopy.Path

section directory

variable {target target' workPath workPath' : Path}

/-- Where the work path is the root, a copy stages in the root. -/
theorem stagingDirectory_of_separators (h : workPath.withoutTrailingSeparator.IsSeparators)
    (target : Path) : stagingDirectory target workPath = workPath.withoutTrailingSeparator := by
  unfold stagingDirectory
  dsimp only
  rw [if_neg (by simp [h.1]), h.parent, ite_self]

theorem stagingDirectory_respelled (htarget : Respelled target target')
    (hwork : Respelled workPath workPath') :
    SpelledAlike (stagingDirectory target workPath) (stagingDirectory target' workPath') ∧
      (¬ target.IsSeparators → ¬ workPath.IsSeparators →
        stagingDirectory target workPath = stagingDirectory target' workPath') := by
  obtain ⟨htargets, hsameTarget⟩ := htarget.settles
  obtain ⟨hworks, hsameWork⟩ := hwork.settles
  constructor
  · rcases hworks with hworks | ⟨hroot, hroot'⟩
    · by_cases hwork : workPath.withoutTrailingSeparator.IsSeparators
      · rw [stagingDirectory_of_separators hwork, stagingDirectory_of_separators (hworks ▸ hwork),
          hworks]
        exact .inl rfl
      · -- the work path does not spell the root, so the target is it in neither or both
        unfold stagingDirectory
        dsimp only
        rw [← hworks]
        split
        · exact htargets.parent
        rcases htargets with htargets | ⟨hroot, hroot'⟩
        · rw [htargets]
          exact .inl rfl
        · have hne : target.withoutTrailingSeparator ≠ workPath.withoutTrailingSeparator :=
            fun heq => hwork (heq ▸ hroot)
          have hne' : target'.withoutTrailingSeparator ≠ workPath.withoutTrailingSeparator :=
            fun heq => hwork (heq ▸ hroot')
          rw [if_neg hne, if_neg hne']
          exact .inl rfl
    · rw [stagingDirectory_of_separators hroot, stagingDirectory_of_separators hroot']
      exact .inr ⟨hroot, hroot'⟩
  · intro ht hw
    unfold stagingDirectory
    rw [hsameTarget ht, hsameWork hw]

/-- The directory is the work path, or that of the target when there is no work path or the target
is the work path. -/
theorem stagingDirectory_eq_ite (target workPath : Path) :
    stagingDirectory target workPath =
      if workPath = [] ∨ target.withoutTrailingSeparator = workPath.withoutTrailingSeparator
      then target.withoutTrailingSeparator.parent else workPath.withoutTrailingSeparator := by
  unfold stagingDirectory
  dsimp only
  by_cases hempty : workPath = []
  · rw [if_pos (Or.inl hempty), hempty]
    rfl
  · have hnonempty : ¬ workPath.withoutTrailingSeparator.isEmpty = true := by
      rwa [List.isEmpty_iff, withoutTrailingSeparator_eq_nil_iff]
    rw [if_neg hnonempty]
    by_cases hsame : target.withoutTrailingSeparator = workPath.withoutTrailingSeparator
    · rw [if_pos hsame, if_pos (Or.inr hsame), hsame]
    · rw [if_neg hsame, if_neg (by simp [hempty, hsame])]

theorem unlessRoot_stagingDirectory (target workPath : Path) :
    UnlessRoot (target.IsSeparators ∨ workPath.IsSeparators)
      (stagingDirectory target workPath) := by
  rw [stagingDirectory_eq_ite]
  split
  · exact (unlessRoot_withoutTrailingSeparator target).parent.mono .inl
  · exact (unlessRoot_withoutTrailingSeparator workPath).mono .inr

end directory

/-! ## The temporary file -/

theorem tempName_ne_nil (attemptId : Bytes) : tempName attemptId ≠ [] :=
  List.append_ne_nil_of_left_ne_nil (by decide) attemptId

/-- The path of a temporary file does not depend on the spelling of the target and of the work path:
longer spellings of them give the same path, and the same bytes unless one of the two is spelled by
separators alone. For an attempt id without a separator its parent is the parent of the target, when
there is no work path or it is the target, and else the work path. -/
theorem tempPath_settled (target workPath : Path) (attemptId : Bytes) :
    (∀ target' workPath', Respelled target target' → Respelled workPath workPath' →
      Same (tempPath target' workPath' attemptId) (tempPath target workPath attemptId) ∧
        (¬ target.IsSeparators → ¬ workPath.IsSeparators →
          tempPath target' workPath' attemptId = tempPath target workPath attemptId)) ∧
    (slash ∉ attemptId →
      let t := target.withoutTrailingSeparator
      let w := workPath.withoutTrailingSeparator
      let directory := if workPath = [] ∨ t = w then t.parent else w
      Same (tempPath target workPath attemptId).parent directory ∧
        (¬ target.IsSeparators → ¬ workPath.IsSeparators →
          (tempPath target workPath attemptId).parent = directory)) := by
  constructor
  · intro target' workPath' htarget hwork
    obtain ⟨halike, hsame⟩ := stagingDirectory_respelled htarget hwork
    unfold tempPath
    constructor
    · rcases halike with heq | ⟨hroot, hroot'⟩
      · rw [heq]
        exact .refl _
      · exact same_join_of_separators hroot' hroot (tempName_ne_nil attemptId)
    · intro ht hw
      rw [hsame ht hw]
  · intro hid t w directory
    have hname := tempName_ne_nil attemptId
    have hfree : slash ∉ tempName attemptId := by
      rw [tempName, List.mem_append, not_or]
      exact ⟨by decide, hid⟩
    have hdirectory : stagingDirectory target workPath = directory :=
      stagingDirectory_eq_ite target workPath
    have hroot := unlessRoot_stagingDirectory target workPath
    rw [tempPath, hdirectory]
    rw [hdirectory] at hroot
    cases hended : directory.endsInSlash with
    | false =>
      rw [parent_join_of_unended hended hname hfree]
      exact ⟨.refl _, fun _ _ => rfl⟩
    | true =>
      rcases hroot hended with heq | ⟨hloose, hseparators⟩
      · rw [heq, parent_join_of_separators (by decide) hname hfree]
        exact ⟨.refl _, fun _ _ => rfl⟩
      · rw [parent_join_of_separators hseparators hname hfree]
        refine ⟨IsSeparators.same (by decide) hseparators, fun ht hw => ?_⟩
        exact absurd hloose (not_or.2 ⟨ht, hw⟩)

/-- A target with a detour before its last name and a separator at the end, and the same place as
the work path with `.` in it and a doubled separator: the temporary file is next to them. -/
theorem tempPath_settled_detour :
    Respelled (utf8 "/d/t") (utf8 "/d/x/../t/") ∧ Respelled (utf8 "/d/t") (utf8 "//d/./t") ∧
      ¬ IsSeparators (utf8 "/d/t") ∧ slash ∉ utf8 "7" ∧
      tempPath (utf8 "/d/x/../t/") (utf8 "//d/./t") (utf8 "7") = utf8 "/d/.dcp.tmp.7" ∧
      (tempPath (utf8 "/d/t") (utf8 "/d/t") (utf8 "7")).parent = utf8 "/d" := by
  have htarget : Respelled (utf8 "/d/t") (utf8 "/d/x/../t/") := by
    have hdetour := @Lengthens.detour (utf8 "/d/") (utf8 "t") (utf8 "x") (by decide) (by decide)
    exact .tail (.single hdetour) (.ending (by decide))
  have hwork : Respelled (utf8 "/d/t") (utf8 "//d/./t") := by
    have hdot := @Lengthens.here (utf8 "/d") (utf8 "/t") (by decide)
    exact .tail (.single hdot) (.separator [] (utf8 "d/./t"))
  have hseparators : ¬ IsSeparators (utf8 "/d/t") := by decide
  have hid : slash ∉ utf8 "7" := by decide
  obtain ⟨hrespelled, hparent⟩ := tempPath_settled (utf8 "/d/t") (utf8 "/d/t") (utf8 "7")
  refine ⟨htarget, hwork, hseparators, hid, ?_, ?_⟩
  · rw [(hrespelled _ _ htarget hwork).2 hseparators hseparators]
    decide
  · rw [(hparent hid).2 hseparators hseparators]
    decide

/-- With a separator in the attempt id the temporary file is not in the directory of the target, and
a work path that spells the root by two separators shows in the bytes of the path. -/
theorem tempPath_unsettled :
    ¬ Same (tempPath (utf8 "/d/t") [] (utf8 "a/")).parent
        (withoutTrailingSeparator (utf8 "/d/t")).parent ∧
      Lengthens (utf8 "/") (utf8 "//") ∧
      tempPath (utf8 "/t") (utf8 "//") (utf8 "7") ≠ tempPath (utf8 "/t") (utf8 "/") (utf8 "7") :=
  ⟨fun h => absurd h.names (by decide), .separator [] [], by decide⟩

end StagedCopy
