import StagedCopy.Proofs.Copy.Success

/-!
# What a successful attempt shows

An attempt succeeds only when none of its calls failed, and every call that succeeds tells
something about the stores at the beginning: that the temporary file could be created shows that no
file was above it, that the target could be removed shows that no directory with something in it
was there, and so on. In the end it is known that nothing hindered the attempt.

* `CopyPhase.Shown` — what is known at each phase, from the answers so far; `shown_step`.
* `Unpublished` — an attempt at a target that ends in a separator never succeeds.
* `unhindered_of_ok` — what hinders no attempt is all that a success needs.
-/

namespace StagedCopy

open Program (Exchange Handler)

/-! ## What is known at each phase -/

namespace CopyJob

variable (job : CopyJob)

/-- The checksums of the source and of the copy are not compared, or they are of one kind. -/
def CanVerify (init : StorePair) (file : MemoryFile) : Prop :=
  wrap64 file.content.length = 0 ∨ job.options.verification = .skip ∨
    ∃ a b, checksumOf init.source.checksumKind file.layout.blockSize file.content = some a ∧
      checksumOf init.target.checksumKind (job.copiedLayout init.target.defaults).blockSize
        file.content = some b ∧
      a.algorithm = b.algorithm ∧ a.blockSize = b.blockSize

/-- What stands at the target can be removed. -/
def CanClear (store : MemoryStore) : Prop :=
  store.get? job.target.key = some .directory → store.tree.hasBelow job.target.key = false

/-- The target can be put in place. -/
def CanPublish (store : MemoryStore) : Prop :=
  ∀ a ∈ job.target.key.properAncestors, ∀ f, store.get? a ≠ some (.file f)

end CopyJob

namespace CopyPhase

/-- Something is so if the result is a success. -/
def WhenOk (p : Prop) : AttemptEnd → Prop
  | .ok _ => p
  | _ => True

/-- What the answers so far say about the stores at the beginning, as long as none is a failure. -/
def Shown (job : CopyJob) (init : StorePair) (file : MemoryFile) : CopyPhase → Prop
  | opening _ | reading .. | writing .. | closing _ _ none | sizingSource _ | sizingTemp _
  | summingSource _ => job.CanStage init.target
  | summingTemp _ sum =>
    job.CanStage init.target ∧
      sum = checksumOf init.source.checksumKind file.layout.blockSize file.content
  | findingTarget _ | clearingTarget _ => job.CanStage init.target ∧ job.CanVerify init file
  | findingParent _ | makingParent _ | publishing _ =>
    job.CanStage init.target ∧ job.CanVerify init file ∧ job.CanClear init.target
  | findingTemp result | clearingTemp result | finished result =>
    WhenOk (job.CanStage init.target ∧ job.CanVerify init file ∧ job.CanClear init.target ∧
      job.CanPublish init.target) result
  | _ => True

section shown

variable {job : CopyJob} {init pair pair' : StorePair} {file : MemoryFile} {moved : List Bytes}

theorem canVerify_of_skipped (hcontent : moved.flatten = file.content)
    (h : ¬ (0 < tally moved ∧ job.options.verification = .verify)) :
    job.CanVerify init file := by
  by_cases hverify : job.options.verification = .verify
  · have hempty : tally moved = 0 := Nat.eq_zero_of_not_pos fun hpos => h ⟨hpos, hverify⟩
    rw [tally_eq_of_flatten hcontent] at hempty
    exact .inl hempty
  · cases hskip : job.options.verification with
    | verify => exact absurd hskip hverify
    | skip => exact .inr (.inl hskip)

/-- The checksum of a file is told of its content, with the settings of the store. -/
theorem sum_of_summed {store after : MemoryStore} {path : Path} {f : MemoryFile}
    {sum : Option FileChecksum} (hfile : store.get? path.key = some (.file f))
    (h : FailStop store (.checksum path) (.ok sum) after) :
    sum = checksumOf store.checksumKind f.layout.blockSize f.content := by
  have hanswer := (Prod.ext_iff.1 (h.of_ok rfl)).1
  exact Except.ok.inj (hanswer.symm.trans (MemoryStore.checksum_of_file hfile))

/-- What was removed without fail held nothing, and so it was at the beginning. -/
theorem canClear_of_removed (hfits : job.Fits init file)
    (hholds : Holds pair.target (job.staged init.target file.content))
    (h : FailStop pair.target (.remove job.target false) (.ok ()) pair'.target) :
    job.CanClear init.target := by
  intro hdirectory
  obtain ⟨-, ⟨node, hnode, hempty⟩, -⟩ :=
    MemoryStore.remove_eq_ok.1 (MemoryStore.conclude_eq_ok.1 (h.of_ok rfl))
  rw [hholds, hfits.staged_target, hdirectory] at hnode
  have hnothing := hempty (Option.some.inj hnode).symm
  refine Bool.eq_false_iff.2 fun hbelow => ?_
  obtain ⟨k, hbelow, hthere⟩ := Tree.hasBelow_iff.1 hbelow
  have hstaged : pair.target.get? k = init.target.get? k := by
    rw [hholds, hfits.staged_below hbelow]
  exact hthere (hstaged.symm.trans (Tree.get?_of_hasBelow hnothing hbelow))

/-- When the temporary file was renamed, the parent of the target was a directory, so no file was
above the target. -/
theorem canPublish_of_renamed
    (hbelow : job.temp.key.isAbove job.target.key = false) (hreachable : pair.target.Reachable)
    (hholds : Holds pair.target (job.housed init.target file.content))
    (h : FailStop pair.target (.rename job.temp job.target) (.ok ()) pair'.target) :
    job.CanPublish init.target := by
  obtain ⟨-, -, -, hparent, -⟩ :=
    MemoryStore.rename_eq_ok.1 (MemoryStore.conclude_eq_ok.1 (h.of_ok rfl))
  intro a ha f hfile
  have hdirectory : pair.target.get? a = some .directory :=
    hreachable.wellFormed.above_of_parent hparent ha
  have htarget : a ≠ job.target.key := by
    rintro rfl
    exact Key.not_mem_properAncestors_self _ ha
  have htemp : a ≠ job.temp.key := by
    rintro rfl
    have habove := (Key.mem_properAncestors.1 ha).2
    rw [hbelow] at habove
    cases habove
  rw [hholds, CopyJob.housed, CopyJob.cleared, if_neg htarget, CopyJob.staged, if_neg htemp,
    hfile] at hdirectory
  simp at hdirectory

end shown

/-- Every answer that is not a failure adds to what is known. -/
theorem shown_step {job : CopyJob} {init pair pair' : StorePair} {file : MemoryFile}
    {phase after : CopyPhase} {x : Exchange} (hfits : job.Fits init file)
    (hdefaults : job.defaults = init.target.defaults)
    (hbelow : job.temp.key.isAbove job.target.key = false)
    (hframe : StorePair.Frame init pair) (hstands : Stands job init file.content pair phase)
    (hshown : Shown job init file phase) (hstep : Step job phase x after)
    (hpair : StorePair.Step pair x pair') : Shown job init file after := by
  cases hstep with
  | silent => exact hshown
  | created output =>
    obtain rfl : pair = init := hstands
    exact (CopyJob.create_served_iff.1 (hpair.of_target.1.of_ok rfl)).1
  | opened | delivered | ended | written | closed | sourceSized => exact hshown
  | tempSized hlength =>
    refine afterLengths_cases (fun _ => hshown) fun hskipped => ?_
    exact ⟨hshown, canVerify_of_skipped hstands.2 hskipped⟩
  | sourceSummed sum =>
    have hsum := sum_of_summed (source_of_frame hfits hframe) hpair.of_source.1
    rw [hframe.sourceKind] at hsum
    exact ⟨hshown, hsum⟩
  | tempSummed hequal =>
    have hsum := sum_of_summed (get?_temp hdefaults hstands.1) hpair.of_target.1
    rw [hframe.targetKind] at hsum
    obtain ⟨a, b, ha, hb, halgorithm, hblocks, -⟩ := ChecksumReport.equal_iff.1 hequal
    exact ⟨hshown.1, .inr (.inr
      ⟨a, b, hshown.2.symm.trans ha, hsum.symm.trans hb, halgorithm, hblocks⟩)⟩
  | targetFound => exact hshown
  | targetAbsent =>
    have hclear : job.CanClear init.target := by
      intro hdirectory
      have habsent := hpair.of_target.1.of_pathExists.2
      rw [hstands.1, hfits.staged_target, hdirectory] at habsent
      cases habsent
    exact afterClearing_cases (fun _ => ⟨hshown.1, hshown.2, hclear⟩)
      fun _ => ⟨hshown.1, hshown.2, hclear⟩
  | targetCleared =>
    have hclear := canClear_of_removed hfits hstands.1 hpair.of_target.1
    exact afterClearing_cases (fun _ => ⟨hshown.1, hshown.2, hclear⟩)
      fun _ => ⟨hshown.1, hshown.2, hclear⟩
  | parentFound | parentAbsent | parentMade => exact hshown
  | renamed =>
    obtain ⟨hstage, hverify, hclear⟩ := hshown
    exact ⟨hstage, hverify, hclear,
      canPublish_of_renamed hbelow hframe.reachable hstands.1 hpair.of_target.1⟩
  | tempFound | tempAbsent | tempUnknown | tempCleared => exact hshown
  | _ => trivial

/-! ## A target that ends in a separator -/

/-- Something is in the way of the rename, and no attempt has succeeded. -/
def Unpublished (job : CopyJob) (store : MemoryStore) : CopyPhase → Prop
  | publishing _ => store.get? job.target.key ≠ none
  | findingTemp result | clearingTemp result | finished result => WhenOk False result
  | _ => True

/-- When the target leads where its parent leads, the directory that is asked for or made stands at
the target, so the temporary file cannot be renamed to it. -/
theorem unpublished_step {job : CopyJob} {pair pair' : StorePair} {phase after : CopyPhase}
    {x : Exchange} (hkey : job.target.parent.key = job.target.key) (hroot : job.target.key ≠ [])
    (h : Unpublished job pair.target phase) (hstep : Step job phase x after)
    (hpair : StorePair.Step pair x pair') : Unpublished job pair'.target after := by
  have hspelled : ¬ job.target.parent.isEmpty = true := by
    intro hempty
    rw [List.isEmpty_iff.1 hempty] at hkey
    exact hroot hkey.symm
  cases hstep with
  | silent hx =>
    rw [hpair.of_silent hx]
    exact h
  | tempSized hlength => exact afterLengths_cases (fun _ => trivial) fun _ => trivial
  | targetAbsent | targetCleared =>
    exact afterClearing_cases (fun hempty => absurd hempty hspelled) fun _ => trivial
  | parentFound =>
    obtain ⟨hsame, hfound⟩ := hpair.of_target.1.of_pathExists
    show pair'.target.get? job.target.key ≠ none
    rw [hsame, ← hkey]
    exact Option.isSome_iff_ne_none.1 hfound.symm
  | parentMade =>
    show pair'.target.get? job.target.key ≠ none
    rw [hpair.of_target.1.of_makeDirs, hkey]
    split
    · exact Option.some_ne_none _
    · next hthere => exact fun hnone => hthere ⟨.inl rfl, hnone⟩
  | renamed =>
    obtain ⟨-, -, htarget, -, -⟩ :=
      MemoryStore.rename_eq_ok.1 (MemoryStore.conclude_eq_ok.1 (hpair.of_target.1.of_ok rfl))
    exact h htarget
  | tempFound | tempAbsent | tempUnknown | tempCleared => exact h
  | _ => trivial

end CopyPhase

/-! ## The theorem -/

open CopyPhase in
/-- An attempt that succeeds between two stores that answer every call has gone to the last phase,
along with the stores. -/
theorem trail_of_ok {ε : Type} {surroundings : Handler ε} {e : ε} {bound n : Nat} {job : CopyJob}
    {init : StorePair}
    (hrun : (Program.run (StorePair.serving surroundings) (copyOnce bound job) (init, e)).1
      = .done (.ok n)) :
    isAttemptId job.attemptId = true ∧ ∃ exchanges final,
      Trail (Step job) .creating exchanges (.finished (.ok n)) ∧
      Trail StorePair.Step init exchanges final := by
  have husable : isAttemptId job.attemptId = true := by
    by_contra hid
    rw [copyOnce_invalid hid] at hrun
    cases hrun
  have hpair := StorePair.trail_serving surroundings (copyOnce bound job) init e
  obtain ⟨phase, hphase, hend⟩ :=
    (copyOnce_follows husable).of_handler (StorePair.serving surroundings) (init, e)
  rw [hrun] at hend
  obtain ⟨decided, rfl, hdecided⟩ := hend
  cases decided with
  | error | broken => cases hdecided
  | ok copied =>
    obtain rfl : n = copied := Except.ok.inj (Program.Outcome.done.inj hdecided)
    exact ⟨husable, _, _, hphase, hpair⟩

/-- No attempt at a target that ends in a separator succeeds, unless that is the root. -/
theorem unended_of_ok {ε : Type} {surroundings : Handler ε} {e : ε} {bound n : Nat} {job : CopyJob}
    {init : StorePair} (hroot : job.target.key ≠ [])
    (hrun : (Program.run (StorePair.serving surroundings) (copyOnce bound job) (init, e)).1
      = .done (.ok n)) : job.target.endsInSlash = false := by
  refine Bool.eq_false_iff.2 fun hended => ?_
  have hkey : job.target.parent.key = job.target.key := by
    rw [Path.key, Path.names_parent_of_endsInSlash hended, Path.key]
  obtain ⟨-, exchanges, final, hphase, hpair⟩ := trail_of_ok hrun
  exact Trail.together (I := fun phase pair => CopyPhase.Unpublished job pair.target phase)
    (CopyPhase.unpublished_step hkey hroot) hphase hpair trivial

/-- An attempt that succeeds between two stores that answer every call had its buffer, was hindered
by nothing at the beginning, and its result is the number of bytes of the source. -/
theorem unhindered_of_ok {ε : Type} {surroundings : Handler ε} {e : ε} {bound n : Nat}
    {job : CopyJob} {init : StorePair} {file : MemoryFile} (hfits : job.Fits init file)
    (hdefaults : job.defaults = init.target.defaults)
    (hbelow : job.temp.key.isAbove job.target.key = false)
    (hrun : (Program.run (StorePair.serving surroundings) (copyOnce bound job) (init, e)).1
      = .done (.ok n)) :
    job.plan.bufferTrouble? = none ∧ job.Unhindered init file ∧
      n = wrap64 file.content.length := by
  obtain ⟨husable, exchanges, final, hphase, hpair⟩ := trail_of_ok hrun
  have htogether := Trail.together (I := fun phase pair =>
      StorePair.Frame init pair ∧ CopyPhase.Stands job init file.content pair phase ∧
        CopyPhase.Shown job init file phase) ?_ hphase hpair ?_
  · obtain ⟨-, ⟨-, hcount⟩, hstage, hverify, hclear, hpublish⟩ := htogether
    exact ⟨CopyPhase.buffered_of_flowing hphase rfl, { hfits with
      usable := husable
      defaults := hdefaults
      tempNotAbove := hbelow
      targetEmpty := hclear
      tempNoDirectory := hstage.1
      targetFree := hpublish
      tempFree := hstage.2
      comparable := hverify }, hcount⟩
  · rintro phase pair x after pair' ⟨hframe, hstands, hshown⟩ hstep hanswer
    exact ⟨hframe.step (CopyPhase.reads_step hstep) hanswer,
      CopyPhase.stands_step hfits hframe hstands hstep hanswer,
      CopyPhase.shown_step hfits hdefaults hbelow hframe hstands hshown hstep hanswer⟩
  · exact ⟨⟨rfl, rfl, rfl, rfl, hfits.reachable⟩, rfl, trivial⟩

end StagedCopy
