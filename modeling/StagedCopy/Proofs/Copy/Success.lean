import Mathlib.Algebra.BigOperators.Group.List.Basic
import StagedCopy.Proofs.Checksum
import StagedCopy.Proofs.Copy.Unread

/-!
# A copy that nothing disturbs

Between two stores in memory that answer every call, an attempt succeeds for every content, ceiling
and set of attributes and for every buffer size for which there is a buffer, whatever the clock
shows and the task answers, and what stands in the target store afterwards is known at every place:
the copy at the target, nothing at the place of the temporary file, directories where they were
missing above these two, and what was there before everywhere else. Without a buffer the attempt
breaks down and leaves the directories above the temporary file.

* `CopyJob.Clear` — what is asked of the job and of the stores at the beginning.
* `CopyJob.Unhindered` — the same, but for an empty directory that may stand at the target.
* `CopyJob.Unhindered.published_eq` — what stands where at the end, in terms of the beginning
  alone.
* `CopyPhase.Smooth` — the phases that such an attempt goes through, kept by every step.
* `smooth_run` — it succeeds; `unbuffered_run` — it breaks down without a buffer; `copies_exactly` —
  the theorem.
-/

namespace StagedCopy

open Program (Exchange Handler)

/-! ## The beginning and the end -/

namespace CopyJob

variable (job : CopyJob)

/-- Nothing is in the way of a copy: the attempt id can be used, the job knows the defaults of the
target store, neither of target and temporary file is above the other or a directory, no file is
above them, and checksums, where they are compared, are of one kind. -/
structure Clear (init : StorePair) (file : MemoryFile) : Prop extends job.Fits init file where
  usable : isAttemptId job.attemptId = true
  defaults : job.defaults = init.target.defaults
  tempNotAbove : job.temp.key.isAbove job.target.key = false
  targetNoDirectory : init.target.get? job.target.key ≠ some .directory
  tempNoDirectory : init.target.get? job.temp.key ≠ some .directory
  targetFree : ∀ a ∈ job.target.key.properAncestors, ∀ f, init.target.get? a ≠ some (.file f)
  tempFree : ∀ a ∈ job.temp.key.properAncestors, ∀ f, init.target.get? a ≠ some (.file f)
  comparable : file.content = [] ∨ job.options.verification = .skip ∨
    ∃ a b, checksumOf init.source.checksumKind file.layout.blockSize file.content = some a ∧
      checksumOf init.target.checksumKind (job.copiedLayout init.target.defaults).blockSize
        file.content = some b ∧
      a.algorithm = b.algorithm ∧ a.blockSize = b.blockSize

/-- Nothing hinders a copy: as when nothing is in its way, but a directory may stand at the target
if nothing is in it, since it is removed as a file would be. -/
structure Unhindered (init : StorePair) (file : MemoryFile) : Prop
    extends job.Fits init file where
  usable : isAttemptId job.attemptId = true
  defaults : job.defaults = init.target.defaults
  tempNotAbove : job.temp.key.isAbove job.target.key = false
  targetEmpty : init.target.get? job.target.key = some .directory →
    init.target.tree.hasBelow job.target.key = false
  tempNoDirectory : init.target.get? job.temp.key ≠ some .directory
  targetFree : ∀ a ∈ job.target.key.properAncestors, ∀ f, init.target.get? a ≠ some (.file f)
  tempFree : ∀ a ∈ job.temp.key.properAncestors, ∀ f, init.target.get? a ≠ some (.file f)
  comparable : wrap64 file.content.length = 0 ∨ job.options.verification = .skip ∨
    ∃ a b, checksumOf init.source.checksumKind file.layout.blockSize file.content = some a ∧
      checksumOf init.target.checksumKind (job.copiedLayout init.target.defaults).blockSize
        file.content = some b ∧
      a.algorithm = b.algorithm ∧ a.blockSize = b.blockSize

variable {job} {init : StorePair} {file : MemoryFile}

theorem Clear.unhindered (h : job.Clear init file) : job.Unhindered init file :=
  { h with
    targetEmpty := fun hdirectory => absurd hdirectory h.targetNoDirectory
    comparable := h.comparable.imp_left fun hempty => by rw [hempty, List.length_nil]; rfl }

/-- The size of the buffer is in nobody's way. -/
theorem Clear.rebuffer (h : job.Clear init file) (size : Nat) :
    { job with options := { job.options with bufferSize := size } }.Clear init file where
  source := h.source
  reachable := h.reachable
  normal := h.normal
  unended := h.unended
  apart := h.apart
  notAbove := h.notAbove
  usable := h.usable
  defaults := h.defaults
  tempNotAbove := h.tempNotAbove
  targetNoDirectory := h.targetNoDirectory
  tempNoDirectory := h.tempNoDirectory
  targetFree := h.targetFree
  tempFree := h.tempFree
  comparable := h.comparable

theorem layoutFor_layout {store : MemoryStore} (h : job.defaults = store.defaults) :
    store.layoutFor job.layout = job.copiedLayout store.defaults := by
  unfold MemoryStore.layoutFor copiedLayout layout Attributes.choose FileStatus.layout
  rw [h, Layout.mk.injEq]
  constructor
  · cases hkept : job.attributes.replication <;> simp [Attributes.contains, hkept]
  · cases hkept : job.attributes.blockSize <;> simp [Attributes.contains, hkept]

/-- When neither of target and temporary file is above the other, the store at the end is the one
that is published. -/
theorem Unhindered.published_eq (h : job.Unhindered init file) (k : Key) :
    job.published init.target file.content k = job.copied init.target file.content k := by
  unfold published copied
  rw [layoutFor_layout h.defaults]
  by_cases htarget : k = job.target.key
  · rw [if_pos htarget, if_pos htarget]
  rw [if_neg htarget, if_neg htarget]
  by_cases htemp : k = job.temp.key
  · rw [if_pos htemp, if_pos htemp]
  rw [if_neg htemp, if_neg htemp]
  unfold housed cleared staged
  rw [if_neg htarget, if_neg htemp]
  by_cases hnone : init.target.get? k = none
  · by_cases habove : k ∈ job.temp.key.properAncestors
    · simp [hnone, habove]
    · simp [hnone, habove]
  · simp [hnone]

end CopyJob

/-! ## Calls that succeed -/

/-- What a call was answered is what the store that it was for answers. -/
def StorePair.Answers (pair : StorePair) : Exchange → Prop
  | ⟨.storage .source call, answer⟩ => (pair.source.perform call).1 = answer
  | ⟨.storage .target call, answer⟩ => (pair.target.perform call).1 = answer
  | _ => True

namespace MemoryStore

variable {store : MemoryStore} {path : Path} {f : MemoryFile}

/-- An operation that succeeds is not answered by an error. -/
theorem conclude_fst {α : Type} {outcome : Outcome α} {result : α × MemoryStore}
    (h : outcome = .ok result) : (store.conclude outcome).1 = .ok result.1 := by
  rw [h]
  rfl

theorem status_of_file (h : store.get? path.key = some (.file f)) :
    ∃ status, (store.perform (.status path)).1 = .ok status ∧
      status.length = wrap64 f.content.length := by
  simp only [perform, status, h]
  exact ⟨_, rfl, rfl⟩

theorem checksum_of_file (h : store.get? path.key = some (.file f)) :
    (store.perform (.checksum path)).1
      = .ok (checksumOf store.checksumKind f.layout.blockSize f.content) := by
  simp only [perform, checksum, file?_eq_some.2 h]
  rfl

end MemoryStore

namespace CopyPhase

/-- The end of an attempt that nothing disturbs: it did not fail, and broke down for want of a
buffer only. -/
def Undisturbed (job : CopyJob) : AttemptEnd → Prop
  | .ok _ => True
  | .error _ => False
  | .broken trouble _ => job.plan.bufferTrouble? = some trouble

/-- The phases of an attempt that nothing disturbs, and what it knows at them. -/
def Smooth (job : CopyJob) (init : StorePair) (file : MemoryFile) : CopyPhase → Prop
  | reading _ _ moved => ∀ c ∈ moved, c ≠ []
  | writing _ _ moved chunk => ∀ c ∈ moved ++ [chunk], c ≠ []
  | closing _ _ (some _) => False
  | summingSource moved => 0 < tally moved ∧ job.options.verification = .verify
  | summingTemp moved sum =>
    (0 < tally moved ∧ job.options.verification = .verify) ∧
      sum = checksumOf init.source.checksumKind file.layout.blockSize file.content
  | clearingTarget _ => init.target.get? job.target.key ≠ none
  | findingTemp result | clearingTemp result | finished result => Undisturbed job result
  | _ => True

section smooth

variable {job : CopyJob} {init pair : StorePair} {file : MemoryFile} {moved : List Bytes}

/-- While the temporary file is staged, it is a file with the content. -/
theorem get?_temp (hdefaults : job.defaults = init.target.defaults)
    (h : Holds pair.target (job.staged init.target file.content)) :
    pair.target.get? job.temp.key
      = some (.file ⟨file.content, job.copiedLayout init.target.defaults⟩) := by
  rw [h, CopyJob.staged, if_pos rfl, CopyJob.layoutFor_layout hdefaults]

/-- The checksums of the source and of the temporary file are equal. -/
theorem verdict_of_unhindered (hfree : job.Unhindered init file)
    (hcontent : moved.flatten = file.content)
    (hverify : 0 < tally moved ∧ job.options.verification = .verify) :
    (ChecksumReport.ofChecksums
      (checksumOf init.source.checksumKind file.layout.blockSize file.content)
      (checksumOf init.target.checksumKind (job.copiedLayout init.target.defaults).blockSize
        file.content)).verdict = .equal := by
  rcases hfree.comparable with hempty | hskip | ⟨a, b, ha, hb, halgorithm, hblocks⟩
  · rw [tally_eq_of_flatten hcontent, hempty] at hverify
    exact absurd hverify.1 (Nat.lt_irrefl 0)
  · rw [hskip] at hverify
    cases hverify.2
  · obtain rfl := checksumOf_eq_of_comparable ha hb halgorithm hblocks
    exact ChecksumReport.equal_iff.2 ⟨a, a, ha, hb, rfl, rfl, rfl⟩

/-- Above the target there is no file but, at most, the temporary file. -/
theorem cleared_free (hfree : job.Unhindered init file) {a : Key}
    (ha : a ∈ job.target.key.properAncestors) (f : MemoryFile) :
    job.cleared init.target file.content a ≠ some (.file f) := by
  have htarget : a ≠ job.target.key := by
    rintro rfl
    exact Key.not_mem_properAncestors_self _ ha
  have htemp : a ≠ job.temp.key := by
    rintro rfl
    have habove := (Key.mem_properAncestors.1 ha).2
    rw [hfree.tempNotAbove] at habove
    cases habove
  rw [CopyJob.cleared, if_neg htarget, CopyJob.staged, if_neg htemp]
  split
  · intro heq
    cases heq
  · exact hfree.targetFree a ha f

/-! ### What succeeds -/

theorem creates (hfree : job.Unhindered init file) :
    ∃ stream, (init.target.perform
      (.createFile job.temp true job.options.bufferSize job.layout)).1 = .ok (.ok stream) :=
  ⟨_, congrArg Prod.fst (CopyJob.create_served_iff.2
    ⟨⟨hfree.tempNoDirectory, hfree.tempFree⟩, rfl⟩)⟩

/-- The temporary file is closed while it is there. -/
theorem closes {output : StreamId} {bytes : Bytes}
    (hholds : Holds pair.target (job.staged init.target []))
    (haccepts : job.Accepts pair.target output bytes) :
    (pair.target.perform (.close output)).1 = .ok () := by
  obtain ⟨writer, hwriter, hkey, hopen, -⟩ := haccepts
  have hfile : pair.target.file? writer.key
      = some ⟨[], init.target.layoutFor job.layout⟩ := by
    rw [MemoryStore.file?_eq_some, hkey, hholds, CopyJob.staged, if_pos rfl]
  simp only [MemoryStore.perform, MemoryStore.close_eq hwriter hopen, hfile]
  rfl

/-- A target that is there is a file or an empty directory, so it can be removed. -/
theorem removes (hfree : job.Unhindered init file)
    (hholds : Holds pair.target (job.staged init.target file.content))
    (hthere : init.target.get? job.target.key ≠ none) :
    ∃ result, pair.target.remove job.target false = .ok result := by
  have hfits := hfree.toFits
  obtain ⟨node, hnode⟩ := Option.ne_none_iff_exists'.1 hthere
  have hget : pair.target.get? job.target.key = some node := by
    rw [hholds, hfits.staged_target, hnode]
  have hempty : node = .directory → pair.target.tree.hasBelow job.target.key = false := by
    rintro rfl
    refine Bool.eq_false_iff.2 fun hbelow => ?_
    obtain ⟨k, hbelow, hthere⟩ := Tree.hasBelow_iff.1 hbelow
    refine hthere ((hholds k).trans ?_)
    rw [hfits.staged_below hbelow]
    exact Tree.get?_of_hasBelow (hfree.targetEmpty hnode) hbelow
  exact ⟨_, MemoryStore.remove_eq_ok.2 ⟨hfits.target_ne_root, ⟨node, hget, hempty⟩, rfl⟩⟩

/-- No file is in the way of the directories above the target. -/
theorem makesDirs (hfree : job.Unhindered init file)
    (hholds : Holds pair.target (job.cleared init.target file.content)) :
    ∃ result, pair.target.makeDirs job.target.parent = .ok result := by
  have hfits := hfree.toFits
  refine ⟨_, MemoryStore.makeDirs_eq_ok.2 ⟨?_, rfl⟩⟩
  intro place hplace f hfile
  rw [hfits.key_parent] at hplace
  have hroot : place ≠ [] := MemoryStore.ne_root_of_file hfile
  have habove : place ∈ job.target.key.properAncestors :=
    Key.mem_properAncestors_iff_parent.2 ⟨hroot, hplace⟩
  rw [hholds] at hfile
  exact cleared_free hfree habove f hfile

/-- The temporary file is there, the target is not, and the parent of the target is a directory. -/
theorem renames (hfree : job.Unhindered init file)
    (hholds : Holds pair.target (job.housed init.target file.content)) :
    ∃ result, pair.target.rename job.temp job.target = .ok result := by
  have hfits := hfree.toFits
  have htemp : pair.target.get? job.temp.key
      = some (.file ⟨file.content, init.target.layoutFor job.layout⟩) := by
    rw [hholds, hfits.housed_temp]
  have htarget : pair.target.get? job.target.key = none := by
    rw [hholds, CopyJob.housed_target]
  have hparent : pair.target.get? job.target.key.parent = some .directory := by
    by_cases hroot : job.target.key.parent = []
    · rw [hroot]
      exact Tree.get?_root pair.target.tree
    · have habove : job.target.key.parent ∈ job.target.key.properAncestors :=
        Key.mem_properAncestors_iff_parent.2 ⟨hroot, .inl rfl⟩
      rw [hholds, CopyJob.housed]
      split
      · rfl
      · next hthere =>
        rw [not_and] at hthere
        obtain ⟨node, hnode⟩ := Option.ne_none_iff_exists'.1 (hthere habove)
        cases node with
        | directory => exact hnode
        | file f => exact absurd hnode (cleared_free hfree habove f)
  exact ⟨_, MemoryStore.rename_eq_ok.2 ⟨_, htemp, htarget, hparent, rfl⟩⟩

theorem source_of_frame (hfits : job.Fits init file) (hframe : StorePair.Frame init pair) :
    pair.source.get? job.source.path.key = some (.file file) := by
  rw [MemoryStore.get?, hframe.sourceTree]
  exact hfits.source

end smooth

/-! ### The steps -/

/-- Nothing is refused to an attempt, as long as nothing was. -/
theorem smooth_step {job : CopyJob} {init pair : StorePair} {file : MemoryFile}
    {phase after : CopyPhase} {x : Exchange} (hfree : job.Unhindered init file)
    (hframe : StorePair.Frame init pair) (hstands : Stands job init file.content pair phase)
    (hsmooth : Smooth job init file phase) (hstep : Step job phase x after)
    (hanswer : pair.Answers x) : Smooth job init file after := by
  have hsource := source_of_frame hfree.toFits hframe
  cases hstep with
  | silent => exact hsmooth
  | created output => trivial
  | notCreated message =>
    obtain rfl : pair = init := hstands
    obtain ⟨stream, hcreate⟩ := creates hfree
    cases hanswer.symm.trans hcreate
  | createdUnbuffered trouble =>
    obtain rfl : pair = init := hstands
    obtain ⟨stream, hcreate⟩ := creates hfree
    cases hanswer.symm.trans hcreate
  | opened input => exact fun c hc => absurd hc List.not_mem_nil
  | openedUnbuffered input htrouble => exact htrouble
  | notOpened message =>
    have hopen := MemoryStore.openFile_eq_ok.2 ⟨file, hsource, rfl⟩
    cases hanswer.symm.trans (MemoryStore.conclude_fst hopen)
  | delivered hchunk =>
    intro c hc
    rcases List.mem_append.1 hc with hc | hc
    · exact hsmooth c hc
    · rw [List.mem_singleton.1 hc]
      exact hchunk
  | ended => trivial
  | @notRead output input moved message =>
    obtain ⟨-, -, rest, hgives, -⟩ := hstands
    obtain ⟨result, hread⟩ : ∃ result, pair.source.read input job.plan.chunkSize = .ok result :=
      ⟨_, MemoryStore.read_eq_ok.2 ⟨_, hgives, rfl⟩⟩
    cases hanswer.symm.trans (MemoryStore.conclude_fst hread)
  | written => exact hsmooth
  | @notWritten output input moved chunk message =>
    obtain ⟨-, ⟨writer, hwriter, -, hopen, -⟩, -⟩ := hstands
    obtain ⟨result, hwrite⟩ : ∃ result, pair.target.write output chunk = .ok result :=
      ⟨_, MemoryStore.write_eq_ok.2 ⟨writer, hwriter, hopen, rfl⟩⟩
    cases hanswer.symm.trans (MemoryStore.conclude_fst hwrite)
  | closed => trivial
  | notClosed message =>
    obtain ⟨hholds, haccepts, -⟩ := hstands
    cases hanswer.symm.trans (closes hholds haccepts)
  | closedAfter answer => exact hsmooth.elim
  | sourceSized hlength => trivial
  | sourceOff hlength =>
    obtain ⟨status, hstatus, hsize⟩ := MemoryStore.status_of_file hsource
    obtain rfl := Except.ok.inj (hanswer.symm.trans hstatus)
    rw [tally_eq_of_flatten hstands.2] at hlength
    exact absurd hsize hlength
  | sourceUnsized message =>
    obtain ⟨status, hstatus, -⟩ := MemoryStore.status_of_file hsource
    cases hanswer.symm.trans hstatus
  | tempSized hlength => exact afterLengths_cases (fun hverify => hverify) fun _ => trivial
  | tempOff hlength =>
    obtain ⟨status, hstatus, hsize⟩ :=
      MemoryStore.status_of_file (get?_temp hfree.defaults hstands.1)
    obtain rfl := Except.ok.inj (hanswer.symm.trans hstatus)
    rw [tally_eq_of_flatten hstands.2] at hlength
    exact absurd hsize hlength
  | tempUnsized message =>
    obtain ⟨status, hstatus, -⟩ := MemoryStore.status_of_file (get?_temp hfree.defaults hstands.1)
    cases hanswer.symm.trans hstatus
  | sourceSummed sum =>
    have hsum := Except.ok.inj (hanswer.symm.trans (MemoryStore.checksum_of_file hsource))
    rw [hframe.sourceKind] at hsum
    exact ⟨hsmooth, hsum⟩
  | sourceUnsummed message =>
    cases hanswer.symm.trans (MemoryStore.checksum_of_file hsource)
  | tempSummed hequal => trivial
  | tempDiffers hdiffers =>
    obtain ⟨hverify, rfl⟩ := hsmooth
    have hsum := Except.ok.inj
      (hanswer.symm.trans (MemoryStore.checksum_of_file (get?_temp hfree.defaults hstands.1)))
    rw [hframe.targetKind] at hsum
    rw [hsum] at hdiffers
    exact absurd (verdict_of_unhindered hfree hstands.2 hverify) hdiffers
  | tempUnsummed message =>
    cases hanswer.symm.trans (MemoryStore.checksum_of_file (get?_temp hfree.defaults hstands.1))
  | targetFound =>
    have hfound : (pair.target.get? job.target.key).isSome = true := Except.ok.inj hanswer
    rw [hstands.1, hfree.toFits.staged_target] at hfound
    exact Option.isSome_iff_ne_none.1 hfound
  | targetAbsent => exact afterClearing_cases (fun _ => trivial) fun _ => trivial
  | targetUnknown message => cases hanswer
  | targetCleared => exact afterClearing_cases (fun _ => trivial) fun _ => trivial
  | targetKept message =>
    obtain ⟨result, hremove⟩ := removes hfree hstands.1 hsmooth
    cases hanswer.symm.trans (MemoryStore.conclude_fst hremove)
  | parentFound => trivial
  | parentAbsent => trivial
  | parentUnknown message => cases hanswer
  | parentMade => trivial
  | parentNotMade message =>
    obtain ⟨result, hmake⟩ := makesDirs hfree hstands.1
    cases hanswer.symm.trans (MemoryStore.conclude_fst hmake)
  | renamed => trivial
  | notRenamed message =>
    obtain ⟨result, hrename⟩ := renames hfree hstands.1
    cases hanswer.symm.trans (MemoryStore.conclude_fst hrename)
  | tempFound => exact hsmooth
  | tempAbsent => exact hsmooth
  | tempUnknown => exact hsmooth
  | tempCleared => exact hsmooth

/-- Chunks that are not empty are at most as many as the bytes of a content that they begin. -/
theorem length_le_of_moved {moved : List Bytes} {rest content : Bytes} (h : ∀ c ∈ moved, c ≠ [])
    (hcontent : moved.flatten ++ rest = content) : moved.length ≤ content.length := by
  have hsum := List.length_le_sum_of_one_le (moved.map List.length) fun n hn => by
    obtain ⟨c, hc, rfl⟩ := List.mem_map.1 hn
    exact List.length_pos_iff.2 (h c hc)
  rw [List.length_map, ← List.length_flatten] at hsum
  rw [← hcontent, List.length_append]
  exact Nat.le_add_right_of_le hsum

end CopyPhase

/-! ## The theorem -/

theorem StorePair.answers_of_serving {ε : Type} {surroundings : Handler ε}
    {state after : StorePair × ε} {x : Exchange}
    (h : (serving surroundings).step state x after) : state.1.Answers x := by
  obtain ⟨r, answer⟩ := x
  obtain ⟨pair, e⟩ := state
  have hanswer := (Prod.ext_iff.1 h).1
  cases r with
  | storage side call => cases side <;> exact hanswer
  | _ => trivial

open CopyPhase in
/-- Along an execution with stores that do not fail, the stores are as the phase says and nothing
is refused. -/
theorem smooth_trail {ε : Type} {surroundings : Handler ε} {job : CopyJob} {init : StorePair}
    {e : ε} {state : StorePair × ε} {file : MemoryFile} {phase : CopyPhase}
    {exchanges : List Exchange} (hfree : job.Unhindered init file)
    (hphase : Trail (Step job) .creating exchanges phase)
    (hstate : Trail (StorePair.serving surroundings).step (init, e) exchanges state) :
    StorePair.Frame init state.1 ∧ Stands job init file.content state.1 phase ∧
      Smooth job init file phase := by
  refine Trail.together (I := fun phase (state : StorePair × ε) =>
    StorePair.Frame init state.1 ∧ Stands job init file.content state.1 phase ∧
      Smooth job init file phase) ?_ hphase hstate ?_
  · rintro phase state x after state' ⟨hframe, hstands, hsmooth⟩ hstep hserved
    have hpair := StorePair.step_of_serving hserved
    have hanswer := StorePair.answers_of_serving hserved
    refine ⟨hframe.step (reads_step hstep) hpair, ?_, ?_⟩
    · exact stands_step hfree.toFits hframe hstands hstep hpair
    · exact smooth_step hfree hframe hstands hsmooth hstep hanswer
  · exact ⟨⟨rfl, rfl, rfl, rfl, hfree.reachable⟩, rfl, trivial⟩

section run

variable {ε : Type} (surroundings : Handler ε) (e : ε) {bound : Nat} {job : CopyJob}
  {init : StorePair} {file : MemoryFile}

/-- A copy that nothing hinders comes to its end undisturbed. -/
theorem undisturbed_run (hfree : job.Unhindered init file) (hbound : file.content.length < bound) :
    ∃ (decided : AttemptEnd) (final : StorePair × ε),
      Program.run (StorePair.serving surroundings) (copyOnce bound job) (init, e)
        = (job.outcome decided, final) ∧
      Trail (CopyPhase.Step job) .creating
        (Program.exchanges (StorePair.serving surroundings) (copyOnce bound job) (init, e))
        (.finished decided) ∧
      StorePair.Frame init final.1 ∧ CopyPhase.Settled job init file.content final.1 decided ∧
      CopyPhase.Undisturbed job decided := by
  have hstate := Program.trail_exchanges (StorePair.serving surroundings) (copyOnce bound job)
    (init, e)
  obtain ⟨phase, hphase, hend⟩ :=
    (copyOnce_follows hfree.usable).of_handler (StorePair.serving surroundings) (init, e)
  obtain ⟨hframe, hstands, hsmooth⟩ := smooth_trail hfree hphase hstate
  rcases hrun : Program.run (StorePair.serving surroundings) (copyOnce bound job) (init, e) with
    ⟨outcome, final⟩
  rw [hrun] at hend hframe hstands
  cases outcome with
  | unfinished =>
    obtain ⟨output, input, moved, rfl, hlength⟩ := hend
    obtain ⟨-, -, rest, -, hcontent⟩ := hstands
    have hmoved := CopyPhase.length_le_of_moved hsmooth hcontent
    omega
  | done | broken =>
    obtain ⟨decided, rfl, hdecided⟩ := hend
    exact ⟨decided, final, Prod.ext_iff.2 ⟨hdecided, rfl⟩, hphase, hframe, hstands, hsmooth⟩

/-- A copy that nothing hinders and that has a buffer succeeds with the number of bytes of the
source, and the target store is then the one that is published. -/
theorem smooth_run (hfree : job.Unhindered init file) (hbuffer : job.plan.bufferTrouble? = none)
    (hbound : file.content.length < bound) :
    ∃ final : StorePair × ε,
      Program.run (StorePair.serving surroundings) (copyOnce bound job) (init, e)
        = (.done (.ok (wrap64 file.content.length)), final) ∧
      StorePair.Frame init final.1 ∧
      Holds final.1.target (job.copied init.target file.content) := by
  obtain ⟨decided, final, hrun, -, hframe, hsettled, hundisturbed⟩ :=
    undisturbed_run surroundings e hfree hbound
  cases decided with
  | ok copied =>
    obtain ⟨hholds, rfl⟩ := hsettled
    refine ⟨final, hrun, hframe, fun k => ?_⟩
    rw [← hfree.published_eq]
    exact hholds k
  | error => exact hundisturbed.elim
  | broken trouble left => cases hbuffer.symm.trans hundisturbed

/-- Without a buffer it breaks down, and the temporary file is removed. -/
theorem unbuffered_run (hfree : job.Unhindered init file) {trouble : Breakdown}
    (hbuffer : job.plan.bufferTrouble? = some trouble) (hbound : file.content.length < bound) :
    ∃ final : StorePair × ε,
      Program.run (StorePair.serving surroundings) (copyOnce bound job) (init, e)
        = (.broken trouble, final) ∧
      StorePair.Frame init final.1 ∧ Holds final.1.target (job.discarded init.target) := by
  obtain ⟨decided, final, hrun, hphase, hframe, -, hundisturbed⟩ :=
    undisturbed_run surroundings e hfree hbound
  cases decided with
  | ok copied => cases hbuffer.symm.trans (CopyPhase.buffered_of_flowing hphase rfl)
  | error => exact hundisturbed.elim
  | broken other left =>
    obtain rfl : trouble = other := Option.some.inj (hbuffer.symm.trans hundisturbed)
    have hstate := Program.trail_exchanges (StorePair.serving surroundings) (copyOnce bound job)
      (init, e)
    rw [hrun] at hstate
    obtain ⟨-, hholds⟩ := CopyPhase.leaves_trail hphase (trail_of_serving hstate)
    exact ⟨final, hrun, hframe, hholds⟩

/-- Between two stores in memory that answer every call, with nothing in the way and with a buffer,
an attempt succeeds with the number of bytes of the source, whatever the clock shows and the task
answers. The source is left as it was, and so are the settings of the target store and what stands
in it, but for the copy at the target, the place of the temporary file, at which nothing is left,
and the directories that were missing above these two. A read loop needs at most one more round than
the source has bytes.

Without a buffer the attempt breaks down, and of all this only the directories above the temporary
file are there. -/
theorem copies_exactly (hclear : job.Clear init file) (hbound : file.content.length < bound) :
    ∃ final : StorePair × ε,
      final.1.source.tree = init.source.tree ∧
      final.1.target.checksumKind = init.target.checksumKind ∧
      final.1.target.defaults = init.target.defaults ∧
      match job.plan.bufferTrouble? with
      | none =>
        Program.run (StorePair.serving surroundings) (copyOnce bound job) (init, e)
          = (.done (.ok (wrap64 file.content.length)), final) ∧
        ∀ k, final.1.target.get? k = job.copied init.target file.content k
      | some trouble =>
        Program.run (StorePair.serving surroundings) (copyOnce bound job) (init, e)
          = (.broken trouble, final) ∧
        ∀ k, final.1.target.get? k = job.discarded init.target k := by
  cases hbuffer : job.plan.bufferTrouble? with
  | none =>
    obtain ⟨final, hrun, hframe, hholds⟩ :=
      smooth_run surroundings e hclear.unhindered hbuffer hbound
    exact ⟨final, hframe.sourceTree, hframe.targetKind, hframe.targetDefaults, hrun, hholds⟩
  | some trouble =>
    obtain ⟨final, hrun, hframe, hholds⟩ :=
      unbuffered_run surroundings e hclear.unhindered hbuffer hbound
    exact ⟨final, hframe.sourceTree, hframe.targetKind, hframe.targetDefaults, hrun, hholds⟩

end run

/-- Nothing is in the way of the small job. -/
theorem clear_small : smallJob.Clear smallStores ⟨utf8 "abc", ⟨1, 64⟩⟩ := by
  have hfree : ∀ a f, smallStores.target.get? a ≠ some (.file f) := by
    intro a f hf
    rw [MemoryStore.get?, Tree.get?] at hf
    split at hf <;> cases hf
  exact
    { source := by decide +kernel
      reachable := .new _ _
      normal := by decide +kernel
      unended := by decide +kernel
      apart := by decide +kernel
      notAbove := by decide +kernel
      usable := by decide +kernel
      defaults := rfl
      tempNotAbove := by decide +kernel
      targetNoDirectory := by decide +kernel
      tempNoDirectory := by decide +kernel
      targetFree := fun a _ => hfree a
      tempFree := fun a _ => hfree a
      comparable := .inr (.inr ⟨_, _, checksumOf_eq _ _ _, checksumOf_eq _ _ _, rfl, rfl⟩) }

theorem copies_exactly_small :
    smallJob.Clear smallStores ⟨utf8 "abc", ⟨1, 64⟩⟩ ∧ (utf8 "abc").length < 4 ∧
    (Program.run (StorePair.serving (obliging 0)) (copyOnce 4 smallJob) (smallStores, [])).1
      = .done (.ok 3) ∧
    ∀ k, (Program.run (StorePair.serving (obliging 0)) (copyOnce 4 smallJob)
      (smallStores, [])).2.1.target.get? k = smallJob.copied smallStores.target (utf8 "abc") k := by
  have hbound : (utf8 "abc").length < 4 := by decide +kernel
  obtain ⟨final, -, -, -, hcopied⟩ := copies_exactly (obliging 0) [] clear_small hbound
  have hbuffer : smallJob.plan.bufferTrouble? = none := by decide +kernel
  rw [hbuffer] at hcopied
  obtain ⟨hrun, hget⟩ := hcopied
  rw [hrun]
  exact ⟨clear_small, hbound, rfl, hget⟩

/-- Nothing is in the way of the small job with a buffer that nobody can have, and it does not
succeed. -/
theorem copies_nothing_unbuffered :
    unbufferedJob.Clear smallStores ⟨utf8 "abc", ⟨1, 64⟩⟩ ∧
    (Program.run (StorePair.serving (obliging 0)) (copyOnce 4 unbufferedJob) (smallStores, [])).1
      = .broken (.excessiveBuffer .bytes) :=
  ⟨clear_small.rebuffer _, rfl⟩

end StagedCopy
