import StagedCopy.Proofs.Copy.Agreement

/-!
# Where a disk makes too few directories

A disk makes no more than so many directories at once, and a store in memory any number of them.
When more are missing on the way to the temporary file, the attempt on disk fails to create it, and
the one in memory does not. So this is where the two part, and no path needs to be longer than a
disk can follow for it. They part as well over a buffer that nobody can have.

* `CopyPhase.decided` — the end that is already decided; `CopyPhase.decided_of_refused` — that of an
  attempt whose temporary file is not created.
* `CopyPhase.Underway` — an attempt in memory past the creation of its temporary file.
* `attempts_differ` — the results; `attempts_differ_small` — two small cases.
-/

namespace StagedCopy

open Program (Handler)
open Relation (ReflTransGen)

/-- Only one failure is reported from the creation of the temporary file. -/
theorem CopyFailure.exists_of_step {failure : CopyFailure}
    (h : failure.step = utf8 "create-temp") : ∃ message, failure = .createTemp message := by
  cases failure with
  | createTemp message => exact ⟨message, rfl⟩
  | promotion part =>
    exfalso
    revert h
    cases part <;> (dsimp only [step, PromotionStep.name]; decide)
  | _ =>
    exfalso
    revert h
    dsimp only [step]
    decide

/-- An end that neither a refused temporary file nor a missing buffer brings about. -/
def AttemptEnd.Later : AttemptEnd → Prop
  | .ok _ => True
  | .error failure => ∀ message, failure ≠ .createTemp message
  | .broken .. => False

namespace CopyPhase

/-! ## What is decided -/

/-- The end that is already decided. -/
def decided : CopyPhase → Option AttemptEnd
  | closing _ _ (some failure) => some (.error failure)
  | findingTemp ended | clearingTemp ended | finished ended => some ended
  | _ => none

variable {job : CopyJob} {phase next : CopyPhase} {x : Program.Exchange}

/-- What is decided stays so. -/
theorem decided_step {ended : AttemptEnd} (h : phase.decided = some ended)
    (hstep : Step job phase x next) : next.decided = some ended := by
  cases hstep with
  | silent | closedAfter | tempFound | tempAbsent | tempUnknown | tempCleared => exact h
  | _ => cases h

/-- What the first step brings about and every other one keeps holds everywhere but at the
start. -/
theorem start_or_holds {α : Type} {step : α → α → Prop} {a b : α} (holds : α → Prop)
    (hfirst : ∀ c, step a c → holds c) (hkeeps : ∀ c d, holds c → step c d → holds d)
    (h : ReflTransGen step a b) : b = a ∨ holds b := by
  induction h with
  | refl => exact .inl rfl
  | tail _ hlast ih =>
    rcases ih with rfl | hbefore
    · exact .inr (hfirst _ hlast)
    · exact .inr (hkeeps _ _ hbefore hlast)

/-- An attempt whose temporary file is not created comes to no other end. -/
theorem decided_of_refused {σ : Type} {served : σ → Program.Exchange → σ → Prop} {s s' : σ}
    (hrefuses : ∀ {value : Except Breakdown StreamId} {after : σ}, ¬ served s
      ⟨.storage .target (.createFile job.temp true job.options.bufferSize job.layout), .ok value⟩
      after)
    (hmoves : ReflTransGen (Move job served) (creating, s) (phase, s')) :
    phase = creating ∨ ∃ message, phase.decided = some (.error (.createTemp message)) := by
  refine (start_or_holds
    (fun b => ∃ message, b.1.decided = some (.error (.createTemp message))) ?_ ?_ hmoves).imp_left
      (congrArg Prod.fst)
  · rintro ⟨first, after⟩ ⟨x, hx, hstep, hserved⟩
    cases hstep with
    | silent hsilent => cases hsilent.symm.trans hx
    | created | createdUnbuffered => exact absurd hserved hrefuses
    | notCreated message => exact ⟨message, rfl⟩
  · rintro before after ⟨message, hdecided⟩ ⟨x, -, hstep, -⟩
    exact ⟨message, decided_step hdecided hstep⟩

/-! ## In memory -/

section underway

variable (job : CopyJob) (bound : Nat)

/-- The attempt is past the creation of the temporary file, which did not fail, and reads less than
the bound. -/
def Underway (store : MemoryStore) : CopyPhase → Prop
  | creating => False
  | opening _ => SourceBelow job bound store
  | reading _ input moved =>
    ∃ content : Bytes, content.length < bound ∧ CopyJob.Delivers store input moved content
  | writing _ input moved chunk =>
    ∃ content : Bytes, content.length < bound ∧
      CopyJob.Delivers store input (moved ++ [chunk]) content
  | phase => ∀ ended ∈ phase.decided, ended.Later

end underway

variable {bound : Nat} {store after : MemoryStore}

theorem underway_step (hbuffer : job.plan.bufferTrouble? = none)
    (h : Underway job bound store phase) (hstep : Step job phase x next)
    (hserved : SharedStep store x after) : Underway job bound after next := by
  cases hstep with
  | silent hx =>
    rw [hserved.of_silent hx]
    exact h
  | created | createdUnbuffered | notCreated => exact h.elim
  | openedUnbuffered input htrouble => cases hbuffer.symm.trans htrouble
  | opened input =>
    obtain ⟨f, hfile, -⟩ := hserved.failStop.of_openFile
    exact ⟨f.content, h f hfile, delivers_opened hfile hserved.failStop⟩
  | delivered hchunk =>
    obtain ⟨content, hlength, hdelivers⟩ := h
    exact ⟨content, hlength,
      delivers_read hdelivers (chunkSize_pos job) hchunk hserved.failStop⟩
  | written =>
    obtain ⟨content, hlength, hdelivers⟩ := h
    exact ⟨content, hlength,
      delivers_of_readers hdelivers (MemoryStore.readers_of_perform hserved.of_call rfl)⟩
  | tempSized => exact afterLengths_cases (fun _ => nofun) fun _ => nofun
  | targetAbsent | targetCleared => exact afterClearing_cases (fun _ => nofun) fun _ => nofun
  | closedAfter | tempFound | tempAbsent | tempUnknown | tempCleared => exact h
  | renamed =>
    rintro ended ⟨⟩
    trivial
  | notOpened | notRead | notWritten | notClosed | sourceOff | sourceUnsized | tempOff | tempUnsized
  | sourceUnsummed | tempDiffers | tempUnsummed | targetUnknown | targetKept | parentUnknown
  | parentNotMade | notRenamed =>
    rintro ended ⟨⟩
    exact nofun
  | _ => exact nofun

/-- An attempt whose temporary file is created does not fail there. -/
theorem underway_of_created {created : MemoryStore} {output : StreamId}
    (hbuffer : job.plan.bufferTrouble? = none)
    (hcreated : store.perform (.createFile job.temp true job.options.bufferSize job.layout)
      = (.ok (.ok output), created)) (hsource : SourceBelow job bound created)
    (hmoves : ReflTransGen (Move job SharedStep) (creating, store) (phase, after)) :
    phase = creating ∨ Underway job bound after phase := by
  refine (start_or_holds (fun b => Underway job bound b.2 b.1) ?_ ?_ hmoves).imp_left
    (congrArg Prod.fst)
  · rintro ⟨first, begun⟩ ⟨x, hx, hstep, hserved⟩
    cases hstep with
    | silent hsilent => cases hsilent.symm.trans hx
    | created output' =>
      obtain ⟨-, rfl⟩ := Prod.ext_iff.1 (hcreated.symm.trans hserved.of_call)
      exact hsource
    | createdUnbuffered | notCreated =>
      cases (Prod.ext_iff.1 (hcreated.symm.trans hserved.of_call)).1
  · rintro before next hunderway ⟨x, -, hstep, hserved⟩
    exact underway_step hbuffer hunderway hstep hserved

end CopyPhase

/-! ## The results -/

/-- Where the disk does not create the temporary file, that is what the attempt reports. -/
theorem refused_on_disk {ε : Type} {surroundings : Handler ε} {settings : LocalSettings}
    {job : CopyJob} {bound : Nat} {system : LocalSystem} {refusal : LocalError} (e : ε)
    (hid : isAttemptId job.attemptId = true)
    (hrefused : system.create job.temp true job.options.bufferSize = (.error refusal, system)) :
    ∃ error system' f,
      Program.run (settings.sharing surroundings) (copyOnce bound job) (system, e)
        = (.done (.error error), (system', f)) ∧
      error.kind = .writeFailure ∧ error.step = utf8 "create-temp" := by
  obtain ⟨phase, hmoves, hend⟩ := CopyPhase.moves_of_run job (settings.sharing surroundings)
    Prod.fst bound hid LocalStep.of_silent LocalSettings.step_of_sharing (system, e)
  have hrefuses {value : Except Breakdown StreamId} {after : LocalSystem} :
      ¬ LocalStep settings system
        ⟨.storage .target (.createFile job.temp true job.options.bufferSize job.layout), .ok value⟩
        after := by
    intro hserved
    cases hrefused.symm.trans (LocalSettings.word_eq_ok.1 hserved.of_call)
  have hdecided := CopyPhase.decided_of_refused hrefuses hmoves
  rcases hrun : Program.run (settings.sharing surroundings) (copyOnce bound job) (system, e) with
    ⟨outcome, system', f⟩
  rw [hrun] at hend
  rcases hend with ⟨output, input, moved, rfl, -⟩ | ⟨decided, rfl, rfl⟩
  · rcases hdecided with heq | ⟨message, hother⟩
    · cases heq
    · cases hother
  · rcases hdecided with heq | ⟨message, hmessage⟩
    · cases heq
    · obtain rfl := Option.some.inj hmessage
      exact ⟨_, system', f, rfl, rfl, rfl⟩

/-- Where nothing prevents that the store creates the temporary file, an attempt that gets its
buffer comes to a result, and it does not report that this failed. -/
theorem created_in_memory {ε : Type} {surroundings : Handler ε} {job : CopyJob} {bound : Nat}
    {store : MemoryStore} (e : ε) (hid : isAttemptId job.attemptId = true)
    (htemp : job.temp.key ≠ []) (hnot : store.get? job.temp.key ≠ some .directory)
    (habove : store.tree.fileAbove? job.temp.key = none) (hpos : 0 < bound)
    (hsource : CopyPhase.SourceBelow job bound store)
    (hbuffer : job.plan.bufferTrouble? = none) :
    ∃ result store' f,
      Program.run (MemoryStore.sharing surroundings) (copyOnce bound job) (store, e)
        = (.done result, (store', f)) ∧
      ∀ error, result = .error error → error.step ≠ utf8 "create-temp" := by
  obtain ⟨phase, hmoves, hend⟩ := CopyPhase.moves_of_run job (MemoryStore.sharing surroundings)
    Prod.fst bound hid SharedStep.of_silent MemoryStore.step_of_sharing (store, e)
  have hcreated : store.perform (.createFile job.temp true job.options.bufferSize job.layout)
      = (.ok (.ok store.writers.size), (store.startFile job.temp.key job.layout).2) :=
    MemoryStore.perform_createFile_eq_ok.2
      ⟨_, rfl, MemoryStore.create_eq_ok.2 ⟨hnot, .inr rfl, habove, rfl⟩⟩
  have hbelow : CopyPhase.SourceBelow job bound (store.startFile job.temp.key job.layout).2 := by
    intro file hfile
    rcases MemoryStore.file_of_startFile htemp hfile with hempty | hbefore
    · rw [hempty]
      exact hpos
    · exact hsource file hbefore
  have hunderway := CopyPhase.underway_of_created hbuffer hcreated hbelow hmoves
  rcases hrun : Program.run (MemoryStore.sharing surroundings) (copyOnce bound job) (store, e) with
    ⟨outcome, store', f⟩
  rw [hrun] at hend hunderway
  rcases hend with ⟨output, input, moved, rfl, hlength⟩ | ⟨decided, rfl, rfl⟩
  · rcases hunderway with heq | ⟨content, hcontent, ⟨rest, -, hmoved⟩, hchunks⟩
    · cases heq
    · have hread := CopyPhase.length_le_of_moved hchunks hmoved
      omega
  · rcases hunderway with heq | hlater
    · cases heq
    have hlater : decided.Later := hlater decided rfl
    cases decided with
    | ok copied => exact ⟨_, store', f, rfl, fun error herror => nomatch herror⟩
    | error failure =>
      refine ⟨_, store', f, rfl, ?_⟩
      rintro error herror hstep
      obtain rfl := Except.error.inj herror
      obtain ⟨message, rfl⟩ := CopyFailure.exists_of_step hstep
      exact hlater message rfl
    | broken => exact hlater.elim

/-- Where no file is in the way of the temporary file, but more directories are missing on it than a
disk makes at once, the attempt on disk fails to create the temporary file. The same attempt in
memory, where a store holds the same, comes to another result. -/
theorem attempts_differ {ε ε' : Type} {surroundings : Handler ε} {surroundings' : Handler ε'}
    {settings : LocalSettings} {job : CopyJob} {bound : Nat} {system : LocalSystem}
    {store : MemoryStore} (e : ε) (e' : ε') (hjob : job.IsPlain)
    (hsame : system.disk.MirrorsAll store) (hfree : ¬ system.disk.Blocked job.temp.key.parent)
    (hmany : Disk.maxMissing < (system.disk.missingTo job.temp.key.parent).length)
    (hpos : 0 < bound) (hsource : CopyPhase.SourceBelow job bound store)
    (hbuffer : job.plan.bufferTrouble? = none) :
    ∃ error result' system' store' f f',
      Program.run (settings.sharing surroundings)
        (copyOnce bound { job with defaults := settings.layout }) (system, e)
          = (.done (.error error), (system', f)) ∧
      Program.run (MemoryStore.sharing surroundings')
        (copyOnce bound { job with defaults := store.defaults }) (store, e')
          = (.done result', (store', f')) ∧
      error.kind = .writeFailure ∧ error.step = utf8 "create-temp" ∧
      ¬ CopyError.Agree (.error error) result' := by
  have htemp := hjob.portable.temp
  obtain ⟨refusal, hrefused⟩ := LocalSystem.create_many job.options.bufferSize hsame.sound
    hsame.current htemp hfree hmany
  obtain ⟨error, system', f, hrun, hkind, hstep⟩ := @refused_on_disk _ surroundings settings
    { job with defaults := settings.layout } bound _ _ e hjob.usable hrefused
  -- in memory nothing is in the way, and there is no limit
  have hnone : store.get? job.temp.key = none := by
    rw [← hsame.none_iff trivial]
    by_contra hthere
    have hplace := List.append_ne_nil_of_right_ne_nil system.disk.current htemp.named
    have hdirectory := hsame.sound.formed _ hplace hthere
    rw [Key.parent_append htemp.named] at hdirectory
    cases (Disk.not_there_of_missing hsame.sound.formed hmany).symm.trans hdirectory
  have hnot : store.get? job.temp.key ≠ some .directory := by
    rw [hnone]
    exact nofun
  have habove : store.tree.fileAbove? job.temp.key = none := by
    refine MemoryStore.fileAbove?_eq_none.2 fun a ha f hfile => hfree ?_
    obtain ⟨hne, hbegins⟩ := Key.mem_properAncestors_iff_begins.1 ha
    exact hsame.blocked_iff.2 ⟨a, f, hne, hbegins, hfile⟩
  obtain ⟨result', store', f', hrun', hlater⟩ := @created_in_memory _ surroundings'
    { job with defaults := store.defaults } bound _ e' hjob.usable htemp.named hnot habove hpos
    hsource hbuffer
  refine ⟨error, result', system', store', f, f', hrun, hrun', hkind, hstep, fun hagree => ?_⟩
  cases result' with
  | ok copied => exact hagree
  | error error' => exact hlater error' rfl (hagree.2.symm.trans hstep)

/-! ### A thousand and one directories -/

/-- The place of a directory below a thousand others. -/
def deepKey : Key := List.replicate (Disk.maxMissing + 1) (utf8 "a")

/-- A copy of the one file that stages there. -/
def deepJob : CopyJob :=
  { smallJob with target := utf8 "t", options := { workPath := Path.joinNames deepKey } }

theorem deepKey_canonical : deepKey.Canonical := by
  intro name hname
  rw [List.eq_of_mem_replicate hname]
  decide

theorem deepJob_workPath : deepJob.options.workPath.IsPlain :=
  Path.isPlain_joinNames deepKey_canonical

theorem deepJob_target : deepJob.target.IsPlain := by
  refine Path.isPlain_joinNames (k := [utf8 "t"]) ?_
  rw [Key.Canonical, List.forall_mem_singleton]
  decide

theorem deepTemp_canonical : Key.Canonical (deepKey ++ [tempName (utf8 "7")]) :=
  deepKey_canonical.concat (Path.isName_tempName smallJob_isPlain.usable)

theorem deepJob_temp : deepJob.temp = Path.joinNames (deepKey ++ [tempName (utf8 "7")]) := by
  have hne : deepJob.options.workPath ≠ [] :=
    deepKey_canonical.joinNames_ne_nil List.replicate_succ_ne_nil
  have hother : deepJob.target ≠ deepJob.options.workPath := by
    intro heq
    have hlength := congrArg (List.length ∘ Path.key) heq
    rw [Function.comp_apply, Function.comp_apply, deepJob, deepKey_canonical.key_joinNames, deepKey,
      List.length_replicate] at hlength
    revert hlength
    decide
  rw [CopyJob.temp, Path.tempPath_eq_joinNames deepJob_target deepJob_workPath,
    Path.stagingDirectory_eq deepJob_target deepJob_workPath hne hother]
  exact congrArg (fun k => Path.joinNames (k ++ [tempName (utf8 "7")]))
    deepKey_canonical.key_joinNames

theorem deepJob_isPlain : deepJob.IsPlain := by
  have hsmall := smallJob_isPlain
  have hnames : ∀ name ∈ deepKey ++ [tempName (utf8 "7")],
      name = utf8 "a" ∨ name = tempName (utf8 "7") := by
    intro name hname
    rcases List.mem_append.1 hname with hdeep | hlast
    · exact .inl (List.eq_of_mem_replicate hdeep)
    · exact .inr (List.mem_singleton.1 hlast)
  refine ⟨hsmall.source, hsmall.sourceNamed, deepJob_target, ?_, deepJob_workPath, hsmall.usable,
    hsmall.sourceLimits, ⟨?_, ?_, ?_⟩, ?_⟩
  · decide
  · decide
  · decide
  · decide
  · rw [deepJob_temp]
    refine Path.withinLimits_joinNames deepTemp_canonical ?_ ?_ ?_
    · intro name hname
      rcases hnames name hname with rfl | rfl <;> decide
    · intro name hname
      rcases hnames name hname with rfl | rfl <;> decide
    · have hdeep : deepKey.flatten.length = Disk.maxMissing + 1 := by
        rw [deepKey, List.length_flatten, List.map_replicate, List.sum_replicate_nat]
        decide
      rw [List.flatten_append, List.length_append, List.length_append, hdeep, deepKey,
        List.length_replicate]
      decide

theorem deepJob_parent : deepJob.temp.key.parent = deepKey := by
  rw [deepJob_temp, deepTemp_canonical.key_joinNames, Key.parent, List.dropLast_concat]

theorem deepJob_devices : Disk.isOnDevices (oneFileDisk.place deepJob.temp).parent
    = Disk.isOnDevices (oneFileDisk.place deepJob.target).parent := by
  have htemp := deepJob_isPlain.portable.temp
  rw [htemp.place_eq, Key.parent_append htemp.named, deepJob_parent]
  decide +kernel

/-- None of the directories is there. -/
theorem oneFileDisk_deep {a : Key} (ha : a <+: deepKey) (hne : a ≠ []) :
    oneFileDisk.get? a = none := by
  by_contra hthere
  obtain ⟨node, hnode⟩ := Option.ne_none_iff_exists'.1 hthere
  obtain ⟨rfl, -⟩ := oneFileDisk_get hne hnode
  have hname := List.eq_of_mem_replicate (ha.subset (List.mem_singleton_self (utf8 "s")))
  revert hname
  decide

/-- No file is in the way of them. -/
theorem oneFileDisk_free : ¬ oneFileDisk.Blocked deepKey := by
  rintro ⟨a, inode, ha, hfile⟩
  have hne : a ≠ [] := by
    rintro rfl
    cases oneFileDisk_mirrors.current.symm.trans hfile
  cases (oneFileDisk_deep ha hne).symm.trans hfile

/-- There are more of them than are made at once. -/
theorem oneFileDisk_many : Disk.maxMissing < (oneFileDisk.missingTo deepKey).length :=
  calc Disk.maxMissing < deepKey.length := by
        rw [deepKey, List.length_replicate]
        exact Nat.lt_succ_self Disk.maxMissing
    _ ≤ (oneFileDisk.missingTo deepKey).length :=
        Disk.length_le_missingTo fun _ ha hne => oneFileDisk_deep ha hne

/-- A copy of a file that is not there, with a buffer that nobody can have. -/
def missingJob : CopyJob :=
  { smallJob with
    source := { smallJob.source with path := utf8 "x" }
    options := { bufferSize := Breakdown.sizeLimit } }

theorem missingJob_isPlain : missingJob.IsPlain := by
  have hsmall := smallJob_isPlain
  have hsource : Key.Canonical [utf8 "x"] := by
    rw [Key.Canonical, List.forall_mem_singleton]
    decide
  exact
    { source := Path.isPlain_joinNames hsource
      sourceNamed := by decide
      target := hsmall.target
      targetNamed := hsmall.targetNamed
      workPath := hsmall.workPath
      usable := hsmall.usable
      sourceLimits := ⟨by decide, by decide, by decide⟩
      targetLimits := hsmall.targetLimits
      tempLimits := hsmall.tempLimits }

/-- So the two results of an attempt that stages there are not the same, although the disk and the
store hold the same and all paths are within the limits. Nor are they when there is no buffer: on
disk this is found out before the source is opened, in memory after it. -/
theorem attempts_differ_small :
    ((deepJob.IsPlain ∧ oneFileDisk.MirrorsAll oneFileStore ∧
      LocalSettings.checksumKind {} = .crc32 ∧ oneFileStore.checksumKind = .crc32 ∧
      Disk.isOnDevices (oneFileDisk.place deepJob.temp).parent
        = Disk.isOnDevices (oneFileDisk.place deepJob.target).parent ∧
      CopyPhase.SourceBelow deepJob 4 oneFileStore ∧ deepJob.plan.bufferTrouble? = none) ∧
    ∃ error result' system store left left',
      Program.run (LocalSettings.sharing {} (obliging 0))
        (copyOnce 4 { deepJob with defaults := LocalSettings.layout {} })
          ({ disk := oneFileDisk }, []) = (.done (.error error), (system, left)) ∧
      Program.run (MemoryStore.sharing (obliging 0))
        (copyOnce 4 { deepJob with defaults := oneFileStore.defaults })
          (oneFileStore, []) = (.done result', (store, left')) ∧
      error.kind = .writeFailure ∧ error.step = utf8 "create-temp" ∧
      ¬ CopyError.Agree (.error error) result') ∧
    missingJob.IsPlain ∧ ∃ error,
      (Program.run (LocalSettings.sharing {} (obliging 0))
        (copyOnce 4 { missingJob with defaults := LocalSettings.layout {} })
          ({ disk := oneFileDisk }, [])).1 = .broken (.excessiveBuffer .file) ∧
      (Program.run (MemoryStore.sharing (obliging 0))
        (copyOnce 4 { missingJob with defaults := oneFileStore.defaults })
          (oneFileStore, [])).1 = .done (.error error) ∧
      error.kind = .readFailure ∧ error.step = utf8 "open-source" := by
  have hbuffer : deepJob.plan.bufferTrouble? = none := by decide +kernel
  have hfree : ¬ oneFileDisk.Blocked deepJob.temp.key.parent := by
    rw [deepJob_parent]
    exact oneFileDisk_free
  have hmany : Disk.maxMissing < (oneFileDisk.missingTo deepJob.temp.key.parent).length := by
    rw [deepJob_parent]
    exact oneFileDisk_many
  refine ⟨⟨⟨deepJob_isPlain, oneFileDisk_mirrors, rfl, rfl, deepJob_devices,
    oneFileStore_below deepJob, hbuffer⟩, ?_⟩, missingJob_isPlain, ?_⟩
  · exact @attempts_differ _ _ (obliging 0) (obliging 0) {} deepJob 4 { disk := oneFileDisk }
      oneFileStore [] [] deepJob_isPlain oneFileDisk_mirrors hfree hmany (by decide)
      (oneFileStore_below deepJob) hbuffer
  · exact ⟨missingJob.report (.openSource (utf8 "No such file: /x")), by decide +kernel,
      by decide +kernel, rfl, rfl⟩

end StagedCopy
