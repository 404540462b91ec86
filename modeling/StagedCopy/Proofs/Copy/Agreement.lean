import StagedCopy.Proofs.Copy.Calls
import StagedCopy.Proofs.Copy.Shared
import StagedCopy.Proofs.Local.Answers

/-!
# One attempt on disk and in memory

The same attempt, once with a store on disk on both sides and once with a store in memory that
holds the same. The two make the same calls, get answers of the same kind, and hold the same again
whenever no file is under creation, so they come to the same result. This is so for every
coincidence of source, target and temporary file, and for files where directories are expected. It
takes that both stores read the paths alike, that a disk can make what is missing on the way to the
temporary file, and then what is missing on the way to the target, and that there is memory for the
buffers, of which a store on disk needs one more.

* `CopyJob.IsPortable` — the paths of the attempt are read alike.
* `CopyPhase.Paired` — the two attempts with their stores, phase by phase.
* `CopyPhase.paired_step` — each call of the attempt on disk is matched by one in memory.
* `attempts_agree` — the theorem.
-/

namespace StagedCopy

open Program (Exchange Handler)

/-- The paths of the attempt are read alike on disk and in memory. -/
structure CopyJob.IsPortable (job : CopyJob) : Prop where
  source : job.source.path.IsPortable
  target : job.target.IsPortable
  temp : job.temp.IsPortable

/-- The two are successes with one byte count, or failures of one kind at one step. -/
def AttemptEnd.Agree : AttemptEnd → AttemptEnd → Prop
  | .ok copied, .ok copied' => copied = copied'
  | .error failure, .error failure' => failure.kind = failure'.kind ∧ failure.step = failure'.step
  | _, _ => False

namespace CopyPhase

/-! ## Attempts at one place -/

section paired

variable (job : CopyJob) (bound : Nat)

/-- A file at the source is shorter than the bound. -/
def SourceBelow (store : MemoryStore) : Prop :=
  ∀ f, store.get? job.source.path.key = some (.file f) → f.content.length < bound

/-- The temporary file is there. -/
def Staged (store : MemoryStore) : Prop := ∃ f, store.get? job.temp.key = some (.file f)

/-- The temporary file is there, or it was removed as the target. -/
def Placed (store : MemoryStore) : Prop :=
  Staged job store ∨ (job.temp.key = job.target.key ∧ store.get? job.temp.key = none)

/-- From the closed temporary file to what stands at the target. -/
def isStaged : CopyPhase → Bool
  | sizingSource _ | sizingTemp _ | summingSource _ | summingTemp .. | findingTarget _
  | clearingTarget _ => true
  | _ => false

/-- Two attempts with their stores at one place. While the temporary file is written the stores
differ at its place; otherwise they hold the same. -/
inductive Paired : CopyPhase × LocalSystem → CopyPhase × MemoryStore → Prop where
  | creating {system : LocalSystem} {store : MemoryStore} (h : system.disk.MirrorsAll store)
      (hreach : system.disk.InReach job.temp.key.parent)
      (htarget : system.disk.InReachAfter job.temp.key.parent job.target.key.parent)
      (hsource : SourceBelow job bound store)
      (hbuffer : Breakdown.ofBuffer? system.allocator .file job.options.bufferSize = none) :
      Paired (creating, system) (creating, store)
  | opening {system : LocalSystem} {store : MemoryStore} {output output' : StreamId} {n : Nat}
      (h : system.disk.MirrorsAll store)
      (hfills : system.Fills store job.temp.key n output output' [])
      (htarget : system.disk.InReach job.target.key.parent)
      (hsource : SourceBelow job bound store) :
      Paired (opening output, system) (opening output', store)
  | reading {system : LocalSystem} {store : MemoryStore}
      {output output' input input' : StreamId} {n m : Nat} {moved : List Bytes} {rest : Bytes}
      (hfills : system.Fills store job.temp.key n output output' moved.flatten)
      (hfeeds : system.Feeds store input input' m rest) (hsame : m = n → rest = [])
      (htarget : system.disk.InReach job.target.key.parent)
      (hbound : (moved.flatten ++ rest).length < bound) (hchunks : ∀ c ∈ moved, c ≠ []) :
      Paired (reading output input moved, system) (reading output' input' moved, store)
  | writing {system : LocalSystem} {store : MemoryStore}
      {output output' input input' : StreamId} {n m : Nat} {moved : List Bytes} {chunk rest : Bytes}
      (hfills : system.Fills store job.temp.key n output output' moved.flatten)
      (hfeeds : system.Feeds store input input' m rest) (hne : m ≠ n)
      (htarget : system.disk.InReach job.target.key.parent)
      (hbound : ((moved ++ [chunk]).flatten ++ rest).length < bound)
      (hchunks : ∀ c ∈ moved ++ [chunk], c ≠ []) :
      Paired (writing output input moved chunk, system) (writing output' input' moved chunk, store)
  | closing {system : LocalSystem} {store : MemoryStore} {output output' : StreamId} {n : Nat}
      {moved : List Bytes} {bytes : Bytes}
      (hfills : system.Fills store job.temp.key n output output' bytes)
      (htarget : system.disk.InReach job.target.key.parent) :
      Paired (closing output moved none, system) (closing output' moved none, store)
  | closingAfter {system : LocalSystem} {store : MemoryStore} {output output' : StreamId} {n : Nat}
      {moved : List Bytes} {failure failure' : CopyFailure} {bytes : Bytes}
      (hfills : system.Fills store job.temp.key n output output' bytes)
      (hagree : AttemptEnd.Agree (.error failure) (.error failure')) :
      Paired (closing output moved (some failure), system)
        (closing output' moved (some failure'), store)
  | staged {system : LocalSystem} {store : MemoryStore} {phase : CopyPhase}
      (hphase : phase.isStaged = true) (h : system.disk.MirrorsAll store)
      (htemp : Staged job store) (htarget : system.disk.InReach job.target.key.parent) :
      Paired (phase, system) (phase, store)
  | findingParent {system : LocalSystem} {store : MemoryStore} {moved : List Bytes}
      (h : system.disk.MirrorsAll store) (htemp : Placed job store)
      (htarget : system.disk.InReach job.target.key.parent) (hparent : job.target.parent ≠ []) :
      Paired (findingParent moved, system) (findingParent moved, store)
  | makingParent {system : LocalSystem} {store : MemoryStore} {moved : List Bytes}
      (h : system.disk.MirrorsAll store) (htemp : Placed job store)
      (htarget : system.disk.InReach job.target.key.parent) (hparent : job.target.parent ≠ []) :
      Paired (makingParent moved, system) (makingParent moved, store)
  | publishing {system : LocalSystem} {store : MemoryStore} {moved : List Bytes}
      (h : system.disk.MirrorsAll store) (htemp : Placed job store) :
      Paired (publishing moved, system) (publishing moved, store)
  | findingTemp {system : LocalSystem} {store : MemoryStore}
      {result result' : AttemptEnd} (h : system.disk.MirrorsAll store)
      (hagree : AttemptEnd.Agree result result') :
      Paired (findingTemp result, system) (findingTemp result', store)
  | clearingTemp {system : LocalSystem} {store : MemoryStore}
      {result result' : AttemptEnd} (h : system.disk.MirrorsAll store)
      (hagree : AttemptEnd.Agree result result') :
      Paired (clearingTemp result, system) (clearingTemp result', store)
  | finished {system : LocalSystem} {store : MemoryStore}
      {result result' : AttemptEnd} (h : system.disk.MirrorsAll store)
      (hagree : AttemptEnd.Agree result result') :
      Paired (finished result, system) (finished result', store)

/-- The attempt in memory has a call that leads to where the two are at one place again. -/
def Matched (layout : Layout) (system : LocalSystem) (phase : CopyPhase) (store : MemoryStore)
    (a : CopyPhase × LocalSystem) : Prop :=
  ∃ b, Move { job with defaults := layout } SharedStep (phase, store) b ∧ Paired job bound a b ∧
    a.2.disk.current = system.disk.current

end paired

section steps

variable {job : CopyJob} {bound : Nat} {layout layout' : Layout} {settings : LocalSettings}
  {system after : LocalSystem} {store : MemoryStore} {next : CopyPhase} {x : Exchange}
  {output output' input input' : StreamId} {n m : Nat} {moved : List Bytes} {rest chunk : Bytes}

/-- A call and its answer are a move. -/
theorem matched_of_call {phase next' : CopyPhase} {store' : MemoryStore} {side : Side}
    {call : StorageCall} {answer : call.Answer}
    (hstep : Step { job with defaults := layout' } phase ⟨.storage side call, answer⟩ next')
    (hperform : store.perform call = (answer, store'))
    (hpaired : Paired job bound (next, after) (next', store'))
    (hcurrent : after.disk.current = system.disk.current) :
    Matched job bound layout' system phase store (next, after) :=
  ⟨(next', store'), ⟨_, rfl, hstep, .call hperform⟩, hpaired, hcurrent⟩

variable (hx : x.request.isCall = true) (hserved : LocalStep settings system x after)

include hx hserved

/-! ### Staging -/

theorem matched_creating (hjob : job.IsPortable) (hpos : 0 < bound)
    (h : system.disk.MirrorsAll store) (hreach : system.disk.InReach job.temp.key.parent)
    (htarget : system.disk.InReachAfter job.temp.key.parent job.target.key.parent)
    (hsource : SourceBelow job bound store)
    (hbuffer : Breakdown.ofBuffer? system.allocator .file job.options.bufferSize = none)
    (hstep : Step { job with defaults := layout } creating x next) :
    Matched job bound layout' system creating store (next, after) := by
  cases hstep with
  | silent hsilent => cases hsilent.symm.trans hx
  | created output =>
    obtain ⟨output', store', n, hperform, hafter, hfills, hcurrent, hkept, hfiles⟩ :=
      hserved.mirrored_created h hjob.temp hreach
        (CopyJob.layout { job with defaults := layout' })
    refine matched_of_call (.created output') hperform
      (.opening hafter hfills (hkept _ htarget) fun f hf => ?_) hcurrent
    rcases hfiles _ f hf with hempty | hbefore
    · rw [hempty]
      exact hpos
    · exact hsource f hbefore
  | createdUnbuffered trouble => cases hbuffer.symm.trans hserved.of_unbuffered
  | notCreated message =>
    obtain ⟨hafter, hcurrent, message', hperform⟩ :=
      hserved.mirrored_notCreated h hjob.temp hreach
        (CopyJob.layout { job with defaults := layout' })
    exact matched_of_call (.notCreated message') hperform (.findingTemp hafter ⟨rfl, rfl⟩) hcurrent

theorem matched_opening (hjob : job.IsPortable) (hbuffer : job.plan.bufferTrouble? = none)
    (h : system.disk.MirrorsAll store)
    (hfills : system.Fills store job.temp.key n output output' [])
    (htarget : system.disk.InReach job.target.key.parent) (hsource : SourceBelow job bound store)
    (hstep : Step { job with defaults := layout } (opening output) x next) :
    Matched job bound layout' system (opening output') store (next, after) := by
  cases hstep with
  | silent hsilent => cases hsilent.symm.trans hx
  | openedUnbuffered input htrouble => cases hbuffer.symm.trans htrouble
  | opened input =>
    obtain ⟨m, input', store', hperform, htree, hwriters', hdisk, hwriters, hfile, hfeeds⟩ :=
      hserved.mirrored_opened h hjob.source
    obtain ⟨f, hfile', hcontent⟩ := h.file trivial hfile
    refine matched_of_call (.opened input' hbuffer) hperform
      (.reading (hfills.of_same hdisk hwriters htree hwriters') hfeeds ?_ (hdisk.symm ▸ htarget) ?_
        fun c hc => absurd hc List.not_mem_nil) (congrArg Disk.current hdisk)
    · rintro rfl
      exact hfills.accepts.content_nil
    · rw [← hcontent]
      exact hsource f hfile'
  | notOpened message =>
    obtain ⟨rfl, message', hperform⟩ := hserved.mirrored_notOpened h hjob.source
    exact matched_of_call (.notOpened message') hperform (.closingAfter hfills ⟨rfl, rfl⟩) rfl

theorem matched_reading
    (hfills : system.Fills store job.temp.key n output output' moved.flatten)
    (hfeeds : system.Feeds store input input' m rest) (hsame : m = n → rest = [])
    (htarget : system.disk.InReach job.target.key.parent)
    (hbound : (moved.flatten ++ rest).length < bound) (hchunks : ∀ c ∈ moved, c ≠ [])
    (hstep : Step { job with defaults := layout } (reading output input moved) x next) :
    Matched job bound layout' system (reading output' input' moved) store (next, after) := by
  cases hstep with
  | silent hsilent => cases hsilent.symm.trans hx
  | @delivered _ _ _ chunk hchunk =>
    obtain ⟨hanswer, hdisk, hwriters, store', hperform, htree, hwriters', hleft⟩ :=
      hserved.mirrored_read hfeeds
    obtain rfl := Except.ok.inj hanswer
    refine matched_of_call (.delivered hchunk) hperform
      (.writing (hfills.of_same hdisk hwriters htree hwriters') hleft ?_ (hdisk.symm ▸ htarget)
        ?_ ?_) (congrArg Disk.current hdisk)
    · intro heq
      rw [hsame heq] at hchunk
      exact hchunk List.take_nil
    · rw [List.flatten_append, List.flatten_singleton, List.append_assoc, List.take_append_drop]
      exact hbound
    · intro c hc
      rcases List.mem_append.1 hc with hc | hc
      · exact hchunks c hc
      · rw [List.mem_singleton.1 hc]
        exact hchunk
  | ended =>
    obtain ⟨hanswer, hdisk, hwriters, store', hperform, htree, hwriters', -⟩ :=
      hserved.mirrored_read hfeeds
    exact matched_of_call .ended (hperform.trans (Prod.ext hanswer.symm rfl))
      (.closing (hfills.of_same hdisk hwriters htree hwriters') (hdisk.symm ▸ htarget))
      (congrArg Disk.current hdisk)
  | notRead message => cases (hserved.mirrored_read hfeeds).1

theorem matched_writing
    (hfills : system.Fills store job.temp.key n output output' moved.flatten)
    (hfeeds : system.Feeds store input input' m rest) (hne : m ≠ n)
    (htarget : system.disk.InReach job.target.key.parent)
    (hbound : ((moved ++ [chunk]).flatten ++ rest).length < bound)
    (hchunks : ∀ c ∈ moved ++ [chunk], c ≠ [])
    (hstep : Step { job with defaults := layout } (writing output input moved chunk) x next) :
    Matched job bound layout' system (writing output' input' moved chunk) store (next, after) := by
  cases hstep with
  | silent hsilent => cases hsilent.symm.trans hx
  | written =>
    obtain ⟨-, store', hperform, hfills', hreaders, hreaders', content, hrefills⟩ :=
      hserved.mirrored_written hfills
    rw [← List.flatten_concat] at hfills'
    have hfeeds' : after.Feeds store' input input' m rest :=
      ⟨hfeeds.gives.of_content hreaders (hrefills.other m hne), hreaders'.symm ▸ hfeeds.reader⟩
    exact matched_of_call .written hperform
      (.reading hfills' hfeeds' (fun heq => absurd heq hne) (htarget.of_refills hrefills) hbound
        hchunks) hrefills.current
  | notWritten message => cases (hserved.mirrored_written hfills).1

theorem matched_closing {bytes : Bytes}
    (hfills : system.Fills store job.temp.key n output output' bytes)
    (htarget : system.disk.InReach job.target.key.parent)
    (hstep : Step { job with defaults := layout } (closing output moved none) x next) :
    Matched job bound layout' system (closing output' moved none) store (next, after) := by
  cases hstep with
  | silent hsilent => cases hsilent.symm.trans hx
  | closed =>
    obtain ⟨-, store', hperform, hafter, htemp, hrefills⟩ := hserved.mirrored_closed hfills
    exact matched_of_call .closed hperform
      (.staged rfl hafter htemp (htarget.of_refills hrefills)) hrefills.current
  | notClosed message => cases (hserved.mirrored_closed hfills).1

theorem matched_closingAfter {bytes : Bytes} {failure failure' : CopyFailure}
    (hfills : system.Fills store job.temp.key n output output' bytes)
    (hagree : AttemptEnd.Agree (.error failure) (.error failure'))
    (hstep : Step { job with defaults := layout } (closing output moved (some failure)) x next) :
    Matched job bound layout' system (closing output' moved (some failure')) store
      (next, after) := by
  cases hstep with
  | silent hsilent => cases hsilent.symm.trans hx
  | closedAfter answer =>
    obtain ⟨-, store', hperform, hafter, -, hrefills⟩ := hserved.mirrored_closed hfills
    exact matched_of_call (.closedAfter (.ok ())) hperform (.findingTemp hafter hagree)
      hrefills.current

/-! ### Verifying -/

theorem matched_staged {phase : CopyPhase} (hjob : job.IsPortable)
    (hkind : settings.checksumKind = .crc32) (hkind' : store.checksumKind = .crc32)
    (hphase : phase.isStaged = true) (h : system.disk.MirrorsAll store) (htemp : Staged job store)
    (htarget : system.disk.InReach job.target.key.parent)
    (hstep : Step { job with defaults := layout } phase x next) :
    Matched job bound layout' system phase store (next, after) := by
  cases hstep with
  | silent hsilent => cases hsilent.symm.trans hx
  | sourceSized hlength =>
    obtain ⟨rfl, status', hperform, hsame⟩ := hserved.mirrored_sized h hjob.source
    exact matched_of_call (.sourceSized (hsame.trans hlength)) hperform
      (.staged rfl h htemp htarget) rfl
  | sourceOff hoff =>
    obtain ⟨rfl, status', hperform, hsame⟩ := hserved.mirrored_sized h hjob.source
    exact matched_of_call (.sourceOff (hsame.trans_ne hoff)) hperform
      (.findingTemp h ⟨rfl, rfl⟩) rfl
  | sourceUnsized message =>
    obtain ⟨rfl, message', hperform⟩ := hserved.mirrored_unsized h hjob.source
    exact matched_of_call (.sourceUnsized message') hperform (.findingTemp h ⟨rfl, rfl⟩) rfl
  | tempSized hlength =>
    obtain ⟨rfl, status', hperform, hsame⟩ := hserved.mirrored_sized h hjob.temp
    refine matched_of_call (.tempSized (hsame.trans hlength)) hperform ?_ rfl
    show Paired job bound (afterLengths job _, after) (afterLengths job _, store)
    exact afterLengths_cases (fun _ => .staged rfl h htemp htarget)
      fun _ => .staged rfl h htemp htarget
  | tempOff hoff =>
    obtain ⟨rfl, status', hperform, hsame⟩ := hserved.mirrored_sized h hjob.temp
    exact matched_of_call (.tempOff (hsame.trans_ne hoff)) hperform
      (.findingTemp h ⟨rfl, rfl⟩) rfl
  | tempUnsized message =>
    obtain ⟨rfl, message', hperform⟩ := hserved.mirrored_unsized h hjob.temp
    exact matched_of_call (.tempUnsized message') hperform (.findingTemp h ⟨rfl, rfl⟩) rfl
  | sourceSummed sum =>
    obtain ⟨rfl, hperform⟩ := hserved.mirrored_summed hkind hkind' h hjob.source
    exact matched_of_call (.sourceSummed sum) hperform (.staged rfl h htemp htarget) rfl
  | sourceUnsummed message =>
    obtain ⟨rfl, message', hperform⟩ := hserved.mirrored_unsummed hkind hkind' h hjob.source
    exact matched_of_call (.sourceUnsummed message') hperform (.findingTemp h ⟨rfl, rfl⟩) rfl
  | tempSummed hequal =>
    obtain ⟨rfl, hperform⟩ := hserved.mirrored_summed hkind hkind' h hjob.temp
    exact matched_of_call (.tempSummed hequal) hperform (.staged rfl h htemp htarget) rfl
  | tempDiffers hdiffers =>
    obtain ⟨rfl, hperform⟩ := hserved.mirrored_summed hkind hkind' h hjob.temp
    exact matched_of_call (.tempDiffers hdiffers) hperform (.findingTemp h ⟨rfl, rfl⟩) rfl
  | tempUnsummed message =>
    obtain ⟨rfl, message', hperform⟩ := hserved.mirrored_unsummed hkind hkind' h hjob.temp
    exact matched_of_call (.tempUnsummed message') hperform (.findingTemp h ⟨rfl, rfl⟩) rfl
  | targetFound =>
    obtain ⟨rfl, hanswer⟩ := hserved.mirrored_pathExists h hjob.target
    exact matched_of_call .targetFound (Prod.ext hanswer.symm rfl) (.staged rfl h htemp htarget) rfl
  | targetAbsent =>
    obtain ⟨rfl, hanswer⟩ := hserved.mirrored_pathExists h hjob.target
    refine matched_of_call .targetAbsent (Prod.ext hanswer.symm rfl) ?_ rfl
    show Paired job bound (afterClearing job _, after) (afterClearing job _, store)
    exact afterClearing_cases (fun _ => .publishing h (.inl htemp))
      fun hparent => .findingParent h (.inl htemp) htarget (by simpa using hparent)
  | targetUnknown message => cases (hserved.mirrored_pathExists h hjob.target).2
  | targetCleared =>
    obtain ⟨store', hperform, hafter, hcurrent, hview, hget⟩ :=
      hserved.mirrored_removed h hjob.target
    have hplaced : Placed job store' := by
      by_cases hsame : job.temp.key = job.target.key
      · exact .inr ⟨hsame, (hget _).trans (if_pos hsame)⟩
      · obtain ⟨f, hfile⟩ := htemp
        exact .inl ⟨f, (hget _).trans ((if_neg hsame).trans hfile)⟩
    -- what is above the target is as it was
    have hkept : after.disk.InReach job.target.key.parent := by
      have habove : ∀ a, a <+: job.target.key.parent →
          after.disk.view (system.disk.current ++ a)
            = system.disk.view (system.disk.current ++ a) := by
        intro a ha
        rw [hview, if_neg]
        intro heq
        rw [List.append_cancel_left heq] at ha
        exact Key.not_begins_parent hjob.target.named ha
      exact htarget.of_kept hcurrent
        (fun a content ha hfile => ⟨content, (habove a ha).trans hfile⟩)
        fun a ha hnone => (habove a ha).symm.trans hnone
    refine matched_of_call .targetCleared hperform ?_ hcurrent
    show Paired job bound (afterClearing job _, after) (afterClearing job _, store')
    exact afterClearing_cases (fun _ => .publishing hafter hplaced)
      fun hparent => .findingParent hafter hplaced hkept (by simpa using hparent)
  | targetKept message =>
    obtain ⟨rfl, message', hperform⟩ := hserved.mirrored_notRemoved h hjob.target
    exact matched_of_call (.targetKept message') hperform (.findingTemp h ⟨rfl, rfl⟩) rfl
  | _ => cases hphase

/-! ### Publishing -/

theorem matched_findingParent (hjob : job.IsPortable) (h : system.disk.MirrorsAll store)
    (htemp : Placed job store) (htarget : system.disk.InReach job.target.key.parent)
    (hparent : job.target.parent ≠ [])
    (hstep : Step { job with defaults := layout } (findingParent moved) x next) :
    Matched job bound layout' system (findingParent moved) store (next, after) := by
  have hpath := hjob.target.parent (mt hjob.target.parent_eq_nil.2 hparent)
  cases hstep with
  | silent hsilent => cases hsilent.symm.trans hx
  | parentFound =>
    obtain ⟨rfl, hanswer⟩ := hserved.mirrored_pathExists h hpath
    exact matched_of_call .parentFound (Prod.ext hanswer.symm rfl) (.publishing h htemp) rfl
  | parentAbsent =>
    obtain ⟨rfl, hanswer⟩ := hserved.mirrored_pathExists h hpath
    exact matched_of_call .parentAbsent (Prod.ext hanswer.symm rfl)
      (.makingParent h htemp htarget hparent) rfl
  | parentUnknown message => cases (hserved.mirrored_pathExists h hpath).2

theorem matched_makingParent (hjob : job.IsPortable) (h : system.disk.MirrorsAll store)
    (htemp : Placed job store) (htarget : system.disk.InReach job.target.key.parent)
    (hparent : job.target.parent ≠ [])
    (hstep : Step { job with defaults := layout } (makingParent moved) x next) :
    Matched job bound layout' system (makingParent moved) store (next, after) := by
  have hpath := hjob.target.parent (mt hjob.target.parent_eq_nil.2 hparent)
  rw [← hjob.target.key_parent] at htarget
  cases hstep with
  | silent hsilent => cases hsilent.symm.trans hx
  | parentMade =>
    obtain ⟨store', hperform, hafter, hcurrent, hget⟩ := hserved.mirrored_made h hpath htarget
    refine matched_of_call .parentMade hperform (.publishing hafter ?_) hcurrent
    rcases htemp with ⟨f, hfile⟩ | ⟨hsame, hnone⟩
    · refine .inl ⟨f, (hget _).trans ?_⟩
      rw [hfile]
      simp
    · refine .inr ⟨hsame, (hget _).trans ?_⟩
      rw [hsame, hjob.target.key_parent,
        if_neg fun hboth => Key.not_begins_parent hjob.target.named hboth.2, ← hsame]
      exact hnone
  | parentNotMade message =>
    obtain ⟨rfl, message', hperform⟩ := hserved.mirrored_notMade h hpath htarget
    exact matched_of_call (.parentNotMade message') hperform (.findingTemp h ⟨rfl, rfl⟩) rfl

theorem matched_publishing (hjob : job.IsPortable)
    (hdevices : Disk.isOnDevices (system.disk.place job.temp).parent
      = Disk.isOnDevices (system.disk.place job.target).parent)
    (h : system.disk.MirrorsAll store) (htemp : Placed job store)
    (hstep : Step { job with defaults := layout } (publishing moved) x next) :
    Matched job bound layout' system (publishing moved) store (next, after) := by
  have hnot : store.get? job.temp.key ≠ some .directory := by
    intro hdirectory
    rcases htemp with ⟨f, hfile⟩ | ⟨-, hnone⟩
    · cases hfile.symm.trans hdirectory
    · cases hnone.symm.trans hdirectory
  cases hstep with
  | silent hsilent => cases hsilent.symm.trans hx
  | renamed =>
    obtain ⟨store', hperform, hafter, hcurrent⟩ :=
      hserved.mirrored_renamed h hjob.temp hjob.target hnot
    exact matched_of_call .renamed hperform (.findingTemp hafter rfl) hcurrent
  | notRenamed message =>
    obtain ⟨rfl, message', hperform⟩ :=
      hserved.mirrored_notRenamed h hjob.temp hjob.target hdevices
    exact matched_of_call (.notRenamed message') hperform (.findingTemp h ⟨rfl, rfl⟩) rfl

/-! ### The end -/

theorem matched_findingTemp {result result' : AttemptEnd} (hjob : job.IsPortable)
    (h : system.disk.MirrorsAll store) (hagree : AttemptEnd.Agree result result')
    (hstep : Step { job with defaults := layout } (findingTemp result) x next) :
    Matched job bound layout' system (findingTemp result') store (next, after) := by
  cases hstep with
  | silent hsilent => cases hsilent.symm.trans hx
  | tempFound =>
    obtain ⟨rfl, hanswer⟩ := hserved.mirrored_pathExists h hjob.temp
    exact matched_of_call .tempFound (Prod.ext hanswer.symm rfl) (.clearingTemp h hagree) rfl
  | tempAbsent =>
    obtain ⟨rfl, hanswer⟩ := hserved.mirrored_pathExists h hjob.temp
    exact matched_of_call .tempAbsent (Prod.ext hanswer.symm rfl) (.finished h hagree) rfl
  | tempUnknown message => cases (hserved.mirrored_pathExists h hjob.temp).2

theorem matched_clearingTemp {result result' : AttemptEnd} (hjob : job.IsPortable)
    (h : system.disk.MirrorsAll store) (hagree : AttemptEnd.Agree result result')
    (hstep : Step { job with defaults := layout } (clearingTemp result) x next) :
    Matched job bound layout' system (clearingTemp result') store (next, after) := by
  cases hstep with
  | silent hsilent => cases hsilent.symm.trans hx
  | tempCleared answer =>
    cases answer with
    | ok =>
      obtain ⟨store', hperform, hafter, hcurrent, -⟩ := hserved.mirrored_removed h hjob.temp
      exact matched_of_call (.tempCleared _) hperform (.finished hafter hagree) hcurrent
    | error message =>
      obtain ⟨rfl, message', hperform⟩ := hserved.mirrored_notRemoved h hjob.temp
      exact matched_of_call (.tempCleared _) hperform (.finished h hagree) rfl

end steps

/-! ## Runs -/

section runs

variable {job : CopyJob} {bound : Nat} {layout layout' : Layout} {settings : LocalSettings}
  {a a' : CopyPhase × LocalSystem} {b b' : CopyPhase × MemoryStore}

/-- Each call of the attempt on disk is matched by one in memory. -/
theorem paired_step (hjob : job.IsPortable) (hpos : 0 < bound)
    (hbuffer : job.plan.bufferTrouble? = none) (hkind : settings.checksumKind = .crc32)
    (hkind' : b.2.checksumKind = .crc32)
    (hdevices : Disk.isOnDevices (a.2.disk.place job.temp).parent
      = Disk.isOnDevices (a.2.disk.place job.target).parent)
    (h : Paired job bound a b)
    (hmove : Move { job with defaults := layout } (LocalStep settings) a a') :
    Matched job bound layout' a.2 b.1 b.2 a' := by
  obtain ⟨x, hx, hstep, hserved⟩ := hmove
  cases h with
  | creating h hreach htarget hsource hbuffer =>
    exact matched_creating hx hserved hjob hpos h hreach htarget hsource hbuffer hstep
  | opening h hfills htarget hsource =>
    exact matched_opening hx hserved hjob hbuffer h hfills htarget hsource hstep
  | reading hfills hfeeds hsame htarget hbound hchunks =>
    exact matched_reading hx hserved hfills hfeeds hsame htarget hbound hchunks hstep
  | writing hfills hfeeds hne htarget hbound hchunks =>
    exact matched_writing hx hserved hfills hfeeds hne htarget hbound hchunks hstep
  | closing hfills htarget => exact matched_closing hx hserved hfills htarget hstep
  | closingAfter hfills hagree => exact matched_closingAfter hx hserved hfills hagree hstep
  | staged hphase h htemp htarget =>
    exact matched_staged hx hserved hjob hkind hkind' hphase h htemp htarget hstep
  | findingParent h htemp htarget hparent =>
    exact matched_findingParent hx hserved hjob h htemp htarget hparent hstep
  | makingParent h htemp htarget hparent =>
    exact matched_makingParent hx hserved hjob h htemp htarget hparent hstep
  | publishing h htemp => exact matched_publishing hx hserved hjob hdevices h htemp hstep
  | findingTemp h hagree => exact matched_findingTemp hx hserved hjob h hagree hstep
  | clearingTemp h hagree => exact matched_clearingTemp hx hserved hjob h hagree hstep
  | finished => exact absurd ⟨x, hx, hstep, hserved⟩ Move.not_of_finished

/-- The two attempts are at one place, on a disk whose current directory is where it was, and in a
store with plain checksums. -/
structure Coupled (job : CopyJob) (bound : Nat) (init : Disk) (a : CopyPhase × LocalSystem)
    (b : CopyPhase × MemoryStore) : Prop where
  paired : Paired job bound a b
  current : a.2.disk.current = init.current
  kind : b.2.checksumKind = .crc32

variable {init : Disk}

theorem coupled_step (hjob : job.IsPortable) (hpos : 0 < bound)
    (hbuffer : job.plan.bufferTrouble? = none) (hkind : settings.checksumKind = .crc32)
    (hdevices : Disk.isOnDevices (init.place job.temp).parent
      = Disk.isOnDevices (init.place job.target).parent)
    (h : Coupled job bound init a b)
    (hmove : Move { job with defaults := layout } (LocalStep settings) a a') :
    ∃ b', Move { job with defaults := layout' } SharedStep b b' ∧ Coupled job bound init a' b' := by
  have hplace (path : Path) : a.2.disk.place path = init.place path := by
    rw [Disk.place, Disk.place, Disk.start, Disk.start, h.current]
  rw [← hplace, ← hplace] at hdevices
  have hmatched : Matched job bound layout' a.2 b.1 b.2 a' :=
    paired_step hjob hpos hbuffer hkind h.kind hdevices h.paired hmove
  obtain ⟨b', hmove', hpaired, hcurrent⟩ := hmatched
  refine ⟨b', hmove', hpaired, hcurrent.trans h.current, ?_⟩
  obtain ⟨x, -, -, hserved⟩ := hmove'
  exact hserved.kind.trans h.kind

/-- The attempt on disk goes on as long as the one in memory. -/
theorem coupled_goes (h : Coupled job bound init a b)
    (hmove : Move { job with defaults := layout' } SharedStep b b') :
    ∃ a', Move { job with defaults := layout } (LocalStep settings) a a' := by
  refine exists_move (fun system side call => ⟨_, _, .call rfl⟩) fun hnext => ?_
  obtain ⟨phase, system⟩ := a
  have hpaired := h.paired
  cases phase with
  | finished result =>
    cases hpaired with
    | staged hphase => cases hphase
    | finished => exact Move.not_of_finished hmove
  | _ => cases hnext

/-- At the end the two stores hold the same, and the results agree. -/
theorem Paired.of_finished {result result' : AttemptEnd} {system : LocalSystem}
    {store : MemoryStore}
    (h : Paired job bound (.finished result, system) (.finished result', store)) :
    system.disk.MirrorsAll store ∧ AttemptEnd.Agree result result' := by
  cases h with
  | staged hphase => cases hphase
  | finished h hagree => exact ⟨h, hagree⟩

/-- Both attempts have read less than the bound. -/
theorem length_of_paired (h : Paired job bound a b) {output input : StreamId} {moved : List Bytes}
    (hreading : a.1 = .reading output input moved ∨ b.1 = .reading output input moved) :
    moved.length < bound := by
  have hlength {moved : List Bytes} {rest : Bytes} (hbound : (moved.flatten ++ rest).length < bound)
      (hchunks : ∀ c ∈ moved, c ≠ []) : moved.length < bound :=
    Nat.lt_of_le_of_lt (length_le_of_moved hchunks rfl) hbound
  cases h with
  | reading _ _ _ _ hbound hchunks =>
    rcases hreading with heq | heq
    · cases heq
      exact hlength hbound hchunks
    · cases heq
      exact hlength hbound hchunks
  | staged hphase =>
    have heq := or_self_iff.1 hreading
    dsimp only at heq
    rw [heq] at hphase
    cases hphase
  | _ => rcases hreading with heq | heq <;> cases heq

end runs

end CopyPhase

/-! ## The attempt -/

/-- The paths of the attempt are relative and in normal spelling, without `.`, `..` and a separator
at the end, and within the limits of a disk; only the work path may be empty. -/
structure CopyJob.IsPlain (job : CopyJob) : Prop where
  source : job.source.path.IsPlain
  sourceNamed : job.source.path ≠ []
  target : job.target.IsPlain
  targetNamed : job.target ≠ []
  workPath : job.options.workPath.IsPlain
  usable : isAttemptId job.attemptId = true
  sourceLimits : job.source.path.WithinLimits
  targetLimits : job.target.WithinLimits
  tempLimits : job.temp.WithinLimits

theorem CopyJob.IsPlain.portable {job : CopyJob} (h : job.IsPlain) : job.IsPortable where
  source := h.source.portable h.sourceLimits h.sourceNamed
  target := h.target.portable h.targetLimits h.targetNamed
  temp := by
    refine (Path.isPlain_tempPath h.target h.workPath h.usable).portable h.tempLimits ?_
    rw [Path.tempPath_eq_joinNames h.target h.workPath]
    exact ((Path.key_canonical _).concat (Path.isName_tempName h.usable)).joinNames_ne_nil (by simp)

/-- The two are one byte count, or reports of one kind of failure at one step. -/
def CopyError.Agree : Except CopyError Nat → Except CopyError Nat → Prop
  | .ok copied, .ok copied' => copied = copied'
  | .error error, .error error' => error.kind = error'.kind ∧ error.step = error'.step
  | _, _ => False

theorem AttemptEnd.Agree.outcome {ended ended' : AttemptEnd} (h : AttemptEnd.Agree ended ended')
    (job job' : CopyJob) : ∃ result result', job.outcome ended = .done result ∧
      job'.outcome ended' = .done result' ∧ CopyError.Agree result result' := by
  match ended, ended', h with
  | .ok copied, .ok copied', h => exact ⟨_, _, rfl, rfl, h⟩
  | .error failure, .error failure', h => exact ⟨_, _, rfl, rfl, h⟩

/-- The same attempt on disk and in memory comes to an end in both, with the same byte count or with
failures of one kind at one step, and the two stores hold the same after it, when they did before.
On disk the attempt has to stay on one file system, and no more directories may be missing on the
way to the temporary file than are made at once, nor, after these, on the way to the target. There
has to be memory for the buffer of the temporary file and for that of the copy. -/
theorem attempts_agree {ε ε' : Type} {surroundings : Handler ε} {surroundings' : Handler ε'}
    {settings : LocalSettings} {job : CopyJob} {bound : Nat} {system : LocalSystem}
    {store : MemoryStore} (e : ε) (e' : ε') (hjob : job.IsPlain)
    (hsame : system.disk.MirrorsAll store) (hkind : settings.checksumKind = .crc32)
    (hkind' : store.checksumKind = .crc32)
    (hdevices : Disk.isOnDevices (system.disk.place job.temp).parent
      = Disk.isOnDevices (system.disk.place job.target).parent)
    (htemp : system.disk.InReach job.temp.key.parent)
    (htarget : system.disk.InReachAfter job.temp.key.parent job.target.key.parent)
    (hfile : Breakdown.ofBuffer? system.allocator .file job.options.bufferSize = none)
    (hbuffer : job.plan.bufferTrouble? = none) (hpos : 0 < bound)
    (hsource : CopyPhase.SourceBelow job bound store) :
    ∃ result result' system' store' f f',
      Program.run (settings.sharing surroundings)
        (copyOnce bound { job with defaults := settings.layout }) (system, e)
          = (.done result, (system', f)) ∧
      Program.run (MemoryStore.sharing surroundings')
        (copyOnce bound { job with defaults := store.defaults }) (store, e')
          = (.done result', (store', f')) ∧
      CopyError.Agree result result' ∧ system'.disk.MirrorsAll store' ∧
      system'.disk.current = system.disk.current := by
  have hkeeps : ∀ a a' b, CopyPhase.Coupled job bound system.disk a b →
      CopyPhase.Move { job with defaults := settings.layout } (LocalStep settings) a a' →
        ∃ b', CopyPhase.Move { job with defaults := store.defaults } SharedStep b b' ∧
          CopyPhase.Coupled job bound system.disk a' b' :=
    fun _ _ _ => CopyPhase.coupled_step hjob.portable hpos hbuffer hkind hdevices
  have hgoes : ∀ a b b', CopyPhase.Coupled job bound system.disk a b →
      CopyPhase.Move { job with defaults := store.defaults } SharedStep b b' →
        ∃ a', CopyPhase.Move { job with defaults := settings.layout } (LocalStep settings) a a' :=
    fun _ _ _ => CopyPhase.coupled_goes
  have hunique : Relator.RightUnique
      (CopyPhase.Move { job with defaults := store.defaults } SharedStep) :=
    CopyPhase.move_unique SharedStep.unique
  have hstart : CopyPhase.Coupled job bound system.disk (.creating, system) (.creating, store) :=
    ⟨.creating hsame htemp htarget hsource hfile, rfl, hkind'⟩
  obtain ⟨phase, hmoves, hend⟩ := CopyPhase.moves_of_run { job with defaults := settings.layout }
    (settings.sharing surroundings) Prod.fst bound hjob.usable LocalStep.of_silent
    LocalSettings.step_of_sharing (system, e)
  obtain ⟨phase', hmoves', hend'⟩ := CopyPhase.moves_of_run { job with defaults := store.defaults }
    (MemoryStore.sharing surroundings') Prod.fst bound hjob.usable SharedStep.of_silent
    MemoryStore.step_of_sharing (store, e')
  rcases hrun : Program.run (settings.sharing surroundings)
    (copyOnce bound { job with defaults := settings.layout }) (system, e) with ⟨outcome, system', f⟩
  rcases hrun' : Program.run (MemoryStore.sharing surroundings')
    (copyOnce bound { job with defaults := store.defaults }) (store, e')
      with ⟨outcome', store', f'⟩
  rw [hrun] at hmoves hend
  rw [hrun'] at hmoves' hend'
  -- neither is left unfinished
  rcases hend with ⟨output, input, moved, rfl, hlength⟩ | ⟨decided, rfl, rfl⟩
  · obtain ⟨b, -, hcoupled⟩ := exists_matched hkeeps hstart hmoves
    exact absurd hlength (CopyPhase.length_of_paired hcoupled.paired (.inl rfl)).ne
  rcases hend' with ⟨output, input, moved, rfl, hlength⟩ | ⟨decided', rfl, rfl⟩
  · obtain ⟨a, -, hcoupled⟩ := matched_of_moves hkeeps hgoes hunique hstart hmoves'
    exact absurd hlength (CopyPhase.length_of_paired hcoupled.paired (.inr rfl)).ne
  have hcoupled := matched_ends hkeeps hgoes hunique hstart hmoves hmoves'
    (fun _ => CopyPhase.Move.not_of_finished) fun _ => CopyPhase.Move.not_of_finished
  obtain ⟨hafter, hagree⟩ := hcoupled.paired.of_finished
  obtain ⟨result, result', hresult, hresult', hagree⟩ := hagree.outcome
    { job with defaults := settings.layout } { job with defaults := store.defaults }
  exact ⟨result, result', system', store', f, f', Prod.ext hresult rfl, Prod.ext hresult' rfl,
    hagree, hafter, hcoupled.current⟩

/-! ### One file -/

/-- A disk with one file in its current directory. -/
def oneFileDisk : Disk where
  tree := ⟨[([utf8 "s"], .file (.regular 0))]⟩
  contents := #[utf8 "abc"]

/-- A store in memory with the same file. -/
def oneFileStore : MemoryStore where
  checksumKind := .crc32
  defaults := ⟨1, 64⟩
  tree := ⟨[([utf8 "s"], .file ⟨utf8 "abc", ⟨1, 64⟩⟩)]⟩

/-- Nothing but the one file is on the disk. -/
theorem oneFileDisk_get {k : Key} {node : Node Inode} (hk : k ≠ [])
    (h : oneFileDisk.get? k = some node) : k = [utf8 "s"] ∧ node = .file (.regular 0) := by
  rw [Disk.get?, oneFileDisk, Tree.get?_singleton, if_neg hk] at h
  split at h
  · next hplace => exact ⟨hplace, (Option.some.inj h).symm⟩
  · cases h

theorem oneFileDisk_file {k : Key} {inode : Inode} (h : oneFileDisk.get? k = some (.file inode)) :
    k = [utf8 "s"] ∧ inode = .regular 0 := by
  have hk : k ≠ [] := by
    rintro rfl
    cases (Tree.get?_root oneFileDisk.tree).symm.trans h
  obtain ⟨hplace, hnode⟩ := oneFileDisk_get hk h
  exact ⟨hplace, Node.file.inj hnode⟩

theorem oneFileDisk_sound : oneFileDisk.Sound where
  formed k hk hthere := by
    obtain ⟨node, hnode⟩ := Option.ne_none_iff_exists'.1 hthere
    rw [(oneFileDisk_get hk hnode).1]
    exact Tree.get?_root _
  numbered k inode hk := ⟨0, (oneFileDisk_file hk).2, by decide⟩
  single k other inode hk hother := (oneFileDisk_file hk).1.trans (oneFileDisk_file hother).1.symm

theorem oneFileDisk_mirrors : oneFileDisk.MirrorsAll oneFileStore where
  sound := oneFileDisk_sound
  current := Tree.get?_root _
  view k _ := by
    show oneFileDisk.view k = oneFileStore.view k
    rw [Disk.view, MemoryStore.view, Disk.get?, MemoryStore.get?, oneFileDisk, oneFileStore,
      Tree.get?_singleton, Tree.get?_singleton]
    split
    · rfl
    · split
      · rfl
      · rfl

theorem oneFileStore_below (job : CopyJob) : CopyPhase.SourceBelow job 4 oneFileStore := by
  intro f hfile
  obtain ⟨n, hplace, hcontent⟩ := oneFileDisk_mirrors.regular trivial hfile
  rw [← hcontent, (oneFileDisk_file hplace).2]
  decide

theorem smallJob_isPlain : smallJob.IsPlain := by
  have hsource : Key.Canonical [utf8 "s"] := by
    rw [Key.Canonical, List.forall_mem_singleton]
    decide +kernel
  have htarget : Key.Canonical [utf8 "d", utf8 "t"] := by
    rw [Key.Canonical, List.forall_mem_cons, List.forall_mem_singleton]
    decide +kernel
  refine ⟨Path.isPlain_joinNames hsource, ?_, Path.isPlain_joinNames htarget, ?_,
    Path.isPlain_joinNames fun _ hname => absurd hname List.not_mem_nil, ?_, ⟨?_, ?_, ?_⟩,
    ⟨?_, ?_, ?_⟩, ⟨?_, ?_, ?_⟩⟩
  all_goals decide +kernel

theorem attempts_agree_small :
    smallJob.IsPlain ∧ oneFileDisk.MirrorsAll oneFileStore ∧
    ∃ system store left left',
      Program.run (LocalSettings.sharing {} (obliging 0))
        (copyOnce 4 { smallJob with defaults := LocalSettings.layout {} })
          ({ disk := oneFileDisk }, []) = (.done (.ok 3), (system, left)) ∧
      Program.run (MemoryStore.sharing (obliging 0))
        (copyOnce 4 { smallJob with defaults := oneFileStore.defaults })
          (oneFileStore, []) = (.done (.ok 3), (store, left')) ∧
      system.disk.MirrorsAll store := by
  obtain ⟨result, result', system, store, left, left', hrun, hrun', hagree, hsame, -⟩ :=
    @attempts_agree _ _ (obliging 0) (obliging 0) {} smallJob 4 { disk := oneFileDisk }
      oneFileStore [] [] smallJob_isPlain oneFileDisk_mirrors rfl rfl (by decide +kernel)
      (fun _ => by decide +kernel) (fun _ => by decide +kernel) (by decide +kernel)
      (by decide +kernel) (by decide) (oneFileStore_below smallJob)
  have hcopied : (Program.run (LocalSettings.sharing {} (obliging 0))
      (copyOnce 4 { smallJob with defaults := LocalSettings.layout {} })
        ({ disk := oneFileDisk }, [])).1 = .done (.ok 3) := by decide +kernel
  rw [hrun] at hcopied
  obtain rfl : result = .ok 3 := Program.Outcome.done.inj hcopied
  cases result' with
  | error error => exact hagree.elim
  | ok copied =>
    obtain rfl : 3 = copied := hagree
    exact ⟨smallJob_isPlain, oneFileDisk_mirrors, system, store, left, left', hrun, hrun', hsame⟩

end StagedCopy
