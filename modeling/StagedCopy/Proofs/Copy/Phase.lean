import StagedCopy.Copy.Attempt

/-!
# The phases of an attempt

Between two calls on a store an attempt stands at one of a few places, and what it asks next is
decided by the place and by what it has moved so far. This module writes the attempt down as a
transition system over these places. Nothing but calls on the stores moves an attempt on: log
lines, status texts, counters and the clock leave it where it is.

* `AttemptEnd` — how an attempt can end.
* `CopyPhase` — the places, each named for the call that comes next.
* `CopyPhase.Step` — the calls with their answers, and where each leads.
* `CopyPhase.afterLengths`, `CopyPhase.afterClearing` — the two branches that no answer decides;
  `afterLengths_cases`, `afterClearing_cases`.
* `CopyPhase.flowing`, `CopyPhase.Step.buffered` — the phases for which there is a buffer.
* `CopyPhase.Step.unique` — every exchange leads to one phase at most.

That the program goes through these phases, and no others, is `copyOnce_follows`.
-/

namespace StagedCopy

/-- A request is a call on a store. -/
def Request.isCall : Request → Bool
  | storage .. => true
  | _ => false

/-- The number of bytes in some chunks. -/
def byteCount (chunks : List Bytes) : Nat := chunks.flatten.length

@[simp] theorem byteCount_nil : byteCount [] = 0 := rfl

@[simp] theorem byteCount_append (s t : List Bytes) :
    byteCount (s ++ t) = byteCount s + byteCount t := by
  simp [byteCount]

@[simp] theorem byteCount_singleton (chunk : Bytes) : byteCount [chunk] = chunk.length := by
  simp [byteCount]

/-- The number of bytes in some chunks, as it is counted: modulo `2 ^ 64`. -/
def tally (chunks : List Bytes) : Nat := wrap64 (byteCount chunks)

@[simp] theorem tally_nil : tally [] = 0 := rfl

theorem tally_snoc (chunks : List Bytes) (chunk : Bytes) :
    tally (chunks ++ [chunk]) = wrap64 (tally chunks + chunk.length) := by
  rw [tally, tally, byteCount_append, byteCount_singleton, wrap64_wrap64_add]

/-- Up to the range of the count it is exact. -/
theorem tally_of_lt {chunks : List Bytes} (h : byteCount chunks < 0x10000000000000000) :
    tally chunks = byteCount chunks := wrap64_of_lt h

theorem tally_eq_of_flatten {chunks : List Bytes} {content : Bytes}
    (h : chunks.flatten = content) : tally chunks = wrap64 content.length := by
  rw [tally, byteCount, h]

/-- How an attempt ends: with the number of bytes that it copied, with the cause of a failure, or
with a breakdown, which may leave a stream open. -/
inductive AttemptEnd where
  | ok (copied : Nat)
  | error (failure : CopyFailure)
  | broken (trouble : Breakdown) (left : List StreamId)

/-- Where an attempt stands: the call that it makes next, with the streams that are open, the
chunks that were moved, and near the end the end that is already decided. -/
inductive CopyPhase where
  /-- The temporary file is to be created. -/
  | creating
  /-- The source is to be opened. -/
  | opening (output : StreamId)
  /-- The next chunk is to be read. -/
  | reading (output input : StreamId) (moved : List Bytes)
  /-- A chunk is to be written. -/
  | writing (output input : StreamId) (moved : List Bytes) (chunk : Bytes)
  /-- The temporary file is to be closed, after a failure or without one. -/
  | closing (output : StreamId) (moved : List Bytes) (failed : Option CopyFailure)
  /-- The length of the source is to be asked for. -/
  | sizingSource (moved : List Bytes)
  /-- The length of the temporary file is to be asked for. -/
  | sizingTemp (moved : List Bytes)
  /-- The checksum of the source is to be asked for. -/
  | summingSource (moved : List Bytes)
  /-- The checksum of the temporary file is to be asked for. -/
  | summingTemp (moved : List Bytes) (sourceSum : Option FileChecksum)
  /-- It is to be asked whether there is a target. -/
  | findingTarget (moved : List Bytes)
  /-- The target is to be removed. -/
  | clearingTarget (moved : List Bytes)
  /-- It is to be asked whether the directory of the target is there. -/
  | findingParent (moved : List Bytes)
  /-- The directory of the target is to be made. -/
  | makingParent (moved : List Bytes)
  /-- The temporary file is to be renamed to the target. -/
  | publishing (moved : List Bytes)
  /-- It is to be asked whether the temporary file is still there. -/
  | findingTemp (result : AttemptEnd)
  /-- The temporary file is to be removed. -/
  | clearingTemp (result : AttemptEnd)
  /-- No call is left. -/
  | finished (result : AttemptEnd)

namespace CopyPhase

variable (job : CopyJob)

/-- Checksums are compared unless nothing was moved or the job skips them. -/
def afterLengths (moved : List Bytes) : CopyPhase :=
  if 0 < tally moved ∧ job.options.verification = .verify then summingSource moved
  else findingTarget moved

/-- Without a target in the way, its directory is looked for if it has a spelling. -/
def afterClearing (moved : List Bytes) : CopyPhase :=
  if job.target.parent.isEmpty then publishing moved else findingParent moved

/-- A step of an attempt: an exchange, and the phases before and after it. -/
inductive Step : CopyPhase → Program.Exchange → CopyPhase → Prop where
  /-- What is no call on a store changes nothing. -/
  | silent {phase : CopyPhase} {x : Program.Exchange} (h : x.request.isCall = false) :
      Step phase x phase
  | created (output : StreamId) :
      Step creating
        ⟨.storage .target (.createFile job.temp true job.options.bufferSize job.layout),
          .ok (.ok output)⟩
        (opening output)
  /-- The file is there, but its stream got no buffer. -/
  | createdUnbuffered (trouble : Breakdown) :
      Step creating
        ⟨.storage .target (.createFile job.temp true job.options.bufferSize job.layout),
          .ok (.error trouble)⟩
        (findingTemp (.broken trouble []))
  | notCreated (message : Bytes) :
      Step creating
        ⟨.storage .target (.createFile job.temp true job.options.bufferSize job.layout),
          .error message⟩
        (findingTemp (.error (.createTemp message)))
  | opened {output : StreamId} (input : StreamId) (h : job.plan.bufferTrouble? = none) :
      Step (opening output) ⟨.storage .source (.openFile job.source.path), .ok input⟩
        (reading output input [])
  /-- The source is open, but there is no buffer for its chunks. -/
  | openedUnbuffered {output : StreamId} (input : StreamId) {trouble : Breakdown}
      (h : job.plan.bufferTrouble? = some trouble) :
      Step (opening output) ⟨.storage .source (.openFile job.source.path), .ok input⟩
        (findingTemp (.broken trouble [output]))
  | notOpened {output : StreamId} (message : Bytes) :
      Step (opening output) ⟨.storage .source (.openFile job.source.path), .error message⟩
        (closing output [] (some (.openSource message)))
  | delivered {output input : StreamId} {moved : List Bytes} {chunk : Bytes} (h : chunk ≠ []) :
      Step (reading output input moved)
        ⟨.storage .source (.read input job.plan.chunkSize), .ok chunk⟩
        (writing output input moved chunk)
  /-- A read without bytes is the end of the source. -/
  | ended {output input : StreamId} {moved : List Bytes} :
      Step (reading output input moved)
        ⟨.storage .source (.read input job.plan.chunkSize), .ok []⟩
        (closing output moved none)
  | notRead {output input : StreamId} {moved : List Bytes} (message : Bytes) :
      Step (reading output input moved)
        ⟨.storage .source (.read input job.plan.chunkSize), .error message⟩
        (closing output moved (some (.readSource message)))
  | written {output input : StreamId} {moved : List Bytes} {chunk : Bytes} :
      Step (writing output input moved chunk) ⟨.storage .target (.write output chunk), .ok ()⟩
        (reading output input (moved ++ [chunk]))
  | notWritten {output input : StreamId} {moved : List Bytes} {chunk : Bytes} (message : Bytes) :
      Step (writing output input moved chunk)
        ⟨.storage .target (.write output chunk), .error message⟩
        (closing output moved (some (.writeTemp message)))
  | closed {output : StreamId} {moved : List Bytes} :
      Step (closing output moved none) ⟨.storage .target (.close output), .ok ()⟩
        (sizingSource moved)
  | notClosed {output : StreamId} {moved : List Bytes} (message : Bytes) :
      Step (closing output moved none) ⟨.storage .target (.close output), .error message⟩
        (findingTemp (.error (.closeTemp message)))
  /-- After a failure the answer to closing does not matter. -/
  | closedAfter {output : StreamId} {moved : List Bytes} {failure : CopyFailure}
      (answer : Except Bytes Unit) :
      Step (closing output moved (some failure)) ⟨.storage .target (.close output), answer⟩
        (findingTemp (.error failure))
  | sourceSized {moved : List Bytes} {status : FileStatus} (h : status.length = tally moved) :
      Step (sizingSource moved) ⟨.storage .source (.status job.source.path), .ok status⟩
        (sizingTemp moved)
  | sourceOff {moved : List Bytes} {status : FileStatus} (h : status.length ≠ tally moved) :
      Step (sizingSource moved) ⟨.storage .source (.status job.source.path), .ok status⟩
        (findingTemp (.error
          (.sourceLength job.source.path status.length (tally moved))))
  | sourceUnsized {moved : List Bytes} (message : Bytes) :
      Step (sizingSource moved) ⟨.storage .source (.status job.source.path), .error message⟩
        (findingTemp (.error (.sourceStatus message)))
  | tempSized {moved : List Bytes} {status : FileStatus} (h : status.length = tally moved) :
      Step (sizingTemp moved) ⟨.storage .target (.status job.temp), .ok status⟩
        (afterLengths job moved)
  | tempOff {moved : List Bytes} {status : FileStatus} (h : status.length ≠ tally moved) :
      Step (sizingTemp moved) ⟨.storage .target (.status job.temp), .ok status⟩
        (findingTemp (.error
          (.tempLength job.source.path job.temp status.length (tally moved))))
  | tempUnsized {moved : List Bytes} (message : Bytes) :
      Step (sizingTemp moved) ⟨.storage .target (.status job.temp), .error message⟩
        (findingTemp (.error (.tempStatus message)))
  | sourceSummed {moved : List Bytes} (sum : Option FileChecksum) :
      Step (summingSource moved) ⟨.storage .source (.checksum job.source.path), .ok sum⟩
        (summingTemp moved sum)
  | sourceUnsummed {moved : List Bytes} (message : Bytes) :
      Step (summingSource moved) ⟨.storage .source (.checksum job.source.path), .error message⟩
        (findingTemp (.error
          (.checksums job.source.path job.temp (.sourceUnreadable message))))
  | tempSummed {moved : List Bytes} {sourceSum tempSum : Option FileChecksum}
      (h : (ChecksumReport.ofChecksums sourceSum tempSum).verdict = .equal) :
      Step (summingTemp moved sourceSum) ⟨.storage .target (.checksum job.temp), .ok tempSum⟩
        (findingTarget moved)
  | tempDiffers {moved : List Bytes} {sourceSum tempSum : Option FileChecksum}
      (h : (ChecksumReport.ofChecksums sourceSum tempSum).verdict ≠ .equal) :
      Step (summingTemp moved sourceSum) ⟨.storage .target (.checksum job.temp), .ok tempSum⟩
        (findingTemp (.error (.checksums job.source.path job.temp
          (ChecksumReport.ofChecksums sourceSum tempSum))))
  | tempUnsummed {moved : List Bytes} {sourceSum : Option FileChecksum} (message : Bytes) :
      Step (summingTemp moved sourceSum) ⟨.storage .target (.checksum job.temp), .error message⟩
        (findingTemp (.error
          (.checksums job.source.path job.temp (.targetUnreadable message))))
  | targetFound {moved : List Bytes} :
      Step (findingTarget moved) ⟨.storage .target (.pathExists job.target), .ok true⟩
        (clearingTarget moved)
  | targetAbsent {moved : List Bytes} :
      Step (findingTarget moved) ⟨.storage .target (.pathExists job.target), .ok false⟩
        (afterClearing job moved)
  | targetUnknown {moved : List Bytes} (message : Bytes) :
      Step (findingTarget moved) ⟨.storage .target (.pathExists job.target), .error message⟩
        (findingTemp (.error (.promotion .deleteExisting job.temp job.target message)))
  | targetCleared {moved : List Bytes} :
      Step (clearingTarget moved) ⟨.storage .target (.remove job.target false), .ok ()⟩
        (afterClearing job moved)
  | targetKept {moved : List Bytes} (message : Bytes) :
      Step (clearingTarget moved) ⟨.storage .target (.remove job.target false), .error message⟩
        (findingTemp (.error (.promotion .deleteExisting job.temp job.target message)))
  | parentFound {moved : List Bytes} :
      Step (findingParent moved) ⟨.storage .target (.pathExists job.target.parent), .ok true⟩
        (publishing moved)
  | parentAbsent {moved : List Bytes} :
      Step (findingParent moved) ⟨.storage .target (.pathExists job.target.parent), .ok false⟩
        (makingParent moved)
  | parentUnknown {moved : List Bytes} (message : Bytes) :
      Step (findingParent moved)
        ⟨.storage .target (.pathExists job.target.parent), .error message⟩
        (findingTemp (.error (.promotion .createParent job.temp job.target message)))
  | parentMade {moved : List Bytes} :
      Step (makingParent moved) ⟨.storage .target (.makeDirs job.target.parent), .ok ()⟩
        (publishing moved)
  | parentNotMade {moved : List Bytes} (message : Bytes) :
      Step (makingParent moved) ⟨.storage .target (.makeDirs job.target.parent), .error message⟩
        (findingTemp (.error (.promotion .createParent job.temp job.target message)))
  | renamed {moved : List Bytes} :
      Step (publishing moved) ⟨.storage .target (.rename job.temp job.target), .ok ()⟩
        (findingTemp (.ok (tally moved)))
  | notRenamed {moved : List Bytes} (message : Bytes) :
      Step (publishing moved) ⟨.storage .target (.rename job.temp job.target), .error message⟩
        (findingTemp (.error (.promotion .rename job.temp job.target message)))
  | tempFound {result : AttemptEnd} :
      Step (findingTemp result) ⟨.storage .target (.pathExists job.temp), .ok true⟩
        (clearingTemp result)
  | tempAbsent {result : AttemptEnd} :
      Step (findingTemp result) ⟨.storage .target (.pathExists job.temp), .ok false⟩
        (finished result)
  | tempUnknown {result : AttemptEnd} (message : Bytes) :
      Step (findingTemp result) ⟨.storage .target (.pathExists job.temp), .error message⟩
        (finished result)
  /-- The result is decided before the temporary file is removed. -/
  | tempCleared {result : AttemptEnd} (answer : Except Bytes Unit) :
      Step (clearingTemp result) ⟨.storage .target (.remove job.temp false), answer⟩
        (finished result)

/-- The phases after the source was opened, as long as nothing has failed. -/
def flowing : CopyPhase → Bool
  | creating | opening _ | closing _ _ (some _) => false
  | findingTemp (.error _) | clearingTemp (.error _) | finished (.error _) => false
  | findingTemp (.broken ..) | clearingTemp (.broken ..) | finished (.broken ..) => false
  | _ => true

variable {job}

/-- After the lengths either a checksum or the target is asked for. -/
@[elab_as_elim]
theorem afterLengths_cases {motive : CopyPhase → Prop} {moved : List Bytes}
    (sum : 0 < tally moved ∧ job.options.verification = .verify → motive (summingSource moved))
    (find : ¬ (0 < tally moved ∧ job.options.verification = .verify) →
      motive (findingTarget moved)) : motive (afterLengths job moved) := by
  unfold afterLengths
  split
  · next hverify => exact sum hverify
  · next hverify => exact find hverify

/-- With nothing at the target either the file is renamed or the parent is asked for. -/
@[elab_as_elim]
theorem afterClearing_cases {motive : CopyPhase → Prop} {moved : List Bytes}
    (rename : job.target.parent.isEmpty = true → motive (publishing moved))
    (find : ¬ job.target.parent.isEmpty = true → motive (findingParent moved)) :
    motive (afterClearing job moved) := by
  unfold afterClearing
  split
  · next hparent => exact rename hparent
  · next hparent => exact find hparent

/-- What is no call on a store leaves the attempt where it is. -/
theorem Step.eq_of_silent {phase after : CopyPhase} {x : Program.Exchange}
    (h : Step job phase x after) (hx : x.request.isCall = false) : after = phase := by
  cases h with
  | silent => rfl
  | _ => cases hx

/-- The first of these phases is reached with a buffer. -/
theorem Step.buffered {phase after : CopyPhase} {x : Program.Exchange} (h : Step job phase x after)
    (hafter : after.flowing = true) :
    phase.flowing = true ∨ job.plan.bufferTrouble? = none := by
  cases h with
  | silent => exact .inl hafter
  | opened input hbuffer => exact .inr hbuffer
  | @tempFound result | @tempAbsent result | @tempUnknown result | @tempCleared result =>
    cases result with
    | ok => exact .inl rfl
    | error | broken => cases hafter
  | _ => first | exact .inl rfl | cases hafter

/-- The exchange decides where the attempt goes. -/
theorem Step.unique {phase after other : CopyPhase} {x : Program.Exchange}
    (h : Step job phase x after) (h' : Step job phase x other) : after = other := by
  cases h with
  | silent hx => exact (h'.eq_of_silent hx).symm
  -- where one answer leads to several phases, the conditions exclude each other
  | opened input hbuffer =>
    cases h' with
    | silent hx => cases hx
    | opened => rfl
    | openedUnbuffered _ htrouble => cases hbuffer.symm.trans htrouble
  | openedUnbuffered input htrouble =>
    cases h' with
    | silent hx => cases hx
    | opened _ hbuffer => cases hbuffer.symm.trans htrouble
    | openedUnbuffered _ htrouble' =>
      obtain rfl := Option.some.inj (htrouble.symm.trans htrouble')
      rfl
  | delivered hchunk =>
    cases h' with
    | silent hx => cases hx
    | delivered => rfl
    | ended => exact absurd rfl hchunk
  | ended =>
    cases h' with
    | silent hx => cases hx
    | delivered hchunk => exact absurd rfl hchunk
    | ended => rfl
  | sourceSized hlength =>
    cases h' with
    | silent hx => cases hx
    | sourceSized => rfl
    | sourceOff hoff => exact absurd hlength hoff
  | sourceOff hoff =>
    cases h' with
    | silent hx => cases hx
    | sourceSized hlength => exact absurd hlength hoff
    | sourceOff => rfl
  | tempSized hlength =>
    cases h' with
    | silent hx => cases hx
    | tempSized => rfl
    | tempOff hoff => exact absurd hlength hoff
  | tempOff hoff =>
    cases h' with
    | silent hx => cases hx
    | tempSized hlength => exact absurd hlength hoff
    | tempOff => rfl
  | tempSummed hequal =>
    cases h' with
    | silent hx => cases hx
    | tempSummed => rfl
    | tempDiffers hdiffers => exact absurd hequal hdiffers
  | tempDiffers hdiffers =>
    cases h' with
    | silent hx => cases hx
    | tempSummed hequal => exact absurd hequal hdiffers
    | tempDiffers => rfl
  | _ =>
    cases h' with
    | silent hx => cases hx
    | _ => rfl

end CopyPhase

end StagedCopy
