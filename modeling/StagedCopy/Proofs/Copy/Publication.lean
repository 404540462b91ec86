import StagedCopy.Proofs.Checksum
import StagedCopy.Proofs.Copy.History

/-!
# Nothing is published before it is verified

The calls of an attempt fall into three parts: staging, publishing and discarding. Nothing in the
first part looks at what stands at the target or changes it; the second part makes the calls of
publishing, each at most once and in order; and the third looks for the temporary file and removes
it. Whatever the stores answer, publishing only begins after staging has verified the temporary
file.

* `VerifiedStaging` — the calls of a staging that may be published, with all their answers.
* `publishingRequests`, `discardingRequests` — the requests of the other two parts.
* `CopyPhase.Told` — what the phase says about the calls so far, kept by every step.
* `published_only_verified` — the theorem, over every beginning of every execution.
-/

namespace StagedCopy

open Program (Begins Exchange Yields)

/-! ## Staging that is verified -/

section staging

variable (job : CopyJob)

/-- A chunk goes from the source to the temporary file. -/
def transfer (output input : StreamId) (chunk : Bytes) : List Exchange :=
  [⟨.storage .source (.read input job.plan.chunkSize), .ok chunk⟩,
    ⟨.storage .target (.write output chunk), .ok ()⟩]

/-- The calls up to the moment when some chunks have gone to the temporary file. -/
def streamed (output input : StreamId) (moved : List Bytes) : List Exchange :=
  [⟨.storage .target (.createFile job.temp true job.options.bufferSize job.layout),
      .ok (.ok output)⟩,
    ⟨.storage .source (.openFile job.source.path), .ok input⟩]
    ++ moved.flatMap (transfer job output input)

/-- The calls up to the moment when the source has ended and the temporary file is closed. -/
def closedStaging (output input : StreamId) (moved : List Bytes) : List Exchange :=
  streamed job output input moved
    ++ [⟨.storage .source (.read input job.plan.chunkSize), .ok []⟩,
      ⟨.storage .target (.close output), .ok ()⟩]

/-- The calls up to the moment when both lengths are found to be what was moved. -/
def MeasuredStaging (moved : List Bytes) (calls : List Exchange) : Prop :=
  ∃ (output input : StreamId) (sourceStatus tempStatus : FileStatus),
    calls = closedStaging job output input moved
      ++ [⟨.storage .source (.status job.source.path), .ok sourceStatus⟩,
        ⟨.storage .target (.status job.temp), .ok tempStatus⟩] ∧
    (∀ chunk ∈ moved, chunk ≠ []) ∧
    sourceStatus.length = tally moved ∧ tempStatus.length = tally moved

/-- Two checksums were asked for, are there, and agree in algorithm, blocks and value. -/
def AgreeingChecksums (calls : List Exchange) : Prop :=
  ∃ sourceSum tempSum : FileChecksum,
    calls = [⟨.storage .source (.checksum job.source.path), .ok (some sourceSum)⟩,
      ⟨.storage .target (.checksum job.temp), .ok (some tempSum)⟩] ∧
    sourceSum.algorithm = tempSum.algorithm ∧ sourceSum.blockSize = tempSum.blockSize ∧
    sourceSum.value = tempSum.value

/-- The calls of a staging that may be published: the temporary file was created, the source was
read to its end and each of its chunks written, the file was closed, both lengths are what was
moved, and the checksums agree, unless nothing was moved or checksums are not to be compared. -/
def VerifiedStaging (calls : List Exchange) : Prop :=
  ∃ moved measured sums,
    calls = measured ++ sums ∧ MeasuredStaging job moved measured ∧
    if 0 < tally moved ∧ job.options.verification = .verify then AgreeingChecksums job sums
    else sums = []

/-- The requests of publishing, in the order in which they are made. -/
def publishingRequests : List Request :=
  [.storage .target (.pathExists job.target), .storage .target (.remove job.target false),
    .storage .target (.pathExists job.target.parent),
    .storage .target (.makeDirs job.target.parent), .storage .target (.rename job.temp job.target)]

/-- The requests of discarding the temporary file, in the order in which they are made. -/
def discardingRequests : List Request :=
  [.storage .target (.pathExists job.temp), .storage .target (.remove job.temp false)]

end staging

/-- The call asks whether something stands at a path, or changes what stands there: calls of this
kind are not made while staging. -/
def Request.publishes : Request → Bool
  | storage _ (.pathExists _) => true
  | storage _ (.remove ..) => true
  | storage _ (.makeDirs _) => true
  | storage _ (.rename ..) => true
  | _ => false

/-- No call is one of publishing or discarding. -/
def Unpublished (calls : List Exchange) : Prop := ∀ x ∈ calls, x.request.publishes = false

theorem Unpublished.append {s t : List Exchange} (hs : Unpublished s) (ht : Unpublished t) :
    Unpublished (s ++ t) := by
  intro x hx
  rcases List.mem_append.1 hx with h | h
  · exact hs x h
  · exact ht x h

theorem Unpublished.snoc {calls : List Exchange} {x : Exchange} (h : Unpublished calls)
    (hx : x.request.publishes = false) : Unpublished (calls ++ [x]) :=
  h.append fun y hy => by rwa [List.mem_singleton.1 hy]

theorem unpublished_streamed (job : CopyJob) (output input : StreamId) (moved : List Bytes) :
    Unpublished (streamed job output input moved) := by
  refine Unpublished.append ?_ ?_
  · simp [Unpublished, Request.publishes]
  · intro x hx
    obtain ⟨chunk, -, hchunk⟩ := List.mem_flatMap.1 hx
    simp only [transfer, List.mem_cons, List.not_mem_nil, or_false] at hchunk
    rcases hchunk with rfl | rfl <;> rfl

theorem unpublished_closedStaging (job : CopyJob) (output input : StreamId)
    (moved : List Bytes) : Unpublished (closedStaging job output input moved) :=
  (unpublished_streamed job output input moved).append (by simp [Unpublished, Request.publishes])

theorem MeasuredStaging.unpublished {job : CopyJob} {moved : List Bytes} {calls : List Exchange}
    (h : MeasuredStaging job moved calls) : Unpublished calls := by
  obtain ⟨output, input, sourceStatus, tempStatus, rfl, -, -, -⟩ := h
  exact (unpublished_closedStaging job output input moved).append
    (by simp [Unpublished, Request.publishes])

theorem VerifiedStaging.unpublished {job : CopyJob} {calls : List Exchange}
    (h : VerifiedStaging job calls) : Unpublished calls := by
  obtain ⟨moved, measured, sums, rfl, hmeasured, hsums⟩ := h
  refine hmeasured.unpublished.append ?_
  split at hsums
  · obtain ⟨sourceSum, tempSum, rfl, -, -, -⟩ := hsums
    simp [Unpublished, Request.publishes]
  · rw [hsums]
    exact fun x hx => absurd hx List.not_mem_nil

/-! ## The parts of an attempt -/

/-- Calls of a verified staging, followed by calls from the beginning of publishing. -/
def PublishingPart (job : CopyJob) (n : Nat) (calls : List Exchange) : Prop :=
  ∃ staged published : List Exchange, calls = staged ++ published ∧ VerifiedStaging job staged ∧
    (published.map Exchange.request).Sublist ((publishingRequests job).take n)

/-- Calls of staging, of publishing what was verified, and the first ones of discarding. -/
def Arranged (job : CopyJob) (n : Nat) (calls : List Exchange) : Prop :=
  ∃ staged published discarded : List Exchange, calls = staged ++ published ++ discarded ∧
    Unpublished staged ∧
    (published.map Exchange.request).Sublist (publishingRequests job) ∧
    discarded.map Exchange.request = (discardingRequests job).take n ∧
    (published ≠ [] → VerifiedStaging job staged)

section parts

variable {job : CopyJob} {calls : List Exchange} {n : Nat}

theorem VerifiedStaging.publishingPart (h : VerifiedStaging job calls) :
    PublishingPart job 0 calls :=
  ⟨calls, [], (List.append_nil _).symm, h, List.Sublist.slnil⟩

theorem PublishingPart.mono {m : Nat} (h : PublishingPart job n calls) (hnm : n ≤ m) :
    PublishingPart job m calls := by
  obtain ⟨staged, published, hcalls, hstaged, hpublished⟩ := h
  exact ⟨staged, published, hcalls, hstaged,
    hpublished.trans (List.take_sublist_take_left hnm)⟩

/-- The next request of publishing is made. -/
theorem PublishingPart.snoc {x : Exchange} (h : PublishingPart job n calls)
    (hx : (publishingRequests job)[n]? = some x.request) :
    PublishingPart job (n + 1) (calls ++ [x]) := by
  obtain ⟨staged, published, rfl, hstaged, hpublished⟩ := h
  refine ⟨staged, published ++ [x], List.append_assoc _ _ _, hstaged, ?_⟩
  rw [List.map_append, List.take_add_one, hx]
  exact hpublished.append (List.Sublist.refl _)

theorem PublishingPart.arranged (h : PublishingPart job n calls) : Arranged job 0 calls := by
  obtain ⟨staged, published, rfl, hstaged, hpublished⟩ := h
  exact ⟨staged, published, [], (List.append_nil _).symm, hstaged.unpublished,
    hpublished.trans (List.take_sublist _ _), rfl, fun _ => hstaged⟩

theorem Unpublished.arranged (h : Unpublished calls) : Arranged job 0 calls :=
  ⟨calls, [], [], by simp, h, List.nil_sublist _, rfl, fun hne => absurd rfl hne⟩

/-- The next request of discarding is made. -/
theorem Arranged.snoc {x : Exchange} (h : Arranged job n calls)
    (hx : (discardingRequests job)[n]? = some x.request) :
    Arranged job (n + 1) (calls ++ [x]) := by
  obtain ⟨staged, published, discarded, rfl, hstaged, hpublished, hdiscarded, hverified⟩ := h
  refine ⟨staged, published, discarded ++ [x], List.append_assoc _ _ _, hstaged, hpublished, ?_,
    hverified⟩
  rw [List.map_append, hdiscarded, List.take_add_one, hx]
  rfl

/-- Publishing looks at the target or changes it. -/
theorem publishes_of_mem {r : Request} (h : r ∈ publishingRequests job) :
    r.publishes = true := by
  simp only [publishingRequests, List.mem_cons, List.not_mem_nil, or_false] at h
  rcases h with rfl | rfl | rfl | rfl | rfl <;> rfl

theorem isCall_of_mem {r : Request} (h : r ∈ publishingRequests job) : r.isCall = true := by
  simp only [publishingRequests, List.mem_cons, List.not_mem_nil, or_false] at h
  rcases h with rfl | rfl | rfl | rfl | rfl <;> rfl

/-- A call of publishing comes after a verified staging. -/
theorem Arranged.verified {x : Exchange}
    (h : Arranged job n (calls ++ [x])) (hx : x.request ∈ publishingRequests job)
    (hx' : x.request ∉ discardingRequests job) :
    ∃ staged, staged <+: calls ∧ VerifiedStaging job staged := by
  obtain ⟨staged, published, discarded, hcalls, hstaged, -, hdiscarded, hverified⟩ := h
  -- the last call is one of publishing, so nothing was discarded yet
  rcases List.eq_nil_or_concat discarded with rfl | ⟨rest, y, rfl⟩
  · rw [List.append_nil] at hcalls
    rcases List.eq_nil_or_concat published with rfl | ⟨rest, y, rfl⟩
    · have hmem : x ∈ staged := by
        rw [List.append_nil] at hcalls
        simp [← hcalls]
      have hpublishes := hstaged x hmem
      rw [publishes_of_mem hx] at hpublishes
      cases hpublishes
    · rw [List.concat_eq_append, ← List.append_assoc] at hcalls
      obtain ⟨rfl, -⟩ := List.append_inj' hcalls rfl
      exact ⟨staged, List.prefix_append staged rest, hverified (by simp)⟩
  · rw [List.concat_eq_append, ← List.append_assoc] at hcalls
    obtain ⟨-, hxy⟩ := List.append_inj' hcalls rfl
    obtain rfl : x = y := List.singleton_inj.1 hxy
    have hmem : x.request ∈ (rest.concat x).map Exchange.request :=
      List.mem_map_of_mem (by simp)
    rw [hdiscarded] at hmem
    exact absurd (List.mem_of_mem_take hmem) hx'

end parts

namespace CopyPhase

/-- What the phase says about the calls that were made. -/
def Told (job : CopyJob) (calls : List Exchange) : CopyPhase → Prop
  | creating => calls = []
  | opening output =>
    calls = [⟨.storage .target
      (.createFile job.temp true job.options.bufferSize job.layout), .ok (.ok output)⟩]
  | reading output input moved =>
    calls = streamed job output input moved ∧ ∀ c ∈ moved, c ≠ []
  | writing output input moved chunk =>
    calls = streamed job output input moved
        ++ [⟨.storage .source (.read input job.plan.chunkSize), .ok chunk⟩] ∧
      ∀ c ∈ moved ++ [chunk], c ≠ []
  | closing output moved none =>
    (∃ input, calls = streamed job output input moved
      ++ [⟨.storage .source (.read input job.plan.chunkSize), .ok []⟩]) ∧ ∀ c ∈ moved, c ≠ []
  | closing _ _ (some _) => Unpublished calls
  | sizingSource moved =>
    (∃ output input, calls = closedStaging job output input moved) ∧ ∀ c ∈ moved, c ≠ []
  | sizingTemp moved =>
    (∃ output input, ∃ status : FileStatus, calls = closedStaging job output input moved
        ++ [⟨.storage .source (.status job.source.path), .ok status⟩] ∧
      status.length = tally moved) ∧ ∀ c ∈ moved, c ≠ []
  | summingSource moved =>
    MeasuredStaging job moved calls ∧
      (0 < tally moved ∧ job.options.verification = .verify)
  | summingTemp moved sum =>
    (∃ measured, calls = measured
        ++ [⟨.storage .source (.checksum job.source.path), .ok sum⟩] ∧
      MeasuredStaging job moved measured) ∧
      (0 < tally moved ∧ job.options.verification = .verify)
  | findingTarget _ => PublishingPart job 0 calls
  | clearingTarget _ => PublishingPart job 1 calls
  | findingParent _ => PublishingPart job 2 calls
  | makingParent _ => PublishingPart job 3 calls
  | publishing _ => PublishingPart job 4 calls
  | findingTemp _ => Arranged job 0 calls
  | clearingTemp _ => Arranged job 1 calls
  | finished _ => ∃ n, Arranged job n calls

/-- At every phase the calls fall into the parts of an attempt. -/
theorem Told.arranged {job : CopyJob} {calls : List Exchange} {phase : CopyPhase}
    (h : phase.Told job calls) : ∃ n, Arranged job n calls := by
  match phase, h with
  | creating, h =>
    obtain rfl : calls = [] := h
    exact ⟨0, Unpublished.arranged fun x hx => absurd hx List.not_mem_nil⟩
  | opening output, h =>
    obtain rfl : calls = _ := h
    exact ⟨0, Unpublished.arranged (by simp [Unpublished, Request.publishes])⟩
  | reading output input moved, h =>
    obtain ⟨rfl, -⟩ := h
    exact ⟨0, (unpublished_streamed _ _ _ _).arranged⟩
  | writing output input moved chunk, h =>
    obtain ⟨rfl, -⟩ := h
    exact ⟨0, ((unpublished_streamed _ _ _ _).snoc rfl).arranged⟩
  | closing output moved none, h =>
    obtain ⟨⟨input, rfl⟩, -⟩ := h
    exact ⟨0, ((unpublished_streamed _ _ _ _).snoc rfl).arranged⟩
  | closing output moved (some failure), h => exact ⟨0, Unpublished.arranged h⟩
  | sizingSource moved, h =>
    obtain ⟨⟨output, input, rfl⟩, -⟩ := h
    exact ⟨0, (unpublished_closedStaging _ _ _ _).arranged⟩
  | sizingTemp moved, h =>
    obtain ⟨⟨output, input, status, rfl, -⟩, -⟩ := h
    exact ⟨0, ((unpublished_closedStaging _ _ _ _).snoc rfl).arranged⟩
  | summingSource moved, h => exact ⟨0, h.1.unpublished.arranged⟩
  | summingTemp moved sum, h =>
    obtain ⟨⟨measured, rfl, hmeasured⟩, -⟩ := h
    exact ⟨0, (hmeasured.unpublished.snoc rfl).arranged⟩
  | findingTarget _, h => exact ⟨0, PublishingPart.arranged h⟩
  | clearingTarget _, h => exact ⟨0, PublishingPart.arranged h⟩
  | findingParent _, h => exact ⟨0, PublishingPart.arranged h⟩
  | makingParent _, h => exact ⟨0, PublishingPart.arranged h⟩
  | publishing _, h => exact ⟨0, PublishingPart.arranged h⟩
  | findingTemp _, h => exact ⟨0, h⟩
  | clearingTemp _, h => exact ⟨1, h⟩
  | finished _, h => exact h

theorem told_afterLengths {job : CopyJob} {calls : List Exchange} {moved : List Bytes}
    (h : MeasuredStaging job moved calls) : (afterLengths job moved).Told job calls := by
  unfold afterLengths
  split
  · next hverify => exact ⟨h, hverify⟩
  · next hverify =>
    exact VerifiedStaging.publishingPart
      ⟨moved, calls, [], (List.append_nil _).symm, h, by rw [if_neg hverify]⟩

theorem told_afterClearing {job : CopyJob} {calls : List Exchange} {moved : List Bytes}
    (h : PublishingPart job 2 calls) : (afterClearing job moved).Told job calls := by
  unfold afterClearing
  split
  · exact PublishingPart.mono h (by decide)
  · exact h

/-- What was measured and has equal checksums is verified. -/
theorem verified_of_equal {job : CopyJob} {moved : List Bytes} {measured : List Exchange}
    {sourceSum tempSum : Option FileChecksum} (h : MeasuredStaging job moved measured)
    (hverify : 0 < tally moved ∧ job.options.verification = .verify)
    (hequal : (ChecksumReport.ofChecksums sourceSum tempSum).verdict = .equal) :
    VerifiedStaging job (measured
      ++ [⟨.storage .source (.checksum job.source.path), .ok sourceSum⟩,
        ⟨.storage .target (.checksum job.temp), .ok tempSum⟩]) := by
  obtain ⟨a, b, rfl, rfl, halgorithm, hblocks, hvalue⟩ := ChecksumReport.equal_iff.1 hequal
  refine ⟨moved, measured, _, rfl, h, ?_⟩
  rw [if_pos hverify]
  exact ⟨a, b, rfl, halgorithm, hblocks, hvalue⟩

/-- Every call keeps what the phase says. -/
theorem told_step {job : CopyJob} {calls : List Exchange} {phase after : CopyPhase}
    {x : Exchange} (hx : x.request.isCall = true) (h : phase.Told job calls)
    (hstep : Step job phase x after) : after.Told job (calls ++ [x]) := by
  cases hstep with
  | silent hs => rw [hs] at hx; cases hx
  | created output =>
    obtain rfl : calls = [] := h
    rfl
  | createdUnbuffered | notCreated =>
    obtain rfl : calls = [] := h
    exact Unpublished.arranged (by simp [Unpublished, Request.publishes])
  | opened input =>
    obtain rfl : calls = _ := h
    exact ⟨rfl, fun c hc => absurd hc List.not_mem_nil⟩
  | openedUnbuffered input =>
    obtain rfl : calls = _ := h
    exact Unpublished.arranged (by simp [Unpublished, Request.publishes])
  | notOpened message =>
    obtain rfl : calls = _ := h
    show Unpublished _
    simp [Unpublished, Request.publishes]
  | delivered hchunk =>
    obtain ⟨rfl, hmoved⟩ := h
    refine ⟨rfl, fun c hc => ?_⟩
    rcases List.mem_append.1 hc with hc | hc
    · exact hmoved c hc
    · rwa [List.mem_singleton.1 hc]
  | ended =>
    obtain ⟨rfl, hmoved⟩ := h
    exact ⟨⟨_, rfl⟩, hmoved⟩
  | notRead message =>
    obtain ⟨rfl, -⟩ := h
    exact (unpublished_streamed _ _ _ _).snoc rfl
  | written =>
    obtain ⟨rfl, hmoved⟩ := h
    refine ⟨?_, hmoved⟩
    simp [streamed, transfer]
  | notWritten message =>
    obtain ⟨rfl, -⟩ := h
    exact ((unpublished_streamed _ _ _ _).snoc rfl).snoc rfl
  | closed =>
    obtain ⟨⟨input, rfl⟩, hmoved⟩ := h
    exact ⟨⟨_, input, List.append_assoc _ _ _⟩, hmoved⟩
  | notClosed message =>
    obtain ⟨⟨input, rfl⟩, -⟩ := h
    exact (((unpublished_streamed _ _ _ _).snoc rfl).snoc rfl).arranged
  | closedAfter answer => exact (Unpublished.snoc h rfl).arranged
  | sourceSized hlength =>
    obtain ⟨⟨output, input, rfl⟩, hmoved⟩ := h
    exact ⟨⟨output, input, _, rfl, hlength⟩, hmoved⟩
  | sourceOff hlength =>
    obtain ⟨⟨output, input, rfl⟩, -⟩ := h
    exact ((unpublished_closedStaging _ _ _ _).snoc rfl).arranged
  | sourceUnsized message =>
    obtain ⟨⟨output, input, rfl⟩, -⟩ := h
    exact ((unpublished_closedStaging _ _ _ _).snoc rfl).arranged
  | tempSized hlength =>
    obtain ⟨⟨output, input, status, rfl, hstatus⟩, hmoved⟩ := h
    exact told_afterLengths
      ⟨output, input, status, _, List.append_assoc _ _ _, hmoved, hstatus, hlength⟩
  | tempOff hlength =>
    obtain ⟨⟨output, input, status, rfl, -⟩, -⟩ := h
    exact (((unpublished_closedStaging _ _ _ _).snoc rfl).snoc rfl).arranged
  | tempUnsized message =>
    obtain ⟨⟨output, input, status, rfl, -⟩, -⟩ := h
    exact (((unpublished_closedStaging _ _ _ _).snoc rfl).snoc rfl).arranged
  | sourceSummed sum => exact ⟨⟨calls, rfl, h.1⟩, h.2⟩
  | sourceUnsummed message => exact (h.1.unpublished.snoc rfl).arranged
  | tempSummed hequal =>
    obtain ⟨⟨measured, rfl, hmeasured⟩, hverify⟩ := h
    have hverified := verified_of_equal hmeasured hverify hequal
    rw [List.append_assoc]
    exact hverified.publishingPart
  | tempDiffers hequal =>
    obtain ⟨⟨measured, rfl, hmeasured⟩, -⟩ := h
    exact ((hmeasured.unpublished.snoc rfl).snoc rfl).arranged
  | tempUnsummed message =>
    obtain ⟨⟨measured, rfl, hmeasured⟩, -⟩ := h
    exact ((hmeasured.unpublished.snoc rfl).snoc rfl).arranged
  | targetFound => exact PublishingPart.snoc h rfl
  | targetAbsent => exact told_afterClearing ((PublishingPart.snoc h rfl).mono (by decide))
  | targetUnknown message => exact (PublishingPart.snoc h rfl).arranged
  | targetCleared => exact told_afterClearing (PublishingPart.snoc h rfl)
  | targetKept message => exact (PublishingPart.snoc h rfl).arranged
  | parentFound => exact (PublishingPart.snoc h rfl).mono (by decide)
  | parentAbsent => exact PublishingPart.snoc h rfl
  | parentUnknown message => exact (PublishingPart.snoc h rfl).arranged
  | parentMade => exact PublishingPart.snoc h rfl
  | parentNotMade message => exact (PublishingPart.snoc h rfl).arranged
  | renamed => exact (PublishingPart.snoc h rfl).arranged
  | notRenamed message => exact (PublishingPart.snoc h rfl).arranged
  | tempFound => exact Arranged.snoc h rfl
  | tempAbsent => exact ⟨1, Arranged.snoc h rfl⟩
  | tempUnknown message => exact ⟨1, Arranged.snoc h rfl⟩
  | tempCleared answer => exact ⟨2, Arranged.snoc h rfl⟩

/-- The calls of a history are as the phase says that it leads to. -/
theorem told_trail {job : CopyJob} {history : List Exchange} {phase : CopyPhase}
    (h : Trail (Step job) .creating history phase) : phase.Told job (callsOf history) := by
  refine Trail.history (I := fun before phase => phase.Told job (callsOf before)) ?_ h rfl
  intro before phase x after hI hstep
  cases hx : x.request.isCall with
  | true =>
    rw [callsOf_snoc_of_isCall before hx]
    exact told_step hx hI hstep
  | false =>
    rw [callsOf_snoc_silent before hx]
    obtain rfl : after = phase := hstep.eq_of_silent hx
    exact hI

theorem reads_trail {job : CopyJob} {history : List Exchange} {phase : CopyPhase}
    (h : Trail (Step job) .creating history phase) : ∀ x ∈ history, job.Reads x.request := by
  refine Trail.history (I := fun before _ => ∀ x ∈ before, job.Reads x.request) ?_ h ?_
  · intro before phase x after hI hstep y hy
    rcases List.mem_append.1 hy with hy | hy
    · exact hI y hy
    · rw [List.mem_singleton.1 hy]
      exact reads_step hstep
  · exact fun x hx => absurd hx List.not_mem_nil

end CopyPhase

/-! ## The theorem -/

/-- Whatever the stores and everything else answer, an attempt that has come to any moment has only
read from the source; its calls are those of staging, then of publishing, then of discarding, each
of the last two kinds at most once and in order; a call of publishing, unless it is a question or a
removal that discarding makes as well, comes after a staging that is verified; and the chunks that
were passed on are those that were delivered, except for the last one while it is on its way, and
without exception once the attempt has a result or has broken down.

Nothing is asked of the target path: when it is the path of the temporary file, or its directory
is, the requests of the two parts are the same, and the parts still follow each other. -/
theorem published_only_verified {bound : Nat} {job : CopyJob} {exchanges : List Exchange}
    (h : Begins (copyOnce bound job) exchanges) :
    (∀ x ∈ exchanges, job.Reads x.request) ∧
    (∃ n, Arranged job n (callsOf exchanges)) ∧
    (∀ before x after, exchanges = before ++ x :: after →
      x.request ∈ publishingRequests job → x.request ∉ discardingRequests job →
      ∃ staged, staged <+: callsOf before ∧ VerifiedStaging job staged) ∧
    (∃ chunks, deliveredChunks exchanges = passedChunks exchanges ++ chunks ∧
      chunks.length ≤ 1) ∧
    (∀ outcome, Yields (copyOnce bound job) exchanges outcome → outcome ≠ .unfinished →
      deliveredChunks exchanges = passedChunks exchanges) := by
  obtain ⟨phase, htrail⟩ := copyOnce_trail h
  refine ⟨CopyPhase.reads_trail htrail, (CopyPhase.told_trail htrail).arranged, ?_,
    ⟨phase.pending, CopyPhase.delivered_eq htrail, CopyPhase.length_pending_le phase⟩, ?_⟩
  · intro before x after hsplit hx hx'
    rw [hsplit, List.append_cons] at htrail
    obtain ⟨middle, hbefore, -⟩ := Trail.append_iff.1 htrail
    obtain ⟨n, harranged⟩ := (CopyPhase.told_trail hbefore).arranged
    rw [callsOf_snoc_of_isCall before (isCall_of_mem hx)] at harranged
    exact harranged.verified hx hx'
  · intro outcome hyields hends
    by_cases hid : isAttemptId job.attemptId
    · obtain ⟨decided, hfinished, -⟩ := copyOnce_ended hid hyields hends
      have hdelivered := CopyPhase.delivered_eq hfinished
      exact hdelivered.trans (List.append_nil _)
    · rw [copyOnce_invalid hid] at hyields
      cases hyields
      rfl

/-- The exchanges of the small job with stores that refuse nothing and deliver two chunks. -/
def smallExchanges : List Exchange :=
  Program.exchanges (obliging 3) (copyOnce 3 smallJob) [utf8 "ab", utf8 "c"]

theorem published_only_verified_small :
    Begins (copyOnce 3 smallJob) smallExchanges ∧
    (smallExchanges.any fun x =>
      x.request == .storage .target (.rename smallJob.temp smallJob.target)) = true ∧
    deliveredChunks smallExchanges = [utf8 "ab", utf8 "c"] ∧
    ∃ n, Arranged smallJob n (callsOf smallExchanges) := by
  have hbegins : Begins (copyOnce 3 smallJob) smallExchanges :=
    Program.begins_exchanges _ _ _
  exact ⟨hbegins, by decide +kernel, by decide +kernel, (published_only_verified hbegins).2.1⟩

end StagedCopy
