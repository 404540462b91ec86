import StagedCopy.Proofs.Copy.History

/-!
# The first mishap decides the report

What can go wrong with an attempt is read off its exchanges alone, without looking at the program:
an answer is a mishap when it is an error, a length that is not what was delivered, or a checksum
that does not agree, and the part of the attempt that it falls into is seen from the exchanges
before it. Several things can go wrong in one attempt, for example a read, then the closing and
then the removal of the temporary file; the report is always that of the first. An attempt that gets
no buffer makes no report at all: it breaks down.

* `Mishap` — what can go wrong, with the kind and the step of the report on it.
* `mishapAfter` — the mishap that an exchange is, after a history.
* `CopyJob.firstMishap` — the first one of an attempt.
* `CopyJob.breakdownAt?`, `CopyJob.firstBreakdown?` — the exchanges at which a buffer is missing.
* `CopyPhase.Judged` — what the phase says about the mishaps so far, kept by every step.
* `report_of_first_mishap` — the theorem, over all handlers.
-/

namespace StagedCopy

open Program (Exchange Handler Run)

/-! ## Mishaps -/

/-- What can go wrong with an attempt. -/
inductive Mishap where
  | attemptId | createTemp | openSource | readSource | writeTemp | closeTemp | askLength | length
  | checksum | deleteExisting | createParent | rename
  deriving DecidableEq, Repr

namespace Mishap

/-- The kind of the report on a mishap. -/
def kind : Mishap → CopyErrorKind
  | attemptId | createTemp | writeTemp | closeTemp | askLength => .writeFailure
  | openSource | readSource => .readFailure
  | length => .lengthMismatch
  | checksum => .checksumMismatch
  | deleteExisting | createParent | rename => .promotionFailure

/-- The step of the report on a mishap. -/
def step : Mishap → Bytes
  | attemptId => utf8 "temp-path"
  | createTemp => utf8 "create-temp"
  | openSource => utf8 "open-source"
  | readSource => utf8 "read-source"
  | writeTemp => utf8 "write-temp"
  | closeTemp => utf8 "close-temp"
  | askLength | length => utf8 "verify-length"
  | checksum => utf8 "verify-checksum"
  | deleteExisting => utf8 "delete-existing"
  | createParent => utf8 "create-parent"
  | rename => utf8 "rename"

end Mishap

namespace Program.Exchange

/-- The target store is asked whether something is at a path. -/
def asks : Exchange → Bool
  | ⟨.storage .target (.pathExists _), _⟩ => true
  | _ => false

/-- The target store is told to rename. -/
def renames : Exchange → Bool
  | ⟨.storage .target (.rename ..), _⟩ => true
  | _ => false

/-- What the source store answers about its checksum. -/
def sourceSum? : Exchange → Option (Option FileChecksum)
  | ⟨.storage .source (.checksum _), .ok sum⟩ => some sum
  | _ => none

theorem asks_silent {x : Exchange} (h : x.request.isCall = false) : x.asks = false := by
  obtain ⟨r, answer⟩ := x
  cases r with
  | storage => cases h
  | _ => rfl

theorem renames_silent {x : Exchange} (h : x.request.isCall = false) : x.renames = false := by
  obtain ⟨r, answer⟩ := x
  cases r with
  | storage => cases h
  | _ => rfl

theorem sourceSum?_silent {x : Exchange} (h : x.request.isCall = false) :
    x.sourceSum? = none := by
  obtain ⟨r, answer⟩ := x
  cases r with
  | storage => cases h
  | _ => rfl

end Program.Exchange

/-- The checksum that the source store answered last, if it has one. -/
def lastSourceSum (history : List Exchange) : Option FileChecksum :=
  (history.filterMap Exchange.sourceSum?).getLast?.join

theorem lastSourceSum_snoc (history : List Exchange) (path : Path) (sum : Option FileChecksum) :
    lastSourceSum (history ++ [⟨.storage .source (.checksum path), .ok sum⟩]) = sum := by
  rw [lastSourceSum, List.filterMap_append]
  simp [Exchange.sourceSum?]

/-- What was delivered is to be compared by checksums. -/
def CopyJob.Compares (job : CopyJob) (history : List Exchange) : Prop :=
  0 < tally (deliveredChunks history) ∧ job.options.verification = .verify

instance (job : CopyJob) (history : List Exchange) : Decidable (job.Compares history) :=
  inferInstanceAs (Decidable (_ ∧ _))

theorem compares_snoc {job : CopyJob} {history : List Exchange} {x : Exchange}
    (hx : x.delivery? = none) (h : job.Compares history) : job.Compares (history ++ [x]) := by
  unfold CopyJob.Compares
  rw [deliveredChunks_snoc, hx, Option.toList_none, List.append_nil]
  exact h

/-- The mishap that an exchange is, after the exchanges in `before`. The first question to the
target store is about the target and the next about its directory; what is asked after a rename is
about the temporary file, where nothing counts. A removal before the rename is one of the
target. -/
def mishapAfter (job : CopyJob) (before : List Exchange) : Exchange → Option Mishap
  | ⟨.storage .target (.createFile ..), .error _⟩ => some .createTemp
  | ⟨.storage .source (.openFile _), .error _⟩ => some .openSource
  | ⟨.storage .source (.read ..), .error _⟩ => some .readSource
  | ⟨.storage .target (.write ..), .error _⟩ => some .writeTemp
  | ⟨.storage .target (.close _), .error _⟩ => some .closeTemp
  | ⟨.storage _ (.status _), .error _⟩ => some .askLength
  | ⟨.storage _ (.status _), .ok status⟩ =>
    if status.length = tally (deliveredChunks before) then none else some .length
  | ⟨.storage _ (.checksum _), .error _⟩ =>
    if job.Compares before then some .checksum else none
  | ⟨.storage .target (.checksum _), .ok sum⟩ =>
    if job.Compares before ∧
        (ChecksumReport.ofChecksums (lastSourceSum before) sum).verdict ≠ .equal then
      some .checksum
    else none
  | ⟨.storage .target (.pathExists _), .error _⟩ =>
    if before.any Exchange.renames then none
    else if before.any Exchange.asks then some .createParent
    else some .deleteExisting
  | ⟨.storage .target (.remove ..), .error _⟩ =>
    if before.any Exchange.renames then none else some .deleteExisting
  | ⟨.storage .target (.makeDirs _), .error _⟩ => some .createParent
  | ⟨.storage .target (.rename ..), .error _⟩ => some .rename
  | _ => none

theorem mishapAfter_silent {job : CopyJob} {before : List Exchange} {x : Exchange}
    (h : x.request.isCall = false) : mishapAfter job before x = none := by
  obtain ⟨r, answer⟩ := x
  cases r with
  | storage => cases h
  | _ => rfl

/-- The first mishap in some exchanges that come after those in `before`. -/
def firstMishapAfter (job : CopyJob) (before : List Exchange) : List Exchange → Option Mishap
  | [] => none
  | x :: rest =>
    match mishapAfter job before x with
    | some mishap => some mishap
    | none => firstMishapAfter job (before ++ [x]) rest

/-- The first mishap of an attempt with the given exchanges. An attempt id that cannot be used is
one before any exchange. -/
def CopyJob.firstMishap (job : CopyJob) (exchanges : List Exchange) : Option Mishap :=
  if isAttemptId job.attemptId then firstMishapAfter job [] exchanges else some .attemptId

/-- The breakdown that an exchange brings: the temporary file is there without a buffer for its
stream, or the source is open without one for its chunks. -/
def CopyJob.breakdownAt? (job : CopyJob) : Exchange → Option Breakdown
  | ⟨.storage .target (.createFile ..), .ok (.error trouble)⟩ => some trouble
  | ⟨.storage .source (.openFile _), .ok _⟩ => job.plan.bufferTrouble?
  | _ => none

/-- The first breakdown that some exchanges bring. -/
def CopyJob.firstBreakdown? (job : CopyJob) (exchanges : List Exchange) : Option Breakdown :=
  exchanges.findSome? job.breakdownAt?

theorem breakdownAt?_silent {job : CopyJob} {x : Exchange} (h : x.request.isCall = false) :
    job.breakdownAt? x = none := by
  obtain ⟨r, answer⟩ := x
  cases r with
  | storage => cases h
  | _ => rfl

section first

variable {job : CopyJob} {before exchanges : List Exchange} {x : Exchange} {mishap : Mishap}

/-- The first mishap is at some exchange, and no exchange before it is one. -/
theorem firstMishapAfter_eq_some_iff :
    firstMishapAfter job before exchanges = some mishap ↔
      ∃ earlier x later, exchanges = earlier ++ x :: later ∧
        firstMishapAfter job before earlier = none ∧
        mishapAfter job (before ++ earlier) x = some mishap := by
  induction exchanges generalizing before with
  | nil => simp [firstMishapAfter]
  | cons y rest ih =>
    cases hy : mishapAfter job before y with
    | some found =>
      constructor
      · intro h
        rw [firstMishapAfter, hy] at h
        refine ⟨[], y, rest, rfl, rfl, ?_⟩
        rw [List.append_nil, hy]
        exact h
      · rintro ⟨earlier, x, later, hsplit, hearlier, hx⟩
        cases earlier with
        | nil =>
          obtain ⟨rfl, rfl⟩ := List.cons.inj hsplit
          rw [List.append_nil, hy] at hx
          rw [firstMishapAfter, hy]
          exact hx
        | cons z more =>
          obtain ⟨rfl, -⟩ := List.cons.inj hsplit
          rw [firstMishapAfter, hy] at hearlier
          cases hearlier
    | none =>
      have hcons : ∀ tail, firstMishapAfter job before (y :: tail)
          = firstMishapAfter job (before ++ [y]) tail := by
        intro tail
        rw [firstMishapAfter, hy]
      rw [hcons, ih]
      constructor
      · rintro ⟨earlier, x, later, rfl, hearlier, hx⟩
        refine ⟨y :: earlier, x, later, rfl, ?_, ?_⟩
        · rw [hcons, hearlier]
        · rwa [List.append_cons]
      · rintro ⟨earlier, x, later, hsplit, hearlier, hx⟩
        cases earlier with
        | nil =>
          obtain ⟨rfl, rfl⟩ := List.cons.inj hsplit
          rw [List.append_nil, hy] at hx
          cases hx
        | cons z more =>
          obtain ⟨rfl, rfl⟩ := List.cons.inj hsplit
          rw [hcons] at hearlier
          rw [List.append_cons] at hx
          exact ⟨more, x, later, rfl, hearlier, hx⟩

/-- One more exchange is a mishap only after none. -/
theorem firstMishapAfter_snoc :
    firstMishapAfter job before (exchanges ++ [x])
      = (firstMishapAfter job before exchanges).or (mishapAfter job (before ++ exchanges) x) := by
  induction exchanges generalizing before with
  | nil =>
    rw [List.append_nil]
    cases hx : mishapAfter job before x <;> simp [firstMishapAfter, hx]
  | cons y rest ih =>
    rw [List.cons_append, firstMishapAfter, firstMishapAfter]
    cases mishapAfter job before y with
    | some found => rfl
    | none =>
      show firstMishapAfter job (before ++ [y]) (rest ++ [x]) = _
      rw [ih, ← List.append_cons]

end first

/-! ## What is known at each phase -/

/-- Nothing has gone wrong so far, these chunks were delivered, and this is whether the target
store was asked about a path and was told to rename. -/
structure Clean (job : CopyJob) (history : List Exchange) (delivered : List Bytes)
    (asked renamed : Bool) : Prop where
  noMishap : firstMishapAfter job [] history = none
  delivered : deliveredChunks history = delivered
  asked : history.any Exchange.asks = asked
  renamed : history.any Exchange.renames = renamed

/-- The first mishap so far is reported as this failure is. -/
def Blamed (job : CopyJob) (history : List Exchange) (failure : CopyFailure) : Prop :=
  ∃ mishap, firstMishapAfter job [] history = some mishap ∧ failure.kind = mishap.kind ∧
    failure.step = mishap.step

/-- What is known once the end is decided. -/
def Decided (job : CopyJob) (history : List Exchange) : AttemptEnd → Prop
  | .ok copied => ∃ delivered, Clean job history delivered true true ∧ copied = tally delivered
  | .error failure => Blamed job history failure
  | .broken .. => True

section judged

variable {job : CopyJob} {history : List Exchange} {x : Exchange} {delivered : List Bytes}
  {asked renamed : Bool} {failure : CopyFailure}

theorem Clean.snoc {delivered' : List Bytes} {asked' renamed' : Bool}
    (h : Clean job history delivered asked renamed) (hx : mishapAfter job history x = none)
    (hdelivered : delivered ++ x.delivery?.toList = delivered')
    (hasked : (asked || x.asks) = asked') (hrenamed : (renamed || x.renames) = renamed') :
    Clean job (history ++ [x]) delivered' asked' renamed' where
  noMishap := by
    rw [firstMishapAfter_snoc, h.noMishap]
    exact hx
  delivered := by rw [deliveredChunks_snoc, h.delivered, hdelivered]
  asked := by
    rw [List.any_append, h.asked, ← hasked]
    simp
  renamed := by
    rw [List.any_append, h.renamed, ← hrenamed]
    simp

/-- An exchange that is no mishap, no delivery, no question and no rename changes nothing. -/
theorem Clean.quiet (h : Clean job history delivered asked renamed)
    (hx : mishapAfter job history x = none) (hdelivery : x.delivery? = none)
    (hasks : x.asks = false) (hrenames : x.renames = false) :
    Clean job (history ++ [x]) delivered asked renamed := by
  refine h.snoc hx ?_ ?_ ?_
  · rw [hdelivery]
    exact List.append_nil delivered
  · rw [hasks, Bool.or_false]
  · rw [hrenames, Bool.or_false]

theorem Clean.blamed {mishap : Mishap} (h : Clean job history delivered asked renamed)
    (hx : mishapAfter job history x = some mishap) (hkind : failure.kind = mishap.kind)
    (hstep : failure.step = mishap.step) : Blamed job (history ++ [x]) failure := by
  refine ⟨mishap, ?_, hkind, hstep⟩
  rw [firstMishapAfter_snoc, h.noMishap]
  exact hx

theorem Blamed.snoc (h : Blamed job history failure) : Blamed job (history ++ [x]) failure := by
  obtain ⟨mishap, hmishap, hkind, hstep⟩ := h
  refine ⟨mishap, ?_, hkind, hstep⟩
  rw [firstMishapAfter_snoc, hmishap]
  rfl

/-- After the end is decided nothing counts but another delivery, question or rename. -/
theorem Decided.snoc {result : AttemptEnd} (h : Decided job history result)
    (hx : history.any Exchange.renames = true → mishapAfter job history x = none)
    (hdelivery : x.delivery? = none) : Decided job (history ++ [x]) result := by
  cases result with
  | broken => trivial
  | error failure => exact Blamed.snoc h
  | ok copied =>
    obtain ⟨delivered, hclean, hcopied⟩ := h
    refine ⟨delivered, hclean.snoc (hx hclean.renamed) ?_ rfl rfl, hcopied⟩
    rw [hdelivery]
    exact List.append_nil delivered

end judged

namespace CopyPhase

/-- What the phase says about the mishaps so far. -/
def Judged (job : CopyJob) (history : List Exchange) : CopyPhase → Prop
  | creating => Clean job history [] false false
  | opening _ => Clean job history [] false false
  | reading _ _ moved => Clean job history moved false false
  | writing _ _ moved chunk => Clean job history (moved ++ [chunk]) false false
  | closing _ moved none => Clean job history moved false false
  | closing _ _ (some failure) => Blamed job history failure
  | sizingSource moved => Clean job history moved false false
  | sizingTemp moved => Clean job history moved false false
  | summingSource moved => Clean job history moved false false ∧ job.Compares history
  | summingTemp moved sum =>
    Clean job history moved false false ∧ job.Compares history ∧ lastSourceSum history = sum
  | findingTarget moved => Clean job history moved false false
  | clearingTarget moved => Clean job history moved true false
  | findingParent moved => Clean job history moved true false
  | makingParent moved => Clean job history moved true false
  | publishing moved => Clean job history moved true false
  | findingTemp result => Decided job history result
  | clearingTemp result => Decided job history result
  | finished result => Decided job history result

theorem judged_afterLengths {job : CopyJob} {history : List Exchange} {moved : List Bytes}
    (h : Clean job history moved false false) : (afterLengths job moved).Judged job history := by
  unfold afterLengths
  split
  · next hcompares =>
    rw [← h.delivered] at hcompares
    exact ⟨h, hcompares⟩
  · exact h

theorem judged_afterClearing {job : CopyJob} {history : List Exchange} {moved : List Bytes}
    (h : Clean job history moved true false) :
    (afterClearing job moved).Judged job history := by
  unfold afterClearing
  split
  · exact h
  · exact h

/-- What a phase says does not change with an exchange that is no call. -/
theorem judged_silent {job : CopyJob} {history : List Exchange} {phase : CopyPhase}
    {x : Exchange} (h : phase.Judged job history) (hx : x.request.isCall = false) :
    phase.Judged job (history ++ [x]) := by
  have hnone : mishapAfter job history x = none := mishapAfter_silent hx
  have hdelivery : x.delivery? = none := Exchange.delivery?_silent hx
  have hclean : ∀ {moved asked renamed}, Clean job history moved asked renamed →
      Clean job (history ++ [x]) moved asked renamed := by
    intro moved asked renamed h
    exact h.quiet hnone hdelivery (Exchange.asks_silent hx) (Exchange.renames_silent hx)
  cases phase with
  | closing output moved failed =>
    cases failed with
    | none => exact hclean h
    | some failure => exact Blamed.snoc h
  | summingSource moved => exact ⟨hclean h.1, compares_snoc hdelivery h.2⟩
  | summingTemp moved sum =>
    refine ⟨hclean h.1, compares_snoc hdelivery h.2.1, ?_⟩
    rw [lastSourceSum, List.filterMap_append]
    simp [Exchange.sourceSum?_silent hx, ← h.2.2, lastSourceSum]
  | findingTemp result | clearingTemp result | finished result =>
    exact Decided.snoc h (fun _ => hnone) hdelivery
  | _ => exact hclean h

/-- Every step keeps what the phase says about the mishaps. -/
theorem judged_step {job : CopyJob} {history : List Exchange} {phase after : CopyPhase}
    {x : Exchange} (h : phase.Judged job history) (hstep : Step job phase x after) :
    after.Judged job (history ++ [x]) := by
  cases hstep with
  | silent hs => exact judged_silent h hs
  | created output => exact Clean.quiet h rfl rfl rfl rfl
  | createdUnbuffered | openedUnbuffered => trivial
  | notCreated message => exact Clean.blamed h rfl rfl rfl
  | opened input => exact Clean.quiet h rfl rfl rfl rfl
  | notOpened message => exact Clean.blamed h rfl rfl rfl
  | delivered hchunk =>
    refine Clean.snoc h rfl ?_ rfl rfl
    rw [Exchange.delivery?_read hchunk]
    rfl
  | ended => exact Clean.quiet h rfl rfl rfl rfl
  | notRead message => exact Clean.blamed h rfl rfl rfl
  | written => exact Clean.quiet h rfl rfl rfl rfl
  | notWritten message => exact Clean.blamed h rfl rfl rfl
  | closed => exact Clean.quiet h rfl rfl rfl rfl
  | notClosed message => exact Clean.blamed h rfl rfl rfl
  | closedAfter answer => exact Blamed.snoc h
  | sourceSized hlength =>
    rw [← Clean.delivered h] at hlength
    exact Clean.quiet h (if_pos hlength) rfl rfl rfl
  | sourceOff hlength =>
    rw [← Clean.delivered h] at hlength
    exact Clean.blamed h (if_neg hlength) rfl rfl
  | sourceUnsized message => exact Clean.blamed h rfl rfl rfl
  | tempSized hlength =>
    refine judged_afterLengths (Clean.quiet h (if_pos ?_) rfl rfl rfl)
    rw [hlength, Clean.delivered h]
  | tempOff hlength =>
    rw [← Clean.delivered h] at hlength
    exact Clean.blamed h (if_neg hlength) rfl rfl
  | tempUnsized message => exact Clean.blamed h rfl rfl rfl
  | sourceSummed sum =>
    obtain ⟨hclean, hcompares⟩ := h
    refine ⟨hclean.quiet rfl rfl rfl rfl, ?_, lastSourceSum_snoc history _ sum⟩
    exact compares_snoc rfl hcompares
  | sourceUnsummed message =>
    obtain ⟨hclean, hcompares⟩ := h
    exact hclean.blamed (if_pos hcompares) rfl rfl
  | tempSummed hequal =>
    obtain ⟨hclean, -, rfl⟩ := h
    exact hclean.quiet (if_neg fun hdiffers => hdiffers.2 hequal) rfl rfl rfl
  | tempDiffers hdiffers =>
    obtain ⟨hclean, hcompares, rfl⟩ := h
    exact hclean.blamed (if_pos ⟨hcompares, hdiffers⟩) rfl rfl
  | tempUnsummed message =>
    obtain ⟨hclean, hcompares, -⟩ := h
    exact hclean.blamed (if_pos hcompares) rfl rfl
  | targetFound => exact Clean.snoc h rfl (List.append_nil _) rfl rfl
  | targetAbsent => exact judged_afterClearing (Clean.snoc h rfl (List.append_nil _) rfl rfl)
  | targetUnknown message =>
    have hmishap : mishapAfter job history
        ⟨.storage .target (.pathExists job.target), .error message⟩ = some .deleteExisting := by
      simp [mishapAfter, Clean.renamed h, Clean.asked h]
    exact Clean.blamed h hmishap rfl rfl
  | targetCleared => exact judged_afterClearing (Clean.quiet h rfl rfl rfl rfl)
  | targetKept message =>
    have hmishap : mishapAfter job history
        ⟨.storage .target (.remove job.target false), .error message⟩ = some .deleteExisting := by
      simp [mishapAfter, Clean.renamed h]
    exact Clean.blamed h hmishap rfl rfl
  | parentFound => exact Clean.snoc h rfl (List.append_nil _) rfl rfl
  | parentAbsent => exact Clean.snoc h rfl (List.append_nil _) rfl rfl
  | parentUnknown message =>
    have hmishap : mishapAfter job history
        ⟨.storage .target (.pathExists job.target.parent), .error message⟩
          = some .createParent := by
      simp [mishapAfter, Clean.renamed h, Clean.asked h]
    exact Clean.blamed h hmishap rfl rfl
  | parentMade => exact Clean.quiet h rfl rfl rfl rfl
  | parentNotMade message => exact Clean.blamed h rfl rfl rfl
  | renamed => exact ⟨_, Clean.snoc h rfl (List.append_nil _) rfl rfl, rfl⟩
  | notRenamed message => exact Clean.blamed h rfl rfl rfl
  | tempFound => exact Decided.snoc h (fun _ => rfl) rfl
  | tempAbsent => exact Decided.snoc h (fun _ => rfl) rfl
  | tempUnknown message => exact Decided.snoc h (fun hrenamed => if_pos hrenamed) rfl
  | tempCleared answer =>
    cases answer with
    | ok => exact Decided.snoc h (fun _ => rfl) rfl
    | error message => exact Decided.snoc h (fun hrenamed => if_pos hrenamed) rfl

theorem judged_trail {job : CopyJob} {history : List Exchange} {phase : CopyPhase}
    (h : Trail (Step job) .creating history phase) : phase.Judged job history := by
  refine Trail.history (I := fun before phase => phase.Judged job before) ?_ h ?_
  · intro before phase x after hI hstep
    exact judged_step hI hstep
  · exact ⟨rfl, rfl, rfl, rfl⟩

/-- The breakdown that an attempt is ending with. -/
def breakdown? : CopyPhase → Option Breakdown
  | findingTemp (.broken trouble _) => some trouble
  | clearingTemp (.broken trouble _) => some trouble
  | finished (.broken trouble _) => some trouble
  | _ => none

/-- A step brings the breakdown that the attempt is ending with after it, unless there was one
before. -/
theorem breakdown_step {job : CopyJob} {phase after : CopyPhase} {x : Exchange}
    (h : Step job phase x after) :
    phase.breakdown?.or (job.breakdownAt? x) = after.breakdown? := by
  cases h with
  | silent hx => rw [breakdownAt?_silent hx, Option.or_none]
  | opened input hbuffer => exact hbuffer
  | openedUnbuffered input htrouble => exact htrouble
  | tempSized => exact afterLengths_cases (fun _ => rfl) fun _ => rfl
  | targetAbsent | targetCleared => exact afterClearing_cases (fun _ => rfl) fun _ => rfl
  | @tempFound result | @tempAbsent result | @tempUnknown result | @tempCleared result =>
    cases result with
    | ok | error | broken => rfl
  | _ => rfl

/-- The exchanges of an attempt bring the breakdown that it is ending with, or none. -/
theorem firstBreakdown_trail {job : CopyJob} {history : List Exchange} {phase : CopyPhase}
    (h : Trail (Step job) .creating history phase) :
    job.firstBreakdown? history = phase.breakdown? := by
  refine Trail.history (I := fun before phase =>
    job.firstBreakdown? before = phase.breakdown?) ?_ h rfl
  intro before phase x after hI hstep
  rw [← breakdown_step hstep, ← hI, CopyJob.firstBreakdown?, List.findSome?_append]
  simp [CopyJob.firstBreakdown?]

end CopyPhase

/-! ## The theorem -/

/-- The outcome is what the exchanges account for. With a breakdown among them it is this one. With
none, it is a result: without a mishap the number of bytes that were delivered, and otherwise a
report with the kind and the step of the first mishap. -/
def CopyJob.Accounted (job : CopyJob) (exchanges : List Exchange)
    (outcome : Program.Outcome (Except CopyError Nat)) : Prop :=
  match job.firstBreakdown? exchanges, job.firstMishap exchanges with
  | some trouble, _ => outcome = .broken trouble
  | none, none => outcome = .done (.ok (tally (deliveredChunks exchanges)))
  | none, some mishap =>
    ∃ error, outcome = .done (.error error) ∧ error.kind = mishap.kind ∧ error.step = mishap.step

/-- The end that an attempt comes to is accounted for. -/
theorem accounted_of_trail {job : CopyJob} (hid : isAttemptId job.attemptId)
    {exchanges : List Exchange} {decided : AttemptEnd}
    (h : Trail (CopyPhase.Step job) .creating exchanges (.finished decided)) :
    job.Accounted exchanges (job.outcome decided) := by
  have hbreakdown := CopyPhase.firstBreakdown_trail h
  have hjudged := CopyPhase.judged_trail h
  unfold CopyJob.Accounted CopyJob.firstMishap
  rw [hbreakdown, if_pos hid]
  cases decided with
  | ok copied =>
    obtain ⟨delivered, hclean, rfl⟩ := hjudged
    rw [hclean.noMishap, hclean.delivered]
    rfl
  | error failure =>
    obtain ⟨mishap, hmishap, hkind, hstep⟩ := hjudged
    rw [hmishap]
    exact ⟨job.report failure, rfl, hkind, hstep⟩
  | broken trouble left => rfl

section ends

variable {σ : Type} {handler : Handler σ} {s : σ} {bound : Nat} {job : CopyJob}

/-- An attempt to which the source delivers fewer chunks than its bound does not use it up. -/
theorem ends_of_delivered_lt
    (h : (deliveredChunks (Program.exchanges handler (copyOnce bound job) s)).length < bound) :
    (Program.run handler (copyOnce bound job) s).1 ≠ .unfinished := by
  by_cases hid : isAttemptId job.attemptId
  · obtain ⟨phase, htrail, hpost⟩ := (copyOnce_follows hid).of_handler handler s
    intro hunfinished
    rw [hunfinished] at hpost
    obtain ⟨output, input, moved, rfl, hmoved⟩ := hpost
    have hjudged := CopyPhase.judged_trail htrail
    rw [hjudged.delivered, hmoved] at h
    exact Nat.lt_irrefl bound h
  · rw [copyOnce_invalid hid]
    nofun

/-- The outcome of every attempt that does not use up its bound is accounted for. -/
theorem accounted_of_ends
    (hends : (Program.run handler (copyOnce bound job) s).1 ≠ .unfinished) :
    job.Accounted (Program.exchanges handler (copyOnce bound job) s)
      (Program.run handler (copyOnce bound job) s).1 := by
  by_cases hid : isAttemptId job.attemptId
  · obtain ⟨decided, htrail, hdecided⟩ :=
      copyOnce_ended hid (Program.yields_exchanges handler _ s) hends
    rw [hdecided]
    exact accounted_of_trail hid htrail
  · rw [copyOnce_invalid hid, CopyJob.Accounted, CopyJob.firstMishap, if_neg hid]
    exact ⟨_, rfl, rfl, rfl⟩

/-- With every handler under which the source comes to its end or fails before the bound is used
up, an attempt breaks down with the first breakdown that its exchanges bring, and without one comes
to a result. This is a success exactly when there was no mishap, and otherwise its report has the
kind and the step of the first mishap, whatever went wrong after it. Without a usable attempt id
nothing is asked of anyone. -/
theorem report_of_first_mishap (handler : Handler σ) (s : σ) (bound : Nat) (job : CopyJob)
    (hends : (deliveredChunks (Program.exchanges handler (copyOnce bound job) s)).length
      < bound) :
    (match job.firstBreakdown? (Program.exchanges handler (copyOnce bound job) s) with
    | some trouble => (Program.run handler (copyOnce bound job) s).1 = .broken trouble
    | none =>
      ∃ result, (Program.run handler (copyOnce bound job) s).1 = .done result ∧
        match job.firstMishap (Program.exchanges handler (copyOnce bound job) s) with
        | none => result = .ok
            (tally (deliveredChunks (Program.exchanges handler (copyOnce bound job) s)))
        | some mishap =>
          ∃ error, result = .error error ∧ error.kind = mishap.kind ∧ error.step = mishap.step) ∧
    (¬ isAttemptId job.attemptId →
      Program.exchanges handler (copyOnce bound job) s = []) := by
  constructor
  · have haccounted := accounted_of_ends (ends_of_delivered_lt hends)
    unfold CopyJob.Accounted at haccounted
    cases hbreakdown : job.firstBreakdown? (Program.exchanges handler (copyOnce bound job) s) with
    | some trouble =>
      rw [hbreakdown] at haccounted
      exact haccounted
    | none =>
      rw [hbreakdown] at haccounted
      cases hmishap : job.firstMishap (Program.exchanges handler (copyOnce bound job) s) with
      | none =>
        rw [hmishap] at haccounted
        exact ⟨_, haccounted, rfl⟩
      | some mishap =>
        rw [hmishap] at haccounted
        obtain ⟨error, hresult, hreport⟩ := haccounted
        exact ⟨_, hresult, error, rfl, hreport⟩
  · intro hid
    rw [copyOnce_invalid hid]
    rfl

end ends

/-- Stores of which the source cannot be read and the target cannot close or remove anything. -/
def failing : Handler Unit
  | .storage _ (.openFile _), s => (.ok (0 : Nat), s)
  | .storage _ (.createFile ..), s => (.ok (.ok (0 : Nat)), s)
  | .storage _ (.pathExists _), s => (.ok true, s)
  | .storage _ (.remove ..), s => (.error (utf8 "kept"), s)
  | .storage _ (.makeDirs _), s => (.ok (), s)
  | .storage _ (.rename ..), s => (.ok (), s)
  | .storage _ (.status path), s => (.ok { path := path }, s)
  | .storage _ (.checksum _), s => (.ok none, s)
  | .storage _ (.read ..), s => (.error (utf8 "unreadable"), s)
  | .storage _ (.write ..), s => (.ok (), s)
  | .storage _ (.close _), s => (.error (utf8 "open"), s)
  | .setStatus _, s => (.ok (), s)
  | .increment .., s => (.ok (), s)
  | .now, s => ((0 : Nat), s)
  | .sleep _, s => ((), s)
  | .log _, s => ((), s)

theorem report_of_first_mishap_failing :
    ∃ error : CopyError,
      (Program.run failing (copyOnce 1 smallJob) ()).1 = .done (.error error) ∧
      error.kind = .readFailure ∧ error.step = utf8 "read-source" := by
  obtain ⟨hreport, -⟩ := report_of_first_mishap failing () 1 smallJob (by decide +kernel)
  have hbreakdown : smallJob.firstBreakdown? (Program.exchanges failing (copyOnce 1 smallJob) ())
      = none := by decide +kernel
  have hmishap : smallJob.firstMishap (Program.exchanges failing (copyOnce 1 smallJob) ())
      = some .readSource := by decide +kernel
  rw [hbreakdown, hmishap] at hreport
  obtain ⟨result, hresult, error, rfl, hkind, hstep⟩ := hreport
  exact ⟨error, hresult, hkind, hstep⟩

/-- Nothing at all goes wrong between the copy and its stores, and still there is no result. -/
theorem report_missing_unbuffered :
    unbufferedJob.firstMishap
        (Program.exchanges (obliging 3) (copyOnce 1 unbufferedJob) [utf8 "abc"]) = none ∧
      (Program.run (obliging 3) (copyOnce 1 unbufferedJob) [utf8 "abc"]).1
        = .broken (.excessiveBuffer .bytes) :=
  ⟨by decide +kernel, rfl⟩

end StagedCopy
