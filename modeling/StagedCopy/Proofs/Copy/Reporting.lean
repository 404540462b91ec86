import Mathlib.Data.List.Induction
import StagedCopy.Proofs.Copy.History

/-!
# What an attempt tells of its progress

The loop of an attempt goes from chunk to chunk: a chunk is read, written and told of, and when the
first status of the attempt is refused, this is complained of in the log. The loop is written down
here as a transition system of its own, a meter that keeps the chunks that were told of and the
first refusal, and everything an attempt does outside of the loop leaves the meter alone.

* `writtenChunks`, `failedChunks` — the chunks that the target store accepted and refused;
  `reportsOf`, `refusalsOf`, `complaintsOf` — the statuses, the refusals of the task, and the lines
  in the log about them.
* `runningTotals` — how many bytes there are after each of some chunks.
* `Meter`, `Meter.Step` — the loop.
* `copyOnce_settles` — an attempt goes along with the meter and leaves it settled.
* `Meter.Records` — what the meter says about the history; `Meter.records`.
-/

namespace StagedCopy

open Program (Exchange Outcome Run follows_bind follows_onBreakdown)

/-! ## What is seen of the loop -/

namespace Program.Exchange

/-- The chunk that the target store accepts. -/
def written? : Exchange → Option Bytes
  | ⟨.storage .target (.write _ chunk), .ok ()⟩ => some chunk
  | _ => none

/-- The chunk that the target store refuses. -/
def failed? : Exchange → Option Bytes
  | ⟨.storage .target (.write _ chunk), .error _⟩ => some chunk
  | _ => none

/-- The status that the task is told, whether it refuses it or not. -/
def report? : Exchange → Option Bytes
  | ⟨.setStatus text, _⟩ => some text
  | _ => none

/-- The message with which the task refuses a status. -/
def refusal? : Exchange → Option Bytes
  | ⟨.setStatus _, .error message⟩ => some message
  | _ => none

/-- The text of a line in the log that complains of a refused status. -/
def complaint? : Exchange → Option Bytes
  | ⟨.log line, _⟩ => if line.complainsOfProgress then some line.text else none
  | _ => none

/-- The exchange ends the loop: the source has no more bytes, or a chunk cannot be read or
written. -/
def endsLoop : Exchange → Bool
  | ⟨.storage .source (.read ..), .ok (_ :: _)⟩ => false
  | ⟨.storage .source (.read ..), _⟩ => true
  | ⟨.storage .target (.write ..), .error _⟩ => true
  | _ => false

/-- Nothing of the loop is seen in the exchange. -/
structure Hidden (x : Exchange) : Prop where
  delivery : x.delivery? = none
  written : x.written? = none
  failed : x.failed? = none
  report : x.report? = none
  refusal : x.refusal? = none
  complaint : x.complaint? = none
  endsLoop : x.endsLoop = false

theorem hidden_of_aside {x : Exchange} (h : x.request.aside = true) : x.Hidden := by
  obtain ⟨r, answer⟩ := x
  cases r with
  | storage side call =>
    cases call with
    | createFile | openFile | read | write => cases h
    | _ => cases side <;> exact ⟨rfl, rfl, rfl, rfl, rfl, rfl, rfl⟩
  | setStatus => cases h
  | log line =>
    have hline : line.complainsOfProgress = false := by simpa [Request.aside] using h
    refine ⟨rfl, rfl, rfl, rfl, rfl, ?_, rfl⟩
    simp [complaint?, hline]
  | _ => exact ⟨rfl, rfl, rfl, rfl, rfl, rfl, rfl⟩

end Program.Exchange

/-- The chunks that the target store accepted, in order. -/
def writtenChunks (history : List Exchange) : List Bytes := history.filterMap Exchange.written?

/-- The chunks that the target store refused, in order. -/
def failedChunks (history : List Exchange) : List Bytes := history.filterMap Exchange.failed?

/-- The statuses that the task was told, in order. -/
def reportsOf (history : List Exchange) : List Bytes := history.filterMap Exchange.report?

/-- The messages with which the task refused a status, in order. -/
def refusalsOf (history : List Exchange) : List Bytes := history.filterMap Exchange.refusal?

/-- The texts of the lines in the log that complain of a refused status, in order. -/
def complaintsOf (history : List Exchange) : List Bytes := history.filterMap Exchange.complaint?

/-- No chunk that was delivered is empty. -/
theorem ne_nil_of_delivered {history : List Exchange} {chunk : Bytes}
    (h : chunk ∈ deliveredChunks history) : chunk ≠ [] := by
  obtain ⟨x, -, hx⟩ := List.mem_filterMap.1 h
  unfold Exchange.delivery? at hx
  split at hx
  · obtain rfl := Option.some.inj hx
    exact List.cons_ne_nil _ _
  · cases hx

/-! ## Running totals -/

/-- With no empty chunk among them, chunks without bytes are no chunks. -/
theorem byteCount_eq_zero_iff {chunks : List Bytes} (h : ∀ chunk ∈ chunks, chunk ≠ []) :
    byteCount chunks = 0 ↔ chunks = [] := by
  cases chunks with
  | nil => simp
  | cons chunk rest =>
    have hne := h chunk List.mem_cons_self
    simp [byteCount, hne]

/-- How many bytes there are after each of some chunks. -/
def runningTotals (chunks : List Bytes) : List Nat :=
  (List.range chunks.length).map fun i => byteCount (chunks.take (i + 1))

@[simp] theorem runningTotals_nil : runningTotals [] = [] := rfl

@[simp] theorem length_runningTotals (chunks : List Bytes) :
    (runningTotals chunks).length = chunks.length := by
  simp [runningTotals]

theorem runningTotals_snoc (chunks : List Bytes) (chunk : Bytes) :
    runningTotals (chunks ++ [chunk])
      = runningTotals chunks ++ [byteCount (chunks ++ [chunk])] := by
  rw [runningTotals, List.length_append, List.length_singleton, List.range_succ, List.map_append]
  congr 1
  · refine List.map_congr_left fun i hi => ?_
    rw [List.take_append_of_le_length (List.mem_range.1 hi)]
  · rw [List.map_singleton, List.take_of_length_le (by simp)]

theorem getLast?_runningTotals (chunks : List Bytes) :
    (runningTotals chunks).getLast? = if chunks = [] then none else some (byteCount chunks) := by
  cases chunks using List.reverseRecOn with
  | nil => rfl
  | append_singleton chunks chunk => rw [runningTotals_snoc, List.getLast?_concat, if_neg (by simp)]

theorem le_byteCount_of_mem_runningTotals {chunks : List Bytes} {total : Nat}
    (h : total ∈ runningTotals chunks) : total ≤ byteCount chunks := by
  obtain ⟨i, -, rfl⟩ := List.mem_map.1 h
  calc byteCount (chunks.take (i + 1))
      ≤ byteCount (chunks.take (i + 1)) + byteCount (chunks.drop (i + 1)) := Nat.le_add_right _ _
    _ = byteCount chunks := by rw [← byteCount_append, List.take_append_drop]

/-- With no empty chunk among them the totals increase. -/
theorem runningTotals_increase {chunks : List Bytes} (h : ∀ chunk ∈ chunks, chunk ≠ []) :
    (runningTotals chunks).Pairwise (· < ·) := by
  induction chunks using List.reverseRecOn with
  | nil => exact List.Pairwise.nil
  | append_singleton chunks chunk ih =>
    rw [runningTotals_snoc, List.pairwise_append]
    refine ⟨ih fun c hc => h c (List.mem_append_left _ hc), List.pairwise_singleton _ _, ?_⟩
    intro total htotal last hlast
    obtain rfl := List.mem_singleton.1 hlast
    have hle := le_byteCount_of_mem_runningTotals htotal
    have hpos := List.length_pos_iff.2 (h chunk (by simp))
    rw [byteCount_append, byteCount_singleton]
    omega

/-! ## The loop -/

namespace CopyJob

/-- The status of the copy after some bytes, which are counted modulo `2 ^ 64`. -/
def progressAt (job : CopyJob) (total : Nat) : Bytes :=
  progressText job.description (wrap64 total) job.source.length

/-- What the log says about a status that was refused with a message. -/
def complaint (job : CopyJob) (message : Bytes) : Bytes :=
  utf8 "Progress update failed for " ++ job.description ++ utf8 ": " ++ message

end CopyJob

theorem complains_of_complaint (job : CopyJob) (message : Bytes) :
    Log.Line.complainsOfProgress ⟨.warn, job.complaint message⟩ = true := by
  simp [Log.Line.complainsOfProgress, CopyJob.complaint, List.append_assoc]

/-- Where the loop stands. -/
inductive MeterStage where
  /-- There is no temporary file yet. -/
  | idle
  /-- The source is to be opened. -/
  | staged
  /-- The next chunk is to be read. -/
  | resting (input : StreamId)
  /-- A chunk is to be written. -/
  | carrying (input : StreamId) (chunk : Bytes)
  /-- A chunk was written and is to be told of. -/
  | due (input : StreamId) (chunk : Bytes)
  /-- A refused status is to be complained of. -/
  | complaining (input : StreamId)
  /-- The loop has ended, perhaps because of a chunk that was not written. -/
  | stopped (lost : Option Bytes)

namespace MeterStage

/-- Something else may be asked in between. -/
def calm : MeterStage → Bool
  | idle | resting _ | carrying .. | stopped _ => true
  | _ => false

/-- The loop has not begun or has ended. -/
def settled : MeterStage → Bool
  | idle | stopped _ => true
  | _ => false

/-- The chunk that was delivered and is not told of. -/
def inHand : MeterStage → Option Bytes
  | carrying _ chunk | due _ chunk => some chunk
  | stopped lost => lost
  | _ => none

/-- The chunk that was written and is not told of. -/
def untold : MeterStage → Option Bytes
  | due _ chunk => some chunk
  | _ => none

/-- The chunk that was not written. -/
def lost : MeterStage → Option Bytes
  | stopped lost => lost
  | _ => none

variable {stage : MeterStage}

theorem calm_of_settled (h : stage.settled = true) : stage.calm = true := by
  cases stage with
  | idle | stopped => rfl
  | _ => cases h

theorem untold_of_calm (h : stage.calm = true) : stage.untold = none := by
  cases stage with
  | due => cases h
  | _ => rfl

theorem inHand_of_settled (h : stage.settled = true) : stage.inHand = stage.lost := by
  cases stage with
  | idle | stopped => rfl
  | _ => cases h

end MeterStage

/-- The chunks that were told of, the first refusal, and where the loop stands. -/
structure Meter where
  told : List Bytes := []
  refusal : Option Bytes := none
  stage : MeterStage := .idle

namespace Meter

/-- The steps of the loop. -/
inductive Step (job : CopyJob) : Meter → Exchange → Meter → Prop where
  /-- What is no part of the loop changes nothing. -/
  | aside {m : Meter} {x : Exchange} (hx : x.request.aside = true) (hm : m.stage.calm = true) :
      Step job m x m
  | created (output : StreamId) :
      Step job ⟨[], none, .idle⟩
        ⟨.storage .target (.createFile job.temp true job.options.bufferSize job.layout),
          .ok (.ok output)⟩
        ⟨[], none, .staged⟩
  | createdUnbuffered (trouble : Breakdown) :
      Step job ⟨[], none, .idle⟩
        ⟨.storage .target (.createFile job.temp true job.options.bufferSize job.layout),
          .ok (.error trouble)⟩
        ⟨[], none, .idle⟩
  | notCreated (message : Bytes) :
      Step job ⟨[], none, .idle⟩
        ⟨.storage .target (.createFile job.temp true job.options.bufferSize job.layout),
          .error message⟩
        ⟨[], none, .idle⟩
  | opened (input : StreamId) (h : job.plan.bufferTrouble? = none) :
      Step job ⟨[], none, .staged⟩ ⟨.storage .source (.openFile job.source.path), .ok input⟩
        ⟨[], none, .resting input⟩
  /-- Without a buffer there is no loop. -/
  | openedUnbuffered (input : StreamId) (h : job.plan.bufferTrouble? ≠ none) :
      Step job ⟨[], none, .staged⟩ ⟨.storage .source (.openFile job.source.path), .ok input⟩
        ⟨[], none, .stopped none⟩
  | notOpened (message : Bytes) :
      Step job ⟨[], none, .staged⟩ ⟨.storage .source (.openFile job.source.path), .error message⟩
        ⟨[], none, .stopped none⟩
  | delivered {told : List Bytes} {refusal : Option Bytes} {input : StreamId} {chunk : Bytes}
      (h : chunk ≠ []) :
      Step job ⟨told, refusal, .resting input⟩
        ⟨.storage .source (.read input job.plan.chunkSize), .ok chunk⟩
        ⟨told, refusal, .carrying input chunk⟩
  | ended {told : List Bytes} {refusal : Option Bytes} {input : StreamId} :
      Step job ⟨told, refusal, .resting input⟩
        ⟨.storage .source (.read input job.plan.chunkSize), .ok []⟩ ⟨told, refusal, .stopped none⟩
  | notRead {told : List Bytes} {refusal : Option Bytes} {input : StreamId} (message : Bytes) :
      Step job ⟨told, refusal, .resting input⟩
        ⟨.storage .source (.read input job.plan.chunkSize), .error message⟩
        ⟨told, refusal, .stopped none⟩
  | written {told : List Bytes} {refusal : Option Bytes} {input output : StreamId}
      {chunk : Bytes} :
      Step job ⟨told, refusal, .carrying input chunk⟩
        ⟨.storage .target (.write output chunk), .ok ()⟩ ⟨told, refusal, .due input chunk⟩
  | notWritten {told : List Bytes} {refusal : Option Bytes} {input output : StreamId}
      {chunk : Bytes} (message : Bytes) :
      Step job ⟨told, refusal, .carrying input chunk⟩
        ⟨.storage .target (.write output chunk), .error message⟩
        ⟨told, refusal, .stopped (some chunk)⟩
  | accepted {told : List Bytes} {refusal : Option Bytes} {input : StreamId} {chunk : Bytes} :
      Step job ⟨told, refusal, .due input chunk⟩
        ⟨.setStatus (job.progressAt (byteCount (told ++ [chunk]))), .ok ()⟩
        ⟨told ++ [chunk], refusal, .resting input⟩
  | refused {told : List Bytes} {input : StreamId} {chunk : Bytes} (message : Bytes) :
      Step job ⟨told, none, .due input chunk⟩
        ⟨.setStatus (job.progressAt (byteCount (told ++ [chunk]))), .error message⟩
        ⟨told ++ [chunk], some message, .complaining input⟩
  | refusedAgain {told : List Bytes} {first : Bytes} {input : StreamId} {chunk : Bytes}
      (message : Bytes) :
      Step job ⟨told, some first, .due input chunk⟩
        ⟨.setStatus (job.progressAt (byteCount (told ++ [chunk]))), .error message⟩
        ⟨told ++ [chunk], some first, .resting input⟩
  | complained {told : List Bytes} {message : Bytes} {input : StreamId} :
      Step job ⟨told, some message, .complaining input⟩
        ⟨.log ⟨.warn, job.complaint message⟩, ()⟩ ⟨told, some message, .resting input⟩

/-! ## An attempt goes along with the meter -/

/-- The program goes along with the meter and, when it is done or breaks down, leaves it settled. -/
def Settles {α : Type} (job : CopyJob) (p : Program α) (m : Meter) : Prop :=
  p.Follows (Step job) m fun outcome after =>
    outcome ≠ .unfinished → after.stage.settled = true

section walk

variable {job : CopyJob} {m : Meter} {told : List Bytes} {refusal : Option Bytes}
  {input output : StreamId} {chunk : Bytes} {bound : Nat} {α β : Type}

/-- A program that is no part of the loop leaves the meter where it is. -/
theorem aside_follows {p : Program α} {post : Outcome α → Meter → Prop} (hp : p.Aside)
    (hm : m.stage.calm = true) (h : ∀ outcome, post outcome m) : p.Follows (Step job) m post := by
  induction p with
  | done a => exact h _
  | unfinished | broken => exact h _
  | ask r next ih => exact fun answer => ⟨m, .aside hp.1 hm, ih answer (hp.2 answer)⟩

theorem settles_of_aside {p : Program α} (hp : p.Aside) (hm : m.stage.settled = true) :
    Settles job p m :=
  aside_follows hp (MeterStage.calm_of_settled hm) fun _ _ => hm

/-- A request that comes before is no part of the loop. -/
theorem settles_request_bind {r : Request} {f : r.Answer → Program β} (hr : r.aside = true)
    (hm : m.stage.calm = true) (hf : ∀ a, Settles job (f a) m) :
    Settles job (Program.request r >>= f) m :=
  fun answer => ⟨m, .aside hr hm, hf answer⟩

/-- What comes after is no part of the loop. -/
theorem settles_bind_right {p : Program α} {f : α → Program β} (hp : Settles job p m)
    (hf : ∀ a, (f a).Aside) : Settles job (p >>= f) m := by
  refine follows_bind.2 (hp.mono fun outcome after hsettled => ?_)
  cases outcome with
  | done a => exact settles_of_aside (hf a) (hsettled nofun)
  | unfinished => exact fun hends => absurd rfl hends
  | broken trouble => exact fun _ => hsettled nofun

/-- What is done after a breakdown is no part of the loop. -/
theorem settles_onBreakdown {p : Program α} {cleanup : Program Unit} (hp : Settles job p m)
    (hcleanup : cleanup.Aside) : Settles job (p.onBreakdown cleanup) m := by
  refine follows_onBreakdown.2 (hp.mono fun outcome after hsettled => ?_)
  cases outcome with
  | done | unfinished => exact hsettled
  | broken trouble =>
    exact settles_of_aside (Program.asks_bind hcleanup fun _ => trivial)
      (hsettled nofun)

theorem aside_log {level : Log.Level} {text : Bytes}
    (h : Log.Line.complainsOfProgress ⟨level, text⟩ = false) : (Program.log level text).Aside :=
  Program.asks_request (by rw [Request.aside, h]; rfl)

theorem reportProgress_follows {post : Outcome Bool → Meter → Prop}
    (h : ∀ refusal' : Option Bytes,
      post (.done refusal'.isSome) ⟨told ++ [chunk], refusal', .resting input⟩) :
    (reportProgress job.plan (tally (told ++ [chunk])) refusal.isSome).Follows (Step job)
      ⟨told, refusal, .due input chunk⟩ post := by
  refine follows_bind.2 fun answer => ?_
  cases answer with
  | ok => exact ⟨_, .accepted, h refusal⟩
  | error message =>
    cases refusal with
    | none =>
      exact ⟨_, .refused message, follows_bind.2 fun _ => ⟨_, .complained, h (some message)⟩⟩
    | some first => exact ⟨_, .refusedAgain message, h (some first)⟩

/-- The loop, by induction on its bound: what it has copied is what was told of. -/
theorem streamChunks_settles {throttle : Throttle} :
    Settles job
      (streamChunks job.plan input output bound throttle (tally told) refusal.isSome)
      ⟨told, refusal, .resting input⟩ := by
  induction bound generalizing throttle told refusal with
  | zero => exact fun hends => absurd rfl hends
  | succ bound ih =>
    refine follows_bind.2 (throttledRead_follows fun answer => ?_)
    match answer with
    | .error message =>
      exact ⟨_, .notRead message, fun _ => .aside rfl rfl, fun _ => .aside rfl rfl, fun _ _ => rfl⟩
    | .ok [] =>
      exact ⟨_, .ended, fun _ => .aside rfl rfl, fun _ => .aside rfl rfl, fun _ _ => rfl⟩
    | .ok (b :: rest) =>
      refine ⟨_, .delivered (List.cons_ne_nil b rest), fun _ => .aside rfl rfl,
        fun _ => .aside rfl rfl, fun throttle' => follows_bind.2 fun answer => ?_⟩
      cases answer with
      | error message => exact ⟨_, .notWritten message, fun _ => rfl⟩
      | ok =>
        refine ⟨_, .written, follows_bind.2 ?_⟩
        show Program.Follows (Step job) (reportProgress _ (wrap64 (_ + _)) _) _ _
        rw [← tally_snoc]
        exact reportProgress_follows fun refusal' => ih

theorem streamSource_settles :
    Settles job (streamSource bound job.plan output) ⟨[], none, .staged⟩ := by
  refine follows_bind.2 fun answer => ?_
  cases answer with
  | error message => exact ⟨_, .notOpened message, fun _ => rfl⟩
  | ok input =>
    cases hbuffer : job.plan.bufferTrouble? with
    | some trouble =>
      refine ⟨_, .openedUnbuffered input (by simp [hbuffer]), ?_⟩
      refine settles_request_bind rfl rfl fun start => ?_
      exact fun _ => rfl
    | none =>
      refine ⟨_, .opened input hbuffer, ?_⟩
      refine settles_request_bind rfl rfl fun start => ?_
      have hloop {throttle : Throttle} :
          Settles job (streamChunks job.plan input output bound throttle (tally [])
            (none : Option Bytes).isSome) ⟨[], none, .resting input⟩ := streamChunks_settles
      refine settles_bind_right hloop fun outcome => ?_
      refine Program.asks_bind (Program.asks_bind (Program.asks_request rfl) fun answer => ?_)
        fun _ => Program.asks_bind (Program.asks_request rfl) fun _ =>
          Program.asks_bind (aside_log rfl) fun _ => trivial
      cases answer with
      | ok => trivial
      | error message => exact aside_log rfl

theorem fillTemp_settles :
    Settles job (fillTemp bound job output) ⟨[], none, .staged⟩ := by
  refine settles_bind_right streamSource_settles fun copied => ?_
  refine Program.asks_bind (Program.asks_request rfl) fun closed => ?_
  match copied, closed with
  | .ok n, .ok () => trivial
  | .ok n, .error message => exact Program.asks_bind (aside_log rfl) fun _ => trivial
  | .error failure, .ok () => trivial
  | .error failure, .error message => exact Program.asks_bind (aside_log rfl) fun _ => trivial

theorem stage_settles : Settles job (StagedCopy.stage bound job).run ⟨[], none, .idle⟩ := by
  refine fun answer => ?_
  match answer with
  | .error message => exact ⟨_, .notCreated message, fun _ => rfl⟩
  | .ok (.error trouble) => exact ⟨_, .createdUnbuffered trouble, fun _ => rfl⟩
  | .ok (.ok output) => exact ⟨_, .created output, fillTemp_settles⟩

end walk

end Meter

/-- An attempt goes along with the meter and leaves it settled. -/
theorem copyOnce_settles {bound : Nat} {job : CopyJob} :
    Meter.Settles job (copyOnce bound job) {} := by
  unfold copyOnce
  cases isAttemptId job.attemptId with
  | false => exact fun _ => rfl
  | true =>
    refine Meter.settles_request_bind rfl rfl fun _ => ?_
    refine Meter.settles_request_bind rfl rfl fun _ => ?_
    refine Meter.settles_bind_right (Meter.settles_onBreakdown ?_ discardTemp_discreet.aside)
      fun _ => conclude_discreet.aside
    refine Meter.settles_bind_right Meter.stage_settles fun staged => ?_
    cases staged with
    | ok copied => exact publish_discreet.aside
    | error failure => trivial

/-! ## What the meter says about the history -/

namespace Meter

/-- The refusal that was complained of. -/
def voiced (m : Meter) : Option Bytes :=
  match m.stage with
  | .complaining _ => none
  | _ => m.refusal

theorem voiced_of_settled {m : Meter} (h : m.stage.settled = true) : m.voiced = m.refusal := by
  obtain ⟨told, refusal, stage⟩ := m
  cases stage with
  | idle | stopped => rfl
  | _ => cases h

/-- What a history has in common with the meter that went along with it. -/
structure Records (job : CopyJob) (history : List Exchange) (m : Meter) : Prop where
  delivered : deliveredChunks history = m.told ++ m.stage.inHand.toList
  written : writtenChunks history = m.told ++ m.stage.untold.toList
  failed : failedChunks history = m.stage.lost.toList
  last : history.getLast?.bind Exchange.written? = m.stage.untold
  reports : reportsOf history = (runningTotals m.told).map job.progressAt
  refusal : (refusalsOf history).head? = m.refusal
  complaints : complaintsOf history = m.voiced.toList.map job.complaint

section steps

variable {job : CopyJob} {m m' : Meter} {x : Exchange}

theorem Step.delivers (h : Step job m x m') :
    m.told ++ m.stage.inHand.toList ++ x.delivery?.toList
      = m'.told ++ m'.stage.inHand.toList := by
  cases h with
  | aside hx => simp [(Exchange.hidden_of_aside hx).delivery]
  | delivered hchunk => simp [MeterStage.inHand, Exchange.delivery?_read hchunk]
  | _ => simp [MeterStage.inHand, Exchange.delivery?]

theorem Step.writes (h : Step job m x m') :
    m.told ++ m.stage.untold.toList ++ x.written?.toList
      = m'.told ++ m'.stage.untold.toList := by
  cases h with
  | aside hx => simp [(Exchange.hidden_of_aside hx).written]
  | _ => simp [MeterStage.untold, Exchange.written?]

theorem Step.fails (h : Step job m x m') :
    m.stage.lost.toList ++ x.failed?.toList = m'.stage.lost.toList := by
  cases h with
  | aside hx => simp [(Exchange.hidden_of_aside hx).failed]
  | _ => simp [MeterStage.lost, Exchange.failed?]

/-- What was just written is what is to be told of. -/
theorem Step.owes (h : Step job m x m') : x.written? = m'.stage.untold := by
  cases h with
  | aside hx hm =>
    rw [(Exchange.hidden_of_aside hx).written, MeterStage.untold_of_calm hm]
  | _ => rfl

/-- The task is told of what was just written, and of nothing else. -/
theorem Step.reports (h : Step job m x m') :
    x.report? = m.stage.untold.map fun chunk => job.progressAt (byteCount (m.told ++ [chunk])) := by
  cases h with
  | aside hx hm =>
    rw [(Exchange.hidden_of_aside hx).report, MeterStage.untold_of_calm hm]
    rfl
  | _ => rfl

theorem Step.counts (h : Step job m x m') :
    (runningTotals m.told).map job.progressAt ++ x.report?.toList
      = (runningTotals m'.told).map job.progressAt := by
  cases h with
  | aside hx => simp [(Exchange.hidden_of_aside hx).report]
  | _ => simp [runningTotals_snoc, Exchange.report?]

/-- Only the first refusal is kept. -/
theorem Step.refuses (h : Step job m x m') : m.refusal.or x.refusal? = m'.refusal := by
  cases h with
  | aside hx => simp [(Exchange.hidden_of_aside hx).refusal]
  | _ => simp [Exchange.refusal?]

theorem Step.complains (h : Step job m x m') :
    m.voiced.toList.map job.complaint ++ x.complaint?.toList
      = m'.voiced.toList.map job.complaint := by
  cases h with
  | aside hx => simp [(Exchange.hidden_of_aside hx).complaint]
  | complained => simp [voiced, Exchange.complaint?, complains_of_complaint]
  | _ => simp [voiced, Exchange.complaint?]

theorem Records.step {history : List Exchange} (h : Records job history m)
    (hstep : Step job m x m') : Records job (history ++ [x]) m' where
  delivered := by rw [deliveredChunks_snoc, h.delivered, hstep.delivers]
  written := by rw [writtenChunks, filterMap_snoc, ← writtenChunks, h.written, hstep.writes]
  failed := by rw [failedChunks, filterMap_snoc, ← failedChunks, h.failed, hstep.fails]
  last := by rw [List.getLast?_concat, Option.bind_some, hstep.owes]
  reports := by rw [reportsOf, filterMap_snoc, ← reportsOf, h.reports, hstep.counts]
  refusal := by
    rw [refusalsOf, filterMap_snoc, ← refusalsOf, List.head?_append, h.refusal, Option.head?_toList,
      hstep.refuses]
  complaints := by
    rw [complaintsOf, filterMap_snoc, ← complaintsOf, h.complaints, hstep.complains]

namespace Records

variable {history : List Exchange}

/-- A settled meter has told of all that was written. -/
theorem told_eq (h : Records job history m) (hm : m.stage.settled = true) :
    m.told = writtenChunks history := by
  rw [h.written, MeterStage.untold_of_calm (MeterStage.calm_of_settled hm), Option.toList_none,
    List.append_nil]

/-- A settled meter knows the chunks that were delivered. -/
theorem relayed (h : Records job history m) (hm : m.stage.settled = true) :
    deliveredChunks history = writtenChunks history ++ failedChunks history := by
  rw [h.delivered, h.failed, h.told_eq hm, MeterStage.inHand_of_settled hm]

theorem ne_nil_of_written (h : Records job history m) (hm : m.stage.settled = true)
    {chunk : Bytes} (hchunk : chunk ∈ writtenChunks history) : chunk ≠ [] := by
  have hdelivered : chunk ∈ deliveredChunks history := by
    rw [h.relayed hm]
    exact List.mem_append_left _ hchunk
  exact ne_nil_of_delivered hdelivered

end Records

/-- Wherever the meter has gone with an execution, it says what has happened in it. -/
theorem records {history : List Exchange} (h : Trail (Step job) {} history m) :
    Records job history m :=
  Trail.history Records.step h ⟨rfl, rfl, rfl, rfl, rfl, rfl, rfl⟩

/-- Once the loop has ended, the task is told nothing. -/
theorem reportsOf_of_stopped {lost : Option Bytes} {history : List Exchange}
    (h : Trail (Step job) m history m') (hstopped : m.stage = .stopped lost) :
    reportsOf history = [] := by
  induction h with
  | stay => rfl
  | go first _ ih =>
    cases first with
    | aside hx =>
      rw [reportsOf, List.filterMap_cons_none (Exchange.hidden_of_aside hx).report]
      exact ih hstopped
    | _ => cases hstopped

/-- The loop is over when an exchange ends it. -/
theorem Step.stopped_of_endsLoop (h : Step job m x m') (hends : x.endsLoop = true) :
    ∃ lost, m'.stage = .stopped lost := by
  cases h with
  | aside hx =>
    rw [(Exchange.hidden_of_aside hx).endsLoop] at hends
    cases hends
  | ended | notRead | notWritten => exact ⟨_, rfl⟩
  | @delivered told refusal input chunk hchunk =>
    obtain ⟨b, rest, rfl⟩ := List.exists_cons_of_ne_nil hchunk
    cases hends
  | _ => cases hends

end steps

end Meter

end StagedCopy
