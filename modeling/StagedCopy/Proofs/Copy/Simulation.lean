import StagedCopy.Proofs.Copy.Phase
import StagedCopy.Proofs.Copy.Requests

/-!
# An attempt goes through its phases

The program of an attempt follows the transition system of its phases, for all answers: it makes
the call that the phase says, and no other. Each part of the program has one lemma, which says at
which phases it can end and with what; only the loop over the chunks is an induction. An attempt
that uses up its bound is still reading and has moved as many chunks as the bound allows. One that
breaks down goes to the temporary file at once.

* `streamSource_follows`, `fillTemp_follows`, `stage_follows`, `checkLengths_follows`,
  `checkChecksums_follows`, `promote_follows`, `discardTemp_follows` — the parts.
* `copyOnce_follows` — the attempt.
* `copyOnce_invalid` — without a usable attempt id nothing is asked at all.
* `copyOnce_trail`, `copyOnce_ended` — the phases along the beginnings of an attempt and along
  its executions with an end.
-/

namespace StagedCopy

open Program

namespace CopyPhase

variable {job : CopyJob} {phase : CopyPhase} {α β : Type}

/-! ## Requests and calls -/

theorem request_follows {r : Request} (hr : r.isCall = false)
    {post : Outcome r.Answer → CopyPhase → Prop} (h : ∀ answer, post (.done answer) phase) :
    (Program.request r).Follows (Step job) phase post :=
  fun answer => ⟨phase, .silent hr, h answer⟩

theorem log_follows {level : Log.Level} {text : Bytes}
    {post : Outcome Unit → CopyPhase → Prop} (h : post (.done ()) phase) :
    (Program.log level text).Follows (Step job) phase post :=
  request_follows rfl fun _ => h

theorem incrementSafely_follows {counter : Counter} {value : Nat}
    {post : Outcome Unit → CopyPhase → Prop} (h : post (.done ()) phase) :
    (Program.incrementSafely counter value).Follows (Step job) phase post := by
  refine follows_bind.2 (request_follows rfl fun answer => ?_)
  cases answer with
  | ok => exact h
  | error message => exact log_follows h

/-- A call that ends a program on failure. -/
theorem call_follows {side : Side} {c : StorageCall} {failure : Bytes → CopyFailure}
    {post : Outcome (Except CopyFailure c.Value) → CopyPhase → Prop}
    (h : ∀ answer : c.Answer, ∃ after, Step job phase ⟨.storage side c, answer⟩ after ∧
      post (.done (answer.mapError failure)) after) :
    (Fallible.call side c failure).run.Follows (Step job) phase post := by
  intro answer
  obtain ⟨after, hstep, hpost⟩ := h answer
  refine ⟨after, hstep, ?_⟩
  cases answer with
  | ok value => exact hpost
  | error message => exact hpost

/-- Two programs that may fail, one after the other. -/
theorem fallible_bind_follows {p : Fallible α} {f : α → Fallible β}
    {post : Outcome (Except CopyFailure β) → CopyPhase → Prop}
    (h : p.run.Follows (Step job) phase fun outcome after =>
      match outcome with
      | .done (.ok a) => (f a).run.Follows (Step job) after post
      | .done (.error failure) => post (.done (.error failure)) after
      | .unfinished => post .unfinished after
      | .broken trouble => post (.broken trouble) after) :
    (p >>= f).run.Follows (Step job) phase post := by
  refine follows_bind.2 (h.mono ?_)
  rintro ((_ | a) | _ | trouble) after hpost
  all_goals exact hpost

/-- A program that branches on something it already knows. -/
theorem fallible_ite_follows {c : Prop} [Decidable c] {p q : Fallible α}
    {post : Outcome (Except CopyFailure α) → CopyPhase → Prop}
    (hp : c → p.run.Follows (Step job) phase post)
    (hq : ¬ c → q.run.Follows (Step job) phase post) :
    (if c then p else q).run.Follows (Step job) phase post := by
  by_cases hc : c
  · rw [if_pos hc]
    exact hp hc
  · rw [if_neg hc]
    exact hq hc

/-! ## Moving the bytes -/

theorem reportProgress_follows {plan : StreamPlan} {copied : Nat} {refused : Bool}
    {post : Outcome Bool → CopyPhase → Prop} (h : ∀ refused', post (.done refused') phase) :
    (reportProgress plan copied refused).Follows (Step job) phase post := by
  refine follows_bind.2 (request_follows rfl fun answer => ?_)
  cases answer with
  | ok => exact h _
  | error message =>
    cases refused with
    | true => exact h _
    | false => exact follows_bind.2 (log_follows (h _))

/-- The loop ends because the source ends, because a chunk cannot be read or written, or because
the bound is used up; in the last case it has moved a chunk for each read. -/
theorem streamChunks_follows {output input : StreamId} {bound : Nat} {throttle : Throttle}
    {moved : List Bytes} {refused : Bool}
    {post : Outcome (Except CopyFailure Nat × Throttle) → CopyPhase → Prop}
    (hstuck : ∀ moved' : List Bytes, moved'.length = moved.length + bound →
      post .unfinished (.reading output input moved'))
    (hend : ∀ moved' throttle',
      post (.done (.ok (tally moved'), throttle')) (.closing output moved' none))
    (hfail : ∀ moved' failure throttle',
      post (.done (.error failure, throttle')) (.closing output moved' (some failure))) :
    (streamChunks job.plan input output bound throttle (tally moved) refused).Follows
      (Step job) (.reading output input moved) post := by
  induction bound generalizing throttle moved refused with
  | zero => exact hstuck moved rfl
  | succ bound ih =>
    refine follows_bind.2 (throttledRead_follows fun answer => ?_)
    match answer with
    | .error message =>
      exact ⟨_, .notRead message, fun _ => .silent rfl, fun _ => .silent rfl, fun _ => hfail _ _ _⟩
    | .ok [] => exact ⟨_, .ended, fun _ => .silent rfl, fun _ => .silent rfl, fun _ => hend _ _⟩
    | .ok (b :: rest) =>
      refine ⟨_, .delivered (List.cons_ne_nil b rest), fun _ => .silent rfl, fun _ => .silent rfl,
        fun throttle' => ?_⟩
      refine follows_bind.2 fun written => ?_
      cases written with
      | error message => exact ⟨_, .notWritten message, hfail _ _ _⟩
      | ok =>
        refine ⟨_, .written, follows_bind.2 (reportProgress_follows fun refused' => ?_)⟩
        show Program.Follows (Step job) (streamChunks _ _ _ _ _ (wrap64 (_ + _)) _) _ _
        rw [← tally_snoc]
        refine ih fun moved' hmoved => hstuck moved' ?_
        rw [hmoved, List.length_append, List.length_singleton]
        omega

/-- The stream ends as its loop does, or breaks down before it. -/
theorem streamSource_follows {output : StreamId} {bound : Nat}
    {post : Outcome (Except CopyFailure Nat) → CopyPhase → Prop}
    (hbroken : ∀ trouble,
      post (.broken trouble) (.findingTemp (.broken trouble [output])))
    (hstuck : ∀ input moved, moved.length = bound → post .unfinished (.reading output input moved))
    (hend : ∀ moved, post (.done (.ok (tally moved))) (.closing output moved none))
    (hfail : ∀ moved failure,
      post (.done (.error failure)) (.closing output moved (some failure))) :
    (streamSource bound job.plan output).Follows (Step job) (.opening output) post := by
  refine follows_bind.2 fun answer => ?_
  cases answer with
  | error message => exact ⟨_, .notOpened message, hfail _ _⟩
  | ok input =>
    cases hbuffer : job.plan.bufferTrouble? with
    | some trouble =>
      exact ⟨_, .openedUnbuffered input hbuffer,
        follows_bind.2 (request_follows rfl fun start => hbroken trouble)⟩
    | none =>
    refine ⟨_, .opened input hbuffer, follows_bind.2 (request_follows rfl fun start => ?_)⟩
    refine follows_bind.2 ?_
    -- the time spent waiting is booked and summed up at whatever phase the loop has ended
    have hbook : ∀ (result : Except CopyFailure Nat) (throttle : Throttle) (after : CopyPhase),
        post (.done result) after →
        (do
          Program.incrementSafely .sleepTime throttle.sleptMilliseconds
          let finish ← Program.now
          Program.log .info (utf8 "STATS: " ++ throttle.text finish)
          pure result : Program (Except CopyFailure Nat)).Follows (Step job) after post := by
      intro result throttle after hpost
      refine follows_bind.2 (incrementSafely_follows ?_)
      refine follows_bind.2 (request_follows rfl fun finish => ?_)
      exact follows_bind.2 (log_follows hpost)
    show Program.Follows (Step job) (streamChunks _ _ _ _ _ (tally []) _) _ _
    refine streamChunks_follows ?_ ?_ ?_
    · intro moved hmoved
      rw [List.length_nil, Nat.zero_add] at hmoved
      exact hstuck input moved hmoved
    · exact fun moved throttle => hbook _ _ _ (hend moved)
    · exact fun moved failure throttle => hbook _ _ _ (hfail moved failure)

/-! ## Staging -/

/-- A staged file is closed whichever way the stream ended, unless it broke down, and a failure of
the stream outweighs one of closing. -/
theorem fillTemp_follows {bound : Nat} {output : StreamId}
    {post : Outcome (Except CopyFailure Nat) → CopyPhase → Prop}
    (hbroken : ∀ trouble,
      post (.broken trouble) (.findingTemp (.broken trouble [output])))
    (hstuck : ∀ input moved, moved.length = bound → post .unfinished (.reading output input moved))
    (hend : ∀ moved, post (.done (.ok (tally moved))) (.sizingSource moved))
    (hfail : ∀ failure, post (.done (.error failure)) (.findingTemp (.error failure))) :
    (fillTemp bound job output).Follows (Step job) (.opening output) post := by
  refine follows_bind.2 (streamSource_follows hbroken hstuck ?_ ?_)
  · intro moved
    refine follows_bind.2 fun answer => ?_
    cases answer with
    | ok => exact ⟨_, .closed, hend moved⟩
    | error message =>
      exact ⟨_, .notClosed message, follows_bind.2 (log_follows (hfail _))⟩
  · intro moved failure
    refine follows_bind.2 fun answer => ⟨_, .closedAfter answer, ?_⟩
    cases answer with
    | ok => exact hfail failure
    | error message => exact follows_bind.2 (log_follows (hfail failure))

theorem stage_follows {bound : Nat} {post : Outcome (Except CopyFailure Nat) → CopyPhase → Prop}
    (hbroken : ∀ trouble left,
      post (.broken trouble) (.findingTemp (.broken trouble left)))
    (hstuck : ∀ output input moved, moved.length = bound →
      post .unfinished (.reading output input moved))
    (hend : ∀ moved, post (.done (.ok (tally moved))) (.sizingSource moved))
    (hfail : ∀ failure, post (.done (.error failure)) (.findingTemp (.error failure))) :
    (stage bound job).run.Follows (Step job) .creating post := by
  refine fallible_bind_follows (call_follows fun answer => ?_)
  match answer with
  | .error message => exact ⟨_, .notCreated message, hfail _⟩
  | .ok (.error trouble) => exact ⟨_, .createdUnbuffered trouble, hbroken trouble []⟩
  | .ok (.ok output) =>
    exact ⟨_, .created output,
      fillTemp_follows (fun trouble => hbroken trouble [output]) (hstuck output) hend hfail⟩

/-! ## Verifying -/

theorem checkLengths_follows {moved : List Bytes}
    {post : Outcome (Except CopyFailure Unit) → CopyPhase → Prop}
    (hpass : post (.done (.ok ())) (afterLengths job moved))
    (hfail : ∀ failure, post (.done (.error failure)) (.findingTemp (.error failure))) :
    (checkLengths job (tally moved)).run.Follows (Step job) (.sizingSource moved) post := by
  refine fallible_bind_follows (call_follows fun answer => ?_)
  cases answer with
  | error message => exact ⟨_, .sourceUnsized message, hfail _⟩
  | ok source =>
    by_cases hsource : source.length = tally moved
    · refine ⟨_, .sourceSized hsource, ?_⟩
      show Program.Follows (Step job) (ExceptT.run (ite _ _ _)) _ post
      rw [if_pos hsource]
      refine fallible_bind_follows (call_follows fun answer => ?_)
      cases answer with
      | error message => exact ⟨_, .tempUnsized message, hfail _⟩
      | ok temp =>
        by_cases htemp : temp.length = tally moved
        · refine ⟨_, .tempSized htemp, ?_⟩
          show Program.Follows (Step job) (ExceptT.run (ite _ _ _)) _ post
          rw [if_pos htemp]
          exact hpass
        · refine ⟨_, .tempOff htemp, ?_⟩
          show Program.Follows (Step job) (ExceptT.run (ite _ _ _)) _ post
          rw [if_neg htemp]
          exact hfail _
    · refine ⟨_, .sourceOff hsource, ?_⟩
      show Program.Follows (Step job) (ExceptT.run (ite _ _ _)) _ post
      rw [if_neg hsource]
      exact hfail _

/-- What is made of a report on checksums, at a phase that knows it already. -/
theorem judge_follows {report : ChecksumReport} {after : CopyPhase}
    {post : Outcome (Except CopyFailure Unit) → CopyPhase → Prop}
    (h : if report.verdict = .equal then post (.done (.ok ())) after
      else post (.done (.error (.checksums job.source.path job.temp report))) after) :
    (ExceptT.run (m := Program) (do
      unless report.verdict = .equal do
        throw (.checksums job.source.path job.temp report) : Fallible Unit)).Follows
      (Step job) after post := by
  by_cases hverdict : report.verdict = .equal
  · rw [if_pos hverdict] at h
    show Program.Follows (Step job) (ExceptT.run (ite _ _ _)) _ post
    rw [if_pos hverdict]
    exact h
  · rw [if_neg hverdict] at h
    show Program.Follows (Step job) (ExceptT.run (ite _ _ _)) _ post
    rw [if_neg hverdict]
    exact h

theorem compareChecksums_follows {moved : List Bytes}
    {post : Outcome ChecksumReport → CopyPhase → Prop}
    (h : ∀ report, post (.done report) (if report.verdict = .equal then .findingTarget moved
      else .findingTemp (.error (.checksums job.source.path job.temp report)))) :
    (compareChecksums job.source.path job.temp).Follows (Step job) (.summingSource moved)
      post := by
  refine follows_bind.2 fun answer => ?_
  cases answer with
  | error message => exact ⟨_, .sourceUnsummed message, h (.sourceUnreadable message)⟩
  | ok sourceSum =>
    refine ⟨_, .sourceSummed sourceSum, follows_bind.2 fun answer => ?_⟩
    cases answer with
    | error message => exact ⟨_, .tempUnsummed message, h (.targetUnreadable message)⟩
    | ok tempSum =>
      have hreport := h (ChecksumReport.ofChecksums sourceSum tempSum)
      obtain ⟨after, hstep, hpost⟩ : ∃ after,
          Step job (.summingTemp moved sourceSum)
            ⟨.storage .target (.checksum job.temp), .ok tempSum⟩ after ∧
          post (.done (ChecksumReport.ofChecksums sourceSum tempSum)) after := by
        by_cases hverdict : (ChecksumReport.ofChecksums sourceSum tempSum).verdict = .equal
        · rw [if_pos hverdict] at hreport
          exact ⟨_, .tempSummed hverdict, hreport⟩
        · rw [if_neg hverdict] at hreport
          exact ⟨_, .tempDiffers hverdict, hreport⟩
      refine ⟨after, hstep, ?_⟩
      -- only comparable checksums are logged, and a log line does not count
      simp only [Follows]
      split
      · exact follows_bind.2 (log_follows hpost)
      · exact hpost

theorem checkChecksums_follows {moved : List Bytes}
    {post : Outcome (Except CopyFailure Unit) → CopyPhase → Prop}
    (hpass : post (.done (.ok ())) (.findingTarget moved))
    (hfail : ∀ failure, post (.done (.error failure)) (.findingTemp (.error failure))) :
    (checkChecksums job).run.Follows (Step job) (.summingSource moved) post := by
  refine follows_bind.2 (follows_bind.2 (compareChecksums_follows fun report => ?_))
  refine judge_follows ?_
  by_cases hverdict : report.verdict = .equal
  · rw [if_pos hverdict, if_pos hverdict]
    exact hpass
  · rw [if_neg hverdict, if_neg hverdict]
    exact hfail _

/-! ## Publishing -/

theorem promote_follows {moved : List Bytes}
    {post : Outcome (Except CopyFailure Unit) → CopyPhase → Prop}
    (hpass : post (.done (.ok ())) (.findingTemp (.ok (tally moved))))
    (hfail : ∀ failure, post (.done (.error failure)) (.findingTemp (.error failure))) :
    (promote job.temp job.target).run.Follows (Step job) (.findingTarget moved) post := by
  have hrename : (Fallible.call .target (.rename job.temp job.target)
      (.promotion .rename job.temp job.target)).run.Follows (Step job) (.publishing moved)
      post := by
    refine call_follows fun answer => ?_
    cases answer with
    | error message => exact ⟨_, .notRenamed message, hfail _⟩
    | ok => exact ⟨_, .renamed, hpass⟩
  -- what is left once nothing stands at the target
  have hcleared : (ExceptT.run (m := Program) (do
      unless job.target.parent.isEmpty do
        let housed : Bool ← Fallible.call .target (.pathExists job.target.parent)
          (.promotion .createParent job.temp job.target)
        unless housed do
          Fallible.call .target (.makeDirs job.target.parent)
            (.promotion .createParent job.temp job.target)
      Fallible.call .target (.rename job.temp job.target)
        (.promotion .rename job.temp job.target) : Fallible Unit)).Follows (Step job)
      (afterClearing job moved) post := by
    refine fallible_ite_follows (fun hparent => ?_) (fun hparent => ?_)
    · rw [afterClearing, if_pos hparent]
      exact hrename
    · rw [afterClearing, if_neg hparent]
      refine fallible_bind_follows (call_follows fun answer => ?_)
      match answer with
      | .error message => exact ⟨_, .parentUnknown message, hfail _⟩
      | .ok true => exact ⟨_, .parentFound, hrename⟩
      | .ok false =>
        refine ⟨_, .parentAbsent, fallible_bind_follows (call_follows fun answer => ?_)⟩
        cases answer with
        | error message => exact ⟨_, .parentNotMade message, hfail _⟩
        | ok => exact ⟨_, .parentMade, hrename⟩
  refine fallible_bind_follows (call_follows fun answer => ?_)
  match answer with
  | .error message => exact ⟨_, .targetUnknown message, hfail _⟩
  | .ok false => exact ⟨_, .targetAbsent, hcleared⟩
  | .ok true =>
    refine ⟨_, .targetFound, fallible_bind_follows (call_follows fun answer => ?_)⟩
    cases answer with
    | error message => exact ⟨_, .targetKept message, hfail _⟩
    | ok => exact ⟨_, .targetCleared, hcleared⟩

/-! ## The attempt -/

theorem stageAndPublish_follows {bound : Nat}
    {post : Outcome (Except CopyFailure Nat) → CopyPhase → Prop}
    (hbroken : ∀ trouble left,
      post (.broken trouble) (.findingTemp (.broken trouble left)))
    (hstuck : ∀ output input moved, moved.length = bound →
      post .unfinished (.reading output input moved))
    (hend : ∀ copied, post (.done (.ok copied)) (.findingTemp (.ok copied)))
    (hfail : ∀ failure, post (.done (.error failure)) (.findingTemp (.error failure))) :
    (stageAndPublish bound job).run.Follows (Step job) .creating post := by
  refine fallible_bind_follows (stage_follows hbroken hstuck ?_ hfail)
  intro moved
  have hpublish : (do
      promote job.temp job.target
      pure (tally moved) : Fallible Nat).run.Follows (Step job) (.findingTarget moved)
      post :=
    fallible_bind_follows (promote_follows (hend _) hfail)
  refine fallible_bind_follows (checkLengths_follows ?_ hfail)
  refine fallible_ite_follows (fun hverify => ?_) (fun hverify => ?_)
  · rw [afterLengths, if_pos hverify]
    exact fallible_bind_follows (checkChecksums_follows hpublish hfail)
  · rw [afterLengths, if_neg hverify]
    exact hpublish

theorem discardTemp_follows {result : AttemptEnd}
    {post : Outcome Unit → CopyPhase → Prop} (h : post (.done ()) (.finished result)) :
    (discardTemp job.temp).Follows (Step job) (.findingTemp result) post := by
  refine follows_bind.2 fun answer => ?_
  match answer with
  | .error message => exact ⟨_, .tempUnknown message, log_follows h⟩
  | .ok false => exact ⟨_, .tempAbsent, h⟩
  | .ok true =>
    refine ⟨_, .tempFound, follows_bind.2 fun answer => ⟨_, .tempCleared answer, ?_⟩⟩
    cases answer with
    | error message => exact log_follows h
    | ok => exact log_follows h

end CopyPhase

/-- The outcome of an attempt that has come to an end. -/
def CopyJob.outcome (job : CopyJob) : AttemptEnd → Outcome (Except CopyError Nat)
  | .ok copied => .done (.ok copied)
  | .error failure => .done (.error (job.report failure))
  | .broken trouble _ => .broken trouble

/-- An attempt with a usable id starts at the first phase and ends at the last, with the outcome
that this one holds; left unfinished, it is still reading, after as many chunks as the bound
allows. -/
theorem copyOnce_follows {bound : Nat} {job : CopyJob} (hid : isAttemptId job.attemptId) :
    (copyOnce bound job).Follows (CopyPhase.Step job) .creating fun outcome phase =>
      match outcome with
      | .unfinished => ∃ output input moved, phase = .reading output input moved ∧
          moved.length = bound
      | outcome => ∃ decided, phase = .finished decided ∧ outcome = job.outcome decided := by
  unfold copyOnce
  rw [hid, Bool.not_true, if_neg Bool.false_ne_true]
  refine follows_bind.2 (CopyPhase.log_follows (follows_bind.2 (CopyPhase.log_follows ?_)))
  refine follows_bind.2 (follows_onBreakdown.2 (CopyPhase.stageAndPublish_follows ?_ ?_ ?_ ?_))
  · intro trouble left
    exact follows_bind.2 (CopyPhase.discardTemp_follows ⟨.broken trouble left, rfl, rfl⟩)
  · exact fun output input moved hmoved => ⟨output, input, moved, rfl, hmoved⟩
  · intro copied
    refine follows_bind.2 (CopyPhase.log_follows ?_)
    exact follows_bind.2 (CopyPhase.discardTemp_follows ⟨.ok copied, rfl, rfl⟩)
  · intro failure
    refine follows_bind.2 (CopyPhase.log_follows ?_)
    exact follows_bind.2 (CopyPhase.discardTemp_follows ⟨.error failure, rfl, rfl⟩)

/-- Without a usable attempt id the attempt is over at once. -/
theorem copyOnce_invalid {bound : Nat} {job : CopyJob} (hid : ¬ isAttemptId job.attemptId) :
    copyOnce bound job = .done (.error { (CopyFailure.attemptId job.attemptId).report with
      source := job.source.path, target := job.target }) := by
  unfold copyOnce
  rw [Bool.not_eq_true] at hid
  rw [hid, Bool.not_false, if_pos rfl]
  rfl

open CopyPhase in
/-- Every beginning of an attempt goes through its phases. -/
theorem copyOnce_trail {bound : Nat} {job : CopyJob} {exchanges : List Exchange}
    (h : Begins (copyOnce bound job) exchanges) :
    ∃ phase, Trail (Step job) .creating exchanges phase := by
  by_cases hid : isAttemptId job.attemptId
  · exact (copyOnce_follows hid).of_begins h
  · rw [copyOnce_invalid hid] at h
    cases h
    exact ⟨.creating, .stay _⟩

open CopyPhase in
/-- Every attempt with a usable id that is not left unfinished has gone to the last phase, and its
outcome is what this phase holds. -/
theorem copyOnce_ended {bound : Nat} {job : CopyJob} (hid : isAttemptId job.attemptId)
    {exchanges : List Exchange} {outcome : Outcome (Except CopyError Nat)}
    (h : Yields (copyOnce bound job) exchanges outcome) (hends : outcome ≠ .unfinished) :
    ∃ decided, Trail (Step job) .creating exchanges (.finished decided) ∧
      outcome = job.outcome decided := by
  obtain ⟨phase, htrail, hpost⟩ := (copyOnce_follows hid).of_yields h
  cases outcome with
  | unfinished => exact absurd rfl hends
  | done | broken =>
    obtain ⟨decided, rfl, hdecided⟩ := hpost
    exact ⟨decided, htrail, hdecided⟩

open CopyPhase in
/-- An attempt with a usable id and a result has not broken down. -/
theorem copyOnce_finished {bound : Nat} {job : CopyJob} (hid : isAttemptId job.attemptId)
    {exchanges : List Exchange} {result : Except CopyError Nat}
    (h : Run (copyOnce bound job) exchanges result) :
    ∃ decided, Trail (Step job) .creating exchanges (.finished decided) ∧
      .done result = job.outcome decided :=
  copyOnce_ended hid h.yields nofun

end StagedCopy
