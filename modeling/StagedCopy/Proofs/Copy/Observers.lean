import StagedCopy.Copy.Outcome
import StagedCopy.Proofs.Copy.History
import StagedCopy.Proofs.Copy.Requests
import StagedCopy.Proofs.Event.Task

/-!
# Observers do not sway a copy

A copy tells its task how it gets on after every chunk, and lets counters grow in the end. The task
may refuse at any time: then the copy logs this and goes on as if it had not been refused. All that
it keeps of a refusal is whether one was logged, and on that depends nothing but the log.

* `streamChunks_alike` — the loop, whatever was refused before; `streamSource_deaf`,
  `fillTemp_deaf`, `stage_deaf`, `copyOnce_deaf` — the parts of an attempt around it.
* `retryFrom_deaf`, `settle_deaf`, `copyWithRetries_deaf` — a copy with retries.
* `observers_cannot_sway_copy` — the theorem.
-/

namespace StagedCopy

open Program

variable {α β : Type}

/-! ## Small programs -/

/-- A quiet program asks nothing of the task, and nothing comes back from the log. -/
theorem Program.Quiet.deaf {p : Program α} (h : p.Quiet) : p.Deaf := by
  induction p with
  | done a => exact deaf_done a
  | unfinished => exact .unfinished
  | broken trouble => exact deaf_broken trouble
  | ask r next ih =>
    cases r with
    | setStatus | increment => cases h.1
    | log line => exact .tellFirst rfl fun _ => .tellSecond rfl fun _ => ih () (h.2 ())
    | _ => exact .ask rfl fun answer => ih answer (h.2 answer)

theorem deaf_call {side : Side} {c : StorageCall} : (Program.call side c).Deaf := deaf_request rfl

theorem deaf_fallible_call {side : Side} {c : StorageCall} {failure : Bytes → CopyFailure} :
    (Fallible.call side c failure).run.Deaf := by
  refine deaf_bind deaf_call fun answer => ?_
  cases answer with
  | ok value => exact deaf_done _
  | error message => exact deaf_done _

/-- Two programs that may fail, one after the other. -/
theorem deaf_fallible_bind {p : Fallible α} {f : α → Fallible β} (hp : p.run.Deaf)
    (hf : ∀ a, (f a).run.Deaf) : (p >>= f).run.Deaf := by
  refine deaf_bind hp fun outcome => ?_
  cases outcome with
  | ok a => exact hf a
  | error failure => exact deaf_done _

theorem reportProgress_tells {plan : StreamPlan} {copied : Nat} {refused : Bool} :
    (reportProgress plan copied refused).Tells := by
  refine tells_bind (tells_request rfl) fun answer => ?_
  cases answer with
  | ok => trivial
  | error message =>
    cases refused with
    | true => trivial
    | false => exact tells_bind (tells_request rfl) fun _ => trivial

/-! ## An attempt -/

section attempt

variable {bound : Nat} {plan : StreamPlan} {input output : StreamId} {throttle : Throttle}
  {copied : Nat} {job : CopyJob}

/-- The loop goes on alike, whether or not a status was refused before: induction on the bound, over
both flags, since after each chunk they may part again. -/
theorem streamChunks_alike {refused refused' : Bool} :
    Alike Eq (streamChunks plan input output bound throttle copied refused)
      (streamChunks plan input output bound throttle copied refused') := by
  induction bound generalizing throttle copied refused refused' with
  | zero => exact .unfinished
  | succ bound ih =>
    refine alike_bind throttledRead_quiet.deaf ?_
    rintro outcome _ rfl
    match outcome with
    | (.error message, throttle') => exact deaf_done _
    | (.ok [], throttle') => exact deaf_done _
    | (.ok (b :: rest), throttle') =>
      refine alike_bind deaf_call ?_
      rintro answer _ rfl
      cases answer with
      | error message => exact deaf_done _
      | ok =>
        have hprogress : Alike (fun _ _ => True)
            (reportProgress plan (wrap64 (copied + (b :: rest).length)) refused)
            (reportProgress plan (wrap64 (copied + (b :: rest).length)) refused') :=
          alike_of_tells reportProgress_tells reportProgress_tells
        exact alike_bind hprogress fun _ _ _ => ih

theorem streamSource_deaf : (streamSource bound plan output).Deaf := by
  refine deaf_bind deaf_call fun answer => ?_
  cases answer with
  | error message => exact deaf_done _
  | ok input =>
    refine deaf_bind (deaf_request rfl) fun start => ?_
    cases plan.bufferTrouble? with
    | some trouble => exact deaf_broken trouble
    | none =>
      refine deaf_bind streamChunks_alike fun streamed => ?_
      refine deaf_bind (deaf_of_tells incrementSafely_tells) fun _ => ?_
      refine deaf_bind (deaf_request rfl) fun finish => ?_
      exact deaf_bind quiet_log.deaf fun _ => deaf_done _

theorem fillTemp_deaf : (fillTemp bound job output).Deaf := by
  refine deaf_bind streamSource_deaf fun copied => ?_
  refine deaf_bind deaf_call fun closed => ?_
  match copied, closed with
  | .ok n, .ok () => exact deaf_done _
  | .ok n, .error message => exact deaf_bind quiet_log.deaf fun _ => deaf_done _
  | .error failure, .ok () => exact deaf_done _
  | .error failure, .error message => exact deaf_bind quiet_log.deaf fun _ => deaf_done _

theorem stage_deaf : (stage bound job).run.Deaf := by
  refine deaf_fallible_bind deaf_fallible_call fun created => ?_
  cases created with
  | ok output => exact fillTemp_deaf
  | error trouble => exact deaf_broken trouble

theorem copyOnce_deaf : (copyOnce bound job).Deaf := by
  unfold copyOnce
  cases isAttemptId job.attemptId with
  | false => exact deaf_done _
  | true =>
    refine deaf_bind quiet_log.deaf fun _ => ?_
    refine deaf_bind quiet_log.deaf fun _ => ?_
    refine deaf_bind ?_ fun result => conclude_discreet.quiet.deaf
    exact deaf_onBreakdown (deaf_fallible_bind stage_deaf fun copied => publish_discreet.quiet.deaf)
      discardTemp_discreet.quiet.deaf

end attempt

/-! ## A copy with retries -/

section retries

variable {policy : RetryPolicy} {attempt : Program (Except CopyError α)}

theorem retryFrom_deaf (h : attempt.Deaf) {left failed : Nat} :
    (retryFrom policy copyRetrySupport attempt left failed).Deaf := by
  induction left generalizing failed with
  | zero =>
    rw [retryFrom]
    refine deaf_bind h fun result => ?_
    cases result with
    | ok a => exact deaf_done _
    | error e =>
      show Program.Deaf (ite (e.isRetriable = true) _ _)
      split
      · exact deaf_bind quiet_log.deaf fun _ => deaf_done _
      · exact deaf_bind quiet_log.deaf fun _ => deaf_done _
  | succ left ih =>
    rw [retryFrom]
    refine deaf_bind h fun result => ?_
    cases result with
    | ok a => exact deaf_done _
    | error e =>
      show Program.Deaf (ite (e.isRetriable = true) _ _)
      split
      · refine deaf_bind quiet_log.deaf fun _ => ?_
        exact deaf_bind (deaf_request rfl) fun _ => ih
      · exact deaf_bind quiet_log.deaf fun _ => deaf_done _

theorem settle_deaf {job : CopyJob} {skipReadFailures : Bool} {attempts : Nat}
    {result : Except CopyError Nat} : (settle job skipReadFailures attempts result).Deaf := by
  have hbooked {counter : Counter} {value : Nat} : (incrementSafely counter value).Deaf :=
    deaf_of_tells incrementSafely_tells
  cases result with
  | ok bytes =>
    refine deaf_bind hbooked fun _ => deaf_bind hbooked fun _ => deaf_bind hbooked fun _ => ?_
    exact deaf_done _
  | error error =>
    show Program.Deaf (ite _ _ _)
    split
    · refine deaf_bind quiet_log.deaf fun _ => deaf_bind hbooked fun _ => ?_
      exact deaf_bind hbooked fun _ => deaf_done _
    · refine deaf_bind quiet_log.deaf fun _ => deaf_bind hbooked fun _ => ?_
      exact deaf_bind hbooked fun _ => deaf_done _

theorem copyWithRetries_deaf {bound : Nat} {job : CopyJob} {skipReadFailures : Bool} :
    (copyWithRetries bound job policy skipReadFailures).Deaf :=
  deaf_bind (retryFrom_deaf copyOnce_deaf) fun _ => settle_deaf

end retries

/-! ## The theorem -/

/-- Whatever the stores and the clock do, and whoever observes, an attempt at a copy and a copy with
retries come to the same outcome, have the same dealings with the stores and the clock, waits
included, and leave them in the same state. A task on a bus never refuses anything, and which
subscribers it has makes no difference, as long as they throw ordinary exceptions only. -/
theorem observers_cannot_sway_copy (bound : Nat) (job : CopyJob) (policy : RetryPolicy)
    (skipReadFailures : Bool) {σ τ τ' : Type} (world : World σ) (s : σ) :
    (∀ (observer : Observer τ) (observer' : Observer τ') (t : τ) (t' : τ'),
      Unswayed world observer observer' (copyOnce bound job) (copyOnce bound job) s t t' ∧
      Unswayed world observer observer' (copyWithRetries bound job policy skipReadFailures)
        (copyWithRetries bound job policy skipReadFailures) s t t') ∧
    ∀ {H : Type} (task : EventTask τ H),
      (∀ t, (∀ text, (task.observer.setStatus text t).1 = .ok ()) ∧
        ∀ counter value, (task.observer.increment counter value t).1 = .ok ()) ∧
      ∀ (observer : Observer τ') (t : τ) (t' : τ'),
        Unswayed world task.observer observer (copyOnce bound job) (copyOnce bound job) s t t' ∧
        Unswayed world task.observer observer (copyWithRetries bound job policy skipReadFailures)
          (copyWithRetries bound job policy skipReadFailures) s t t' := by
  have hall (observer : Observer τ) (observer' : Observer τ') (t : τ) (t' : τ') :
      Unswayed world observer observer' (copyOnce bound job) (copyOnce bound job) s t t' ∧
      Unswayed world observer observer' (copyWithRetries bound job policy skipReadFailures)
        (copyWithRetries bound job policy skipReadFailures) s t t' :=
    ⟨copyOnce_deaf.unswayed world observer observer' s t t',
      copyWithRetries_deaf.unswayed world observer observer' s t t'⟩
  exact ⟨hall, fun task => ⟨task.observer_ok, hall task.observer⟩⟩

/-- The stores and the clock that a handler stands for. -/
def World.ofHandler {σ : Type} (handler : Handler σ) : World σ where
  call side c := handler (.storage side c)
  now := handler .now
  sleep nanoseconds s := (handler (.sleep nanoseconds) s).2

/-- A task that refuses everything. -/
def refusing : Observer Unit where
  setStatus _ _ := (.error (utf8 "no"), ())
  increment _ _ _ := (.error (utf8 "no"), ())
  log _ _ := ()

/-- A hub that writes events to a log. -/
def logging : Hub := Hub.attachLog { eventName := fun _ => utf8 "event" }

theorem observers_cannot_sway_copy_small :
    (Program.run ((World.ofHandler (obliging 3)).observed refusing)
      (copyWithRetries 3 smallJob {} false) ([utf8 "abc"], ())).1.map Except.toOption
        = .done (some ⟨.copied, 3, 1⟩) ∧
    (Program.run ((World.ofHandler (obliging 3)).observed
        (Hub.task smallJob.attemptId (Hub.react 0) Hub.react_civil).observer)
      (copyWithRetries 3 smallJob {} false) ([utf8 "abc"], logging)).1.map Except.toOption
        = .done (some ⟨.copied, 3, 1⟩) := by
  have hrefused : (Program.run ((World.ofHandler (obliging 3)).observed refusing)
      (copyWithRetries 3 smallJob {} false) ([utf8 "abc"], ())).1.map Except.toOption
        = .done (some ⟨.copied, 3, 1⟩) := by
    decide +kernel
  obtain ⟨-, htasks⟩ := observers_cannot_sway_copy 3 smallJob {} false
    (World.ofHandler (obliging 3)) [utf8 "abc"]
  obtain ⟨-, hswayed⟩ := htasks (Hub.task smallJob.attemptId (Hub.react 0) Hub.react_civil)
  obtain ⟨-, hsame⟩ := hswayed refusing logging ()
  refine ⟨hrefused, ?_⟩
  rw [hsame.outcome]
  exact hrefused

end StagedCopy
