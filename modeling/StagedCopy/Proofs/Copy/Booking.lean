import StagedCopy.Proofs.Copy.Classification
import StagedCopy.Proofs.Copy.Requests
import StagedCopy.Proofs.Copy.Rounds
import StagedCopy.Proofs.Event.Statistics

/-!
# What a copy books

A copy with retries lets counters grow at two places only. An attempt that created its temporary
file and opened the source books once how long it waited, however it goes on. After the last
attempt the outcome is booked, as copied, as skipped or as failed, and nothing after that. So the
statistics that observe any number of copies hold every copy exactly once.

* `growthsOf`, `eventsOf` — the counters that grow in an execution, and what observers are told.
* `CopyJob.Marks`, `copyOnce_marksIn` — the openings and bookings of one attempt.
* `settledOutcome`, `outcomeGrowths`, `settle_books` — the outcome, and its booking.
* `CopyRun`, `CopyRun.MadeOf` — a finished copy with retries, and what it is made of.
* `Tallies` — what statistics hold of some copies.
-/

namespace StagedCopy

open Program (Exchange Handler Run)

/-! ## Growths -/

/-- The counter that grows in an exchange, and by how much, whatever the task answers. -/
def Program.Exchange.growth? : Exchange → Option (Counter × Nat)
  | ⟨.increment counter value, _⟩ => some (counter, value)
  | _ => none

/-- The counters that grow, in order. -/
def growthsOf (history : List Exchange) : List (Counter × Nat) :=
  history.filterMap Program.Exchange.growth?

/-- What an exchange tells the observers of a task. -/
def Program.Exchange.event? (attempt : Bytes) : Exchange → Option Event
  | ⟨.setStatus text, _⟩ => some (.status attempt text)
  | ⟨.increment counter value, _⟩ => some (.increment attempt counter value)
  | _ => none

/-- What the observers of a task are told, in order. -/
def eventsOf (attempt : Bytes) (history : List Exchange) : List Event :=
  history.filterMap (Program.Exchange.event? attempt)

@[simp] theorem growthsOf_nil : growthsOf [] = [] := rfl

@[simp] theorem growthsOf_append (s t : List Exchange) :
    growthsOf (s ++ t) = growthsOf s ++ growthsOf t :=
  List.filterMap_append

/-- The observers are told of every growth and of no other. -/
theorem growths_eventsOf (attempt : Bytes) (history : List Exchange) :
    (eventsOf attempt history).filterMap Event.growth? = growthsOf history := by
  have hsame : (fun x : Exchange => (x.event? attempt).bind Event.growth?)
      = Program.Exchange.growth? := by
    funext x
    obtain ⟨r, answer⟩ := x
    cases r <;> rfl
  rw [eventsOf, List.filterMap_filterMap, hsame, growthsOf]

/-! ## Marks -/

/-- The request opens a stream or lets a counter grow. -/
def Request.marks : Request → Bool
  | storage _ (.createFile ..) | storage _ (.openFile _) => true
  | increment .. => true
  | _ => false

/-- The exchanges that open a stream or let a counter grow. -/
def marksOf (history : List Exchange) : List Exchange := history.filter fun x => x.request.marks

/-- The program opens no stream and lets no counter grow. -/
def Program.Unmarked {α : Type} (p : Program α) : Prop := p.Asks fun r => r.marks = false

theorem mem_marksOf {history : List Exchange} {x : Exchange} :
    x ∈ marksOf history ↔ x ∈ history ∧ x.request.marks = true :=
  List.mem_filter

theorem marksOf_append (s t : List Exchange) : marksOf (s ++ t) = marksOf s ++ marksOf t :=
  List.filter_append ..

/-- Every growth is marked. -/
theorem growthsOf_marksOf (history : List Exchange) :
    growthsOf (marksOf history) = growthsOf history := by
  have hsame : (fun x : Exchange => if x.request.marks = true then x.growth? else none)
      = Program.Exchange.growth? := by
    funext x
    obtain ⟨r, answer⟩ := x
    cases r with
    | storage side call => cases call <;> rfl
    | _ => rfl
  rw [growthsOf, marksOf, List.filterMap_filter, hsame, growthsOf]

theorem Program.Plain.unmarked {α : Type} {p : Program α} (h : p.Plain) : p.Unmarked := by
  refine Program.Asks.mono h fun r hr => ?_
  cases r with
  | storage side call =>
    cases call with
    | createFile | openFile => cases hr
    | _ => rfl
  | increment => cases hr
  | _ => rfl

/-- The marks of every finished run are of a kind. -/
def Program.MarksIn {α : Type} (kind : List Exchange → Prop) (p : Program α) : Prop :=
  ∀ (exchanges : List Exchange) (a : α), Run p exchanges a → kind (marksOf exchanges)

section marksIn

variable {α β : Type} {kind : List Exchange → Prop} {p : Program α} {f : α → Program β}

theorem marksIn_done (h : kind []) (a : α) : (Program.done a).MarksIn kind := by
  intro exchanges b hrun
  cases hrun
  exact h

theorem marksOf_of_unmarked {exchanges : List Exchange} {a : α} (hp : p.Unmarked)
    (hrun : Run p exchanges a) : marksOf exchanges = [] := by
  refine List.filter_eq_nil_iff.2 fun x hx => ?_
  rw [hp.of_run hrun x hx]
  exact Bool.false_ne_true

theorem marksIn_of_unmarked (h : kind []) (hp : p.Unmarked) : p.MarksIn kind := by
  intro exchanges a hrun
  rw [marksOf_of_unmarked hp hrun]
  exact h

theorem marksIn_ask {r : Request} {next : r.Answer → Program α} (hr : r.marks = true)
    (h : ∀ answer, (next answer).MarksIn fun marks => kind (⟨r, answer⟩ :: marks)) :
    (Program.ask r next).MarksIn kind := by
  intro exchanges a hrun
  cases hrun with
  | @ask _ _ rest _ answer hrest =>
    have hkept : marksOf (⟨r, answer⟩ :: rest) = ⟨r, answer⟩ :: marksOf rest :=
      List.filter_cons_of_pos hr
    rw [hkept]
    exact h answer rest a hrest

/-- A program that breaks down has no finished run. -/
theorem marksIn_broken (trouble : Breakdown) : (Program.broken trouble : Program α).MarksIn kind :=
  nofun

theorem marksIn_onBreakdown {cleanup : Program Unit} (hp : p.MarksIn kind) :
    (p.onBreakdown cleanup).MarksIn kind :=
  fun exchanges a hrun => hp exchanges a (Program.run_onBreakdown_iff.1 hrun)

/-- What comes before has no marks. -/
theorem marksIn_bind_left (hp : p.Unmarked) (hf : ∀ a, (f a).MarksIn kind) :
    (p >>= f).MarksIn kind := by
  intro exchanges b hrun
  obtain ⟨first, rest, a, rfl, hfirst, hrest⟩ := Program.run_bind_iff.1 hrun
  rw [marksOf_append, marksOf_of_unmarked hp hfirst, List.nil_append]
  exact hf a rest b hrest

/-- What comes after has no marks. -/
theorem marksIn_bind_right (hp : p.MarksIn kind) (hf : ∀ a, (f a).Unmarked) :
    (p >>= f).MarksIn kind := by
  intro exchanges b hrun
  obtain ⟨first, rest, a, rfl, hfirst, hrest⟩ := Program.run_bind_iff.1 hrun
  rw [marksOf_append, marksOf_of_unmarked (hf a) hrest, List.append_nil]
  exact hp first a hfirst

end marksIn

/-! ## The marks of an attempt -/

/-- The marks of an attempt: the temporary file is created, the source is opened, and the time
spent waiting is booked, each when the one before it was a success. -/
inductive CopyJob.Marks (job : CopyJob) : List Exchange → Prop where
  /-- The attempt id cannot be used. -/
  | unstarted : job.Marks []
  | notCreated (message : Bytes) :
      job.Marks [⟨.storage .target (.createFile job.temp true job.options.bufferSize job.layout),
        .error message⟩]
  | notOpened (output : StreamId) (message : Bytes) :
      job.Marks [⟨.storage .target (.createFile job.temp true job.options.bufferSize job.layout),
          .ok (.ok output)⟩,
        ⟨.storage .source (.openFile job.source.path), .error message⟩]
  | streamed (output input : StreamId) (waited : Nat) (answer : Except Bytes Unit) :
      job.Marks [⟨.storage .target (.createFile job.temp true job.options.bufferSize job.layout),
          .ok (.ok output)⟩,
        ⟨.storage .source (.openFile job.source.path), .ok input⟩,
        ⟨.increment .sleepTime waited, answer⟩]

section attempt

variable {bound : Nat} {job : CopyJob} {exchanges : List Exchange}

theorem streamChunks_unmarked {plan : StreamPlan} {input output : StreamId} {throttle : Throttle}
    {copied : Nat} {refused : Bool} :
    (streamChunks plan input output bound throttle copied refused).Unmarked := by
  induction bound generalizing throttle copied refused with
  | zero => trivial
  | succ bound ih =>
    refine Program.asks_bind throttledRead_quiet.plain.unmarked fun outcome => ?_
    match outcome with
    | (.error message, throttle') => trivial
    | (.ok [], throttle') => trivial
    | (.ok (b :: rest), throttle') =>
      refine Program.asks_bind (Program.asks_request rfl) fun answer => ?_
      cases answer with
      | error message => trivial
      | ok => exact Program.asks_bind reportProgress_plain.unmarked fun _ => ih

/-- Staging creates the temporary file; its stream opens the source, and in the end it books the
time spent waiting. -/
theorem stage_marksIn : (stage bound job).run.MarksIn job.Marks := by
  refine marksIn_ask rfl fun answer => ?_
  match answer with
  | .error message => exact marksIn_done (.notCreated message) _
  | .ok (.error trouble) => exact marksIn_broken trouble
  | .ok (.ok output) =>
    refine marksIn_bind_right (p := streamSource bound job.plan output)
      (marksIn_ask rfl fun answer => ?_) fun copied => ?_
    · cases answer with
      | error message => exact marksIn_done (.notOpened output message) _
      | ok input =>
        refine marksIn_bind_left (p := Program.now) (plain_request rfl).unmarked fun start => ?_
        cases job.plan.bufferTrouble? with
        | some trouble => exact marksIn_broken trouble
        | none =>
          refine marksIn_bind_left streamChunks_unmarked fun streamed => ?_
          refine marksIn_bind_right (marksIn_ask rfl fun answer => ?_) fun _ => ?_
          · have hbooked := @CopyJob.Marks.streamed job output input
              streamed.2.sleptMilliseconds answer
            cases answer with
            | ok => exact marksIn_done hbooked _
            | error message => exact marksIn_of_unmarked hbooked plain_log.unmarked
          · refine Program.asks_bind (plain_request rfl).unmarked fun finish => ?_
            exact Program.asks_bind plain_log.unmarked fun _ => trivial
    · refine Program.asks_bind (Program.asks_request rfl) fun closed => ?_
      match copied, closed with
      | .ok n, .ok () => trivial
      | .ok n, .error message => exact Program.asks_bind plain_log.unmarked fun _ => trivial
      | .error failure, .ok () => trivial
      | .error failure, .error message =>
        exact Program.asks_bind plain_log.unmarked fun _ => trivial

/-- Every attempt has one of the four kinds of marks. -/
theorem copyOnce_marksIn : (copyOnce bound job).MarksIn job.Marks := by
  unfold copyOnce
  cases isAttemptId job.attemptId with
  | false => exact marksIn_done .unstarted _
  | true =>
    refine marksIn_bind_left plain_log.unmarked fun _ => ?_
    refine marksIn_bind_left plain_log.unmarked fun _ => ?_
    refine marksIn_bind_right (marksIn_onBreakdown ?_) fun _ =>
      conclude_discreet.quiet.plain.unmarked
    refine marksIn_bind_right stage_marksIn fun staged => ?_
    cases staged with
    | ok copied => exact publish_discreet.quiet.plain.unmarked
    | error failure => trivial

end attempt

/-- The temporary file was created and the source was opened. -/
def CopyJob.Streamed (job : CopyJob) (history : List Exchange) : Prop :=
  (∃ output : StreamId,
    ⟨.storage .target (.createFile job.temp true job.options.bufferSize job.layout),
      .ok (.ok output)⟩ ∈ history) ∧
  ∃ input : StreamId, ⟨.storage .source (.openFile job.source.path), .ok input⟩ ∈ history

/-- An attempt lets no counter grow but the one of the time spent waiting, which grows once when
both streams were opened, and otherwise not at all. -/
structure CopyJob.BooksWait (job : CopyJob) (history : List Exchange) : Prop where
  once : job.Streamed history → ∃ waited, growthsOf history = [(.sleepTime, waited)]
  never : ¬ job.Streamed history → growthsOf history = []

theorem CopyJob.Marks.booksWait {job : CopyJob} {history : List Exchange}
    (h : job.Marks (marksOf history)) : job.BooksWait history := by
  -- what was opened and what has grown can be seen in the marks
  have hmem : ∀ {x : Exchange}, x.request.marks = true → (x ∈ history ↔ x ∈ marksOf history) :=
    fun hx => ⟨fun hx' => mem_marksOf.2 ⟨hx', hx⟩, fun hx' => (mem_marksOf.1 hx').1⟩
  have hstreamed : job.Streamed history ↔ job.Streamed (marksOf history) :=
    and_congr (exists_congr fun _ => hmem rfl) (exists_congr fun _ => hmem rfl)
  suffices hmarks : job.BooksWait (marksOf history) by
    have hgrowths := growthsOf_marksOf history
    refine ⟨fun hboth => ?_, fun hnot => ?_⟩
    · rw [← hgrowths]
      exact hmarks.once (hstreamed.1 hboth)
    · rw [← hgrowths]
      exact hmarks.never fun hboth => hnot (hstreamed.2 hboth)
  generalize marksOf history = marks at h
  cases h with
  | unstarted =>
    refine ⟨?_, fun _ => rfl⟩
    rintro ⟨-, input, hinput⟩
    exact absurd hinput List.not_mem_nil
  | notCreated message =>
    refine ⟨?_, fun _ => rfl⟩
    rintro ⟨-, input, hinput⟩
    cases List.mem_singleton.1 hinput
  | notOpened output message =>
    refine ⟨?_, fun _ => rfl⟩
    rintro ⟨-, input, hinput⟩
    rcases List.mem_cons.1 hinput with heq | hmem
    · cases heq
    · cases List.mem_singleton.1 hmem
  | streamed output input waited answer =>
    refine ⟨fun _ => ⟨waited, rfl⟩, fun hnot => absurd ⟨⟨output, ?_⟩, input, ?_⟩ hnot⟩
    · exact List.mem_cons_self
    · exact List.mem_cons_of_mem _ List.mem_cons_self

/-! ## The outcome and its booking -/

/-- What becomes of a copy, by the result of its last attempt: a source that could not be read is
skipped when that is allowed. -/
def settledOutcome (skipReadFailures : Bool) (attempts : Nat) :
    Except CopyError Nat → Except CopyError CopyOutcome
  | .ok bytes => .ok ⟨.copied, bytes, attempts⟩
  | .error error =>
    if error.kind = .readFailure ∧ skipReadFailures = true then .ok ⟨.skipped, 0, attempts⟩
    else .error error

/-- The counters that grow for an outcome, when the source was last seen with a length. -/
def outcomeGrowths (length : Nat) : Except CopyError CopyOutcome → List (Counter × Nat)
  | .ok ⟨.copied, bytes, _⟩ => [(.copy, 1), (.bytesCopied, bytes), (.bytesExpected, length)]
  | .ok ⟨.skipped, _, _⟩ => [(.skip, 1), (.bytesSkipped, length)]
  | .error _ => [(.fail, 1), (.bytesFailed, length)]

/-- Every finished run of the program ends with the value, and these counters grow in it. -/
def Program.Books {α : Type} (growths : List (Counter × Nat)) (a : α) (p : Program α) : Prop :=
  ∀ (exchanges : List Exchange) (b : α), Run p exchanges b → b = a ∧ growthsOf exchanges = growths

section books

variable {α β : Type} {p : Program α} {f : α → Program β} {a : α} {b : β}
  {growths more : List (Counter × Nat)}

theorem books_done (a : α) : (Program.done a).Books [] a := by
  intro exchanges b hrun
  cases hrun
  exact ⟨rfl, rfl⟩

theorem books_bind (hp : p.Books growths a) (hf : (f a).Books more b) :
    (p >>= f).Books (growths ++ more) b := by
  intro exchanges c hrun
  obtain ⟨first, second, d, rfl, hfirst, hsecond⟩ := Program.run_bind_iff.1 hrun
  obtain ⟨rfl, rfl⟩ := hp first d hfirst
  obtain ⟨rfl, rfl⟩ := hf second c hsecond
  exact ⟨rfl, growthsOf_append first second⟩

theorem books_log {level : Log.Level} {text : Bytes} : (Program.log level text).Books [] () := by
  intro exchanges a hrun
  cases hrun with
  | ask answer hrest =>
    cases hrest
    exact ⟨rfl, rfl⟩

/-- A counter grows by request, and once, even when the task refuses. -/
theorem books_incrementSafely {counter : Counter} {value : Nat} :
    (Program.incrementSafely counter value).Books [(counter, value)] () := by
  intro exchanges a hrun
  cases hrun with
  | @ask _ _ rest _ answer hrest =>
    refine ⟨rfl, ?_⟩
    have hquiet : growthsOf rest = [] := by
      cases answer with
      | ok => exact (books_done () rest a hrest).2
      | error message => exact (books_log rest a hrest).2
    show (counter, value) :: growthsOf rest = _
    rw [hquiet]

end books

section settle

variable {job : CopyJob} {skipReadFailures : Bool} {attempts : Nat}

/-- The outcome is booked once. -/
theorem settle_books (result : Except CopyError Nat) :
    (settle job skipReadFailures attempts result).Books
      (outcomeGrowths job.source.length (settledOutcome skipReadFailures attempts result))
      (settledOutcome skipReadFailures attempts result) := by
  cases result with
  | ok bytes =>
    refine books_bind books_incrementSafely (books_bind books_incrementSafely ?_)
    exact books_bind books_incrementSafely (books_done _)
  | error error =>
    rw [settle, settledOutcome]
    by_cases hskip : error.kind = .readFailure ∧ skipReadFailures = true
    · have hskipped : (skipReadFailures && error.kind == .readFailure) = true := by
        rw [hskip.1, hskip.2]
        rfl
      rw [if_pos hskip, if_pos hskipped]
      refine books_bind books_log (books_bind books_incrementSafely ?_)
      exact books_bind books_incrementSafely (books_done _)
    · have hfailed : ¬ (skipReadFailures && error.kind == .readFailure) = true := by
        rw [Bool.and_eq_true, beq_iff_eq]
        exact fun hboth => hskip ⟨hboth.2, hboth.1⟩
      rw [if_neg hskip, if_neg hfailed]
      refine books_bind books_log (books_bind books_incrementSafely ?_)
      exact books_bind books_incrementSafely (books_done _)

theorem incrementSafely_asks {counter : Counter} {value : Nat} :
    (Program.incrementSafely counter value).Asks fun r => r.isCall = false := by
  refine Program.asks_bind (Program.asks_request rfl) fun answer => ?_
  cases answer with
  | ok => trivial
  | error message => exact Program.asks_request rfl

/-- To book an outcome no store is called. -/
theorem settle_asks (result : Except CopyError Nat) :
    (settle job skipReadFailures attempts result).Asks fun r => r.isCall = false := by
  cases result with
  | ok bytes =>
    refine Program.asks_bind incrementSafely_asks fun _ => ?_
    refine Program.asks_bind incrementSafely_asks fun _ => ?_
    exact Program.asks_bind incrementSafely_asks fun _ => trivial
  | error error =>
    rw [settle]
    split
    all_goals
      refine Program.asks_bind (Program.asks_request rfl) fun _ => ?_
      refine Program.asks_bind incrementSafely_asks fun _ => ?_
      exact Program.asks_bind incrementSafely_asks fun _ => trivial

/-- The booking comes to its end, whatever the task answers. -/
theorem ends_settle {σ : Type} {handler : Handler σ} {I : σ → Prop}
    (hquiet : ∀ r s, r.isCall = false → I s → I (handler r s).2)
    (result : Except CopyError Nat) :
    (settle job skipReadFailures attempts result).Ends handler I := by
  have hsaid {r : Request} (hr : r.isCall = false) : (Program.request r).Ends handler I :=
    Program.ends_request fun s => hquiet r s hr
  have hgrown {counter : Counter} {value : Nat} :
      (Program.incrementSafely counter value).Ends handler I := by
    refine Program.ends_bind (hsaid rfl) fun answer => ?_
    cases answer with
    | ok => exact Program.ends_done _
    | error message => exact hsaid rfl
  cases result with
  | ok bytes =>
    refine Program.ends_bind hgrown fun _ => Program.ends_bind hgrown fun _ => ?_
    exact Program.ends_bind hgrown fun _ => Program.ends_done _
  | error error =>
    rw [settle]
    split
    all_goals
      refine Program.ends_bind (hsaid rfl) fun _ => Program.ends_bind hgrown fun _ => ?_
      exact Program.ends_bind hgrown fun _ => Program.ends_done _

end settle

/-! ## A copy with retries -/

/-- What a copy with retries is told. -/
structure CopyTask where
  bound : Nat
  job : CopyJob
  policy : RetryPolicy := {}
  skipReadFailures : Bool := false

namespace CopyTask

/-- One attempt of the task. -/
def attempt (task : CopyTask) : Program (Except CopyError Nat) := copyOnce task.bound task.job

/-- The whole task. -/
def program (task : CopyTask) : Program (Except CopyError CopyOutcome) :=
  copyWithRetries task.bound task.job task.policy task.skipReadFailures

/-- With a handler under which every attempt comes to a result, so does the task, when what the
attempts need is kept by all that is no call. -/
theorem ends_program {σ : Type} {handler : Handler σ} {I : σ → Prop} {task : CopyTask}
    (hquiet : ∀ r s, r.isCall = false → I s → I (handler r s).2)
    (h : task.attempt.Ends handler I) : task.program.Ends handler I :=
  Program.ends_bind (ends_retryFrom hquiet h) fun _ => ends_settle hquiet _

/-- When the first attempt did not fail by reading it is the only one, and its result is booked. -/
theorem run_program_once {σ : Type} {handler : Handler σ} {I : σ → Prop} {task : CopyTask}
    {s s' : σ} {result : Except CopyError Nat}
    (hquiet : ∀ r s, r.isCall = false → I s → I (handler r s).2)
    (hrun : Program.run handler task.attempt s = (.done result, s'))
    (hread : ∀ error, result = .error error → error.kind ≠ .readFailure) (hs' : I s') :
    ∃ s'', Program.run handler task.program s
      = (.done (settledOutcome task.skipReadFailures 1 result), s'') ∧ I s'' := by
  have hretry : ∃ s₁, Program.run handler (retry task.policy copyRetrySupport task.attempt) s
      = (.done (result, 1), s₁) ∧ I s₁ := by
    unfold retry
    generalize task.policy.attemptBudget - 1 = left
    rw [retryFrom]
    show ∃ s₁, Program.run handler (task.attempt.bind _) s = _ ∧ I s₁
    rw [Program.run_bind, hrun]
    cases result with
    | ok n => exact ⟨s', rfl, hs'⟩
    | error error =>
      have hnot : ¬ error.isRetriable = true := mt isRetriable_iff.1 (hread error rfl)
      show ∃ s₁, Program.run handler (ite (error.isRetriable = true) _ _) s' = _ ∧ I s₁
      rw [if_neg hnot]
      exact ⟨_, rfl, hquiet _ s' rfl hs'⟩
  obtain ⟨s₁, hfirst, hs₁⟩ := hretry
  have hsettles : (settle task.job task.skipReadFailures 1 result).Ends handler I :=
    ends_settle hquiet result
  obtain ⟨outcome, s'', hsecond, hs''⟩ := hsettles s₁ hs₁
  obtain ⟨rfl, -⟩ := settle_books result _ outcome
    (Program.run_exchanges (congrArg Prod.fst hsecond))
  refine ⟨s'', ?_, hs''⟩
  show Program.run handler ((retry task.policy copyRetrySupport task.attempt).bind _) s = _
  rw [Program.run_bind, hfirst]
  exact hsecond

/-- A breakdown of the first attempt is that of the copy. -/
theorem run_program_broken {σ : Type} {handler : Handler σ} {task : CopyTask} {s s' : σ}
    {trouble : Breakdown} (hrun : Program.run handler task.attempt s = (.broken trouble, s')) :
    Program.run handler task.program s = (.broken trouble, s') := by
  have hretry : Program.run handler (retry task.policy copyRetrySupport task.attempt) s
      = (.broken trouble, s') := by
    unfold retry
    generalize task.policy.attemptBudget - 1 = left
    rw [retryFrom]
    show Program.run handler (task.attempt.bind _) s = _
    rw [Program.run_bind, hrun]
  show Program.run handler ((retry task.policy copyRetrySupport task.attempt).bind _) s = _
  rw [Program.run_bind, hretry]

end CopyTask

/-- A copy with retries that came to an outcome, with all that was exchanged in it. -/
structure CopyRun extends CopyTask where
  exchanges : List Exchange
  outcome : Except CopyError CopyOutcome
  finished : Run toCopyTask.program exchanges outcome

/-- Attempts that could not read the source and a last one, with what the driver says between and
after them. -/
def RetryPolicy.attempts (policy : RetryPolicy) (unread : List Round) (last : Round) :
    List Exchange :=
  policy.repeated 0 unread ++ (last.exchanges ++ farewell (unread.length + 1) last.result)

/-- The driver lets no counter grow. -/
theorem growthsOf_attempts (policy : RetryPolicy) (unread : List Round) (last : Round) :
    growthsOf (policy.attempts unread last)
      = (unread ++ [last]).flatMap fun round => growthsOf round.exchanges := by
  have hrepeated (made : Nat) : growthsOf (policy.repeated made unread)
      = unread.flatMap fun round => growthsOf round.exchanges := by
    induction unread generalizing made with
    | nil => rfl
    | cons round more ih =>
      simp only [RetryPolicy.repeated, growthsOf_append, ih, List.flatMap_cons]
      rfl
  have hfarewell (number : Nat) : growthsOf (farewell number last.result) = [] := by
    unfold farewell
    split
    · rfl
    · split
      · rfl
      · rfl
  simp [RetryPolicy.attempts, hrepeated, hfarewell]

/-- What a run is made of: the rounds of the retry driver, within the budget of the policy, and
then one booking of the outcome that the last of them decides. -/
structure CopyRun.MadeOf (run : CopyRun) (unread : List Round) (last : Round) : Prop where
  rounds : Rounds run.attempt run.policy.attemptBudget unread last
  waits : ∀ round ∈ unread ++ [last], run.job.BooksWait round.exchanges
  outcome : run.outcome
    = settledOutcome run.skipReadFailures (unread.length + 1) last.result
  booked : ∃ booking, run.exchanges = run.policy.attempts unread last ++ booking ∧
    (∀ x ∈ booking, x.request.isCall = false) ∧
    growthsOf booking = outcomeGrowths run.job.source.length run.outcome

namespace CopyRun

variable {run : CopyRun} {unread : List Round} {last : Round}

theorem madeOf_of_rounds {booking : List Exchange}
    (hrounds : Rounds run.attempt run.policy.attemptBudget unread last)
    (hbooking : Run (settle run.job run.skipReadFailures (unread.length + 1) last.result) booking
      run.outcome)
    (hexchanges : run.exchanges = run.policy.attempts unread last ++ booking) :
    run.MadeOf unread last := by
  obtain ⟨houtcome, hgrowths⟩ := settle_books last.result booking run.outcome hbooking
  refine ⟨hrounds, fun round hround => ?_, houtcome, booking, hexchanges, ?_, ?_⟩
  · have hfinished : Run run.attempt round.exchanges round.result := by
      rcases List.mem_append.1 hround with hmem | hmem
      · exact (hrounds.repeated round hmem).1
      · rw [List.mem_singleton.1 hmem]
        exact hrounds.ended
    exact CopyJob.Marks.booksWait (copyOnce_marksIn _ _ hfinished)
  · exact (settle_asks last.result).of_run hbooking
  · rw [hgrowths, houtcome]

/-- Every run is made of rounds and a booking. -/
theorem exists_madeOf (run : CopyRun) : ∃ unread last, run.MadeOf unread last := by
  obtain ⟨unread, last, booking, hrounds, hbooking, hexchanges⟩ :=
    run_copyWithRetries_iff.1 run.finished
  exact ⟨unread, last, madeOf_of_rounds hrounds hbooking hexchanges⟩

/-- Every sequence of rounds is the beginning of a run. -/
theorem exists_run (task : CopyTask)
    (h : Rounds task.attempt task.policy.attemptBudget unread last) :
    ∃ run : CopyRun, run.toCopyTask = task ∧ run.MadeOf unread last := by
  have hends : (settle task.job task.skipReadFailures (unread.length + 1) last.result).Ends
      (obliging 0) fun _ => True := ends_settle (fun _ _ _ _ => trivial) last.result
  obtain ⟨outcome, left, houtcome, -⟩ := hends [] trivial
  have hbooking := Program.run_exchanges (Prod.ext_iff.1 houtcome).1
  exact ⟨⟨task, _, outcome, run_copyWithRetries_iff.2 ⟨unread, last, _, h, hbooking, rfl⟩⟩, rfl,
    madeOf_of_rounds h hbooking rfl⟩

/-- All that a run adds to a counter, other than that of the waiting, is what is booked for its
outcome. -/
theorem MadeOf.grownBy {counter : Counter} (h : run.MadeOf unread last)
    (hcounter : counter ≠ .sleepTime) : grownBy counter (growthsOf run.exchanges)
      = grownBy counter (outcomeGrowths run.job.source.length run.outcome) := by
  obtain ⟨booking, hexchanges, -, hgrowths⟩ := h.booked
  have hround : ∀ round ∈ unread ++ [last],
      StagedCopy.grownBy counter (growthsOf round.exchanges) = 0 := by
    intro round hround
    by_cases hstreamed : run.job.Streamed round.exchanges
    · obtain ⟨waited, honce⟩ := (h.waits round hround).once hstreamed
      rw [honce, grownBy_cons, if_neg (Ne.symm hcounter), grownBy_nil]
    · rw [(h.waits round hround).never hstreamed, grownBy_nil]
  have hattempts :
      StagedCopy.grownBy counter (growthsOf (run.policy.attempts unread last)) = 0 := by
    rw [growthsOf_attempts, grownBy_flatMap, List.sum_eq_zero_iff_forall_eq_nat]
    intro n hn
    obtain ⟨round, hmem, rfl⟩ := List.mem_map.1 hn
    exact hround round hmem
  rw [hexchanges, growthsOf_append, grownBy_append, hattempts, hgrowths, Nat.zero_add]

/-! ## Many copies -/

/-- What the observers of a run are told. -/
def events (run : CopyRun) : List Event := eventsOf run.job.attemptId run.exchanges

/-- What was done, unless the copy failed. -/
def action? (run : CopyRun) : Option CopyAction :=
  match run.outcome with
  | .ok outcome => some outcome.action
  | .error _ => none

/-- The number of bytes that were copied. -/
def bytes (run : CopyRun) : Nat :=
  match run.outcome with
  | .ok outcome => outcome.bytes
  | .error _ => 0

/-- The length of the source as it was last seen. -/
def length (run : CopyRun) : Nat := run.job.source.length

/-- The runs in which something was done, or the failed ones. -/
def ending (runs : List CopyRun) (action : Option CopyAction) : List CopyRun :=
  runs.filter fun run => run.action? = action

theorem sum_ending (runs : List CopyRun) (action : Option CopyAction) (f : CopyRun → Nat) :
    ((ending runs action).map f).sum
      = (runs.map fun run => if run.action? = action then f run else 0).sum := by
  induction runs with
  | nil => rfl
  | cons run rest ih =>
    rw [ending] at ih ⊢
    rw [List.map_cons, List.sum_cons, ← ih, List.filter_cons]
    by_cases haction : run.action? = action
    · simp [haction]
    · simp [haction]

/-- Every run ends in one of three ways. -/
theorem sum_endings (runs : List CopyRun) (f : CopyRun → Nat) :
    ((ending runs (some .copied)).map f).sum + ((ending runs (some .skipped)).map f).sum
      + ((ending runs none).map f).sum = (runs.map f).sum := by
  induction runs with
  | nil => rfl
  | cons run rest ih =>
    simp only [sum_ending, List.map_cons, List.sum_cons] at ih ⊢
    rcases haction : run.action? with - | (- | -)
    all_goals
      simp
      omega

/-- What is booked for the outcome of a run, counter by counter. -/
theorem grownBy_outcome (run : CopyRun) (counter : Counter) :
    StagedCopy.grownBy counter (outcomeGrowths run.job.source.length run.outcome) =
      match counter with
      | .copy => if run.action? = some .copied then 1 else 0
      | .bytesCopied => if run.action? = some .copied then run.bytes else 0
      | .bytesExpected => if run.action? = some .copied then run.length else 0
      | .skip => if run.action? = some .skipped then 1 else 0
      | .bytesSkipped => if run.action? = some .skipped then run.length else 0
      | .fail => if run.action? = none then 1 else 0
      | .bytesFailed => if run.action? = none then run.length else 0
      | _ => 0 := by
  unfold action? bytes length
  rcases run.outcome with error | ⟨action, bytes, attempts⟩
  · cases counter <;> simp [outcomeGrowths]
  · cases action <;> cases counter <;> simp [outcomeGrowths]

/-- After all runs were observed, the sum that belongs to a counter is made by the runs that end in
the way in which it grows. -/
theorem total_observed {runs : List CopyRun} {events : List Event} {action : Option CopyAction}
    {f : CopyRun → Nat} (hobserved : events.Perm (runs.flatMap CopyRun.events)) (counter : Counter)
    (hnamed : counter ∈ Counter.all) (hcounter : counter ≠ .sleepTime)
    (hshare : ∀ run : CopyRun,
      StagedCopy.grownBy counter (outcomeGrowths run.job.source.length run.outcome)
        = if run.action? = action then f run else 0) :
    (events.foldl Statistics.observe {}).total counter
      = wrap64 ((ending runs action).map f).sum := by
  have hgrown (run : CopyRun) :
      StagedCopy.grownBy counter (run.events.filterMap Event.growth?)
        = if run.action? = action then f run else 0 := by
    obtain ⟨unread, last, hmade⟩ := run.exists_madeOf
    rw [CopyRun.events, growths_eventsOf, hmade.grownBy hcounter, hshare]
  rw [Statistics.total_observed hnamed, grownBy_perm (hobserved.filterMap _),
    List.filterMap_flatMap, grownBy_flatMap, sum_ending]
  simp only [hgrown]

end CopyRun

/-- Statistics that hold some copies exactly once each: how many ended in each way, and with how
many bytes, modulo `2 ^ 64`. -/
structure Tallies (runs : List CopyRun) (stats : Statistics) : Prop where
  filesCopied : stats.filesCopied = wrap64 (CopyRun.ending runs (some .copied)).length
  filesSkipped : stats.filesSkipped = wrap64 (CopyRun.ending runs (some .skipped)).length
  filesFailed : stats.filesFailed = wrap64 (CopyRun.ending runs none).length
  bytesCopied : stats.bytesCopied
    = wrap64 ((CopyRun.ending runs (some .copied)).map CopyRun.bytes).sum
  bytesExpected : stats.bytesExpected
    = wrap64 ((CopyRun.ending runs (some .copied)).map CopyRun.length).sum
  bytesSkipped : stats.bytesSkipped
    = wrap64 ((CopyRun.ending runs (some .skipped)).map CopyRun.length).sum
  bytesFailed : stats.bytesFailed = wrap64 ((CopyRun.ending runs none).map CopyRun.length).sum
  /-- Every file is counted once. -/
  files : wrap64 (stats.filesCopied + stats.filesSkipped + stats.filesFailed)
    = wrap64 runs.length
  /-- Every length is counted once. -/
  lengths : wrap64 (stats.bytesExpected + stats.bytesSkipped + stats.bytesFailed)
    = wrap64 (runs.map CopyRun.length).sum

theorem wrap64_sum_three (a b c : Nat) :
    wrap64 (wrap64 a + wrap64 b + wrap64 c) = wrap64 (a + b + c) := by
  unfold wrap64
  omega

/-- However the events of some runs are mixed, the statistics hold every run once. -/
theorem tallies_observed {runs : List CopyRun} {events : List Event}
    (hobserved : events.Perm (runs.flatMap CopyRun.events)) :
    Tallies runs (events.foldl Statistics.observe {}) := by
  have hcount (l : List CopyRun) : (l.map fun _ => 1).sum = l.length := by
    simp [List.map_const']
  have hcopied := CopyRun.total_observed hobserved .copy (by decide) (by decide) fun run =>
    run.grownBy_outcome .copy
  have hskipped := CopyRun.total_observed hobserved .skip (by decide) (by decide) fun run =>
    run.grownBy_outcome .skip
  have hfailed := CopyRun.total_observed hobserved .fail (by decide) (by decide) fun run =>
    run.grownBy_outcome .fail
  have hexpectedBytes := CopyRun.total_observed hobserved .bytesExpected (by decide) (by decide)
    fun run => run.grownBy_outcome .bytesExpected
  have hskippedBytes := CopyRun.total_observed hobserved .bytesSkipped (by decide) (by decide)
    fun run => run.grownBy_outcome .bytesSkipped
  have hfailedBytes := CopyRun.total_observed hobserved .bytesFailed (by decide) (by decide)
    fun run => run.grownBy_outcome .bytesFailed
  have hcopiedBytes := CopyRun.total_observed hobserved .bytesCopied (by decide) (by decide)
    fun run => run.grownBy_outcome .bytesCopied
  simp only [Statistics.total, hcount] at hcopied hskipped hfailed
  simp only [Statistics.total] at hexpectedBytes hskippedBytes hfailedBytes
  refine ⟨hcopied, hskipped, hfailed, hcopiedBytes, hexpectedBytes, hskippedBytes, hfailedBytes,
    ?_, ?_⟩
  · have hall := CopyRun.sum_endings runs fun _ => 1
    simp only [hcount] at hall
    rw [hcopied, hskipped, hfailed, wrap64_sum_three, hall]
  · rw [hexpectedBytes, hskippedBytes, hfailedBytes, wrap64_sum_three, CopyRun.sum_endings]

/-! ## The theorem -/

/-- A copy with retries comes to an outcome whenever its attempts come to results. Every sequence
of attempts in which all but the last could not read the source, and the last could or was the last
that the policy allows, is one of it, and there are no others.

In every such run an attempt lets the counter of the waiting grow once, if both streams were opened,
and no counter else; after the last attempt the outcome that its result decides is booked by one
group of counters, and nothing follows that. So the statistics that observe any number of copies,
with their events mixed in any way, hold every copy once. -/
theorem outcome_booked_once :
    (∀ (task : CopyTask) {σ : Type} (handler : Handler σ) (I : σ → Prop),
      (∀ r s, r.isCall = false → I s → I (handler r s).2) → task.attempt.Ends handler I →
        task.program.Ends handler I) ∧
    (∀ (task : CopyTask) (unread : List Round) (last : Round),
      Rounds task.attempt task.policy.attemptBudget unread last →
        ∃ run : CopyRun, run.toCopyTask = task ∧ run.MadeOf unread last) ∧
    (∀ run : CopyRun, ∃ unread last, run.MadeOf unread last) ∧
    ∀ (runs : List CopyRun) (events : List Event), events.Perm (runs.flatMap CopyRun.events) →
      Tallies runs (events.foldl Statistics.observe {}) := by
  refine ⟨?_, ?_, CopyRun.exists_madeOf, ?_⟩
  · intro task σ handler I hquiet hends
    exact CopyTask.ends_program hquiet hends
  · intro task unread last hrounds
    exact CopyRun.exists_run task hrounds
  · intro runs events hobserved
    exact tallies_observed hobserved

/-- The run of a task with a handler under which it comes to an outcome. -/
def CopyRun.ofHandler {σ : Type} (task : CopyTask) (handler : Handler σ) (s : σ)
    (h : (Program.run handler task.program s).1.value?.isSome = true) : CopyRun where
  toCopyTask := task
  exchanges := Program.exchanges handler task.program s
  outcome := (Program.run handler task.program s).1.value?.get h
  finished := Program.run_exchanges (Program.Outcome.eq_done_of_value? (Option.some_get h).symm)

/-- The small job with stores that refuse nothing: it is copied. -/
def copiedRun : CopyRun :=
  .ofHandler { bound := 3, job := smallJob } (obliging 3) [utf8 "ab", utf8 "c"]
    (by decide +kernel)

/-- The small job when the source cannot be read: it is skipped after three attempts. -/
def skippedRun : CopyRun :=
  .ofHandler { bound := 1, job := smallJob, skipReadFailures := true } failing ()
    (by decide +kernel)

/-- The statistics that observe both runs. -/
def smallStatistics : Statistics :=
  ([copiedRun, skippedRun].flatMap CopyRun.events).foldl Statistics.observe {}

theorem outcome_booked_once_small :
    (∃ outcome, Program.run failing skippedRun.program () = (.done outcome, ())) ∧
    smallStatistics.filesCopied = 1 ∧ smallStatistics.filesSkipped = 1 ∧
    smallStatistics.filesFailed = 0 ∧ smallStatistics.bytesCopied = 3 ∧
    smallStatistics.bytesExpected = 3 ∧ smallStatistics.bytesSkipped = 3 := by
  obtain ⟨hends, -, -, htallies⟩ := outcome_booked_once
  constructor
  · have hattempt : skippedRun.attempt.Ends failing fun _ => True := by
      intro s _
      cases s
      have hattempt : (Program.run failing (copyOnce 1 smallJob) ()).1.value?.isSome = true := by
        decide +kernel
      obtain ⟨result, hresult⟩ := Option.isSome_iff_exists.1 hattempt
      exact ⟨result, (), Prod.ext_iff.2 ⟨Program.Outcome.eq_done_of_value? hresult, rfl⟩, trivial⟩
    obtain ⟨outcome, _, hrun, -⟩ :=
      hends skippedRun.toCopyTask failing _ (fun _ _ _ _ => trivial) hattempt () trivial
    exact ⟨outcome, hrun⟩
  · have hboth := htallies [copiedRun, skippedRun] _ (List.Perm.refl _)
    refine ⟨hboth.filesCopied.trans ?_, hboth.filesSkipped.trans ?_, hboth.filesFailed.trans ?_,
      hboth.bytesCopied.trans ?_, hboth.bytesExpected.trans ?_, hboth.bytesSkipped.trans ?_⟩
    all_goals decide +kernel

end StagedCopy
