import StagedCopy.Copy.Outcome
import StagedCopy.Proofs.Copy.Phase
import StagedCopy.Proofs.Execution

/-!
# The rounds of a copy with retries

A copy with retries is made of rounds: one attempt after another that could not read the source,
each with a pause after it, then a last attempt, and then the booking of its result. The rounds are
over when an attempt ends in any other way, or when the budget of the policy is used up; and every
such sequence of attempts is one of the driver.

* `Round`, `Round.Unread` — a finished attempt, and those that are repeated.
* `RetryPolicy.pause`, `farewell` — what the driver says after an attempt.
* `Rounds` — the conditions on a sequence of attempts.
* `run_retryFrom_iff`, `run_copyWithRetries_iff` — the finished runs are the sequences of rounds.
* `ends_retryFrom` — when every attempt comes to a result, so does the driver.
-/

namespace StagedCopy

open Program (Exchange Handler Run)

/-! ## Rounds -/

/-- An attempt that came to a result, with all that was exchanged in it. -/
structure Round where
  exchanges : List Exchange
  result : Except CopyError Nat

/-- The source could not be read. -/
def Round.Unread (round : Round) : Prop :=
  ∃ error, round.result = .error error ∧ error.kind = .readFailure

theorem isRetriable_iff {error : CopyError} :
    error.isRetriable = true ↔ error.kind = .readFailure := by
  rw [CopyError.isRetriable, beq_iff_eq]

/-- After the attempt with the given number the driver says that it will try again, and waits. -/
def RetryPolicy.pause (policy : RetryPolicy) (number : Nat) : List Exchange :=
  [⟨.log ⟨.warn, utf8 "Attempt " ++ decimal number ++ utf8 "/" ++ decimal policy.attemptBudget
      ++ utf8 " failed, retrying in " ++ signedDecimal (policy.delayFor number) ++ utf8 "ms"⟩, ()⟩,
    ⟨.sleep (policy.delayFor number * 1000000), ()⟩]

/-- Attempts with a pause after each, when some were made before them. -/
def RetryPolicy.repeated (policy : RetryPolicy) : Nat → List Round → List Exchange
  | _, [] => []
  | made, round :: more =>
    round.exchanges ++ (policy.pause (made + 1) ++ policy.repeated (made + 1) more)

theorem pause_silent {policy : RetryPolicy} {number : Nat} :
    ∀ x ∈ policy.pause number, x.request.isCall = false := by
  simp [RetryPolicy.pause, Request.isCall]

/-- After the last attempt the driver says why it stops, unless the attempt was a success. -/
def farewell (number : Nat) : Except CopyError Nat → List Exchange
  | .ok _ => []
  | .error error =>
    if error.isRetriable then
      [⟨.log ⟨.warn, utf8 "Giving up after " ++ decimal number ++ utf8 " attempt(s)"⟩, ()⟩]
    else
      [⟨.log ⟨.debug, utf8 "Attempt " ++ decimal number
        ++ utf8 " failed with a non-retriable error"⟩, ()⟩]

theorem farewell_silent {number : Nat} {result : Except CopyError Nat} :
    ∀ x ∈ farewell number result, x.request.isCall = false := by
  unfold farewell
  split
  · simp
  · split
    · simp [Request.isCall]
    · simp [Request.isCall]

theorem farewell_of_retriable {number : Nat} {error : CopyError}
    (h : error.isRetriable = true) : farewell number (.error error) =
      [⟨.log ⟨.warn, utf8 "Giving up after " ++ decimal number ++ utf8 " attempt(s)"⟩, ()⟩] :=
  if_pos h

theorem farewell_of_not_retriable {number : Nat} {error : CopyError}
    (h : ¬ error.isRetriable = true) : farewell number (.error error) =
      [⟨.log ⟨.debug, utf8 "Attempt " ++ decimal number
        ++ utf8 " failed with a non-retriable error"⟩, ()⟩] :=
  if_neg h

/-- Attempts that could not read the source and a last one, within a budget; it is used up when the
last one could not read the source either. -/
structure Rounds (attempt : Program (Except CopyError Nat)) (budget : Nat) (unread : List Round)
    (last : Round) : Prop where
  repeated : ∀ round ∈ unread, Run attempt round.exchanges round.result ∧ round.Unread
  ended : Run attempt last.exchanges last.result
  within : unread.length + 1 ≤ budget
  exhausted : last.Unread → unread.length + 1 = budget

/-! ## The driver -/

section driver

variable {policy : RetryPolicy} {attempt : Program (Except CopyError Nat)}
  {exchanges : List Exchange} {result : Except CopyError Nat} {left made number : Nat}

theorem not_unread_ok {first : List Exchange} {n : Nat} : ¬ (Round.mk first (.ok n)).Unread := by
  rintro ⟨error, herror, -⟩
  cases herror

theorem unread_error_iff {first : List Exchange} {error : CopyError} :
    (Round.mk first (.error error)).Unread ↔ error.isRetriable = true := by
  rw [isRetriable_iff]
  constructor
  · rintro ⟨other, hother, hkind⟩
    cases hother
    exact hkind
  · exact fun hkind => ⟨error, rfl, hkind⟩

/-- The driver makes one attempt. It stops there unless the source could not be read and more
attempts are left; otherwise it pauses and goes on with one attempt less. -/
theorem run_retryFrom_step :
    Run (retryFrom policy copyRetrySupport attempt left made) exchanges (result, number) ↔
      ∃ round : Round, Run attempt round.exchanges round.result ∧
        (((round.Unread → left = 0) ∧ result = round.result ∧ number = made + 1 ∧
          exchanges = round.exchanges ++ farewell (made + 1) result) ∨
        (round.Unread ∧ ∃ fewer more, left = fewer + 1 ∧
          exchanges = round.exchanges ++ (policy.pause (made + 1) ++ more) ∧
          Run (retryFrom policy copyRetrySupport attempt fewer (made + 1)) more
            (result, number))) := by
  constructor
  · intro h
    rw [retryFrom] at h
    obtain ⟨first, second, answered, rfl, hfirst, hsecond⟩ := Program.run_bind_iff.1 h
    refine ⟨⟨first, answered⟩, hfirst, ?_⟩
    cases answered with
    | ok n =>
      cases hsecond
      exact .inl ⟨fun hunread => absurd hunread not_unread_ok, rfl, rfl, rfl⟩
    | error error =>
      have hjudged : Run (ite (error.isRetriable = true) _ _) second (result, number) := hsecond
      by_cases hretriable : error.isRetriable = true
      · rw [if_pos hretriable] at hjudged
        cases left with
        | zero =>
          cases hjudged with
          | ask answer hdone =>
            cases hdone
            refine .inl ⟨fun _ => rfl, rfl, rfl, ?_⟩
            rw [farewell_of_retriable hretriable]
            rfl
        | succ fewer =>
          cases hjudged with
          | ask answer hslept =>
            cases hslept with
            | ask answer hrest =>
              exact .inr ⟨unread_error_iff.2 hretriable, fewer, _, rfl, rfl, hrest⟩
      · rw [if_neg hretriable] at hjudged
        cases hjudged with
        | ask answer hdone =>
          cases hdone
          refine .inl ⟨fun hunread => absurd (unread_error_iff.1 hunread) hretriable, rfl, rfl, ?_⟩
          rw [farewell_of_not_retriable hretriable]
          rfl
  · rintro ⟨⟨first, answered⟩, hfirst, hrest⟩
    rw [retryFrom]
    rcases hrest with ⟨hleft, hresult, rfl, rfl⟩ | ⟨hunread, fewer, more, rfl, rfl, hmore⟩
    · refine Program.run_bind_iff.2 ⟨first, _, answered, rfl, hfirst, ?_⟩
      obtain rfl : result = answered := hresult
      cases result with
      | ok n => exact .done _
      | error error =>
        show Run (ite (error.isRetriable = true) _ _) _ _
        by_cases hretriable : error.isRetriable = true
        · obtain rfl : left = 0 := hleft (unread_error_iff.2 hretriable)
          rw [farewell_of_retriable hretriable, if_pos hretriable]
          exact .ask _ (.done _)
        · rw [farewell_of_not_retriable hretriable, if_neg hretriable]
          exact .ask _ (.done _)
    · refine Program.run_bind_iff.2 ⟨first, _, answered, rfl, hfirst, ?_⟩
      cases answered with
      | ok n => exact absurd hunread not_unread_ok
      | error error =>
        show Run (ite (error.isRetriable = true) _ _) _ _
        rw [if_pos (unread_error_iff.1 hunread)]
        exact .ask _ (.ask _ hmore)

/-- With a handler under which every attempt comes to a result, so does the driver, when what the
attempts need is kept by its log lines and pauses. -/
theorem ends_retryFrom {σ : Type} {handler : Handler σ} {I : σ → Prop}
    (hquiet : ∀ r s, r.isCall = false → I s → I (handler r s).2) (h : attempt.Ends handler I) :
    (retryFrom policy copyRetrySupport attempt left made).Ends handler I := by
  have hsaid {r : Request} (hr : r.isCall = false) : (Program.request r).Ends handler I :=
    Program.ends_request fun s => hquiet r s hr
  induction left using Nat.strongRecOn generalizing made with
  | ind left ih =>
    rw [retryFrom]
    refine Program.ends_bind h fun answered => ?_
    cases answered with
    | ok n => exact Program.ends_done _
    | error error =>
      show Program.Ends handler I (ite (error.isRetriable = true) _ _)
      split
      · cases left with
        | zero => exact Program.ends_bind (hsaid rfl) fun _ => Program.ends_done _
        | succ fewer =>
          refine Program.ends_bind (hsaid rfl) fun _ => Program.ends_bind (hsaid rfl) fun _ => ?_
          exact ih fewer (Nat.lt_succ_self fewer)
      · exact Program.ends_bind (hsaid rfl) fun _ => Program.ends_done _

/-- The first of several attempts is the first round, and the others are the rounds after it. -/
theorem rounds_cons_iff {budget : Nat} {round last : Round} {unread : List Round} :
    Rounds attempt (budget + 1) (round :: unread) last ↔
      (Run attempt round.exchanges round.result ∧ round.Unread) ∧
        Rounds attempt budget unread last := by
  constructor
  · intro h
    refine ⟨h.repeated round List.mem_cons_self, ?_, h.ended, ?_, fun hunread => ?_⟩
    · exact fun other hother => h.repeated other (List.mem_cons_of_mem round hother)
    · exact Nat.le_of_succ_le_succ h.within
    · exact Nat.succ.inj (h.exhausted hunread)
  · rintro ⟨hround, h⟩
    refine ⟨?_, h.ended, Nat.succ_le_succ h.within, fun hunread => ?_⟩
    · intro other hother
      rcases List.mem_cons.1 hother with rfl | hmem
      · exact hround
      · exact h.repeated other hmem
    · rw [List.length_cons, h.exhausted hunread]

/-- The finished runs of the driver are the sequences of rounds. -/
theorem run_retryFrom_iff :
    Run (retryFrom policy copyRetrySupport attempt left made) exchanges (result, number) ↔
      ∃ unread last, Rounds attempt (left + 1) unread last ∧ result = last.result ∧
        number = made + (unread.length + 1) ∧
        exchanges = policy.repeated made unread ++ (last.exchanges ++ farewell number result) := by
  induction left using Nat.strongRecOn generalizing made exchanges with
  | ind left ih =>
    rw [run_retryFrom_step]
    constructor
    · rintro ⟨round, hrun, ⟨hleft, rfl, rfl, rfl⟩ | ⟨hunread, fewer, more, rfl, rfl, hmore⟩⟩
      · refine ⟨[], round, ⟨?_, hrun, ?_, fun hunread => ?_⟩, rfl, rfl, rfl⟩
        · exact fun other hother => absurd hother List.not_mem_nil
        · exact Nat.succ_le_succ (Nat.zero_le left)
        · rw [hleft hunread]
          rfl
      · obtain ⟨unread, last, hrounds, rfl, rfl, rfl⟩ := (ih fewer (Nat.lt_succ_self fewer)).1 hmore
        refine ⟨round :: unread, last, rounds_cons_iff.2 ⟨⟨hrun, hunread⟩, hrounds⟩, rfl, ?_, ?_⟩
        · rw [List.length_cons]
          omega
        · simp only [RetryPolicy.repeated, List.append_assoc]
    · rintro ⟨unread, last, hrounds, rfl, rfl, rfl⟩
      cases unread with
      | nil =>
        refine ⟨last, hrounds.ended, .inl ⟨fun hunread => ?_, rfl, rfl, rfl⟩⟩
        have hbudget := hrounds.exhausted hunread
        simpa using hbudget.symm
      | cons round unread =>
        obtain ⟨fewer, rfl⟩ : ∃ fewer, left = fewer + 1 := by
          have hwithin := hrounds.within
          rw [List.length_cons] at hwithin
          exact ⟨left - 1, by omega⟩
        obtain ⟨⟨hrun, hunread⟩, hrest⟩ := rounds_cons_iff.1 hrounds
        have hnumber : made + ((round :: unread).length + 1)
            = made + 1 + (unread.length + 1) := by
          rw [List.length_cons]
          omega
        have hmore := (ih fewer (Nat.lt_succ_self fewer)).2
          ⟨unread, last, hrest, rfl, hnumber, rfl⟩
        refine ⟨round, hrun, .inr ⟨hunread, fewer, _, rfl, ?_, hmore⟩⟩
        simp only [RetryPolicy.repeated, List.append_assoc]

end driver

/-- The finished runs of a copy with retries are the sequences of rounds within the budget of the
policy, each with the booking of the last result. -/
theorem run_copyWithRetries_iff {bound : Nat} {job : CopyJob} {policy : RetryPolicy}
    {skipReadFailures : Bool} {exchanges : List Exchange} {outcome : Except CopyError CopyOutcome} :
    Run (copyWithRetries bound job policy skipReadFailures) exchanges outcome ↔
      ∃ unread last booking, Rounds (copyOnce bound job) policy.attemptBudget unread last ∧
        Run (settle job skipReadFailures (unread.length + 1) last.result) booking outcome ∧
        exchanges = policy.repeated 0 unread ++ (last.exchanges
          ++ farewell (unread.length + 1) last.result) ++ booking := by
  unfold copyWithRetries retry
  have hbudget : policy.attemptBudget - 1 + 1 = policy.attemptBudget :=
    Nat.sub_add_cancel policy.attemptBudget_pos
  constructor
  · intro h
    obtain ⟨first, booking, ⟨result, number⟩, rfl, hfirst, hbooking⟩ := Program.run_bind_iff.1 h
    obtain ⟨unread, last, hrounds, rfl, rfl, rfl⟩ := run_retryFrom_iff.1 hfirst
    rw [hbudget] at hrounds
    rw [Nat.zero_add] at hbooking ⊢
    exact ⟨unread, last, booking, hrounds, hbooking, rfl⟩
  · rintro ⟨unread, last, booking, hrounds, hbooking, rfl⟩
    refine Program.run_bind_iff.2 ⟨_, booking, (last.result, unread.length + 1), rfl, ?_, hbooking⟩
    refine run_retryFrom_iff.2 ⟨unread, last, ?_, rfl, (Nat.zero_add _).symm, rfl⟩
    rw [hbudget]
    exact hrounds

end StagedCopy
