import Mathlib.Order.Lattice.Nat
import StagedCopy.Retry

/-!
# What the retry driver does

A script says in advance how every attempt would end and what the classifier would say of its error,
for as many attempts as anyone could make. Played against a script, the driver makes its attempts
up to the first that decides the run: a success, an error that the classifier rejects, or the one
that uses up the budget. It has every error judged, waits between two attempts, and never waits
after the last.

* `RetryScript`, `RetryScript.Decides` — scripts, and the attempts after which there is no other.
* `RetryTape` — what was attempted, judged and waited, in order.
* `run_decided`, `run_undecided` — one round of the driver.
* `run_rounds` — all rounds from the next one on; `retry_plays_script` — a whole run.
-/

namespace StagedCopy

/-! ## Scripts and tapes -/

/-- How every attempt would end, and whether its error would be called retriable. Attempts are
counted from one; what the classifier says may change from one judgement to the next. -/
structure RetryScript (ε α : Type) where
  result : Nat → Except ε α
  isRetriable : Nat → ε → Bool

/-- Something that the driver does besides logging. -/
inductive RetryMoment (ε α : Type) where
  | attempted (result : Except ε α)
  | judged (error : ε)
  | waited (milliseconds : Int)

/-- What the driver did, in order. -/
abbrev RetryTape (ε α : Type) : Type := List (RetryMoment ε α)

namespace RetryTape

variable {ε α : Type}

/-- The results of the attempts that were made. -/
def attempts (tape : RetryTape ε α) : List (Except ε α) :=
  tape.filterMap fun
    | .attempted result => some result
    | _ => none

/-- The errors that the classifier was shown. -/
def judgements (tape : RetryTape ε α) : List ε :=
  tape.filterMap fun
    | .judged error => some error
    | _ => none

/-- The waits, in milliseconds. -/
def waits (tape : RetryTape ε α) : List Int :=
  tape.filterMap fun
    | .waited milliseconds => some milliseconds
    | _ => none

section append

variable (before after : RetryTape ε α)

@[simp] theorem attempts_append : attempts (before ++ after) = before.attempts ++ after.attempts :=
  List.filterMap_append

@[simp] theorem judgements_append :
    judgements (before ++ after) = before.judgements ++ after.judgements :=
  List.filterMap_append

@[simp] theorem waits_append : waits (before ++ after) = before.waits ++ after.waits :=
  List.filterMap_append

end append

end RetryTape

namespace RetryScript

variable {ε α : Type} (script : RetryScript ε α) (policy : RetryPolicy)

/-- The next attempt of the script, written down. -/
def attempt : StateM (RetryTape ε α) (Except ε α) :=
  modifyGet fun tape : RetryTape ε α =>
    let result := script.result (tape.attempts.length + 1)
    (result, tape ++ [.attempted result])

/-- The classifier of the script and a sleeper, both written down; log lines are not. -/
def support : RetrySupport (StateM (RetryTape ε α)) ε where
  log _ := pure ()
  isRetriable error := modifyGet fun tape : RetryTape ε α =>
    (script.isRetriable (tape.judgements.length + 1) error, tape ++ [.judged error])
  sleep delay := modify (· ++ [.waited delay])

/-- No attempt follows the one with this number: it is a success, its error is rejected, or the
budget is used up. -/
def Decides (number : Nat) : Prop :=
  1 ≤ number ∧
    ((∃ a, script.result number = .ok a) ∨
      (∃ e, script.result number = .error e ∧ script.isRetriable number e = false) ∨
      number = policy.attemptBudget)

/-- The error of an attempt that fails. -/
def error? (number : Nat) : Option ε :=
  match script.result number with
  | .ok _ => none
  | .error e => some e

/-- An attempt and, when it fails, the judgement of its error. -/
def round (number : Nat) : RetryTape ε α :=
  .attempted (script.result number) :: (script.error? number).toList.map .judged

/-- Rounds with a wait after each: the given number of them after those already made. -/
def repeated (made count : Nat) : RetryTape ε α :=
  (List.range' (made + 1) count).flatMap fun number =>
    script.round number ++ [.waited (policy.delayFor number)]

/-! ## What rounds leave on a tape -/

theorem error?_of_ok {number : Nat} {a : α} (h : script.result number = .ok a) :
    script.error? number = none := by
  rw [error?, h]

theorem error?_of_error {number : Nat} {e : ε} (h : script.result number = .error e) :
    script.error? number = some e := by
  rw [error?, h]

@[simp] theorem attempts_round (number : Nat) :
    (script.round number).attempts = [script.result number] := by
  cases h : script.error? number <;> simp [round, RetryTape.attempts, h]

@[simp] theorem judgements_round (number : Nat) :
    (script.round number).judgements = (script.error? number).toList := by
  cases h : script.error? number <;> simp [round, RetryTape.judgements, h]

@[simp] theorem waits_round (number : Nat) : (script.round number).waits = [] := by
  cases h : script.error? number <;> simp [round, RetryTape.waits, h]

theorem repeated_succ (made count : Nat) :
    script.repeated policy made (count + 1)
      = script.round (made + 1) ++ [.waited (policy.delayFor (made + 1))]
        ++ script.repeated policy (made + 1) count := by
  rw [repeated, List.range'_succ, List.flatMap_cons]
  rfl

/-- Whatever is picked from the moments of rounds is picked round by round. -/
theorem filterMap_repeated {β : Type} (pick : RetryMoment ε α → Option β) (made count : Nat) :
    (script.repeated policy made count).filterMap pick
      = (List.range' (made + 1) count).flatMap fun number =>
        (script.round number).filterMap pick
          ++ [.waited (policy.delayFor number)].filterMap pick := by
  rw [repeated, List.filterMap_flatMap]
  simp only [List.filterMap_append]

theorem attempts_repeated (made count : Nat) :
    (script.repeated policy made count).attempts
      = (List.range' (made + 1) count).map script.result := by
  rw [RetryTape.attempts, filterMap_repeated, List.map_eq_flatMap]
  refine List.flatMap_congr fun number _ => ?_
  rw [← RetryTape.attempts, attempts_round]
  rfl

theorem judgements_repeated (made count : Nat) :
    (script.repeated policy made count).judgements
      = (List.range' (made + 1) count).filterMap script.error? := by
  rw [RetryTape.judgements, filterMap_repeated, List.filterMap_eq_flatMap_toList]
  refine List.flatMap_congr fun number _ => ?_
  rw [← RetryTape.judgements, judgements_round]
  exact List.append_nil _

theorem waits_repeated (made count : Nat) :
    (script.repeated policy made count).waits
      = (List.range' (made + 1) count).map policy.delayFor := by
  rw [RetryTape.waits, filterMap_repeated, List.map_eq_flatMap]
  refine List.flatMap_congr fun number _ => ?_
  rw [← RetryTape.waits, waits_round]
  rfl

/-! ## One round -/

theorem decides_attemptBudget : script.Decides policy policy.attemptBudget :=
  ⟨policy.attemptBudget_pos, .inr (.inr rfl)⟩

section rounds

variable {script policy} {tape : RetryTape ε α} {left failed : Nat}

theorem exists_error_of_not_decides (h : ¬ script.Decides policy (failed + 1)) :
    ∃ e, script.result (failed + 1) = .error e := by
  cases hresult : script.result (failed + 1) with
  | ok a => exact absurd ⟨Nat.succ_pos failed, .inl ⟨a, hresult⟩⟩ h
  | error e => exact ⟨e, rfl⟩

/-- So many attempts are on the tape, and each of them failed and was judged. -/
structure AllFailed (tape : RetryTape ε α) (failed : Nat) : Prop where
  attempts : (RetryTape.attempts tape).length = failed
  judgements : (RetryTape.judgements tape).length = failed

theorem allFailed_nil : AllFailed ([] : RetryTape ε α) 0 := ⟨rfl, rfl⟩

/-- A round that did not decide the run leaves one more failed attempt on the tape. -/
theorem AllFailed.again (h : AllFailed tape failed) {e : ε} {delay : Int}
    (herror : script.result (failed + 1) = .error e) :
    AllFailed (tape ++ (script.round (failed + 1) ++ [.waited delay])) (failed + 1) where
  attempts := by
    simp only [RetryTape.attempts_append, attempts_round, List.length_append, h.attempts]
    rfl
  judgements := by
    simp only [RetryTape.judgements_append, judgements_round, List.length_append, h.judgements,
      error?_of_error script herror]
    rfl

/-- In this monad one step after another hands the tape on. -/
theorem run_bind_eq {σ β γ : Type} (x : StateM σ β) (f : β → StateM σ γ) (s : σ) :
    (x >>= f).run s = (f (x.run s).1).run (x.run s).2 := rfl

theorem run_attempt (h : AllFailed tape failed) :
    script.attempt.run tape
      = (script.result (failed + 1), tape ++ [.attempted (script.result (failed + 1))]) := by
  rw [← h.attempts]
  rfl

/-- The error of an attempt that was just written down is judged next. -/
theorem run_isRetriable (h : AllFailed tape failed) (result : Except ε α) (e : ε) :
    (script.support.isRetriable e).run (tape ++ [.attempted result])
      = (script.isRetriable (failed + 1) e, tape ++ [.attempted result, .judged e]) := by
  have hjudged : (RetryTape.judgements (tape ++ [.attempted result])).length = failed := by
    rw [RetryTape.judgements_append, List.length_append, h.judgements]
    rfl
  rw [List.append_cons tape (.attempted result) [.judged e], ← hjudged]
  rfl

/-- The driver stops at an attempt that decides the run. -/
theorem run_decided (h : AllFailed tape failed)
    (hbudget : failed + 1 + left = policy.attemptBudget)
    (hdecides : script.Decides policy (failed + 1)) :
    (retryFrom policy script.support script.attempt left failed).run tape
      = ((script.result (failed + 1), failed + 1), tape ++ script.round (failed + 1)) := by
  rw [retryFrom, run_bind_eq, run_attempt h]
  cases hresult : script.result (failed + 1) with
  | ok a =>
    rw [round, error?_of_ok _ hresult, hresult]
    rfl
  | error e =>
    show StateT.run (script.support.isRetriable e >>= fun _ => _) _ = _
    rw [run_bind_eq, run_isRetriable h, round, error?_of_error _ hresult, hresult]
    cases hretriable : script.isRetriable (failed + 1) e with
    | false => rfl
    | true =>
      -- what is retriable decides nothing, so the budget does
      obtain rfl : left = 0 := by
        rcases hdecides.2 with ⟨a, ha⟩ | ⟨e', he', hrejected⟩ | hexhausted
        · rw [ha] at hresult
          cases hresult
        · rw [he'] at hresult
          cases hresult
          rw [hretriable] at hrejected
          cases hrejected
        · omega
      rfl

/-- After any other attempt the driver waits, and goes on with one attempt less. -/
theorem run_undecided (h : AllFailed tape failed)
    (hundecided : ¬ script.Decides policy (failed + 1)) :
    (retryFrom policy script.support script.attempt (left + 1) failed).run tape
      = (retryFrom policy script.support script.attempt left (failed + 1)).run
        (tape ++ (script.round (failed + 1) ++ [.waited (policy.delayFor (failed + 1))])) := by
  rw [retryFrom, run_bind_eq, run_attempt h]
  cases hresult : script.result (failed + 1) with
  | ok a => exact absurd ⟨Nat.succ_pos failed, .inl ⟨a, hresult⟩⟩ hundecided
  | error e =>
    show StateT.run (script.support.isRetriable e >>= fun _ => _) _ = _
    rw [run_bind_eq, run_isRetriable h, round, error?_of_error _ hresult, hresult]
    cases hretriable : script.isRetriable (failed + 1) e with
    | false =>
      exact absurd ⟨Nat.succ_pos failed, .inr (.inl ⟨e, hresult, hretriable⟩)⟩ hundecided
    | true =>
      rw [← List.append_assoc]
      rfl

/-! ## All rounds -/

/-- From the next attempt on, the driver goes through rounds with a wait after each, up to the first
attempt that decides the run. -/
theorem run_rounds {count : Nat} (h : AllFailed tape failed)
    (hbudget : failed + 1 + left = policy.attemptBudget)
    (hundecided : ∀ i < count, ¬ script.Decides policy (failed + i + 1))
    (hdecides : script.Decides policy (failed + count + 1)) :
    (retryFrom policy script.support script.attempt left failed).run tape
      = ((script.result (failed + count + 1), failed + count + 1),
        tape ++ (script.repeated policy failed count ++ script.round (failed + count + 1))) := by
  induction count generalizing failed left tape with
  | zero => exact run_decided h hbudget hdecides
  | succ count ih =>
    have hgoes : ¬ script.Decides policy (failed + 1) := hundecided 0 (Nat.succ_pos count)
    obtain ⟨e, herror⟩ := exists_error_of_not_decides hgoes
    obtain ⟨fewer, rfl⟩ : ∃ fewer, left = fewer + 1 := by
      refine Nat.exists_eq_succ_of_ne_zero fun hleft => hgoes ?_
      exact ⟨Nat.succ_pos failed, .inr (.inr (by omega))⟩
    have hnumber : failed + (count + 1) + 1 = failed + 1 + count + 1 := by omega
    rw [hnumber] at hdecides ⊢
    rw [run_undecided h hgoes, ih (h.again herror) (by omega) (fun i hi => ?_) hdecides,
      repeated_succ]
    · simp only [List.append_assoc]
    · have hother := hundecided (i + 1) (Nat.succ_lt_succ hi)
      rwa [show failed + (i + 1) + 1 = failed + 1 + i + 1 by omega] at hother

end rounds

/-- Some attempt decides the run: the one that uses up the budget, if no other. -/
theorem exists_isLeast_decides : ∃ last, IsLeast {number | script.Decides policy number} last :=
  ⟨_, Nat.sInf_mem ⟨_, script.decides_attemptBudget policy⟩, fun _ hother => Nat.sInf_le hother⟩

end RetryScript

/-- The driver makes the attempts of a script up to the first that succeeds, fails in a way that the
classifier rejects, or uses up the budget, and returns the result of this one. Every error is judged
once, in order, and between two attempts there is one wait, as long as the policy says after so many
failures; none follows the last. -/
theorem retry_plays_script {ε α : Type} (script : RetryScript ε α) (policy : RetryPolicy) :
    ∃ (last : Nat) (tape : RetryTape ε α),
      IsLeast {number | script.Decides policy number} last ∧
      (retry policy script.support script.attempt).run [] = ((script.result last, last), tape) ∧
      RetryTape.attempts tape = (List.range' 1 last).map script.result ∧
      RetryTape.judgements tape = (List.range' 1 last).filterMap script.error? ∧
      RetryTape.waits tape = (List.range' 1 (last - 1)).map policy.delayFor ∧
      tape = ((List.range' 1 (last - 1)).flatMap fun number =>
        script.round number ++ [.waited (policy.delayFor number)]) ++ script.round last := by
  obtain ⟨last, hdecides, hleast⟩ := script.exists_isLeast_decides policy
  obtain ⟨count, rfl⟩ : ∃ count, last = count + 1 :=
    Nat.exists_eq_succ_of_ne_zero (Nat.one_le_iff_ne_zero.1 hdecides.1)
  have hbudget : 0 + 1 + (policy.attemptBudget - 1) = policy.attemptBudget := by
    have hpos := policy.attemptBudget_pos
    omega
  have hundecided : ∀ i < count, ¬ script.Decides policy (0 + i + 1) := by
    intro i hi hother
    rw [Nat.zero_add] at hother
    have hle : count + 1 ≤ i + 1 := hleast hother
    omega
  have hlast : script.Decides policy (0 + count + 1) := by
    rw [Nat.zero_add]
    exact hdecides
  have hrun := RetryScript.run_rounds RetryScript.allFailed_nil hbudget hundecided hlast
  rw [Nat.zero_add, List.nil_append] at hrun
  -- the last round stands at the end of the numbers of all rounds
  have hnumbers : List.range' 1 (count + 1) = List.range' 1 count ++ [count + 1] := by
    rw [List.range'_1_concat, Nat.add_comm]
  refine ⟨count + 1, _, ⟨hdecides, hleast⟩, hrun, ?_, ?_, ?_, rfl⟩
  · rw [RetryTape.attempts_append, script.attempts_repeated, script.attempts_round, hnumbers,
      List.map_append]
    rfl
  · rw [RetryTape.judgements_append, script.judgements_repeated, script.judgements_round, hnumbers,
      List.filterMap_append, List.filterMap_cons]
    cases script.error? (count + 1) <;> rfl
  · rw [RetryTape.waits_append, script.waits_repeated, script.waits_round, List.append_nil]
    rfl

end StagedCopy
