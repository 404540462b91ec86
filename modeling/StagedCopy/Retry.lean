import StagedCopy.Log
import StagedCopy.Retry.Policy

/-!
# Retrying

An attempt is repeated until it succeeds, fails in a way that another attempt cannot cure, or has
used up the budget of the policy. Between attempts the driver waits as the policy says, and never
after the last.

* `retry` — the driver, over any monad: the result of the last attempt and the number of attempts.
-/

namespace StagedCopy

/-- What the retry driver uses: a place for log lines, the judgement whether an error may be cured
by another attempt, and a wait in milliseconds. -/
structure RetrySupport (m : Type → Type) (ε : Type) where
  log : Log.Line → m Unit
  isRetriable : ε → m Bool
  sleep : Int → m Unit

section driver

variable {m : Type → Type} [Monad m] {ε α : Type}

/-- The attempts from the next one on, when `left` more may follow it and `failed` have failed
before it. -/
def retryFrom (policy : RetryPolicy) (support : RetrySupport m ε) (attempt : m (Except ε α)) :
    Nat → Nat → m (Except ε α × Nat)
  | left, failed => do
    match ← attempt with
    | .ok a => pure (.ok a, failed + 1)
    | .error e =>
      if ← support.isRetriable e then
        match left with
        | 0 =>
          support.log ⟨.warn, utf8 "Giving up after " ++ decimal (failed + 1) ++ utf8 " attempt(s)"⟩
          pure (.error e, failed + 1)
        | left + 1 =>
          let delay := policy.delayFor (failed + 1)
          support.log ⟨.warn, utf8 "Attempt " ++ decimal (failed + 1) ++ utf8 "/"
            ++ decimal policy.attemptBudget ++ utf8 " failed, retrying in " ++ signedDecimal delay
            ++ utf8 "ms"⟩
          support.sleep delay
          retryFrom policy support attempt left (failed + 1)
      else
        support.log ⟨.debug, utf8 "Attempt " ++ decimal (failed + 1)
          ++ utf8 " failed with a non-retriable error"⟩
        pure (.error e, failed + 1)

/-- The result of the last attempt, and how many there were. -/
def retry (policy : RetryPolicy) (support : RetrySupport m ε) (attempt : m (Except ε α)) :
    m (Except ε α × Nat) :=
  retryFrom policy support attempt (policy.attemptBudget - 1) 0

end driver

end StagedCopy
