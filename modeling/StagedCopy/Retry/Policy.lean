import StagedCopy.Binary64.Power

/-!
# Retry policies

A policy says how often an attempt may be made and how long to wait after each failure. The wait
grows by a constant factor from failure to failure and is capped. The factor is a double, so the
wait is computed in double precision and cut to whole milliseconds.

* `RetryPolicy.attemptBudget` — how many attempts there are at most.
* `RetryPolicy.delayFor` — the wait after a number of failures, in milliseconds.
-/

namespace StagedCopy

/-- An attempt budget and an exponential backoff, with times in milliseconds. -/
structure RetryPolicy where
  maxAttempts : Nat := 3
  initialDelay : Int := 100
  multiplier : Rat := 2
  maxDelay : Int := 10000

namespace RetryPolicy

/-- The number of attempts that are made at most: at least one, whatever the policy says. -/
def attemptBudget (policy : RetryPolicy) : Nat := max policy.maxAttempts 1

theorem attemptBudget_pos (policy : RetryPolicy) : 1 ≤ policy.attemptBudget :=
  Nat.le_max_right policy.maxAttempts 1

/-- The budget is what the policy says when that is an attempt at all. -/
theorem attemptBudget_eq_iff {policy : RetryPolicy} :
    policy.attemptBudget = policy.maxAttempts ↔ 1 ≤ policy.maxAttempts := by
  rw [attemptBudget]
  omega

/-- The factor by which the wait after `failed` failures exceeds the first: a multiplier below one
counts as one. -/
def backoff (policy : RetryPolicy) (failed : Nat) : Rat :=
  Binary64.power (if policy.multiplier < 1 then 1 else policy.multiplier) (failed - 1)

/-- The wait after a number of failed attempts, in milliseconds: none before the first failure or
without an initial delay, and never above the cap as a double. -/
def delayFor (policy : RetryPolicy) (failed : Nat) : Int :=
  if failed = 0 ∨ policy.initialDelay ≤ 0 then 0
  else
    let scaled := Binary64.mul (Binary64.ofInt policy.initialDelay) (policy.backoff failed)
    let cap := Binary64.ofInt policy.maxDelay
    Binary64.toInt64 (if cap < scaled then cap else scaled)

end RetryPolicy

end StagedCopy
