import StagedCopy.Throttle

/-!
# A clock that only waits move

For rehearsals time is virtual: the clock stands still except when a program waits, by exactly
the nanoseconds it asked for, or when a rehearsed delay passes. Every wait is remembered.

* `VirtualClock.advance` — a delay passes.
* `VirtualClock.sleep` — a wait, remembered; zero or less is no wait.
-/

namespace StagedCopy

/-- The nanoseconds since the start, and the waits so far. -/
structure VirtualClock where
  now : Nat := 0
  sleeps : Array Nat := #[]
  deriving DecidableEq, Repr

namespace VirtualClock

/-- A delay passes that is not a wait. -/
def advance (clock : VirtualClock) (nanoseconds : Nat) : VirtualClock :=
  { clock with now := clock.now + nanoseconds }

/-- A wait of some nanoseconds. -/
def sleep (clock : VirtualClock) (nanoseconds : Int) : VirtualClock :=
  if nanoseconds ≤ 0 then clock
  else { now := clock.now + nanoseconds.toNat, sleeps := clock.sleeps.push nanoseconds.toNat }

/-- The waits are taken off the record. -/
def forgetSleeps (clock : VirtualClock) : VirtualClock := { clock with sleeps := #[] }

theorem now_sleep (clock : VirtualClock) (nanoseconds : Int) :
    (clock.sleep nanoseconds).now = clock.now + nanoseconds.toNat := by
  unfold sleep
  split
  · simp; omega
  · rfl

end VirtualClock

end StagedCopy
