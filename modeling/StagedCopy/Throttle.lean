import StagedCopy.Binary64
import StagedCopy.Program

/-!
# The bandwidth ceiling

A throttle keeps the average rate of a stream under a ceiling. After each read it compares the
bytes delivered so far with the time since it was made and waits until their quotient is back at
the ceiling; a burst is smoothed over the whole stream. Times are nanoseconds, and the comparison
is made in double precision.

* `Throttle.wait` — how long to wait, given the time.
* `Throttle.read` — a read through the throttle, over any clock and any stream.
* `Throttle.text` — the summary of a stream.
-/

namespace StagedCopy

/-- A clock that can be read and waited on, in nanoseconds. -/
structure Clock (m : Type → Type) where
  now : m Nat
  sleep : Int → m Unit

/-- The clock of a program. -/
def Program.clock : Clock Program := ⟨Program.now, Program.sleep⟩

/-- A throttle: its ceiling in bytes per second, of which zero or less is none, the time it was
made, the bytes delivered, counted modulo `2 ^ 64`, and the nanoseconds waited. -/
structure Throttle where
  rate : Int
  start : Nat
  bytesRead : Nat := 0
  slept : Nat := 0
  deriving DecidableEq, Repr

namespace Throttle

/-- The nanoseconds that the bytes delivered so far take at the ceiling, in double precision. -/
def earliest (throttle : Throttle) : Rat :=
  Binary64.mul (Binary64.div (Binary64.ofNat throttle.bytesRead) (Binary64.ofInt throttle.rate))
    1000000000

/-- The nanoseconds to wait at a given time: none without a ceiling or when the stream is not
ahead of it. -/
def wait (throttle : Throttle) (now : Nat) : Int :=
  if throttle.rate ≤ 0 then 0
  else
    let elapsed := Binary64.ofNat (now - throttle.start)
    if throttle.earliest ≤ elapsed then 0
    else Binary64.toInt64 (Binary64.sub throttle.earliest elapsed)

/-- A read from a stream, and the wait that it earns when it delivered something. The time waited
is what the clock shows. -/
def read {m : Type → Type} [Monad m] {ε : Type} (clock : Clock m) (raw : m (Except ε Bytes))
    (throttle : Throttle) : m (Except ε Bytes × Throttle) := do
  match ← raw with
  | .error e => pure (.error e, throttle)
  | .ok [] => pure (.ok [], throttle)
  | .ok (b :: rest) =>
    let chunk := b :: rest
    let ahead := { throttle with bytesRead := wrap64 (throttle.bytesRead + chunk.length) }
    let before ← clock.now
    let pause := ahead.wait before
    if pause ≤ 0 then pure (.ok chunk, ahead)
    else
      clock.sleep pause
      let after ← clock.now
      pure (.ok chunk, { ahead with slept := ahead.slept + (after - before) })

/-- The time waited, in whole milliseconds. -/
def sleptMilliseconds (throttle : Throttle) : Nat := throttle.slept / 1000000

/-- The average rate since the throttle was made, as a double; as long as no time has passed, the
bytes delivered. -/
def bytesPerSecond (throttle : Throttle) (now : Nat) : Rat :=
  let elapsed := Binary64.div (Binary64.ofNat (now - throttle.start)) 1000000000
  if elapsed ≤ 0 then Binary64.ofNat throttle.bytesRead
  else Binary64.div (Binary64.ofNat throttle.bytesRead) elapsed

/-- The summary of a stream at a given time. -/
def text (throttle : Throttle) (now : Nat) : Bytes :=
  utf8 "ThrottledReader\x7bbytesRead=" ++ decimal throttle.bytesRead
    ++ utf8 ", maxBytesPerSec=" ++ signedDecimal throttle.rate
    ++ utf8 ", bytesPerSec="
    ++ decimal (Binary64.truncate (throttle.bytesPerSecond now)).toNat
    ++ utf8 ", totalSleepTime=" ++ decimal throttle.sleptMilliseconds ++ utf8 "ms\x7d"

end Throttle

end StagedCopy
