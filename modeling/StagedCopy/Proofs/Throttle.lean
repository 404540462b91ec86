import Mathlib.Algebra.Ring.Nat
import StagedCopy.VirtualClock

/-!
# The throttle is transparent

Time is virtual here: it passes while the raw stream is read, as long as each read takes, and while
the throttle waits. A read through the throttle gives what the raw stream gives; what the throttle
adds is a wait after it, and it keeps account of every byte delivered and every nanosecond waited.
Nothing is assumed of the raw stream: its reads may give anything, fail, and take any time.

* `RawRead`, `rawSteps` — a read of a raw stream, and a row of them without a throttle.
* `Throttle.pause`, `Throttle.read_timed` — the wait after a read, and a read with its wait.
* `Throttle.readAll`, `Throttle.readAll_keeps` — a row of reads, and what all of them together do.
* `Throttle.transparent` — the theorem.
-/

namespace StagedCopy

variable {ε σ : Type}

/-! ## Streams in virtual time -/

/-- What a read of a raw stream comes to: the answer, the nanoseconds that it took, and the stream
after it. -/
structure RawStep (ε σ : Type) where
  answer : Except ε Bytes
  delay : Nat
  stream : σ

/-- A read of a raw stream. -/
abbrev RawRead (ε σ : Type) : Type := σ → RawStep ε σ

/-- A row of reads of a raw stream. -/
def rawSteps : List (RawRead ε σ) → σ → List (RawStep ε σ)
  | [], _ => []
  | read :: more, s => read s :: rawSteps more (read s).stream

/-- The number of bytes that an answer brings. -/
def delivered : Except ε Bytes → Nat
  | .ok chunk => chunk.length
  | .error _ => 0

/-- The count of the bytes delivered after an answer. -/
def counted (total : Nat) : Except ε Bytes → Nat
  | .ok (b :: rest) => wrap64 (total + (b :: rest).length)
  | _ => total

theorem counted_wrap64 (n : Nat) (answer : Except ε Bytes) :
    counted (wrap64 n) answer = wrap64 (n + delivered answer) := by
  match answer with
  | .error _ => rfl
  | .ok [] => rfl
  | .ok (b :: rest) => exact wrap64_wrap64_add n (b :: rest).length

/-- A stream and the clock beside it. -/
structure TimedStream (σ : Type) where
  clock : VirtualClock
  stream : σ

/-- The clock beside a stream, as a throttle sees it. -/
def TimedStream.ticking : Clock (StateM (TimedStream σ)) where
  now := do return (← get).clock.now
  sleep ns := modify fun timed => { timed with clock := timed.clock.sleep ns }

/-- A read that takes its time. -/
def RawRead.timed (read : RawRead ε σ) : StateM (TimedStream σ) (Except ε Bytes) := fun timed =>
  ((read timed.stream).answer,
    ⟨timed.clock.advance (read timed.stream).delay, (read timed.stream).stream⟩)

/-- A wait adds itself to the waits that the clock remembers. -/
theorem VirtualClock.sum_sleep (clock : VirtualClock) (nanoseconds : Int) :
    (clock.sleep nanoseconds).sleeps.toList.sum
      = clock.sleeps.toList.sum + nanoseconds.toNat := by
  unfold sleep
  split
  · omega
  · simp

namespace Throttle

variable {throttle : Throttle} {answer : Except ε Bytes} {now : Nat}

/-! ## One read -/

/-- The throttle after a read with the given answer and a wait of some nanoseconds. -/
def after (throttle : Throttle) (answer : Except ε Bytes) (pause : Nat) : Throttle :=
  { throttle with
    bytesRead := counted throttle.bytesRead answer
    slept := throttle.slept + pause }

/-- The nanoseconds waited after a read, by its answer and the time at which it was over. -/
def pause (throttle : Throttle) (answer : Except ε Bytes) (now : Nat) : Nat :=
  match answer with
  | .ok (_ :: _) => ((throttle.after answer 0).wait now).toNat
  | _ => 0

/-- Without a ceiling there is no wait. -/
theorem wait_eq_zero (h : throttle.rate ≤ 0) (now : Nat) : throttle.wait now = 0 := if_pos h

/-- A wait is earned by a read that delivers something, and only under a ceiling. -/
theorem earned_of_pause (h : 0 < throttle.pause answer now) :
    (∃ b rest, answer = .ok (b :: rest)) ∧ 0 < throttle.rate := by
  unfold pause at h
  split at h
  · next b rest =>
    refine ⟨⟨b, rest, rfl⟩, Int.not_le.1 fun hrate => ?_⟩
    have hfree : (throttle.after (Except.ok (ε := ε) (b :: rest)) 0).rate ≤ 0 := hrate
    rw [wait_eq_zero hfree] at h
    exact absurd h (by decide)
  · exact absurd h (by decide)

/-- A read that fails or delivers nothing brings no bytes and earns no wait. -/
theorem idle_of_nothing (h : (∃ e, answer = .error e) ∨ answer = .ok []) :
    (∀ total, counted total answer = total) ∧ throttle.pause answer now = 0 := by
  rcases h with ⟨e, rfl⟩ | rfl <;> exact ⟨fun _ => rfl, rfl⟩

/-- A clock that does not wait for zero nanoseconds or less shows what it showed before. -/
theorem wait_timed (chunk : Bytes) (ahead : Throttle) (pause : Int) (timed : TimedStream σ) :
    (if pause ≤ 0 then pure (.ok chunk, ahead)
      else do
        TimedStream.ticking.sleep pause
        let after ← TimedStream.ticking.now
        pure (.ok chunk, { ahead with slept := ahead.slept + (after - timed.clock.now) }) :
      StateM (TimedStream σ) (Except ε Bytes × Throttle)) timed =
      ((.ok chunk, { ahead with slept := ahead.slept + pause.toNat }),
        { timed with clock := timed.clock.sleep pause.toNat }) := by
  split
  · next h =>
    have hnone : pause.toNat = 0 := by omega
    rw [hnone]
    rfl
  · next h =>
    have hpause : (pause.toNat : Int) = pause := by omega
    have hgrown : (timed.clock.sleep pause).now - timed.clock.now = pause.toNat := by
      rw [VirtualClock.now_sleep]
      omega
    rw [hpause, ← hgrown]
    rfl

/-- What the throttle makes of an answer: it passes it on and then waits, and both the clock and the
throttle count the wait. -/
theorem read_answered (throttle : Throttle) (answer : Except ε Bytes)
    (timed before : TimedStream σ) :
    throttle.read TimedStream.ticking (fun _ => (answer, timed)) before =
      ((answer, throttle.after answer (throttle.pause answer timed.clock.now)),
        { timed with clock := timed.clock.sleep (throttle.pause answer timed.clock.now) }) := by
  match answer with
  | .error e => rfl
  | .ok [] => rfl
  | .ok (b :: rest) =>
    let ahead := throttle.after (Except.ok (ε := ε) (b :: rest)) 0
    exact wait_timed (b :: rest) ahead (ahead.wait timed.clock.now) timed

/-- A read through the throttle gives the answer of the raw stream. -/
theorem read_timed (throttle : Throttle) (read : RawRead ε σ) (timed : TimedStream σ) :
    let raw := read timed.stream
    let pause := throttle.pause raw.answer (timed.clock.now + raw.delay)
    throttle.read TimedStream.ticking read.timed timed =
      ((raw.answer, throttle.after raw.answer pause),
        ⟨(timed.clock.advance raw.delay).sleep pause, raw.stream⟩) :=
  read_answered throttle (read timed.stream).answer (read.timed timed).2 timed

/-! ## A row of reads -/

/-- What a row of reads through the throttle comes to: the answers, and the throttle and the stream
after them. -/
structure Reading (ε σ : Type) where
  answers : List (Except ε Bytes)
  throttle : Throttle
  timed : TimedStream σ

/-- A row of reads through the throttle. -/
def readAll : List (RawRead ε σ) → Throttle → TimedStream σ → Reading ε σ
  | [], throttle, timed => ⟨[], throttle, timed⟩
  | read :: more, throttle, timed =>
    let ((answer, later), timed) := throttle.read TimedStream.ticking read.timed timed
    let rest := readAll more later timed
    { rest with answers := answer :: rest.answers }

/-- What a row of reads does to the accounts of a throttle: it passes on the answers of the raw
stream, counts the bytes in them modulo `2 ^ 64`, and all the time that passes is that of the raw
reads and of the waits. -/
structure Keeps (raw : List (RawStep ε σ)) (throttle : Throttle) (timed : TimedStream σ)
    (reading : Reading ε σ) : Prop where
  answers : reading.answers = raw.map (·.answer)
  rate : reading.throttle.rate = throttle.rate
  bytes : ∀ n, throttle.bytesRead = wrap64 n → reading.throttle.bytesRead
    = wrap64 (n + (raw.map fun step => delivered step.answer).sum)
  time : reading.timed.clock.now + throttle.slept
    = timed.clock.now + (raw.map (·.delay)).sum + reading.throttle.slept
  waits : reading.throttle.slept + timed.clock.sleeps.toList.sum
    = throttle.slept + reading.timed.clock.sleeps.toList.sum

/-- The accounts are kept over one more read in front. -/
theorem Keeps.after_read {raw : RawStep ε σ} {steps : List (RawStep ε σ)} {timed : TimedStream σ}
    {rest : Reading ε σ} {pause : Nat}
    (h : Keeps steps (throttle.after raw.answer pause)
      ⟨(timed.clock.advance raw.delay).sleep pause, raw.stream⟩ rest) :
    Keeps (raw :: steps) throttle timed { rest with answers := raw.answer :: rest.answers } := by
  have hnow := (timed.clock.advance raw.delay).now_sleep pause
  have hwaits := (timed.clock.advance raw.delay).sum_sleep pause
  simp only [VirtualClock.advance, Int.toNat_natCast] at hnow hwaits
  obtain ⟨hanswers, hrate, hbytes, htime, hall⟩ := h
  simp only [after, VirtualClock.advance] at hbytes htime hall
  refine ⟨?_, hrate, fun n hn => ?_, ?_, ?_⟩
  · simp [hanswers]
  · rw [hbytes (n + delivered raw.answer) (by rw [hn, counted_wrap64]), List.map_cons,
      List.sum_cons, Nat.add_assoc]
  · simp only [List.map_cons, List.sum_cons]
    omega
  · simp only
    omega

/-- Every row of reads keeps the accounts. -/
theorem readAll_keeps (reads : List (RawRead ε σ)) (throttle : Throttle) (timed : TimedStream σ) :
    Keeps (rawSteps reads timed.stream) throttle timed (readAll reads throttle timed) := by
  induction reads generalizing throttle timed with
  | nil => exact ⟨rfl, rfl, fun _ hn => hn, rfl, rfl⟩
  | cons read more ih =>
    unfold readAll rawSteps
    rw [read_timed]
    exact (ih _ _).after_read

/-- The throttle is transparent and accounts for all time. In every row of reads it gives the
answers of the raw stream in order; it counts the bytes delivered, in 64 bits; the clock shows the
start, the delays of the raw reads and the waits together; and the milliseconds it reports are those
of the waits. Whatever read comes next, the waits do not shrink, they grow only for a read that
delivers something under a ceiling, and a read that fails or delivers nothing changes no account. -/
theorem transparent (reads : List (RawRead ε σ)) (rate : Int) (start : Nat) (s : σ) :
    let raw := rawSteps reads s
    let reading := readAll reads { rate, start } ⟨{ now := start }, s⟩
    reading.answers = raw.map (·.answer) ∧
      reading.throttle.bytesRead = wrap64 (raw.map fun step => delivered step.answer).sum ∧
      reading.timed.clock.now = start + (raw.map (·.delay)).sum + reading.throttle.slept ∧
      reading.throttle.slept = reading.timed.clock.sleeps.toList.sum ∧
      reading.throttle.sleptMilliseconds = reading.throttle.slept / 1000000 ∧
      ∀ next : RawRead ε σ,
        let read := reading.throttle.read TimedStream.ticking next.timed reading.timed
        reading.throttle.slept ≤ read.1.2.slept ∧
          (reading.throttle.slept < read.1.2.slept →
            (∃ b rest, read.1.1 = .ok (b :: rest)) ∧ 0 < rate) ∧
          ((∃ e, read.1.1 = .error e) ∨ read.1.1 = .ok [] →
            read.1.2.bytesRead = reading.throttle.bytesRead ∧
              read.1.2.slept = reading.throttle.slept) := by
  intro raw reading
  have hkeeps : Keeps raw { rate, start } ⟨{ now := start }, s⟩ reading :=
    readAll_keeps reads { rate, start } ⟨{ now := start }, s⟩
  refine ⟨hkeeps.answers, ?_, ?_, ?_, rfl, fun next => ?_⟩
  · simpa using hkeeps.bytes 0 rfl
  · simpa using hkeeps.time
  · simpa using hkeeps.waits
  · rw [read_timed]
    generalize hpause : reading.throttle.pause _ _ = pause
    refine ⟨Nat.le_add_right _ _, fun hgrown => ?_, fun hnothing => ?_⟩
    · have hpos : 0 < pause := Nat.lt_add_right_iff_pos.1 hgrown
      obtain ⟨hchunk, hrate⟩ := earned_of_pause (hpause ▸ hpos)
      have hsame : reading.throttle.rate = rate := hkeeps.rate
      exact ⟨hchunk, hsame ▸ hrate⟩
    · obtain ⟨hbytes, hnone⟩ := idle_of_nothing hnothing
      rw [hpause] at hnone
      subst hnone
      exact ⟨hbytes _, rfl⟩

end Throttle

end StagedCopy
