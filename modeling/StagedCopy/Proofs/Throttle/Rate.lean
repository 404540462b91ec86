import StagedCopy.Proofs.Binary64
import StagedCopy.Proofs.Throttle

/-!
# The throttle keeps to its ceiling

The bytes delivered are due at the time that they take at the ceiling. After a read the throttle
waits until they are due, and not longer. Both are off by less than two nanoseconds, because the
time is a rounded quotient and the wait is cut to whole nanoseconds. The errors do not add up over a
row of reads: each wait is found from all bytes and all time so far.

* `Throttle.due`, `Throttle.InRange` — the time that the bytes delivered take at the ceiling, and
  the range in which it is known to a nanosecond.
* `Throttle.InRange.earliest_close` — the double that stands for it.
* `Throttle.InRange.wait_ends` — the end of a wait.
* `Throttle.rate_kept` — the theorem.
-/

namespace StagedCopy

open Binary64

namespace Throttle

variable {ε σ : Type}

/-- The nanoseconds that some bytes take at a rate per second. -/
def due (bytes : Nat) (rate : Int) : ℚ := bytes * 10 ^ 9 / rate

/-- Half of the smallest unit is far below a nanosecond. -/
theorem smallest_le : (2 : ℚ) ^ (-1075 : Int) ≤ 1 / 2 ^ 60 := by
  rw [one_div, ← zpow_natCast, ← zpow_neg]
  exact zpow_le_zpow_right₀ one_le_two (by norm_num)

/-- The ceiling and the bytes delivered are doubles, and the time that is due leaves digits to spare
for parts of a nanosecond. -/
structure InRange (throttle : Throttle) : Prop where
  rate_pos : 0 < throttle.rate
  rate_lt : throttle.rate < 2 ^ 53
  bytes_lt : throttle.bytesRead < 2 ^ 53
  due_lt : due throttle.bytesRead throttle.rate < 2 ^ 50

namespace InRange

variable {throttle : Throttle} (h : throttle.InRange)

include h

/-- Neither the bytes nor the rate are rounded. -/
theorem earliest_eq :
    throttle.earliest = nearest (nearest (throttle.bytesRead / throttle.rate) * 10 ^ 9) := by
  obtain ⟨rate, hnat⟩ := Int.eq_ofNat_of_zero_le h.rate_pos.le
  have hrate : rate ≤ 2 ^ 53 := by
    have := h.rate_lt
    omega
  rw [earliest, mul, div, hnat, ofInt_natCast, ofNat_eq_self h.bytes_lt.le, ofNat_eq_self hrate]
  norm_num

/-- The double for the time that is due is off by less than a nanosecond. -/
theorem earliest_close :
    |throttle.earliest - due throttle.bytesRead throttle.rate| ≤ 1 / 2 := by
  have hpos : (0 : ℚ) < throttle.rate := by exact_mod_cast h.rate_pos
  have hquotient : (0 : ℚ) ≤ throttle.bytesRead / throttle.rate := by positivity
  have hscaled : due throttle.bytesRead throttle.rate
      = throttle.bytesRead / throttle.rate * 10 ^ 9 := by
    unfold due
    ring
  have hfirst := abs_le.1 (nearest_error hquotient)
  have hsecond := abs_le.1 (nearest_error
    (mul_nonneg (nearest_nonneg hquotient) (by norm_num : (0 : ℚ) ≤ 10 ^ 9)))
  have hdue := h.due_lt
  have htiny := smallest_le
  rw [← h.earliest_eq] at hsecond
  rw [hscaled] at hdue ⊢
  rw [abs_le]
  constructor <;> linarith

/-- A wait ends when the bytes are due, two nanoseconds earlier or later. Without a wait they are
due already. -/
theorem wait_ends {now : Nat} (helapsed : now - throttle.start < 2 ^ 50) :
    let ends := now - throttle.start + (throttle.wait now).toNat
    due throttle.bytesRead throttle.rate - 2 ≤ ends ∧
      (0 < (throttle.wait now).toNat → ends ≤ due throttle.bytesRead throttle.rate + 2) := by
  have hclose := abs_le.1 h.earliest_close
  have hdue := h.due_lt
  have hexact : ofNat (now - throttle.start) = (now - throttle.start : Nat) :=
    ofNat_eq_self (by omega)
  have hwait : throttle.wait now = if throttle.earliest ≤ (now - throttle.start : Nat) then 0 else
      toInt64 (nearest (throttle.earliest - (now - throttle.start : Nat))) := by
    rw [wait, if_neg (not_le.2 h.rate_pos)]
    simp only [hexact, sub]
  generalize now - throttle.start = elapsed at *
  split at hwait
  · next hlate =>
    rw [hwait]
    exact ⟨by push_cast; linarith, fun hwaited => absurd hwaited (by decide)⟩
  · next hahead =>
    have hgap : 0 ≤ throttle.earliest - elapsed := by linarith
    have herror := abs_le.1 (nearest_error hgap)
    have htiny := smallest_le
    have hcast : (0 : ℚ) ≤ elapsed := elapsed.cast_nonneg
    have hpause : ((throttle.wait now).toNat : ℚ)
        = ⌊nearest (throttle.earliest - elapsed)⌋ := by
      rw [hwait, toInt64_eq_floor (nearest_nonneg hgap) (by linarith)]
      exact_mod_cast Int.toNat_of_nonneg (Int.floor_nonneg.2 (nearest_nonneg hgap))
    have hlow := Int.lt_floor_add_one (nearest (throttle.earliest - elapsed))
    have hhigh := Int.floor_le (nearest (throttle.earliest - elapsed))
    rw [← hpause] at hlow hhigh
    push_cast
    exact ⟨by linarith, fun _ => by linarith⟩

end InRange

/-! ## Rows of reads -/

/-- A read through the throttle gives the answer of the raw stream, whatever the wait. -/
theorem read_answer (throttle : Throttle) (next : RawRead ε σ) (timed : TimedStream σ) :
    (throttle.read TimedStream.ticking next.timed timed).1.1 = (next timed.stream).answer :=
  congrArg (·.1.1) (read_timed throttle next timed)

/-- A read that delivers something moves both the clock and the account of the waits by its wait. -/
theorem read_chunk (throttle : Throttle) (next : RawRead ε σ) (timed : TimedStream σ) {b : UInt8}
    {rest : Bytes} (h : (next timed.stream).answer = .ok (b :: rest)) :
    let now := timed.clock.now + (next timed.stream).delay
    let pause := ((throttle.after (Except.ok (ε := ε) (b :: rest)) 0).wait now).toNat
    let read := throttle.read TimedStream.ticking next.timed timed
    read.1.2.slept = throttle.slept + pause ∧ read.2.clock.now = now + pause := by
  intro now pause read
  have hpause : throttle.pause (next timed.stream).answer now = pause := by
    rw [h]
    rfl
  have hread := read_timed throttle next timed
  dsimp only at hread
  rw [hpause] at hread
  refine ⟨congrArg (·.1.2.slept) hread, ?_⟩
  have hclock : read.2.clock = (timed.clock.advance (next timed.stream).delay).sleep pause :=
    congrArg (·.2.clock) hread
  rw [hclock, VirtualClock.now_sleep, Int.toNat_natCast]
  rfl

/-- Reads do not change the time that the throttle was made. -/
theorem readAll_start (reads : List (RawRead ε σ)) (throttle : Throttle) (timed : TimedStream σ) :
    (readAll reads throttle timed).throttle.start = throttle.start := by
  induction reads generalizing throttle timed with
  | nil => rfl
  | cons read more ih =>
    unfold readAll
    rw [read_timed]
    exact ih _ _

/-- A throttle keeps the average rate of every row of reads at its ceiling. After each read that
delivers something, at least the time has passed in which all bytes so far are due, less two
nanoseconds; and when the throttle waited after it, not more than this time and two nanoseconds,
whatever the reads delivered and however long they took. -/
theorem rate_kept (reads : List (RawRead ε σ)) (next : RawRead ε σ) {rate : Int} (start : Nat)
    (s : σ) (hrate : 0 < rate) (hword : rate < 2 ^ 53) :
    let reading := readAll reads { rate, start } ⟨{ now := start }, s⟩
    let read := reading.throttle.read TimedStream.ticking next.timed reading.timed
    let bytes := ((rawSteps reads s).map fun step => delivered step.answer).sum
      + delivered read.1.1
    let elapsed := read.2.clock.now - start
    (∃ b rest, read.1.1 = .ok (b :: rest)) → bytes < 2 ^ 53 → due bytes rate < 2 ^ 50 →
      elapsed < 2 ^ 50 →
        start ≤ read.2.clock.now ∧ due bytes rate - 2 ≤ elapsed ∧
          (reading.throttle.slept < read.1.2.slept → elapsed ≤ due bytes rate + 2) := by
  intro reading read bytes elapsed hchunk hbytes hdue helapsed
  obtain ⟨b, rest, hanswer⟩ := hchunk
  have hkeeps : Keeps (rawSteps reads s) { rate, start } ⟨{ now := start }, s⟩ reading :=
    readAll_keeps reads { rate, start } ⟨{ now := start }, s⟩
  have hraw : (next reading.timed.stream).answer = .ok (b :: rest) := by
    rw [← hanswer]
    exact (read_answer reading.throttle next reading.timed).symm
  obtain ⟨hslept, hnow⟩ : read.1.2.slept = _ ∧ read.2.clock.now = _ :=
    read_chunk reading.throttle next reading.timed hraw
  -- the throttle when it finds its wait, and the time then
  generalize hahead : reading.throttle.after (Except.ok (b :: rest)) 0 = ahead at hslept hnow
  generalize htime : reading.timed.clock.now + _ = now at hslept hnow
  have hrateAhead : ahead.rate = rate := hahead ▸ hkeeps.rate
  have hstart : ahead.start = start := hahead ▸ readAll_start reads _ _
  have htotal : ahead.bytesRead = bytes := by
    rw [← hahead]
    simp only [bytes, hanswer] at hbytes ⊢
    rw [after, hkeeps.bytes 0 rfl, Nat.zero_add, counted_wrap64]
    exact wrap64_of_lt (by omega)
  have hlate : start ≤ now := by
    have hpassed := hkeeps.time
    dsimp only at hpassed
    omega
  have hends : now - ahead.start + (ahead.wait now).toNat = elapsed := by
    simp only [elapsed, hnow, hstart]
    omega
  have hrange : ahead.InRange :=
    ⟨by rwa [hrateAhead], by rwa [hrateAhead], by rwa [htotal], by rwa [htotal, hrateAhead]⟩
  have hpassed : now - ahead.start < 2 ^ 50 := by omega
  obtain ⟨hlow, hhigh⟩ := hrange.wait_ends hpassed
  rw [hends, htotal, hrateAhead] at hlow hhigh
  exact ⟨by omega, hlow, fun hgrown => hhigh (by omega)⟩

/-- Two reads of one byte each at three bytes a second: a wait follows the second, after which both
bytes are due, two thirds of a second after the start. -/
theorem rate_kept_thirds :
    let one : RawRead Unit Unit := fun _ => ⟨.ok [65], 5, ()⟩
    let reading := readAll [one] { rate := 3, start := 7 } ⟨{ now := 7 }, ()⟩
    let read := reading.throttle.read TimedStream.ticking one.timed reading.timed
    let bytes := ((rawSteps [one] ()).map fun step => delivered step.answer).sum
      + delivered read.1.1
    let elapsed := read.2.clock.now - 7
    ((0 : Int) < 3 ∧ (3 : Int) < 2 ^ 53 ∧ (∃ b rest, read.1.1 = .ok (b :: rest)) ∧
        bytes < 2 ^ 53 ∧ due bytes 3 < 2 ^ 50 ∧ elapsed < 2 ^ 50) ∧
      bytes = 2 ∧ reading.throttle.slept < read.1.2.slept ∧
      due bytes 3 - 2 ≤ elapsed ∧ elapsed ≤ due bytes 3 + 2 := by
  intro one reading read bytes elapsed
  have hanswer : read.1.1 = .ok [65] := by decide +kernel
  have htwo : bytes = 2 := by
    simp only [bytes, hanswer]
    rfl
  have hbytes : bytes < 2 ^ 53 := by omega
  have hdue : due bytes 3 < 2 ^ 50 := by
    rw [htwo]
    norm_num [due]
  have helapsed : elapsed < 2 ^ 50 := by decide +kernel
  have hslept : reading.throttle.slept < read.1.2.slept := by decide +kernel
  have hchunk : ∃ b rest, read.1.1 = .ok (b :: rest) := ⟨65, [], hanswer⟩
  have hrate : (0 : Int) < 3 := by decide
  obtain ⟨-, hlow, hhigh⟩ := rate_kept [one] one 7 () hrate (by decide) hchunk hbytes hdue helapsed
  exact ⟨⟨by decide, by decide, hchunk, hbytes, hdue, helapsed⟩, htwo, hslept, hlow, hhigh hslept⟩

end Throttle

end StagedCopy
