import StagedCopy.Bytes

/-!
# Counters

A copy task reports its progress to whoever runs it in named counters.
-/

namespace StagedCopy

/-- A counter of a copy task: files copied, skipped and failed, the bytes of each outcome, and the
milliseconds spent waiting for the bandwidth ceiling. A code that names no counter is kept as it
is. -/
inductive Counter where
  | copy | skip | fail | bytesCopied | bytesExpected | bytesFailed | bytesSkipped | sleepTime
  | other (code : Int)
  deriving DecidableEq, Repr

namespace Counter

/-- The name of a counter. -/
def name : Counter → Bytes
  | copy => utf8 "COPY"
  | skip => utf8 "SKIP"
  | fail => utf8 "FAIL"
  | bytesCopied => utf8 "BYTESCOPIED"
  | bytesExpected => utf8 "BYTESEXPECTED"
  | bytesFailed => utf8 "BYTESFAILED"
  | bytesSkipped => utf8 "BYTESSKIPPED"
  | sleepTime => utf8 "SLEEP_TIME_MS"
  | other _ => utf8 "UNKNOWN"

/-- The counters in the order of their codes. -/
def all : List Counter :=
  [copy, skip, fail, bytesCopied, bytesExpected, bytesFailed, bytesSkipped, sleepTime]

/-- The counter with a given code. -/
def ofCode (code : Int) : Counter :=
  if 0 ≤ code then (all[code.toNat]?).getD (other code) else other code

/-- The counter with a given name. -/
def ofName? (name : Bytes) : Option Counter := all.find? fun counter => counter.name = name

end Counter

end StagedCopy
