import StagedCopy.Event
import StagedCopy.Log

/-!
# Statistics of copies

The sums of everything that the counters of all tasks grew by, and the number of status texts.
Sums are kept modulo `2 ^ 64`.

* `Statistics.observe` — one more event.
* `Statistics.report` — the sums as log lines.
-/

namespace StagedCopy

/-- The sums of all counters, and the number of status events. -/
structure Statistics where
  filesCopied : Nat := 0
  filesSkipped : Nat := 0
  filesFailed : Nat := 0
  bytesCopied : Nat := 0
  bytesExpected : Nat := 0
  bytesFailed : Nat := 0
  bytesSkipped : Nat := 0
  sleepTime : Nat := 0
  statusUpdates : Nat := 0
  deriving DecidableEq, Repr

namespace Statistics

/-- The sum that belongs to a counter grows; a counter without a sum changes nothing. -/
def add (stats : Statistics) (value : Nat) : Counter → Statistics
  | .copy => { stats with filesCopied := wrap64 (stats.filesCopied + value) }
  | .skip => { stats with filesSkipped := wrap64 (stats.filesSkipped + value) }
  | .fail => { stats with filesFailed := wrap64 (stats.filesFailed + value) }
  | .bytesCopied => { stats with bytesCopied := wrap64 (stats.bytesCopied + value) }
  | .bytesExpected => { stats with bytesExpected := wrap64 (stats.bytesExpected + value) }
  | .bytesFailed => { stats with bytesFailed := wrap64 (stats.bytesFailed + value) }
  | .bytesSkipped => { stats with bytesSkipped := wrap64 (stats.bytesSkipped + value) }
  | .sleepTime => { stats with sleepTime := wrap64 (stats.sleepTime + value) }
  | .other _ => stats

/-- The sums after one more event. -/
def observe (stats : Statistics) : Event → Statistics
  | .status .. => { stats with statusUpdates := wrap64 (stats.statusUpdates + 1) }
  | .increment _ counter value => stats.add value counter

/-- The rule above and below a report. -/
def rule : Bytes := (List.replicate 39 (utf8 "═")).flatten

/-- The sums as log lines. -/
def report (stats : Statistics) : List Log.Line :=
  [rule,
    utf8 "Copy Statistics:",
    utf8 "  Files copied:    " ++ decimal stats.filesCopied,
    utf8 "  Files skipped:   " ++ decimal stats.filesSkipped,
    utf8 "  Files failed:    " ++ decimal stats.filesFailed,
    utf8 "  Bytes copied:    " ++ decimal stats.bytesCopied,
    utf8 "  Bytes expected:  " ++ decimal stats.bytesExpected,
    utf8 "  Bytes failed:    " ++ decimal stats.bytesFailed,
    utf8 "  Bytes skipped:   " ++ decimal stats.bytesSkipped,
    utf8 "  Throttle sleep:  " ++ decimal stats.sleepTime ++ utf8 "ms",
    rule].map fun text => ⟨.info, text⟩

end Statistics

end StagedCopy
