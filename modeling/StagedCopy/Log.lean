import StagedCopy.Bytes

/-!
# Log lines

A log line is a level and a text. Programs only say what they log; whether a line is shown is
decided by the threshold of whoever reads the log.
-/

namespace StagedCopy

namespace Log

/-- How grave a line is; as a threshold, the mildest level that is shown. -/
inductive Level where
  | trace | debug | info | warn | error | critical | off
  deriving DecidableEq, Repr

namespace Level

/-- The position in the order of gravity. -/
def rank : Level → Nat
  | trace => 0
  | debug => 1
  | info => 2
  | warn => 3
  | error => 4
  | critical => 5
  | off => 6

/-- The name under which a level is written. -/
def name : Level → Bytes
  | trace => utf8 "trace"
  | debug => utf8 "debug"
  | info => utf8 "info"
  | warn => utf8 "warn"
  | error => utf8 "error"
  | critical => utf8 "critical"
  | off => utf8 "off"

/-- All levels, mildest first. -/
def all : List Level := [trace, debug, info, warn, error, critical, off]

/-- The level with a given name, in any letter case; `warning` is a second name of `warn`. -/
def ofName? (text : Bytes) : Option Level :=
  let wanted := lower text
  if wanted = utf8 "warning" then some warn else all.find? fun level => level.name = wanted

/-- A line of this level is shown under the given threshold. -/
def shownAt (level threshold : Level) : Bool := threshold.rank ≤ level.rank

end Level

/-- One line of a log. -/
structure Line where
  level : Level
  text : Bytes
  deriving DecidableEq, Repr

/-- The lines at or above a threshold, in order. -/
def shown (threshold : Level) (lines : List Line) : List Line :=
  lines.filter fun line => line.level.shownAt threshold

end Log

end StagedCopy
