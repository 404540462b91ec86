import StagedCopy.Counter

/-!
# Events

What a copy task tells its observers: a new status text, or that a counter grew. Each kind of
event has a channel of its own.
-/

namespace StagedCopy

/-- A kind of event. -/
inductive Channel where
  | status | counter
  deriving DecidableEq, Repr

/-- An event of the task with the given attempt id. -/
inductive Event where
  | status (attempt text : Bytes)
  | increment (attempt : Bytes) (counter : Counter) (value : Nat)
  deriving DecidableEq, Repr

/-- The channel on which an event is published. -/
def Event.channel : Event → Channel
  | status .. => .status
  | increment .. => .counter

end StagedCopy
