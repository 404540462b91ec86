import StagedCopy.Event.Bus
import StagedCopy.Event.Statistics

/-!
# A bus with its observers

A hub is a bus together with everything its subscribers leave behind: the statistics, the log, the
last status of each task, and what recording subscribers saw. Subscribers are data: one writes
log lines, one sums up, and a recording one notes the event and then runs a script, which may
subscribe, unsubscribe, publish further events or throw.

A script may publish the very event that started it, so scripts run only to a given depth of
nested deliveries; below that a recording subscriber records and does nothing else.

* `Action`, `Reaction` — scripts and subscribers.
* `Hub.act` — one action; `Hub.react` — one subscriber's turn.
* `Hub.perform` — one action from outside.
* `Hub.tellStatus`, `Hub.tellIncrement` — what a task tells its observers, and what it hears.
-/

namespace StagedCopy

/-! ## Scripts and subscribers -/

/-- Something to do with a hub. -/
inductive Action where
  /-- A recording subscriber with a tag and a script. -/
  | subscribe (channel : Channel) (tag : Bytes) (script : List Action)
  /-- The subscriber with this identifier leaves. -/
  | unsubscribe (channel : Channel) (id : Nat)
  /-- All subscribers leave. -/
  | clear
  /-- An event is published. -/
  | publish (event : Event)
  /-- A task has a new status text. -/
  | setStatus (attempt text : Bytes)
  /-- A counter of a task grows. -/
  | increment (attempt : Bytes) (counter : Counter) (value : Nat)
  /-- A counter of a task grows, and a refusal is only logged. -/
  | incrementSafely (attempt : Bytes) (counter : Counter) (value : Nat)
  /-- Statistics are kept from now on. -/
  | keepStatistics
  /-- The statistics, when they are kept. -/
  | readStatistics
  /-- The statistics go to the log, when they are kept. -/
  | reportStatistics
  /-- An exception. -/
  | raise (thrown : Thrown)
  deriving Inhabited

/-- What a subscriber does with an event: it writes a log line, it sums up, or it records the
event under a tag and runs a script. -/
inductive Reaction where
  | logLine
  | sumUp
  | record (tag : Bytes) (script : List Action)

/-- A hub: the names by which the log knows the events of each channel, the bus, the statistics when
they are kept, the last status of each task, the events that were recorded with their tags, and the
log, the last two with the newest at the end. -/
structure Hub where
  eventName : Channel → Bytes
  bus : Bus Reaction := {}
  statistics : Option Statistics := none
  lastStatus : List (Bytes × Bytes) := []
  seen : List (Bytes × Event) := []
  log : List Log.Line := []

namespace Hub

/-! ## Parts of a hub -/

/-- One more log line. -/
def addLine (line : Log.Line) (hub : Hub) : Hub := { hub with log := hub.log ++ [line] }

/-- A subscriber ended with an ordinary exception, which the log is told. -/
def complain (channel : Channel) (message : Bytes) (hub : Hub) : Hub :=
  hub.addLine (handlerComplaint (hub.eventName channel) message)

/-- The last status of a task; nothing before the first. -/
def statusOf (hub : Hub) (attempt : Bytes) : Bytes := (hub.lastStatus.lookup attempt).getD []

/-- One more subscriber, and its identifier. -/
def subscribe (hub : Hub) (channel : Channel) (reaction : Reaction) : Nat × Hub :=
  let (id, bus) := hub.bus.subscribe channel reaction
  (id, { hub with bus := bus })

/-- Both channels are written to the log. -/
def attachLog (hub : Hub) : Hub :=
  ((hub.subscribe .status .logLine).2.subscribe .counter .logLine).2

/-- Both channels are summed up, unless they are already. -/
def attachStatistics (hub : Hub) : Hub :=
  match hub.statistics with
  | some _ => hub
  | none =>
    let attached := ((hub.subscribe .counter .sumUp).2.subscribe .status .sumUp).2
    { attached with statistics := some {} }

/-- A new hub, with a log and statistics attached. -/
def observed (eventName : Channel → Bytes) : Hub :=
  attachStatistics (attachLog { eventName := eventName })

/-- The log line for an event. -/
def eventLine : Event → Log.Line
  | .status attempt text => ⟨.debug, utf8 "[Status] attempt=" ++ attempt ++ utf8 " " ++ text⟩
  | .increment attempt counter value =>
    ⟨.debug, utf8 "[Counter] attempt=" ++ attempt ++ utf8 " " ++ counter.name ++ utf8 "+="
      ++ decimal value⟩

/-! ## Actions -/

/-- What an action gives back. -/
inductive Reply where
  | nothing
  | subscribed (id : Nat)
  | task (attempt lastStatus : Bytes)
  | statistics (stats : Option Statistics)
  deriving DecidableEq, Repr

/-- A computation on a hub. -/
abbrev Step (α : Type) : Type := Reacting Hub α

section actions

variable (react : Reaction → Event → Step Unit)

/-- An event to the subscribers of the moment. -/
def publishWith (event : Event) : Step Unit := publish Hub.bus complain react event

/-- A task has a new status text, which it keeps before anyone is told. -/
def setStatus (attempt text : Bytes) : Step Unit := do
  modify fun hub => { hub with
    lastStatus := (attempt, text) :: hub.lastStatus.filter fun entry => entry.1 != attempt }
  publishWith react (.status attempt text)

/-- A counter of a task grows. -/
def increment (attempt : Bytes) (counter : Counter) (value : Nat) : Step Unit :=
  publishWith react (.increment attempt counter value)

/-- A counter of a task grows; an ordinary exception is only logged. -/
def incrementSafely (attempt : Bytes) (counter : Counter) (value : Nat) : Step Unit :=
  tryCatch (increment react attempt counter value) fun
    | .exception message =>
      modify (addLine ⟨.warn, utf8 "Could not increment counter " ++ counter.name ++ utf8 " by "
        ++ decimal value ++ utf8 ": " ++ message⟩)
    | .other => throw .other

/-- The answer about a task. -/
def taskReply (attempt : Bytes) : Step Reply := do
  let hub ← get
  pure (.task attempt (hub.statusOf attempt))

/-- One action. -/
def act : Action → Step Reply
  | .subscribe channel tag script => do
    let hub ← get
    let (id, subscribed) := hub.subscribe channel (.record tag script)
    set subscribed
    pure (.subscribed id)
  | .unsubscribe channel id => do
    modify fun hub => { hub with bus := hub.bus.unsubscribe channel id }
    pure .nothing
  | .clear => do
    modify fun hub => { hub with bus := hub.bus.clear }
    pure .nothing
  | .publish event => do
    publishWith react event
    pure .nothing
  | .setStatus attempt text => do
    setStatus react attempt text
    taskReply attempt
  | .increment attempt counter value => do
    increment react attempt counter value
    taskReply attempt
  | .incrementSafely attempt counter value => do
    incrementSafely react attempt counter value
    taskReply attempt
  | .keepStatistics => do
    modify attachStatistics
    pure .nothing
  | .readStatistics => do
    let hub ← get
    pure (.statistics hub.statistics)
  | .reportStatistics => do
    modify fun hub =>
      match hub.statistics with
      | some stats => { hub with log := hub.log ++ stats.report }
      | none => hub
    pure .nothing
  | .raise thrown => throw thrown

/-- The actions of a script, until one throws. -/
def runScript : List Action → Step Unit
  | [] => pure ()
  | action :: rest => do
    let _ ← act react action
    runScript rest

end actions

/-! ## Turns -/

/-- A subscriber's turn, when scripts may still run to the given depth. -/
def react : Nat → Reaction → Event → Step Unit
  | _, .logLine, event => modify (addLine (eventLine event))
  | _, .sumUp, event =>
    modify fun hub => { hub with statistics := hub.statistics.map (·.observe event) }
  | 0, .record tag _, event => modify fun hub => { hub with seen := hub.seen ++ [(tag, event)] }
  | depth + 1, .record tag script, event => do
    modify fun hub => { hub with seen := hub.seen ++ [(tag, event)] }
    runScript (react depth) script

/-- The depth to which scripts run when nothing else is said. -/
def scriptDepth : Nat := 3

/-- One action from outside, and the hub after it. -/
def perform (hub : Hub) (action : Action) : Except Thrown Reply × Hub :=
  (act (react scriptDepth) action).run hub

/-- What was recorded and logged is taken out. -/
def forget (hub : Hub) : Hub := { hub with seen := [], log := [] }

/-! ## Tasks -/

/-- What a task hears: whether it was refused, which is so when an exception got through to it, and
the log lines that were written. -/
structure Hearing where
  result : Except Bytes Unit
  lines : List Log.Line

/-- What a task hears of something done with the hub, and the hub after it. -/
def hear (hub : Hub) (step : Step Unit) : Hearing × Hub :=
  let (outcome, after) := step.run hub
  let result :=
    match outcome with
    | .ok () => .ok ()
    | .error (.exception message) => .error message
    | .error .other => .error (utf8 "unknown exception")
  (⟨result, after.log⟩, after.forget)

/-- A task publishes a status text. -/
def tellStatus (hub : Hub) (attempt text : Bytes) : Hearing × Hub :=
  hub.hear (setStatus (react scriptDepth) attempt text)

/-- A task publishes that a counter grows. -/
def tellIncrement (hub : Hub) (attempt : Bytes) (counter : Counter) (value : Nat) :
    Hearing × Hub :=
  hub.hear (increment (react scriptDepth) attempt counter value)

end Hub

end StagedCopy
