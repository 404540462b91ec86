import StagedCopy.Event
import StagedCopy.Log

/-!
# The event bus

A bus keeps, for each channel, the subscribers in the order in which they subscribed. Identifiers
are given out once and never again, over both channels and also after the bus was cleared, so an
identifier removes at most the subscriber it was given to.

To publish is to call the subscribers of the moment, one after another. A subscriber may do
anything to the state, the bus included, and may end with an exception: an ordinary one is
complained of and the next subscriber is called, any other one ends the delivery and goes on to
whoever published.

* `Bus` with `subscribe`, `unsubscribe`, `clear`, `subscribers` — the table.
* `Thrown`, `Reacting` — computations that change a state and may end with an exception.
* `deliver` — one event to a list of subscribers.
* `publish` — one event to the subscribers of the moment.
-/

namespace StagedCopy

/-! ## The table of subscribers -/

/-- A subscriber: its identifier and what it does with an event. -/
structure Subscription (H : Type) where
  id : Nat
  reaction : H
  deriving Repr

/-- The subscribers of both channels, and the next identifier. -/
structure Bus (H : Type) where
  status : List (Subscription H) := []
  counter : List (Subscription H) := []
  nextId : Nat := 0
  deriving Repr

namespace Bus

variable {H : Type}

/-- The subscribers of a channel, in the order in which they subscribed. -/
def subscribers (bus : Bus H) : Channel → List (Subscription H)
  | .status => bus.status
  | .counter => bus.counter

/-- The bus with other subscribers on a channel. -/
def withSubscribers (bus : Bus H) (channel : Channel) (list : List (Subscription H)) : Bus H :=
  match channel with
  | .status => { bus with status := list }
  | .counter => { bus with counter := list }

/-- One more subscriber, and its identifier. -/
def subscribe (bus : Bus H) (channel : Channel) (reaction : H) : Nat × Bus H :=
  let list := bus.subscribers channel ++ [⟨bus.nextId, reaction⟩]
  (bus.nextId, { bus.withSubscribers channel list with nextId := bus.nextId + 1 })

/-- The subscriber with the given identifier leaves the channel, if it is there. -/
def unsubscribe (bus : Bus H) (channel : Channel) (id : Nat) : Bus H :=
  bus.withSubscribers channel ((bus.subscribers channel).filter fun s => s.id != id)

/-- All subscribers leave; identifiers go on from where they were. -/
def clear (bus : Bus H) : Bus H := { bus with status := [], counter := [] }

/-- The number of subscribers of a channel. -/
def count (bus : Bus H) (channel : Channel) : Nat := (bus.subscribers channel).length

/-! ### The table after each operation -/

@[simp] theorem subscribers_withSubscribers (bus : Bus H) (channel other : Channel)
    (list : List (Subscription H)) :
    (bus.withSubscribers channel list).subscribers other =
      if other = channel then list else bus.subscribers other := by
  cases channel <;> cases other <;> rfl

@[simp] theorem nextId_withSubscribers (bus : Bus H) (channel : Channel)
    (list : List (Subscription H)) : (bus.withSubscribers channel list).nextId = bus.nextId := by
  cases channel <;> rfl

theorem subscribers_subscribe (bus : Bus H) (channel other : Channel) (reaction : H) :
    (bus.subscribe channel reaction).2.subscribers other =
      if other = channel then bus.subscribers channel ++ [⟨bus.nextId, reaction⟩]
      else bus.subscribers other := by
  cases channel <;> cases other <;> rfl

theorem subscribers_unsubscribe (bus : Bus H) (channel other : Channel) (id : Nat) :
    (bus.unsubscribe channel id).subscribers other =
      if other = channel then (bus.subscribers channel).filter fun s => s.id != id
      else bus.subscribers other := by
  cases channel <;> cases other <;> rfl

@[simp] theorem subscribers_clear (bus : Bus H) (channel : Channel) :
    bus.clear.subscribers channel = [] := by
  cases channel <;> rfl

end Bus

/-! ## Delivery -/

/-- What a subscriber may throw: an ordinary exception with its text, or something else. -/
inductive Thrown where
  | exception (message : Bytes)
  | other
  deriving DecidableEq, Repr

/-- A computation that changes a state and may end with an exception; the changes made until then
stay. -/
abbrev Reacting (σ α : Type) : Type := ExceptT Thrown (StateM σ) α

section delivery

variable {σ H : Type}

/-- The complaint about a subscriber of the events with the given name that ended with an
exception. -/
def handlerComplaint (eventName message : Bytes) : Log.Line :=
  ⟨.error, utf8 "Event handler for " ++ eventName ++ utf8 " threw: " ++ message⟩

/-- A subscriber's turn: an ordinary exception is complained of and goes no further. -/
def contain (complain : Channel → Bytes → σ → σ) (channel : Channel) (turn : Reacting σ Unit) :
    Reacting σ Unit :=
  tryCatch turn fun
    | .exception message => modify (complain channel message)
    | .other => throw .other

/-- One event to a list of subscribers, one after another. -/
def deliver (complain : Channel → Bytes → σ → σ) (react : H → Event → Reacting σ Unit)
    (event : Event) : List (Subscription H) → Reacting σ Unit
  | [] => pure ()
  | s :: rest => do
    contain complain event.channel (react s.reaction event)
    deliver complain react event rest

/-- One event to the subscribers of the moment. -/
def publish (bus : σ → Bus H) (complain : Channel → Bytes → σ → σ)
    (react : H → Event → Reacting σ Unit) (event : Event) : Reacting σ Unit := do
  let state ← get
  deliver complain react event ((bus state).subscribers event.channel)

end delivery

end StagedCopy
