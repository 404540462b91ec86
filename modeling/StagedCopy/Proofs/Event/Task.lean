import StagedCopy.Event.Hub
import StagedCopy.Proofs.Observers

/-!
# Tasks on an event bus

A task that publishes what it is told on an event bus hears nothing of what its subscribers do, as
long as they throw ordinary exceptions only: each of these is logged and goes no further. So it
never refuses a status or a counter.

* `Reacting.run_tryCatch`, `Reacting.run_bind` — how computations that may throw go on;
  `Reacting.run_deliver_cons` — one subscriber after another.
* `contain_ok`, `deliver_ok` — what subscribers throw does not get through.
* `EventTask` — a task on a bus, over any state and with any subscribers.
* `EventTask.setStatus_ok`, `EventTask.increment_ok` — a task never refuses.
* `EventTask.observer` — the task as an observer of a copy.
* `Hub.task`, `Hub.never_refuses` — the tasks of a hub.
-/

namespace StagedCopy

/-! ## Delivery -/

section delivery

variable {τ H α β : Type}

/-- After a computation that may throw, its handler takes over where it threw. -/
theorem Reacting.run_tryCatch (turn : Reacting τ α) (handle : Thrown → Reacting τ α) (t : τ) :
    (tryCatch turn handle).run t =
      match turn.run t with
      | (.ok a, t') => (.ok a, t')
      | (.error thrown, t') => (handle thrown).run t' := by
  unfold ExceptT.run
  simp only [tryCatch, tryCatchThe, MonadExceptOf.tryCatch, ExceptT.tryCatch, ExceptT.mk, bind,
    StateT.bind]
  rcases turn t with ⟨_ | _, t'⟩ <;> rfl

/-- After a computation that may throw, the next one goes on where it did not. -/
theorem Reacting.run_bind (first : Reacting τ α) (next : α → Reacting τ β) (t : τ) :
    (first >>= next).run t =
      match first.run t with
      | (.ok a, t') => (next a).run t'
      | (.error thrown, t') => (.error thrown, t') := by
  have hbind : (first >>= next).run t
      = ExceptT.bindCont next (first.run t).1 (first.run t).2 := rfl
  rw [hbind]
  rcases first.run t with ⟨_ | _, t'⟩ <;> rfl

/-- After a computation that did not throw, the next one goes on from the state that it left. -/
theorem Reacting.run_bind_of_ok {first : Reacting τ α} {next : α → Reacting τ β} {t t' : τ} {a : α}
    (h : first.run t = (.ok a, t')) : (first >>= next).run t = (next a).run t' := by
  rw [run_bind, h]

variable (complain : Channel → Bytes → τ → τ) {react : H → Event → Reacting τ Unit}

/-- What follows a subscriber's turn: the next subscriber's, with a complaint before it when an
ordinary exception was thrown, and nothing when anything else was. -/
theorem run_deliver_cons (event : Event) (s : Subscription H) (rest : List (Subscription H))
    (t : τ) :
    (deliver complain react event (s :: rest)).run t =
      match (react s.reaction event).run t with
      | (.ok (), t') => (deliver complain react event rest).run t'
      | (.error (.exception message), t') =>
        (deliver complain react event rest).run (complain event.channel message t')
      | (.error .other, t') => (.error .other, t') := by
  rw [deliver, Reacting.run_bind, contain, Reacting.run_tryCatch]
  rcases (react s.reaction event).run t with ⟨outcome, t'⟩
  match outcome with
  | .ok () => rfl
  | .error (.exception message) => rfl
  | .error .other => rfl

/-- An ordinary exception does not get out of a subscriber's turn. -/
theorem contain_ok (channel : Channel) {turn : Reacting τ Unit} {t : τ}
    (h : (turn.run t).1 ≠ .error .other) :
    ∃ t', (contain complain channel turn).run t = (.ok (), t') := by
  rw [contain, Reacting.run_tryCatch]
  rcases hturn : turn.run t with ⟨outcome, t'⟩
  rw [hturn] at h
  match outcome with
  | .ok () => exact ⟨_, rfl⟩
  | .error (.exception message) => exact ⟨_, rfl⟩
  | .error .other => exact absurd rfl h

/-- An event comes to its last subscriber, whatever ordinary exceptions are thrown on the way. -/
theorem deliver_ok (hcivil : ∀ h event t, ((react h event).run t).1 ≠ .error .other)
    (event : Event) (subscribers : List (Subscription H)) (t : τ) :
    ∃ t', (deliver complain react event subscribers).run t = (.ok (), t') := by
  induction subscribers generalizing t with
  | nil => exact ⟨t, rfl⟩
  | cons subscriber rest ih =>
    obtain ⟨t₁, hfirst⟩ := contain_ok complain event.channel (hcivil subscriber.reaction event t)
    rw [deliver, Reacting.run_bind_of_ok hfirst]
    exact ih t₁

end delivery

/-! ## Tasks -/

/-- A task that publishes on a bus: its attempt id, where it keeps its last status, the bus and the
log in the state, how the log is told of a subscriber's exception, and the subscribers, which throw
ordinary exceptions only. What else they do to the state, the bus included, is left open. -/
structure EventTask (τ H : Type) where
  attempt : Bytes
  keep : Bytes → τ → τ
  bus : τ → Bus H
  log : Log.Line → τ → τ
  complain : Channel → Bytes → τ → τ
  react : H → Event → Reacting τ Unit
  civil : ∀ h event t, ((react h event).run t).1 ≠ .error .other

namespace EventTask

variable {τ H : Type} (task : EventTask τ H)

/-- A new status text, which the task keeps before anyone is told. -/
def setStatus (text : Bytes) : Reacting τ Unit := do
  modify (task.keep text)
  publish task.bus task.complain task.react (.status task.attempt text)

/-- A counter grows. -/
def increment (counter : Counter) (value : Nat) : Reacting τ Unit :=
  publish task.bus task.complain task.react (.increment task.attempt counter value)

/-- A task never refuses a status. -/
theorem setStatus_ok (text : Bytes) (t : τ) : ∃ t', (task.setStatus text).run t = (.ok (), t') :=
  deliver_ok task.complain task.civil (.status task.attempt text) _ (task.keep text t)

/-- A task never refuses a counter. -/
theorem increment_ok (counter : Counter) (value : Nat) (t : τ) :
    ∃ t', (task.increment counter value).run t = (.ok (), t') :=
  deliver_ok task.complain task.civil (.increment task.attempt counter value) _ t

/-- What a copy hears of something that threw no more than an ordinary exception. -/
def hear (result : Except Thrown Unit × τ) (hcivil : result.1 ≠ .error .other) :
    Except Bytes Unit × τ :=
  match result, hcivil with
  | (.ok (), t), _ => (.ok (), t)
  | (.error (.exception message), t), _ => (.error message, t)
  | (.error .other, _), hcivil => absurd rfl hcivil

/-- The task as an observer of a copy. -/
def observer : Observer τ where
  setStatus text t := hear ((task.setStatus text).run t) <| by
    obtain ⟨t', hrun⟩ := task.setStatus_ok text t
    rw [hrun]
    exact nofun
  increment counter value t := hear ((task.increment counter value).run t) <| by
    obtain ⟨t', hrun⟩ := task.increment_ok counter value t
    rw [hrun]
    exact nofun
  log := task.log

theorem hear_ok {result : Except Thrown Unit × τ} {hcivil : result.1 ≠ .error .other} {t : τ}
    (h : result = (.ok (), t)) : hear result hcivil = (.ok (), t) := by
  subst h
  rfl

/-- A copy that a task observes is never refused anything. -/
theorem observer_ok (t : τ) :
    (∀ text, (task.observer.setStatus text t).1 = .ok ()) ∧
      ∀ counter value, (task.observer.increment counter value t).1 = .ok () := by
  constructor
  · intro text
    obtain ⟨t', hrun⟩ := task.setStatus_ok text t
    exact congrArg Prod.fst (hear_ok hrun)
  · intro counter value
    obtain ⟨t', hrun⟩ := task.increment_ok counter value t
    exact congrArg Prod.fst (hear_ok hrun)

end EventTask

/-! ## Tasks of a hub -/

namespace Hub

/-- A task of a hub, whose subscribers take their turns in a given way. -/
def task (attempt : Bytes) (react : Reaction → Event → Step Unit)
    (civil : ∀ reaction event hub, ((react reaction event).run hub).1 ≠ .error .other) :
    EventTask Hub Reaction where
  attempt := attempt
  keep text hub := { hub with
    lastStatus := (attempt, text) :: hub.lastStatus.filter fun entry => entry.1 != attempt }
  bus := Hub.bus
  log := addLine
  complain := complain
  react := react
  civil := civil

/-- A hub whose subscribers throw ordinary exceptions only never refuses a status or a counter. -/
theorem never_refuses {react : Reaction → Event → Step Unit}
    (civil : ∀ reaction event hub, ((react reaction event).run hub).1 ≠ .error .other)
    (attempt : Bytes) (hub : Hub) :
    (∀ text, ∃ after, (setStatus react attempt text).run hub = (.ok (), after)) ∧
      ∀ counter value, ∃ after, (increment react attempt counter value).run hub
        = (.ok (), after) :=
  ⟨fun text => (task attempt react civil).setStatus_ok text hub,
    fun counter value => (task attempt react civil).increment_ok counter value hub⟩

/-- Subscribers that run no scripts throw nothing. -/
theorem react_civil (reaction : Reaction) (event : Event) (hub : Hub) :
    ((react 0 reaction event).run hub).1 ≠ .error .other := by
  cases reaction <;> exact nofun

end Hub

end StagedCopy
