import StagedCopy.Proofs.Event.Task

/-!
# Subscribers that act on the bus

A subscriber may do anything to the bus while an event is delivered to it: it may subscribe, let
others or itself leave, clear the bus, and publish further events, to any depth, before it returns
or throws. It is given by its conduct, a tree of what it does next.

What happens on the bus is noted as it happens, and the notes of one delivery are a phrase of a
grammar: the calls of a list of subscribers, each with all that the subscriber does, among it whole
deliveries. The subscribers of an event are read off the bus as the notes before have left it.

* `Conduct` — what a subscriber does; `Scene`, `Moment` — a bus with the notes.
* `emit` — an event is published, with deliveries nested to a given depth; `Comes` — what comes of
  it, when the subscribers come to an end.
* `Delivery`, `Turns`, `Doings` — the grammar; `emit_notes`, by induction on the depth.
* `emit_extends`, `Comes.unique` — what comes of an event does not depend on the depth;
  `comes_of_descending` — some subscribers that come to an end.
-/

namespace StagedCopy

/-! ## Subscribers -/

/-- What a subscriber does, step by step, until it returns or throws. What comes next may depend on
anything it has learnt: on what it keeps, on an identifier that it was given, on how many are
subscribed, and on what got through to it when it published an event. -/
inductive Conduct (W H : Type) where
  | done
  | throw (thrown : Thrown)
  | keep (change : W → W) (next : W → Conduct W H)
  | subscribe (channel : Channel) (reaction : H) (next : Nat → Conduct W H)
  | unsubscribe (channel : Channel) (id : Nat) (next : Conduct W H)
  | clear (next : Conduct W H)
  | count (channel : Channel) (next : Nat → Conduct W H)
  | publish (event : Event) (next : Option Thrown → Conduct W H)

/-- Something that happens on a bus. -/
inductive Moment (H : Type) where
  | published (event : Event)
  | called (reaction : H) (event : Event)
  | subscribed (channel : Channel) (reaction : H)
  | unsubscribed (channel : Channel) (id : Nat)
  | cleared
  | ended (outcome : Except Thrown Unit)
  | complained (channel : Channel) (message : Bytes)
  | delivered (event : Event) (outcome : Except Thrown Unit)

/-- A bus, what its subscribers keep, and what has happened so far. Deliveries nested deeper than
allowed are left out, and then the scene is cut off. -/
structure Scene (W H : Type) where
  bus : Bus H := {}
  kept : W
  moments : List (Moment H) := []
  cutOff : Bool := false

namespace Scene

variable {W H : Type}

/-- Something happens. -/
def note (scene : Scene W H) (moment : Moment H) : Scene W H :=
  { scene with moments := scene.moments ++ [moment] }

/-- The bus changes. -/
def change (scene : Scene W H) (bus : Bus H) (moment : Moment H) : Scene W H :=
  { scene with bus := bus, moments := scene.moments ++ [moment] }

/-- The log is told of a subscriber's exception. -/
def complain (channel : Channel) (message : Bytes) (scene : Scene W H) : Scene W H :=
  scene.note (.complained channel message)

end Scene

/-- A subscriber acts, where an event can be published in a given way. -/
def Conduct.run {W H : Type} (emit : Event → Reacting (Scene W H) Unit) :
    Conduct W H → Reacting (Scene W H) Unit
  | done, scene => (.ok (), scene)
  | throw thrown, scene => (.error thrown, scene)
  | keep change next, scene =>
    (next (change scene.kept)).run emit { scene with kept := change scene.kept }
  | subscribe channel reaction next, scene =>
    let (id, bus) := scene.bus.subscribe channel reaction
    (next id).run emit (scene.change bus (.subscribed channel reaction))
  | unsubscribe channel id next, scene =>
    next.run emit (scene.change (scene.bus.unsubscribe channel id) (.unsubscribed channel id))
  | clear next, scene => next.run emit (scene.change scene.bus.clear .cleared)
  | count channel next, scene => (next (scene.bus.count channel)).run emit scene
  | publish event next, scene =>
    match emit event scene with
    | (.ok (), after) => (next none).run emit after
    | (.error thrown, after) => (next (some thrown)).run emit after

section emit

variable {W H : Type}

/-- A subscriber's turn, from its call to its end. -/
def turn (emit : Event → Reacting (Scene W H) Unit) (conduct : H → Event → Conduct W H)
    (reaction : H) (event : Event) : Reacting (Scene W H) Unit := fun scene =>
  let (outcome, after) :=
    (conduct reaction event).run emit (scene.note (.called reaction event))
  (outcome, after.note (.ended outcome))

/-- An event is published, and the subscribers publish further events to the given depth. -/
def emit (conduct : H → Event → Conduct W H) : Nat → Event → Reacting (Scene W H) Unit
  | 0, _ => fun scene => (.ok (), { scene with cutOff := true })
  | depth + 1, event => fun scene =>
    let (outcome, after) :=
      publish Scene.bus Scene.complain (turn (emit conduct depth) conduct) event
        (scene.note (.published event))
    (outcome, after.note (.delivered event outcome))

/-- What comes of it when an event is published and the subscribers come to an end. -/
def Comes (conduct : H → Event → Conduct W H) (event : Event) (scene : Scene W H)
    (outcome : Except Thrown Unit) (after : Scene W H) : Prop :=
  ∃ depth, emit conduct depth event scene = (outcome, after) ∧ after.cutOff = false

end emit

/-! ## The grammar -/

section grammar

variable {H : Type}

mutual

/-- An event is published on a bus, and those who are subscribed at this moment are called. -/
inductive Delivery : Bus H → Event → List (Moment H) → Except Thrown Unit → Bus H → Prop where
  | intro {bus after : Bus H} {event : Event} {moments : List (Moment H)}
      {outcome : Except Thrown Unit}
      (h : Turns bus event (bus.subscribers event.channel) moments outcome after) :
      Delivery bus event (.published event :: moments ++ [.delivered event outcome]) outcome after

/-- The calls of a list of subscribers: what happens, what gets through in the end and the bus
then. -/
inductive Turns : Bus H → Event → List (Subscription H) → List (Moment H) →
    Except Thrown Unit → Bus H → Prop where
  | nil (bus : Bus H) (event : Event) : Turns bus event [] [] (.ok ()) bus
  | returned {bus middle after : Bus H} {event : Event} {s : Subscription H}
      {rest : List (Subscription H)} {doings more : List (Moment H)} {outcome : Except Thrown Unit}
      (h : Doings bus doings middle) (hrest : Turns middle event rest more outcome after) :
      Turns bus event (s :: rest)
        (.called s.reaction event :: doings ++ .ended (.ok ()) :: more) outcome after
  /-- The log is told of an ordinary exception, and the next subscriber is called. -/
  | complained {bus middle after : Bus H} {event : Event} {s : Subscription H}
      {rest : List (Subscription H)} {doings more : List (Moment H)} {outcome : Except Thrown Unit}
      (message : Bytes) (h : Doings bus doings middle)
      (hrest : Turns middle event rest more outcome after) :
      Turns bus event (s :: rest)
        (.called s.reaction event :: doings ++ .ended (.error (.exception message)) ::
          .complained event.channel message :: more) outcome after
  /-- Any other exception gets through, and nobody else is called. -/
  | broken {bus after : Bus H} {event : Event} {s : Subscription H} {rest : List (Subscription H)}
      {doings : List (Moment H)} (h : Doings bus doings after) :
      Turns bus event (s :: rest)
        (.called s.reaction event :: doings ++ [.ended (.error .other)]) (.error .other) after

/-- What a subscriber does with the bus: it changes the table, and it publishes events, each of
which is delivered before it goes on. -/
inductive Doings : Bus H → List (Moment H) → Bus H → Prop where
  | nil (bus : Bus H) : Doings bus [] bus
  | subscribed {bus after : Bus H} {more : List (Moment H)} (channel : Channel) (reaction : H)
      (hrest : Doings (bus.subscribe channel reaction).2 more after) :
      Doings bus (.subscribed channel reaction :: more) after
  | unsubscribed {bus after : Bus H} {more : List (Moment H)} (channel : Channel) (id : Nat)
      (hrest : Doings (bus.unsubscribe channel id) more after) :
      Doings bus (.unsubscribed channel id :: more) after
  | cleared {bus after : Bus H} {more : List (Moment H)} (hrest : Doings bus.clear more after) :
      Doings bus (.cleared :: more) after
  | published {bus middle after : Bus H} {event : Event} {delivery more : List (Moment H)}
      {outcome : Except Thrown Unit} (h : Delivery bus event delivery outcome middle)
      (hrest : Doings middle more after) : Doings bus (delivery ++ more) after

end

end grammar

/-! ## What is noted -/

section noted

variable {W H : Type}

/-- Unless a computation is cut off, what it notes is a phrase between the buses before and after
it. -/
def Notes (m : Reacting (Scene W H) Unit)
    (phrase : Bus H → List (Moment H) → Except Thrown Unit → Bus H → Prop) : Prop :=
  ∀ scene outcome after, m scene = (outcome, after) → after.cutOff = false →
    scene.cutOff = false ∧ ∃ moments, after.moments = scene.moments ++ moments ∧
      phrase scene.bus moments outcome after.bus

/-- After a change that is noted, the phrase begins with the note and goes on from the changed
bus. -/
theorem Notes.after_change {m : Reacting (Scene W H) Unit}
    {phrase : Bus H → List (Moment H) → Except Thrown Unit → Bus H → Prop} (h : Notes m phrase)
    {scene after : Scene W H} {bus : Bus H} {moment : Moment H} {outcome : Except Thrown Unit}
    (hrun : m (scene.change bus moment) = (outcome, after)) (hcut : after.cutOff = false) :
    scene.cutOff = false ∧ ∃ more, after.moments = scene.moments ++ moment :: more ∧
      phrase bus more outcome after.bus := by
  obtain ⟨hscene, more, hmore, hphrase⟩ := h _ _ _ hrun hcut
  refine ⟨hscene, more, ?_, hphrase⟩
  rw [hmore]
  simp [Scene.change]

section turns

/-! Subscribers publish events, and for each of them its delivery is noted. -/

variable {publishing : Event → Reacting (Scene W H) Unit}
  (h : ∀ event, Notes (publishing event) fun bus => Delivery bus event)

include h

/-- What a subscriber notes are its doings. -/
theorem conduct_notes (steps : Conduct W H) :
    Notes (steps.run publishing) fun bus moments _ after => Doings bus moments after := by
  induction steps with
  | done =>
    rintro scene outcome after ⟨⟩ hcut
    exact ⟨hcut, [], by simp, .nil _⟩
  | throw thrown =>
    rintro scene outcome after ⟨⟩ hcut
    exact ⟨hcut, [], by simp, .nil _⟩
  | keep change next ih =>
    intro scene outcome after hrun hcut
    rw [Conduct.run] at hrun
    exact ih _ { scene with kept := change scene.kept } _ _ hrun hcut
  | count channel next ih =>
    intro scene outcome after hrun hcut
    rw [Conduct.run] at hrun
    exact ih _ _ _ _ hrun hcut
  | subscribe channel reaction next ih =>
    intro scene outcome after hrun hcut
    rw [Conduct.run] at hrun
    obtain ⟨hscene, more, hmore, hdoings⟩ := (ih _).after_change hrun hcut
    exact ⟨hscene, _, hmore, .subscribed _ _ hdoings⟩
  | unsubscribe channel id next ih =>
    intro scene outcome after hrun hcut
    rw [Conduct.run] at hrun
    obtain ⟨hscene, more, hmore, hdoings⟩ := ih.after_change hrun hcut
    exact ⟨hscene, _, hmore, .unsubscribed _ _ hdoings⟩
  | clear next ih =>
    intro scene outcome after hrun hcut
    rw [Conduct.run] at hrun
    obtain ⟨hscene, more, hmore, hdoings⟩ := ih.after_change hrun hcut
    exact ⟨hscene, _, hmore, .cleared hdoings⟩
  | publish event next ih =>
    intro scene outcome after hrun hcut
    rcases hpublish : publishing event scene with ⟨got, middle⟩
    obtain ⟨learnt, hnext⟩ :
        ∃ learnt, (next learnt).run publishing middle = (outcome, after) := by
      rw [Conduct.run, hpublish] at hrun
      cases got with
      | ok value => exact ⟨none, hrun⟩
      | error thrown => exact ⟨some thrown, hrun⟩
    obtain ⟨hmiddle, more, hmore, hdoings⟩ := ih learnt _ _ _ hnext hcut
    obtain ⟨hscene, delivery, hdelivery, hphrase⟩ := h event _ _ _ hpublish hmiddle
    refine ⟨hscene, delivery ++ more, ?_, .published hphrase hdoings⟩
    rw [hmore, hdelivery, List.append_assoc]

/-- A turn notes that the subscriber is called, its doings and how it ended. -/
theorem turn_notes (conduct : H → Event → Conduct W H) (reaction : H) (event : Event) :
    Notes (turn publishing conduct reaction event) fun bus moments outcome after =>
      ∃ doings, moments = .called reaction event :: doings ++ [.ended outcome] ∧
        Doings bus doings after := by
  intro scene outcome after hrun hcut
  rcases hsteps : (conduct reaction event).run publishing (scene.note (.called reaction event))
    with ⟨ending, last⟩
  simp only [turn, hsteps] at hrun
  obtain ⟨rfl, rfl⟩ := Prod.ext_iff.1 hrun
  obtain ⟨hscene, doings, hmoments, hdoings⟩ := (conduct_notes h _).after_change hsteps hcut
  refine ⟨hscene, _, ?_, doings, rfl, hdoings⟩
  simp [Scene.note, hmoments]

/-- The calls of a list of subscribers are noted one after another. -/
theorem deliver_notes (conduct : H → Event → Conduct W H) (event : Event)
    (subscribers : List (Subscription H)) :
    Notes (deliver Scene.complain (turn publishing conduct) event subscribers) fun bus =>
      Turns bus event subscribers := by
  induction subscribers with
  | nil =>
    rintro scene outcome after ⟨⟩ hcut
    exact ⟨hcut, [], by simp, .nil _ _⟩
  | cons s rest ih =>
    intro scene outcome after hrun hcut
    replace hrun := (run_deliver_cons Scene.complain event s rest scene).symm.trans hrun
    rcases hturn : (turn publishing conduct s.reaction event).run scene with ⟨ending, middle⟩
    rw [hturn] at hrun
    have hturn := turn_notes h conduct s.reaction event _ _ _ hturn
    match ending with
    | .ok () =>
      obtain ⟨hmiddle, more, hmore, hturns⟩ := ih _ _ _ hrun hcut
      obtain ⟨hscene, -, hmoments, doings, rfl, hdoings⟩ := hturn hmiddle
      refine ⟨hscene, _, ?_, .returned hdoings hturns⟩
      simp [hmore, hmoments]
    | .error (.exception message) =>
      obtain ⟨hmiddle, more, hmore, hturns⟩ := ih _ _ _ hrun hcut
      obtain ⟨hscene, -, hmoments, doings, rfl, hdoings⟩ := hturn hmiddle
      refine ⟨hscene, _, ?_, .complained message hdoings hturns⟩
      simp [hmore, hmoments, Scene.complain, Scene.note]
    | .error .other =>
      obtain ⟨rfl, rfl⟩ := Prod.ext_iff.1 hrun
      obtain ⟨hscene, -, hmoments, doings, rfl, hdoings⟩ := hturn hcut
      exact ⟨hscene, _, hmoments, .broken hdoings⟩

end turns

/-- What is noted when an event is published is its delivery, by induction on the depth to which
events are published. -/
theorem emit_notes (conduct : H → Event → Conduct W H) (depth : Nat) (event : Event) :
    Notes (emit conduct depth event) fun bus => Delivery bus event := by
  induction depth generalizing event with
  | zero =>
    rintro scene outcome after ⟨⟩ hcut
    cases hcut
  | succ depth ih =>
    intro scene outcome after hrun hcut
    rcases hpublish : (publish Scene.bus Scene.complain (turn (emit conduct depth) conduct) event)
      (scene.note (.published event)) with ⟨ending, last⟩
    simp only [emit, hpublish] at hrun
    obtain ⟨rfl, rfl⟩ := Prod.ext_iff.1 hrun
    obtain ⟨hscene, turns, hmoments, hturns⟩ :=
      (deliver_notes ih conduct event _).after_change hpublish hcut
    refine ⟨hscene, _, ?_, .intro hturns⟩
    simp [Scene.note, hmoments]

/-! ### Depth -/

/-- Where a computation is not cut off, another does the same. -/
def Extends (m n : Reacting (Scene W H) Unit) : Prop :=
  ∀ scene outcome after, m scene = (outcome, after) → after.cutOff = false →
    n scene = (outcome, after)

section deeper

variable {publishing other : Event → Reacting (Scene W H) Unit}
  (h : ∀ event, Notes (publishing event) fun bus => Delivery bus event)
  (hextends : ∀ event, Extends (publishing event) (other event))

include h hextends

theorem conduct_extends (steps : Conduct W H) :
    Extends (steps.run publishing) (steps.run other) := by
  induction steps with
  | done =>
    intro scene outcome after hrun hcut
    exact hrun
  | throw thrown =>
    intro scene outcome after hrun hcut
    exact hrun
  | keep change next ih =>
    intro scene outcome after hrun hcut
    rw [Conduct.run] at hrun ⊢
    exact ih _ _ _ _ hrun hcut
  | count channel next ih =>
    intro scene outcome after hrun hcut
    rw [Conduct.run] at hrun ⊢
    exact ih _ _ _ _ hrun hcut
  | subscribe channel reaction next ih =>
    intro scene outcome after hrun hcut
    rw [Conduct.run] at hrun ⊢
    exact ih _ _ _ _ hrun hcut
  | unsubscribe channel id next ih =>
    intro scene outcome after hrun hcut
    rw [Conduct.run] at hrun ⊢
    exact ih _ _ _ hrun hcut
  | clear next ih =>
    intro scene outcome after hrun hcut
    rw [Conduct.run] at hrun ⊢
    exact ih _ _ _ hrun hcut
  | publish event next ih =>
    intro scene outcome after hrun hcut
    rcases hpublish : publishing event scene with ⟨got, middle⟩
    -- the event was not cut off either, for what came next was not
    have hsame : middle.cutOff = false → other event scene = (got, middle) :=
      hextends event _ _ _ hpublish
    rw [Conduct.run, hpublish] at hrun
    cases got with
    | ok value =>
      rw [Conduct.run, hsame (conduct_notes h _ _ _ _ hrun hcut).1]
      exact ih _ _ _ _ hrun hcut
    | error thrown =>
      rw [Conduct.run, hsame (conduct_notes h _ _ _ _ hrun hcut).1]
      exact ih _ _ _ _ hrun hcut

theorem turn_extends (conduct : H → Event → Conduct W H) (reaction : H) (event : Event) :
    Extends (turn publishing conduct reaction event) (turn other conduct reaction event) := by
  intro scene outcome after hrun hcut
  rcases hsteps : (conduct reaction event).run publishing (scene.note (.called reaction event))
    with ⟨ending, last⟩
  simp only [turn, hsteps] at hrun
  obtain ⟨rfl, rfl⟩ := Prod.ext_iff.1 hrun
  have hsame := conduct_extends h hextends _ _ _ _ hsteps hcut
  simp only [turn, hsame]

theorem deliver_extends (conduct : H → Event → Conduct W H) (event : Event)
    (subscribers : List (Subscription H)) :
    Extends (deliver Scene.complain (turn publishing conduct) event subscribers)
      (deliver Scene.complain (turn other conduct) event subscribers) := by
  induction subscribers with
  | nil =>
    intro scene outcome after hrun hcut
    exact hrun
  | cons s rest ih =>
    intro scene outcome after hrun hcut
    replace hrun := (run_deliver_cons Scene.complain event s rest scene).symm.trans hrun
    refine (run_deliver_cons Scene.complain event s rest scene).trans ?_
    rcases hturn : (turn publishing conduct s.reaction event).run scene with ⟨ending, middle⟩
    have hsame : middle.cutOff = false →
        (turn other conduct s.reaction event).run scene = (ending, middle) :=
      turn_extends h hextends conduct s.reaction event _ _ _ hturn
    rw [hturn] at hrun
    match ending with
    | .ok () =>
      rw [hsame (deliver_notes h conduct event rest _ _ _ hrun hcut).1]
      exact ih _ _ _ hrun hcut
    | .error (.exception message) =>
      rw [hsame (deliver_notes h conduct event rest _ _ _ hrun hcut).1]
      exact ih _ _ _ hrun hcut
    | .error .other =>
      obtain ⟨rfl, rfl⟩ := Prod.ext_iff.1 hrun
      rw [hsame hcut]

end deeper

/-- Where the depth is enough, one more makes no difference. -/
theorem emit_extends (conduct : H → Event → Conduct W H) (depth : Nat) (event : Event) :
    Extends (emit conduct depth event) (emit conduct (depth + 1) event) := by
  induction depth generalizing event with
  | zero =>
    rintro scene outcome after ⟨⟩ hcut
    cases hcut
  | succ depth ih =>
    intro scene outcome after hrun hcut
    rcases hpublish : (publish Scene.bus Scene.complain (turn (emit conduct depth) conduct) event)
      (scene.note (.published event)) with ⟨ending, last⟩
    simp only [emit, hpublish] at hrun
    obtain ⟨rfl, rfl⟩ := Prod.ext_iff.1 hrun
    have hsame : (publish Scene.bus Scene.complain (turn (emit conduct (depth + 1)) conduct) event)
        (scene.note (.published event)) = (ending, last) :=
      deliver_extends (emit_notes conduct depth) ih conduct event _ _ _ _ hpublish hcut
    rw [emit]
    simp only [hsame]

/-- What comes of an event is the same for every depth that is enough. -/
theorem Comes.at_depth {conduct : H → Event → Conduct W H} {event : Event} {scene after : Scene W H}
    {outcome : Except Thrown Unit} (h : Comes conduct event scene outcome after) :
    ∃ enough, ∀ depth ≥ enough, emit conduct depth event scene = (outcome, after) := by
  obtain ⟨enough, hrun, hcut⟩ := h
  refine ⟨enough, fun depth hdepth => ?_⟩
  induction hdepth with
  | refl => exact hrun
  | step _ ih => exact emit_extends conduct _ event _ _ _ ih hcut

theorem Comes.unique {conduct : H → Event → Conduct W H} {event : Event}
    {scene after after' : Scene W H} {outcome outcome' : Except Thrown Unit}
    (h : Comes conduct event scene outcome after) (h' : Comes conduct event scene outcome' after') :
    outcome = outcome' ∧ after = after' := by
  obtain ⟨enough, hruns⟩ := h.at_depth
  obtain ⟨enough', hruns'⟩ := h'.at_depth
  have hrun := hruns (max enough enough') (Nat.le_max_left _ _)
  have hrun' := hruns' (max enough enough') (Nat.le_max_right _ _)
  exact Prod.ext_iff.1 (hrun.symm.trans hrun')

/-! ### Enough depth -/

/-- Whatever a subscriber learns, it only publishes events of a kind. -/
def Conduct.Publishes (kind : Event → Prop) : Conduct W H → Prop
  | done | throw _ => True
  | keep _ next => ∀ kept, (next kept).Publishes kind
  | subscribe _ _ next => ∀ id, (next id).Publishes kind
  | unsubscribe _ _ next => next.Publishes kind
  | clear next => next.Publishes kind
  | count _ next => ∀ n, (next n).Publishes kind
  | publish event next => kind event ∧ ∀ got, (next got).Publishes kind

/-- A computation does not cut a scene off. -/
def Finishes (m : Reacting (Scene W H) Unit) : Prop :=
  ∀ scene, scene.cutOff = false → (m scene).2.cutOff = false

theorem conduct_finishes {publishing : Event → Reacting (Scene W H) Unit} {kind : Event → Prop}
    (h : ∀ event, kind event → Finishes (publishing event)) {steps : Conduct W H}
    (hkind : steps.Publishes kind) : Finishes (steps.run publishing) := by
  induction steps with
  | done => exact fun _ hscene => hscene
  | throw thrown => exact fun _ hscene => hscene
  | keep change next ih => exact fun scene hscene => ih _ (hkind _) _ hscene
  | subscribe channel reaction next ih => exact fun scene hscene => ih _ (hkind _) _ hscene
  | unsubscribe channel id next ih => exact fun scene hscene => ih hkind _ hscene
  | clear next ih => exact fun scene hscene => ih hkind _ hscene
  | count channel next ih => exact fun scene hscene => ih _ (hkind _) _ hscene
  | publish event next ih =>
    intro scene hscene
    have hmiddle := h event hkind.1 scene hscene
    rcases hpublish : publishing event scene with ⟨got, middle⟩
    rw [hpublish] at hmiddle
    rw [Conduct.run, hpublish]
    cases got with
    | ok value => exact ih _ (hkind.2 _) _ hmiddle
    | error thrown => exact ih _ (hkind.2 _) _ hmiddle

theorem deliver_finishes {publishing : Event → Reacting (Scene W H) Unit}
    {conduct : H → Event → Conduct W H} {event : Event}
    (h : ∀ reaction, Finishes (turn publishing conduct reaction event))
    (subscribers : List (Subscription H)) :
    Finishes (deliver Scene.complain (turn publishing conduct) event subscribers) := by
  induction subscribers with
  | nil => exact fun _ hscene => hscene
  | cons s rest ih =>
    intro scene hscene
    rcases hturn : (turn publishing conduct s.reaction event).run scene with ⟨ending, middle⟩
    have hmiddle : ((turn publishing conduct s.reaction event).run scene).2.cutOff = false :=
      h s.reaction scene hscene
    rw [hturn] at hmiddle
    show ((deliver Scene.complain (turn publishing conduct) event (s :: rest)).run scene).2.cutOff
      = false
    rw [run_deliver_cons, hturn]
    match ending with
    | .ok () => exact ih _ hmiddle
    | .error (.exception message) => exact ih _ hmiddle
    | .error .other => exact hmiddle

/-- Where subscribers publish only events of a lesser rank than the one that they hear of, they come
to an end. -/
theorem comes_of_descending {conduct : H → Event → Conduct W H} (rank : Event → Nat)
    (h : ∀ reaction event, (conduct reaction event).Publishes fun other => rank other < rank event)
    (event : Event) {scene : Scene W H} (hscene : scene.cutOff = false) :
    ∃ outcome after, Comes conduct event scene outcome after := by
  have hfinishes : ∀ depth event, rank event < depth → Finishes (emit conduct depth event) := by
    intro depth
    induction depth with
    | zero => exact fun _ hrank => absurd hrank (Nat.not_lt_zero _)
    | succ depth ih =>
      intro event hrank scene hscene
      refine deliver_finishes (fun reaction scene hscene => ?_) _ _ hscene
      refine conduct_finishes (fun other hother => ih other ?_) (h reaction event) _ hscene
      omega
  exact ⟨_, _, rank event + 1, rfl, hfinishes _ event (Nat.lt_succ_self _) scene hscene⟩

end noted

end StagedCopy
