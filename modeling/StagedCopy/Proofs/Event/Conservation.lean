import StagedCopy.Proofs.Event.Conduct
import StagedCopy.Proofs.Event.Statistics

/-!
# Statistics conserve what is published

One subscriber sums up what it hears on both channels. The others do to the bus whatever they like,
before it is called, after it, and in deliveries within deliveries; they only leave the one who sums
up and its statistics alone, and throw ordinary exceptions only. Then every event that is published
is heard exactly once, and the statistics are those of all events published, however the deliveries
were nested.

* `published`, `heard` — the events of a row of moments, and those that the one who sums up is
  called with.
* `Conduct.Spares`, `Booked` — subscribers that leave the statistics alone, and statistics that are
  those of the events heard; `emit_books`, by induction on the depth.
* `Bus.SummedUp`, `Moment.disturbs` — buses on which somebody sums up, and what would put an end to
  it; `Delivery.conserves`, by induction on the grammar of deliveries.
* `SummedRun`, `statistics_conserved` — a run of a bus on which somebody sums up, and the theorem.
-/

namespace StagedCopy

/-! ## Events in a row of moments -/

section events

variable {H : Type}

/-- The event that is published at a moment. -/
def Moment.published? : Moment H → Option Event
  | .published event => some event
  | _ => none

/-- The event that the one who sums up is called with at a moment. -/
def Moment.heard? : Moment (Option H) → Option Event
  | .called none event => some event
  | _ => none

/-- The events that are published in a row of moments. -/
def published (moments : List (Moment H)) : List Event := moments.filterMap Moment.published?

/-- The events that the one who sums up is called with in a row of moments. -/
def heard (moments : List (Moment (Option H))) : List Event := moments.filterMap Moment.heard?

theorem published_cons (moment : Moment H) (rest : List (Moment H)) :
    published (moment :: rest) = moment.published?.toList ++ published rest := by
  cases h : moment.published? <;> simp [published, h]

theorem heard_cons (moment : Moment (Option H)) (rest : List (Moment (Option H))) :
    heard (moment :: rest) = moment.heard?.toList ++ heard rest := by
  cases h : moment.heard? <;> simp [heard, h]

@[simp] theorem published_append (s t : List (Moment H)) :
    published (s ++ t) = published s ++ published t := List.filterMap_append

@[simp] theorem heard_append (s t : List (Moment (Option H))) :
    heard (s ++ t) = heard s ++ heard t := List.filterMap_append

end events

/-! ## The books of the one who sums up -/

section books

variable {W H : Type}

/-- Whatever a subscriber learns, it leaves the statistics alone. -/
def Conduct.Spares : Conduct (Statistics × W) H → Prop
  | done | throw _ => True
  | keep change next => (∀ kept, (change kept).1 = kept.1) ∧ ∀ kept, (next kept).Spares
  | subscribe _ _ next => ∀ id, (next id).Spares
  | unsubscribe _ _ next => next.Spares
  | clear next => next.Spares
  | count _ next => ∀ n, (next n).Spares
  | publish _ next => ∀ got, (next got).Spares

/-- The one who sums up adds what it hears to its statistics. -/
def summingUp (event : Event) : Conduct (Statistics × W) H :=
  .keep (fun kept => (kept.1.observe event, kept.2)) fun _ => .done

/-- Between two scenes the events that are heard are added to the statistics, and nothing else. -/
def Booked (scene after : Scene (Statistics × W) (Option H)) : Prop :=
  ∃ moments, after.moments = scene.moments ++ moments ∧
    after.kept.1 = (heard moments).foldl Statistics.observe scene.kept.1

/-- The statistics are those of the events that are heard in the course of a computation. -/
def Books (m : Reacting (Scene (Statistics × W) (Option H)) Unit) : Prop :=
  ∀ scene outcome after, m scene = (outcome, after) → Booked scene after

namespace Booked

variable {scene middle after : Scene (Statistics × W) (Option H)}

theorem refl (scene : Scene (Statistics × W) (Option H)) : Booked scene scene :=
  ⟨[], by simp, rfl⟩

theorem trans (h : Booked scene middle) (h' : Booked middle after) : Booked scene after := by
  obtain ⟨first, hfirst, hmiddle⟩ := h
  obtain ⟨more, hmore, hafter⟩ := h'
  refine ⟨first ++ more, by rw [hmore, hfirst, List.append_assoc], ?_⟩
  rw [hafter, hmiddle, heard_append, List.foldl_append]

/-- Nothing is added at a moment at which nothing is heard. -/
theorem change {bus : Bus (Option H)} {moment : Moment (Option H)}
    (hquiet : moment.heard? = none) : Booked scene (scene.change bus moment) :=
  ⟨[moment], rfl, by rw [heard, List.filterMap_cons_none hquiet]; rfl⟩

/-- Others keep what they like, as long as they leave the statistics alone. -/
theorem keep {kept : Statistics × W} (h : kept.1 = scene.kept.1) :
    Booked scene { scene with kept := kept } :=
  ⟨[], by simp, h⟩

end Booked

section publishing

variable {publishing : Event → Reacting (Scene (Statistics × W) (Option H)) Unit}
  (h : ∀ event, Books (publishing event))

include h

theorem conduct_books {steps : Conduct (Statistics × W) (Option H)} (hspares : steps.Spares) :
    Books (steps.run publishing) := by
  induction steps with
  | done =>
    rintro scene outcome after ⟨⟩
    exact .refl scene
  | throw thrown =>
    rintro scene outcome after ⟨⟩
    exact .refl scene
  | keep change next ih =>
    intro scene outcome after hrun
    rw [Conduct.run] at hrun
    exact (Booked.keep (hspares.1 _)).trans (ih _ (hspares.2 _) _ _ _ hrun)
  | count channel next ih =>
    intro scene outcome after hrun
    rw [Conduct.run] at hrun
    exact ih _ (hspares _) _ _ _ hrun
  | subscribe channel reaction next ih =>
    intro scene outcome after hrun
    rw [Conduct.run] at hrun
    exact (Booked.change rfl).trans (ih _ (hspares _) _ _ _ hrun)
  | unsubscribe channel id next ih =>
    intro scene outcome after hrun
    rw [Conduct.run] at hrun
    exact (Booked.change rfl).trans (ih hspares _ _ _ hrun)
  | clear next ih =>
    intro scene outcome after hrun
    rw [Conduct.run] at hrun
    exact (Booked.change rfl).trans (ih hspares _ _ _ hrun)
  | publish event next ih =>
    intro scene outcome after hrun
    rcases hpublish : publishing event scene with ⟨got, middle⟩
    rw [Conduct.run, hpublish] at hrun
    have hdelivery := h event _ _ _ hpublish
    cases got with
    | ok value => exact hdelivery.trans (ih _ (hspares _) _ _ _ hrun)
    | error thrown => exact hdelivery.trans (ih _ (hspares _) _ _ _ hrun)

variable {conduct : Option H → Event → Conduct (Statistics × W) (Option H)}
  (hsums : ∀ event, conduct none event = summingUp event)
  (hspares : ∀ reaction event, (conduct (some reaction) event).Spares)

include hsums hspares

theorem turn_books (reaction : Option H) (event : Event) :
    Books (turn publishing conduct reaction event) := by
  intro scene outcome after hrun
  cases reaction with
  | none =>
    simp only [turn, hsums, summingUp, Conduct.run] at hrun
    obtain ⟨rfl, rfl⟩ := Prod.ext_iff.1 hrun
    exact ⟨[.called none event, .ended (.ok ())], by simp [Scene.note], rfl⟩
  | some reaction =>
    rcases hsteps : (conduct (some reaction) event).run publishing
      (scene.note (.called (some reaction) event)) with ⟨ending, last⟩
    simp only [turn, hsteps] at hrun
    obtain ⟨rfl, rfl⟩ := Prod.ext_iff.1 hrun
    have hdoings := conduct_books h (hspares reaction event) _ _ _ hsteps
    exact (Booked.change rfl).trans (hdoings.trans (Booked.change rfl))

theorem deliver_books (event : Event) (subscribers : List (Subscription (Option H))) :
    Books (deliver Scene.complain (turn publishing conduct) event subscribers) := by
  induction subscribers with
  | nil =>
    rintro scene outcome after ⟨⟩
    exact .refl scene
  | cons s rest ih =>
    intro scene outcome after hrun
    replace hrun := (run_deliver_cons Scene.complain event s rest scene).symm.trans hrun
    rcases hturn : (turn publishing conduct s.reaction event).run scene with ⟨ending, middle⟩
    rw [hturn] at hrun
    have hdoings := turn_books h hsums hspares s.reaction event _ _ _ hturn
    match ending with
    | .ok () => exact hdoings.trans (ih _ _ _ hrun)
    | .error (.exception message) =>
      exact hdoings.trans ((Booked.change rfl).trans (ih _ _ _ hrun))
    | .error .other =>
      obtain ⟨rfl, rfl⟩ := Prod.ext_iff.1 hrun
      exact hdoings

end publishing

/-- The statistics are those of the events heard, by induction on the depth to which events are
published. -/
theorem emit_books {conduct : Option H → Event → Conduct (Statistics × W) (Option H)}
    (hsums : ∀ event, conduct none event = summingUp event)
    (hspares : ∀ reaction event, (conduct (some reaction) event).Spares) (depth : Nat)
    (event : Event) : Books (emit conduct depth event) := by
  induction depth generalizing event with
  | zero =>
    rintro scene outcome after ⟨⟩
    exact .refl scene
  | succ depth ih =>
    intro scene outcome after hrun
    rcases hpublish : (publish Scene.bus Scene.complain (turn (emit conduct depth) conduct) event)
      (scene.note (.published event)) with ⟨ending, last⟩
    simp only [emit, hpublish] at hrun
    obtain ⟨rfl, rfl⟩ := Prod.ext_iff.1 hrun
    have hturns := deliver_books ih hsums hspares event _ _ _ _ hpublish
    exact (Booked.change rfl).trans (hturns.trans (Booked.change rfl))

end books

/-! ## Everything published is heard -/

section conserves

variable {H : Type}

/-- On each channel one subscriber sums up, and it has the given identifier. -/
def Bus.SummedUp (ids : Channel → Nat) (bus : Bus (Option H)) : Prop :=
  ∀ channel, ((bus.subscribers channel).filter fun s => s.reaction.isNone) = [⟨ids channel, none⟩]

/-- What would put an end to it that somebody sums up everything once: that it leaves a channel,
that another one begins, that the bus is cleared, and an exception that ends a delivery. -/
def Moment.disturbs (ids : Channel → Nat) : Moment (Option H) → Bool
  | .subscribed _ reaction => reaction.isNone
  | .unsubscribed channel id => id == ids channel
  | .cleared => true
  | .ended (.error .other) => true
  | _ => false

variable {ids : Channel → Nat} {bus : Bus (Option H)}

/-- The one who sums up hears of an event once. -/
theorem Bus.SummedUp.countP (h : bus.SummedUp ids) (channel : Channel) :
    (bus.subscribers channel).countP (·.reaction.isNone) = 1 := by
  rw [List.countP_eq_length_filter, h channel]
  rfl

theorem Bus.SummedUp.subscribe {channel : Channel} {reaction : Option H} (h : bus.SummedUp ids)
    (hquiet : reaction.isNone = false) : (bus.subscribe channel reaction).2.SummedUp ids := by
  intro other
  rw [subscribers_subscribe]
  split
  · next hsame => simp [List.filter_append, h channel, hquiet, hsame]
  · exact h other

theorem Bus.SummedUp.unsubscribe {channel : Channel} {id : Nat} (h : bus.SummedUp ids)
    (hquiet : (id == ids channel) = false) : (bus.unsubscribe channel id).SummedUp ids := by
  intro other
  rw [subscribers_unsubscribe]
  split
  · next hsame =>
    have hother : ids channel ≠ id := fun heq => by simp [heq] at hquiet
    rw [List.filter_filter]
    simp only [Bool.and_comm]
    rw [← List.filter_filter, h channel, hsame]
    simp [hother]
  · exact h other

/-- Who among some subscribers sums up hears of an event, but no other. -/
def listeners (event e : Event) (subscribers : List (Subscription (Option H))) : Nat :=
  if event = e then subscribers.countP (·.reaction.isNone) else 0

/-- After a turn each event was heard as often as it was published, and by its listeners. -/
theorem count_heard_turn {event : Event} {s : Subscription (Option H)}
    {rest : List (Subscription (Option H))} {doings more : List (Moment (Option H))}
    (outcome : Except Thrown Unit)
    (hdoings : ∀ e, (heard doings).count e = (published doings).count e)
    (hmore : ∀ e, (heard more).count e = (published more).count e + listeners event e rest)
    (e : Event) :
    (heard (.called s.reaction event :: doings ++ .ended outcome :: more)).count e =
      (published (.called s.reaction event :: doings ++ .ended outcome :: more)).count e +
        listeners event e (s :: rest) := by
  have hcalled : ((Moment.called s.reaction event).heard?.toList).count e
      = listeners event e [s] := by
    cases hreaction : s.reaction with
    | none => simp [Moment.heard?, listeners, hreaction, List.count_singleton]
    | some reaction => simp [Moment.heard?, listeners, hreaction]
  have hall : listeners event e (s :: rest) = listeners event e [s] + listeners event e rest := by
    unfold listeners
    split
    · rw [← List.countP_append, List.singleton_append]
    · rfl
  have hheard : heard (.called s.reaction event :: doings ++ .ended outcome :: more)
      = (Moment.called s.reaction event).heard?.toList ++ (heard doings ++ heard more) := by
    rw [List.cons_append, heard_cons, heard_append]
    rfl
  have hpublished : published (.called s.reaction event :: doings ++ .ended outcome :: more)
      = published doings ++ published more := published_append doings _
  rw [hheard, hpublished, hall, List.count_append, List.count_append, List.count_append, hcalled,
    hdoings, hmore]
  omega

mutual

/-- In the course of a delivery each event is heard as often as it is published. -/
theorem Delivery.conserves {bus after : Bus (Option H)} {event : Event}
    {moments : List (Moment (Option H))} {outcome : Except Thrown Unit} :
    Delivery bus event moments outcome after → bus.SummedUp ids →
      (∀ moment ∈ moments, moment.disturbs ids = false) →
        (∀ e, (heard moments).count e = (published moments).count e) ∧ after.SummedUp ids
  | @Delivery.intro _ _ _ _ turns _ h, hbus, hcalm => by
    obtain ⟨-, hcalm⟩ := List.forall_mem_cons.1 hcalm
    obtain ⟨hturns, hafter⟩ := Turns.conserves h hbus (List.forall_mem_append.1 hcalm).1
    refine ⟨fun e => ?_, hafter⟩
    have honce : listeners event e (bus.subscribers event.channel)
        = if event == e then 1 else 0 := by
      simp [listeners, hbus.countP]
    have hheard : heard (.published event :: turns ++ [.delivered event outcome]) = heard turns :=
      (heard_append turns _).trans (List.append_nil _)
    have hpublished : published (.published event :: turns ++ [.delivered event outcome])
        = event :: published turns := by
      rw [List.cons_append, published_cons, published_append]
      simp [published, Moment.published?]
    rw [hheard, hpublished, hturns, honce, List.count_cons]

/-- Of those who are called, the one who sums up hears of the event that is delivered; this is
published before. -/
theorem Turns.conserves {bus after : Bus (Option H)} {event : Event}
    {subscribers : List (Subscription (Option H))} {moments : List (Moment (Option H))}
    {outcome : Except Thrown Unit} :
    Turns bus event subscribers moments outcome after → bus.SummedUp ids →
      (∀ moment ∈ moments, moment.disturbs ids = false) →
        (∀ e, (heard moments).count e = (published moments).count e +
          listeners event e subscribers) ∧ after.SummedUp ids
  | .nil _ _, hbus, _ => ⟨fun e => by simp [heard, published, listeners], hbus⟩
  | .returned h hrest, hbus, hcalm => by
    obtain ⟨-, hcalm⟩ := List.forall_mem_cons.1 hcalm
    obtain ⟨hdoings, hmore⟩ := List.forall_mem_append.1 hcalm
    obtain ⟨-, hmore⟩ := List.forall_mem_cons.1 hmore
    obtain ⟨hfirst, hmiddle⟩ := Doings.conserves h hbus hdoings
    obtain ⟨hothers, hafter⟩ := Turns.conserves hrest hmiddle hmore
    exact ⟨count_heard_turn _ hfirst hothers, hafter⟩
  | .complained message h hrest, hbus, hcalm => by
    obtain ⟨-, hcalm⟩ := List.forall_mem_cons.1 hcalm
    obtain ⟨hdoings, hmore⟩ := List.forall_mem_append.1 hcalm
    obtain ⟨-, hmore⟩ := List.forall_mem_cons.1 hmore
    obtain ⟨-, hmore⟩ := List.forall_mem_cons.1 hmore
    obtain ⟨hfirst, hmiddle⟩ := Doings.conserves h hbus hdoings
    obtain ⟨hothers, hafter⟩ := Turns.conserves hrest hmiddle hmore
    exact ⟨count_heard_turn _ hfirst hothers, hafter⟩
  | .broken h, hbus, hcalm => by
    obtain ⟨-, hcalm⟩ := List.forall_mem_cons.1 hcalm
    have hended := (List.forall_mem_append.1 hcalm).2 _ (List.mem_singleton_self _)
    cases hended

theorem Doings.conserves {bus after : Bus (Option H)} {moments : List (Moment (Option H))} :
    Doings bus moments after → bus.SummedUp ids →
      (∀ moment ∈ moments, moment.disturbs ids = false) →
        (∀ e, (heard moments).count e = (published moments).count e) ∧ after.SummedUp ids
  | .nil _, hbus, _ => ⟨fun _ => rfl, hbus⟩
  | .subscribed channel reaction hrest, hbus, hcalm => by
    obtain ⟨hquiet, hcalm⟩ := List.forall_mem_cons.1 hcalm
    have hmore := Doings.conserves hrest (hbus.subscribe hquiet) hcalm
    exact hmore
  | .unsubscribed channel id hrest, hbus, hcalm => by
    obtain ⟨hquiet, hcalm⟩ := List.forall_mem_cons.1 hcalm
    have hmore := Doings.conserves hrest (hbus.unsubscribe hquiet) hcalm
    exact hmore
  | .cleared hrest, hbus, hcalm => by
    obtain ⟨hquiet, -⟩ := List.forall_mem_cons.1 hcalm
    cases hquiet
  | .published h hrest, hbus, hcalm => by
    obtain ⟨hdelivery, hmore⟩ := List.forall_mem_append.1 hcalm
    obtain ⟨hfirst, hmiddle⟩ := Delivery.conserves h hbus hdelivery
    obtain ⟨hothers, hafter⟩ := Doings.conserves hrest hmiddle hmore
    refine ⟨fun e => ?_, hafter⟩
    simp only [heard_append, published_append, List.count_append, hfirst, hothers]

end

end conserves

/-! ## Runs of a bus -/

section runs

variable {W H : Type}

namespace Bus

/-- Somebody begins to sum up both channels. -/
def sumUp (bus : Bus (Option H)) : Bus (Option H) :=
  ((bus.subscribe .counter none).2.subscribe .status none).2

/-- The identifiers that the one who sums up is given. -/
def summingIds (bus : Bus (Option H)) : Channel → Nat
  | .counter => bus.nextId
  | .status => bus.nextId + 1

/-- Where nobody summed up before, one does now. -/
theorem sumUp_summedUp {bus : Bus (Option H)}
    (h : ∀ channel, ∀ s ∈ bus.subscribers channel, s.reaction.isNone = false) :
    bus.sumUp.SummedUp bus.summingIds := by
  have hnone : ∀ channel, ((bus.subscribers channel).filter fun s => s.reaction.isNone) = [] :=
    fun channel => List.filter_eq_nil_iff.2 fun s hs => by simp [h channel s hs]
  intro channel
  cases channel with
  | status => exact (List.filter_append _ _).trans (congrArg (· ++ _) (hnone .status))
  | counter => exact (List.filter_append _ _).trans (congrArg (· ++ _) (hnone .counter))

end Bus

/-- A run of a bus on which somebody sums up. At its beginning others may be subscribed already, and
the statistics are empty; from then on a program and the subscribers do with the bus what they like,
until the program ends, but nobody disturbs the one who sums up. -/
structure SummedRun (W H : Type) where
  bus : Bus (Option H)
  kept : W
  conduct : Option H → Event → Conduct (Statistics × W) (Option H)
  program : Conduct (Statistics × W) (Option H)
  depth : Nat
  others : ∀ channel, ∀ s ∈ bus.subscribers channel, s.reaction.isNone = false
  sums : ∀ event, conduct none event = summingUp event
  spares : ∀ reaction event, (conduct (some reaction) event).Spares
  program_spares : program.Spares
  finished : (program.run (emit conduct depth) { bus := bus.sumUp, kept := ({}, kept) }).2.cutOff
    = false
  calm : ∀ moment ∈
    (program.run (emit conduct depth) { bus := bus.sumUp, kept := ({}, kept) }).2.moments,
      moment.disturbs bus.summingIds = false

namespace SummedRun

variable (run : SummedRun W H)

/-- The scene at the beginning of a run. -/
def start : Scene (Statistics × W) (Option H) := { bus := run.bus.sumUp, kept := ({}, run.kept) }

/-- The scene at the end of a run. -/
def after : Scene (Statistics × W) (Option H) :=
  (run.program.run (emit run.conduct run.depth) run.start).2

/-- The statistics at the end of a run. -/
def statistics : Statistics := run.after.kept.1

/-- The events that are published in the course of a run, in the order of publication. -/
def events : List Event := published run.after.moments

/-- In the course of a run everything that is published is heard. -/
theorem heard_perm : (heard run.after.moments).Perm run.events := by
  obtain ⟨-, moments, hmoments, hdoings⟩ :=
    conduct_notes (emit_notes run.conduct run.depth) run.program run.start _ run.after rfl
      run.finished
  have hall : run.after.moments = moments := hmoments
  have hconserves := hdoings.conserves (Bus.sumUp_summedUp run.others) (hall ▸ run.calm)
  rw [events, hall]
  exact List.perm_iff_count.2 hconserves.1

/-- The statistics of a run are those of the events published. -/
theorem statistics_eq : run.statistics = run.events.foldl Statistics.observe {} := by
  obtain ⟨moments, hmoments, hkept⟩ :=
    conduct_books (emit_books run.sums run.spares run.depth) run.program_spares run.start _
      run.after rfl
  have hall : run.after.moments = moments := hmoments
  rw [statistics, hkept, ← hall]
  exact Statistics.observed_perm run.heard_perm

end SummedRun

/-- At the end of a run each sum is that of all events of its counter, and the number of status
texts is that of all status events, modulo `2 ^ 64`. So two runs in which the same events are
published end with the same statistics, in whatever order and however nested, and events of counters
without a name need not be the same. -/
theorem statistics_conserved (run : SummedRun W H) :
    (∀ counter ∈ Counter.all, run.statistics.total counter =
        wrap64 (grownBy counter (run.events.filterMap Event.growth?))) ∧
      run.statistics.statusUpdates =
        wrap64 (run.events.countP fun event => event.channel = .status) ∧
      ∀ {V G : Type} (other : SummedRun V G),
        (run.events.filter Event.counts).Perm (other.events.filter Event.counts) →
          run.statistics = other.statistics := by
  refine ⟨fun counter hnamed => ?_, ?_, fun other hsame => ?_⟩
  · rw [run.statistics_eq, Statistics.total_observed hnamed]
  · rw [run.statistics_eq, Statistics.statusUpdates_observed]
  · rw [run.statistics_eq, other.statistics_eq, ← Statistics.observed_filter,
      ← Statistics.observed_filter other.events, Statistics.observed_perm hsame]

/-- One of these answers every status with a copy and throws, another one every copy with a counter
that has no name; and somebody sums up. -/
def chatty : Option Nat → Event → Conduct (Statistics × Unit) (Option Nat)
  | none, event => summingUp event
  | some 1, .status attempt _ =>
    .publish (.increment attempt .copy 2) fun _ => .throw (.exception (utf8 "late"))
  | some 2, .increment attempt .copy _ => .publish (.increment attempt (.other 9) 5) fun _ => .done
  | some _, _ => .done

theorem chatty_spares (reaction : Nat) (event : Event) : (chatty (some reaction) event).Spares := by
  unfold chatty
  split
  · trivial
  all_goals simp_all [Conduct.Spares]

/-- A status, and a copy of a counter at its limit: the one who answers the status is called before
the one who sums up. -/
def nestedRun : SummedRun Unit Nat where
  bus := (({} : Bus (Option Nat)).subscribe .status (some 1)).2.subscribe .counter (some 2) |>.2
  kept := ()
  conduct := chatty
  program := .publish (.status (utf8 "a") (utf8 "x")) fun _ =>
    .publish (.increment (utf8 "b") .copy (2 ^ 64 - 1)) fun _ => .done
  depth := 3
  others channel := by cases channel <;> decide
  sums _ := rfl
  spares := chatty_spares
  program_spares := by simp [Conduct.Spares]
  finished := by rfl
  calm := by decide

/-- The same events but those of the counter without a name, one after another. -/
def flatRun : SummedRun Unit Nat where
  bus := {}
  kept := ()
  conduct := chatty
  program := .publish (.increment (utf8 "b") .copy (2 ^ 64 - 1)) fun _ =>
    .publish (.increment (utf8 "a") .copy 2) fun _ =>
    .publish (.status (utf8 "a") (utf8 "x")) fun _ => .done
  depth := 1
  others channel := by cases channel <;> decide
  sums _ := rfl
  spares := chatty_spares
  program_spares := by simp [Conduct.Spares]
  finished := by rfl
  calm := by decide

theorem statistics_conserved_nested :
    (nestedRun.events.filter Event.counts).Perm (flatRun.events.filter Event.counts) ∧
      nestedRun.events.length = 5 ∧ nestedRun.statistics.total .copy = 1 ∧
      nestedRun.statistics.statusUpdates = 1 ∧ nestedRun.statistics = flatRun.statistics := by
  obtain ⟨htotal, hstatus, hsame⟩ := statistics_conserved nestedRun
  have hperm : (nestedRun.events.filter Event.counts).Perm
      (flatRun.events.filter Event.counts) := by
    decide
  refine ⟨hperm, by decide, ?_, ?_, hsame flatRun hperm⟩
  · rw [htotal _ (by decide)]
    decide
  · rw [hstatus]
    decide

end runs

end StagedCopy
