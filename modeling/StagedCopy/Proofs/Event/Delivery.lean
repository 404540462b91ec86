import StagedCopy.Proofs.Event.Conduct

/-!
# Delivery to the subscribers of the moment

To publish an event is to call those who were subscribed when it was published, each of them once
and in the order in which they subscribed. What they do meanwhile makes no difference to this. An
ordinary exception is logged and goes no further; anything else that is thrown ends the delivery and
gets through to whoever published.

* `turnsOf` — the turns of the outermost delivery among all that is noted; `Taken` — those of a list
  of subscribers, up to the one who ends the delivery.
* `Turns.taken` — nested deliveries and changes of the table make no difference to the turns.
* `Bus.Reachable`, `Bus.Reachable.increasing` — identifiers grow in the order of subscription.
* `Bus.apply`, `Delivery.replays` — what one moment does to the table, and that nothing else changes
  it.
* `IsDelivered`, `publish_delivers` — the theorem.
-/

namespace StagedCopy

/-! ## Turns of one delivery -/

/-- Which subscribers are called and how each of them ends, when this many deliveries are under way:
of nested deliveries only the outermost counts. -/
def turnsOf {H : Type} : Nat → List (Moment H) → List (Moment H)
  | _, [] => []
  | nested, .published _ :: rest => turnsOf (nested + 1) rest
  | nested, .delivered .. :: rest => turnsOf (nested - 1) rest
  | nested, .called reaction event :: rest =>
    if nested = 1 then .called reaction event :: turnsOf nested rest else turnsOf nested rest
  | nested, .ended outcome :: rest =>
    if nested = 1 then .ended outcome :: turnsOf nested rest else turnsOf nested rest
  | nested, _ :: rest => turnsOf nested rest

/-- These are the turns that a list of subscribers takes, with how each ended, and this is what gets
through: all of them in order, unless one throws something else than an ordinary exception, which is
then the last. -/
structure Taken {H : Type} (subscribers : List (Subscription H))
    (turns : List (Subscription H × Except Thrown Unit)) (outcome : Except Thrown Unit) : Prop where
  inOrder : turns.map Prod.fst <+: subscribers
  all : outcome = .ok () → turns.map Prod.fst = subscribers ∧ ∀ t ∈ turns, t.2 ≠ .error .other
  broken : outcome ≠ .ok () → outcome = .error .other ∧
    ∃ before last, turns = before ++ [last] ∧ last.2 = .error .other ∧
      ∀ t ∈ before, t.2 ≠ .error .other

section turnsOf

variable {H : Type}

mutual

/-- A delivery within another has no turns of the other. -/
theorem turnsOf_delivery {bus after : Bus H} {event : Event} {moments : List (Moment H)}
    {outcome : Except Thrown Unit} (nested : Nat) (more : List (Moment H)) :
    Delivery bus event moments outcome after →
      turnsOf (nested + 1) (moments ++ more) = turnsOf (nested + 1) more
  | .intro h => by
    simpa [turnsOf] using turnsOf_turns nested (.delivered event outcome :: more) h

theorem turnsOf_turns {bus after : Bus H} {event : Event} {subscribers : List (Subscription H)}
    {moments : List (Moment H)} {outcome : Except Thrown Unit} (nested : Nat)
    (more : List (Moment H)) :
    Turns bus event subscribers moments outcome after →
      turnsOf (nested + 2) (moments ++ more) = turnsOf (nested + 2) more
  | .nil _ _ => rfl
  | .returned h hrest => by
    have hdoings := fun rest => turnsOf_doings (nested + 1) rest h
    have hturns := turnsOf_turns nested more hrest
    simp [turnsOf, hdoings, hturns]
  | .complained message h hrest => by
    have hdoings := fun rest => turnsOf_doings (nested + 1) rest h
    have hturns := turnsOf_turns nested more hrest
    simp [turnsOf, hdoings, hturns]
  | .broken h => by
    have hdoings := fun rest => turnsOf_doings (nested + 1) rest h
    simp [turnsOf, hdoings]

/-- What a subscriber does is no turn of the delivery in which it was called. -/
theorem turnsOf_doings {bus after : Bus H} {moments : List (Moment H)} (nested : Nat)
    (more : List (Moment H)) :
    Doings bus moments after →
      turnsOf (nested + 1) (moments ++ more) = turnsOf (nested + 1) more
  | .nil _ => rfl
  | .subscribed _ _ hrest => by simpa [turnsOf] using turnsOf_doings nested more hrest
  | .unsubscribed _ _ hrest => by simpa [turnsOf] using turnsOf_doings nested more hrest
  | .cleared hrest => by simpa [turnsOf] using turnsOf_doings nested more hrest
  | .published h hrest => by
    rw [List.append_assoc, turnsOf_delivery nested _ h, turnsOf_doings nested _ hrest]

end

/-- One more subscriber takes its turn before others. -/
theorem Taken.cons {s : Subscription H} {rest : List (Subscription H)} {ending : Except Thrown Unit}
    {turns : List (Subscription H × Except Thrown Unit)} {outcome : Except Thrown Unit}
    (h : Taken rest turns outcome) (hending : ending ≠ .error .other) :
    Taken (s :: rest) ((s, ending) :: turns) outcome where
  inOrder := by
    rw [List.map_cons, List.prefix_cons_inj]
    exact h.inOrder
  all hok := by
    obtain ⟨hall, hturns⟩ := h.all hok
    refine ⟨by rw [List.map_cons, hall], ?_⟩
    intro t ht
    rcases List.mem_cons.1 ht with rfl | ht
    · exact hending
    · exact hturns t ht
  broken hnot := by
    obtain ⟨houtcome, before, last, rfl, hlast, hbefore⟩ := h.broken hnot
    refine ⟨houtcome, (s, ending) :: before, last, rfl, hlast, ?_⟩
    intro t ht
    rcases List.mem_cons.1 ht with rfl | ht
    · exact hending
    · exact hbefore t ht

/-- The subscribers are called one after another, and what they do stays within their turns. -/
theorem Turns.taken {bus after : Bus H} {event : Event} {subscribers : List (Subscription H)}
    {moments : List (Moment H)} {outcome : Except Thrown Unit} (more : List (Moment H)) :
    Turns bus event subscribers moments outcome after →
      ∃ turns, Taken subscribers turns outcome ∧ turnsOf 1 (moments ++ more) =
        turns.flatMap (fun t => [.called t.1.reaction event, .ended t.2]) ++ turnsOf 1 more
  | .nil _ _ => ⟨[], ⟨List.prefix_rfl, by simp, by simp⟩, rfl⟩
  | .returned (s := s) h hrest => by
    obtain ⟨turns, htaken, hturns⟩ := Turns.taken more hrest
    have hdoings := fun rest => turnsOf_doings 0 rest h
    refine ⟨(s, .ok ()) :: turns, htaken.cons (by simp), ?_⟩
    simpa [turnsOf, hdoings] using hturns
  | .complained (s := s) message h hrest => by
    obtain ⟨turns, htaken, hturns⟩ := Turns.taken more hrest
    have hdoings := fun rest => turnsOf_doings 0 rest h
    refine ⟨(s, .error (.exception message)) :: turns, htaken.cons (by simp), ?_⟩
    simpa [turnsOf, hdoings] using hturns
  | .broken (s := s) h => by
    have hdoings := fun rest => turnsOf_doings 0 rest h
    refine ⟨[(s, .error .other)], ⟨by simp, by simp, ?_⟩, by simp [turnsOf, hdoings]⟩
    exact fun _ => ⟨rfl, [], _, rfl, rfl, by simp⟩

end turnsOf

/-! ## Buses that can come to be -/

namespace Bus

variable {H : Type} {bus : Bus H}

/-- The buses that come from an empty one by subscribing, unsubscribing and clearing. -/
inductive Reachable : Bus H → Prop where
  | new : Reachable {}
  | subscribe {bus : Bus H} (h : Reachable bus) (channel : Channel) (reaction : H) :
      Reachable (bus.subscribe channel reaction).2
  | unsubscribe {bus : Bus H} (h : Reachable bus) (channel : Channel) (id : Nat) :
      Reachable (bus.unsubscribe channel id)
  | clear {bus : Bus H} (h : Reachable bus) : Reachable bus.clear

/-- The subscribers of a channel stand in the order of their identifiers, all of which were given
out. -/
theorem Reachable.increasing (h : bus.Reachable) (channel : Channel) :
    ((bus.subscribers channel).Pairwise fun s t => s.id < t.id) ∧
      ∀ s ∈ bus.subscribers channel, s.id < bus.nextId := by
  induction h with
  | new => cases channel <;> simp [subscribers]
  | @subscribe bus _ joined reaction ih =>
    have hnext : (bus.subscribe joined reaction).2.nextId = bus.nextId + 1 := rfl
    rw [hnext, subscribers_subscribe]
    split
    · next heq =>
      subst heq
      constructor
      · rw [List.pairwise_append]
        refine ⟨ih.1, List.pairwise_singleton _ _, ?_⟩
        intro s hs t ht
        rw [List.mem_singleton.1 ht]
        exact ih.2 s hs
      · intro s hs
        rcases List.mem_append.1 hs with hs | hs
        · exact Nat.lt_succ_of_lt (ih.2 s hs)
        · rw [List.mem_singleton.1 hs]
          exact Nat.lt_succ_self _
    · exact ⟨ih.1, fun s hs => Nat.lt_succ_of_lt (ih.2 s hs)⟩
  | @unsubscribe bus _ left id ih =>
    have hnext : (bus.unsubscribe left id).nextId = bus.nextId := nextId_withSubscribers ..
    rw [hnext, subscribers_unsubscribe]
    split
    · next heq =>
      subst heq
      exact ⟨ih.1.filter _, fun s hs => ih.2 s (List.mem_filter.1 hs).1⟩
    · exact ih
  | clear => simp

/-- What a moment does to the table. -/
def apply (bus : Bus H) : Moment H → Bus H
  | .subscribed channel reaction => (bus.subscribe channel reaction).2
  | .unsubscribed channel id => bus.unsubscribe channel id
  | .cleared => bus.clear
  | _ => bus

theorem Reachable.apply (h : bus.Reachable) (moment : Moment H) : (bus.apply moment).Reachable := by
  cases moment with
  | subscribed channel reaction => exact h.subscribe channel reaction
  | unsubscribed channel id => exact h.unsubscribe channel id
  | cleared => exact h.clear
  | _ => exact h

theorem Reachable.replay (h : bus.Reachable) (moments : List (Moment H)) :
    (moments.foldl Bus.apply bus).Reachable := by
  induction moments generalizing bus with
  | nil => exact h
  | cons moment more ih => exact ih (h.apply moment)

end Bus

section replays

variable {H : Type}

mutual

/-- Nothing changes the table but what is noted. -/
theorem Delivery.replays {bus after : Bus H} {event : Event} {moments : List (Moment H)}
    {outcome : Except Thrown Unit} :
    Delivery bus event moments outcome after → moments.foldl Bus.apply bus = after
  | .intro h => by simp [Bus.apply, Turns.replays h]

theorem Turns.replays {bus after : Bus H} {event : Event} {subscribers : List (Subscription H)}
    {moments : List (Moment H)} {outcome : Except Thrown Unit} :
    Turns bus event subscribers moments outcome after → moments.foldl Bus.apply bus = after
  | .nil _ _ => rfl
  | .returned h hrest => by simp [Bus.apply, Doings.replays h, Turns.replays hrest]
  | .complained _ h hrest => by simp [Bus.apply, Doings.replays h, Turns.replays hrest]
  | .broken h => by simp [Bus.apply, Doings.replays h]

theorem Doings.replays {bus after : Bus H} {moments : List (Moment H)} :
    Doings bus moments after → moments.foldl Bus.apply bus = after
  | .nil _ => rfl
  | .subscribed _ _ hrest => by simp [Bus.apply, Doings.replays hrest]
  | .unsubscribed _ _ hrest => by simp [Bus.apply, Doings.replays hrest]
  | .cleared hrest => by simp [Bus.apply, Doings.replays hrest]
  | .published h hrest => by simp [Delivery.replays h, Doings.replays hrest]

end

theorem Delivery.reachable {bus after : Bus H} {event : Event} {moments : List (Moment H)}
    {outcome : Except Thrown Unit} (h : Delivery bus event moments outcome after)
    (hbus : bus.Reachable) : after.Reachable := by
  rw [← h.replays]
  exact hbus.replay moments

end replays

/-! ## The theorem -/

/-- What is noted when an event is published: its delivery, with all that happens in the course of
it. The turns are taken by those who are subscribed when it begins, and these stand in the order in
which they subscribed, each of them once. -/
structure IsDelivered {H : Type} (bus : Bus H) (event : Event) (moments : List (Moment H))
    (outcome : Except Thrown Unit) (after : Bus H) : Prop where
  delivery : Delivery bus event moments outcome after
  taken : ∃ turns, Taken (bus.subscribers event.channel) turns outcome ∧
    turnsOf 0 moments = turns.flatMap fun t => [.called t.1.reaction event, .ended t.2]
  once : (bus.subscribers event.channel).Pairwise fun s t => s.id < t.id
  reachable : after.Reachable

/-- An event is delivered to exactly those who are subscribed when it is published, whatever they do
meanwhile. -/
theorem publish_delivers {W H : Type} {conduct : H → Event → Conduct W H} {event : Event}
    {scene after : Scene W H} {outcome : Except Thrown Unit} (hbus : scene.bus.Reachable)
    (h : Comes conduct event scene outcome after) :
    ∃ moments, after.moments = scene.moments ++ moments ∧
      IsDelivered scene.bus event moments outcome after.bus := by
  obtain ⟨depth, hrun, hcut⟩ := h
  obtain ⟨-, moments, hmoments, hdelivery⟩ := emit_notes conduct depth event _ _ _ hrun hcut
  refine ⟨moments, hmoments, hdelivery, ?_, (hbus.increasing _).1, hdelivery.reachable hbus⟩
  cases hdelivery with
  | intro hturns =>
    obtain ⟨turns, htaken, hcalls⟩ := hturns.taken [.delivered event outcome]
    refine ⟨turns, htaken, ?_⟩
    simpa [turnsOf] using hcalls

/-- What some subscribers do: the first lets another in and the second out and counts a copy, at
which the one who hears of it clears the bus; the second and the third throw. -/
def unruly : Nat → Event → Conduct Unit Nat
  | 1, .status attempt _ =>
    .subscribe .status 5 fun _ => .unsubscribe .status 1 <|
      .publish (.increment attempt .copy 1) fun _ => .done
  | 2, .status .. => .throw (.exception (utf8 "late"))
  | 3, .status .. => .throw .other
  | 4, .increment .. => .clear .done
  | _, _ => .done

/-- A bus with three subscribers to one channel and one to the other. -/
def unrulyBus : Bus Nat :=
  ((((({} : Bus Nat).subscribe .status 1).2.subscribe .status 2).2.subscribe .counter 4).2.subscribe
    .status 3).2

theorem publish_delivers_unruly :
    unrulyBus.Reachable ∧
    Comes unruly (.status (utf8 "a") (utf8 "b")) { bus := unrulyBus, kept := () } (.error .other)
      (emit unruly 2 (.status (utf8 "a") (utf8 "b")) { bus := unrulyBus, kept := () }).2 ∧
    ∃ moments after, IsDelivered unrulyBus (.status (utf8 "a") (utf8 "b")) moments (.error .other)
        after ∧
      turnsOf 0 moments =
        [.called 1 (.status (utf8 "a") (utf8 "b")), .ended (.ok ()),
          .called 2 (.status (utf8 "a") (utf8 "b")), .ended (.error (.exception (utf8 "late"))),
          .called 3 (.status (utf8 "a") (utf8 "b")), .ended (.error .other)] ∧
      after.subscribers .status = [] := by
  have hreachable : unrulyBus.Reachable :=
    (((Bus.Reachable.new.subscribe .status 1).subscribe .status 2).subscribe .counter 4).subscribe
      .status 3
  have hcomes : Comes unruly (.status (utf8 "a") (utf8 "b")) { bus := unrulyBus, kept := () }
      (.error .other)
      (emit unruly 2 (.status (utf8 "a") (utf8 "b")) { bus := unrulyBus, kept := () }).2 :=
    ⟨2, rfl, rfl⟩
  obtain ⟨moments, hmoments, hdelivered⟩ := publish_delivers hreachable hcomes
  refine ⟨hreachable, hcomes, moments, _, hdelivered, ?_, rfl⟩
  rw [List.nil_append] at hmoments
  rw [← hmoments]
  rfl

end StagedCopy
