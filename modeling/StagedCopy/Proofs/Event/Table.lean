import Mathlib.Data.List.Nodup
import StagedCopy.Proofs.Event.Delivery

/-!
# The table of subscribers at every point of a run

A program subscribes, lets others leave, clears the bus and publishes events, and the subscribers
that hear of these do the same from inside their calls. Wherever such a run has got to, what the
table holds can be told from what has happened until then: the identifiers were given out one after
another, over both channels and whether or not the bus was cleared meanwhile, and those stand in the
table, in the order in which they subscribed, who have neither left their channel since nor been
cleared away.

* `Enrolment`, `enrolments` — the subscriptions of a run, with all that has happened since.
* `Bus.Records` — what the table records of the past; `Records.apply`, that one more moment is
  recorded, and `Passes.records`, that all are.
* `Passes` — the points of a run, those inside the calls of subscribers among them; `passes_end`.
* `TableKept`, `table_kept` — the theorem.
-/

namespace StagedCopy

variable {W H : Type}

/-! ## Subscriptions of a run -/

/-- A subscription: its channel, the identifier that was given out for it, what is subscribed, and
all that has happened since. -/
structure Enrolment (H : Type) where
  channel : Channel
  id : Nat
  reaction : H
  since : List (Moment H)

/-- The subscriptions among what happens, in order, when the first identifier is given. -/
def enrolments : Nat → List (Moment H) → List (Enrolment H)
  | _, [] => []
  | first, .subscribed channel reaction :: later =>
    ⟨channel, first, reaction, later⟩ :: enrolments (first + 1) later
  | first, _ :: later => enrolments first later

/-- The moment ends the subscription on a channel with an identifier. -/
def Moment.ends (channel : Channel) (id : Nat) : Moment H → Bool
  | .unsubscribed left other => left = channel && other = id
  | .cleared => true
  | _ => false

namespace Enrolment

/-- Nothing has ended the subscription. -/
def stands (e : Enrolment H) : Bool := !e.since.any (Moment.ends e.channel e.id)

/-- The entry in the table. -/
def entry (e : Enrolment H) : Subscription H := ⟨e.id, e.reaction⟩

/-- More has happened since. -/
def extend (more : List (Moment H)) (e : Enrolment H) : Enrolment H :=
  { e with since := e.since ++ more }

theorem stands_extend (more : List (Moment H)) (e : Enrolment H) :
    (e.extend more).stands = (e.stands && !more.any (Moment.ends e.channel e.id)) := by
  simp [stands, extend]

end Enrolment

theorem enrolments_append (first : Nat) (past more : List (Moment H)) :
    enrolments first (past ++ more) = (enrolments first past).map (Enrolment.extend more)
      ++ enrolments (first + (enrolments first past).length) more := by
  induction past generalizing first with
  | nil => rfl
  | cons moment past ih =>
    cases moment with
    | subscribed channel reaction =>
      rw [List.cons_append, enrolments, enrolments, ih, List.map_cons, List.length_cons,
        List.cons_append, Nat.add_assoc, Nat.add_comm 1]
      rfl
    | _ => exact ih first

/-- The identifiers are given out one after another. -/
theorem ids_enrolments (first : Nat) (past : List (Moment H)) :
    (enrolments first past).map Enrolment.id
      = List.range' first (enrolments first past).length := by
  induction past generalizing first with
  | nil => rfl
  | cons moment past ih =>
    cases moment with
    | subscribed channel reaction =>
      rw [enrolments, List.map_cons, ih, List.length_cons, List.range'_succ]
    | _ => exact ih first

theorem eq_of_same_id {first : Nat} {past : List (Moment H)} {e other : Enrolment H}
    (he : e ∈ enrolments first past) (hother : other ∈ enrolments first past)
    (hid : e.id = other.id) : e = other := by
  have hnodup : ((enrolments first past).map Enrolment.id).Nodup := by
    rw [ids_enrolments]
    exact List.nodup_range'
  exact List.inj_on_of_nodup_map hnodup he hother hid

/-- The entries of a channel that stand after what has happened. -/
def standing (channel : Channel) (past : List (Moment H)) : List (Subscription H) :=
  ((enrolments 0 past).filter fun e => e.channel = channel && e.stands).map Enrolment.entry

theorem mem_standing {channel : Channel} {past : List (Moment H)} {s : Subscription H} :
    s ∈ standing channel past ↔
      ∃ e ∈ enrolments 0 past, e.channel = channel ∧ e.stands = true ∧ e.entry = s := by
  simp [standing, and_assoc]

/-- One more moment: it ends some subscriptions, and it may be one itself. -/
theorem standing_concat (channel : Channel) (past : List (Moment H)) (moment : Moment H) :
    standing channel (past ++ [moment])
      = ((standing channel past).filter fun s => !moment.ends channel s.id)
        ++ ((enrolments (enrolments 0 past).length [moment]).filter fun e =>
          e.channel = channel && e.stands).map Enrolment.entry := by
  rw [standing, enrolments_append, List.filter_append, List.map_append, Nat.zero_add]
  congr 1
  rw [standing, List.filter_map, List.map_map, List.filter_map, List.filter_filter]
  refine congrArg (List.map Enrolment.entry) (List.filter_congr fun e _ => ?_)
  show (decide (e.channel = channel) && (e.extend [moment]).stands)
    = (!moment.ends channel e.id && (decide (e.channel = channel) && e.stands))
  by_cases hchannel : e.channel = channel
  · rw [Enrolment.stands_extend, hchannel]
    simp [Bool.and_comm]
  · simp [hchannel]

/-! ## What the table records -/

namespace Bus

/-- The table records what has happened: how many have subscribed, and who stands. -/
structure Records (bus : Bus H) (past : List (Moment H)) : Prop where
  nextId : bus.nextId = (enrolments 0 past).length
  subscribers : ∀ channel, bus.subscribers channel = standing channel past

theorem records_new : Records ({} : Bus H) [] := ⟨rfl, fun channel => by cases channel <;> rfl⟩

variable {bus : Bus H} {past : List (Moment H)}

theorem Records.apply (h : bus.Records past) (moment : Moment H) :
    (bus.apply moment).Records (past ++ [moment]) := by
  constructor
  · rw [enrolments_append, List.length_append, List.length_map, ← h.nextId]
    cases moment with
    | unsubscribed channel id => exact nextId_withSubscribers ..
    | _ => rfl
  · intro channel
    rw [standing_concat, ← h.subscribers, ← h.nextId]
    cases moment with
    | subscribed joined reaction =>
      have hnone : (fun s : Subscription H =>
          !(Moment.subscribed joined reaction : Moment H).ends channel s.id) = fun _ => true := rfl
      rw [Bus.apply, subscribers_subscribe, hnone, List.filter_true]
      by_cases hchannel : channel = joined
      · simp [enrolments, hchannel, Enrolment.stands, Enrolment.entry]
      · simp [enrolments, hchannel, Ne.symm hchannel]
    | unsubscribed left id =>
      rw [Bus.apply, subscribers_unsubscribe]
      by_cases hchannel : channel = left
      · subst hchannel
        simp [enrolments, Moment.ends, bne, beq_eq_decide, @eq_comm _ id]
      · simp [enrolments, Moment.ends, hchannel, Ne.symm hchannel]
    | cleared => simp [enrolments, Moment.ends, Bus.apply]
    | _ => simp [enrolments, Moment.ends, Bus.apply]

theorem Records.replay (h : bus.Records past) (moments : List (Moment H)) :
    (moments.foldl Bus.apply bus).Records (past ++ moments) := by
  induction moments generalizing bus past with
  | nil => rwa [List.append_nil]
  | cons moment more ih =>
    rw [List.append_cons]
    exact ih (h.apply moment)

end Bus

/-! ## Points of a run -/

/-- What gets through to whoever has published an event. -/
def learnt : Except Thrown Unit → Option Thrown
  | .ok () => none
  | .error thrown => some thrown

/-- A run passes a point: someone is about to do the given next steps, in this scene. Besides the
points of the program itself, these are the points of a subscriber that is called while an event is
published, after those who are called before it. Whether the run ever comes to an end makes no
difference to this. -/
inductive Passes (conduct : H → Event → Conduct W H) :
    Conduct W H → Scene W H → Conduct W H → Scene W H → Prop where
  | here (steps : Conduct W H) (scene : Scene W H) : Passes conduct steps scene steps scene
  | keep {change : W → W} {next : W → Conduct W H} {scene point : Scene W H} {steps : Conduct W H}
      (h : Passes conduct (next (change scene.kept)) { scene with kept := change scene.kept } steps
        point) :
      Passes conduct (.keep change next) scene steps point
  | subscribe {channel : Channel} {reaction : H} {next : Nat → Conduct W H}
      {scene point : Scene W H} {steps : Conduct W H}
      (h : Passes conduct (next (scene.bus.subscribe channel reaction).1)
        (scene.change (scene.bus.subscribe channel reaction).2 (.subscribed channel reaction)) steps
        point) :
      Passes conduct (.subscribe channel reaction next) scene steps point
  | unsubscribe {channel : Channel} {id : Nat} {next : Conduct W H} {scene point : Scene W H}
      {steps : Conduct W H}
      (h : Passes conduct next
        (scene.change (scene.bus.unsubscribe channel id) (.unsubscribed channel id)) steps point) :
      Passes conduct (.unsubscribe channel id next) scene steps point
  | clear {next : Conduct W H} {scene point : Scene W H} {steps : Conduct W H}
      (h : Passes conduct next (scene.change scene.bus.clear .cleared) steps point) :
      Passes conduct (.clear next) scene steps point
  | count {channel : Channel} {next : Nat → Conduct W H} {scene point : Scene W H}
      {steps : Conduct W H}
      (h : Passes conduct (next (scene.bus.count channel)) scene steps point) :
      Passes conduct (.count channel next) scene steps point
  | during {event : Event} {next : Option Thrown → Conduct W H} {scene middle point : Scene W H}
      {before rest : List (Subscription H)} {s : Subscription H} {steps : Conduct W H} {depth : Nat}
      (hsubscribers : scene.bus.subscribers event.channel = before ++ s :: rest)
      (hbefore : deliver Scene.complain (turn (emit conduct depth) conduct) event before
        (scene.note (.published event)) = (.ok (), middle))
      (hcut : middle.cutOff = false)
      (h : Passes conduct (conduct s.reaction event) (middle.note (.called s.reaction event)) steps
        point) :
      Passes conduct (.publish event next) scene steps point
  | published {event : Event} {next : Option Thrown → Conduct W H} {scene middle point : Scene W H}
      {outcome : Except Thrown Unit} {steps : Conduct W H}
      (hcomes : Comes conduct event scene outcome middle)
      (h : Passes conduct (next (learnt outcome)) middle steps point) :
      Passes conduct (.publish event next) scene steps point

section passes

variable {conduct : H → Event → Conduct W H} {program steps : Conduct W H}
  {scene point : Scene W H}

/-- The first subscriber is called at once. -/
theorem Passes.first {event : Event} {next : Option Thrown → Conduct W H} {s : Subscription H}
    {rest : List (Subscription H)} (hsubscribers : scene.bus.subscribers event.channel = s :: rest)
    (hcut : scene.cutOff = false)
    (h : Passes conduct (conduct s.reaction event)
      ((scene.note (.published event)).note (.called s.reaction event)) steps point) :
    Passes conduct (.publish event next) scene steps point :=
  @Passes.during _ _ _ _ _ _ _ _ [] _ _ _ 0 hsubscribers rfl hcut h

/-- A run that comes to an end passes it. -/
theorem passes_end {depth : Nat} {outcome : Except Thrown Unit} {after : Scene W H}
    (hrun : program.run (emit conduct depth) scene = (outcome, after))
    (hcut : after.cutOff = false) : ∃ last, Passes conduct program scene last after := by
  induction program generalizing scene with
  | done =>
    obtain ⟨-, rfl⟩ := Prod.ext_iff.1 hrun
    exact ⟨_, .here _ _⟩
  | throw thrown =>
    obtain ⟨-, rfl⟩ := Prod.ext_iff.1 hrun
    exact ⟨_, .here _ _⟩
  | keep change next ih =>
    obtain ⟨last, h⟩ := ih _ hrun
    exact ⟨last, .keep h⟩
  | subscribe channel reaction next ih =>
    obtain ⟨last, h⟩ := ih _ hrun
    exact ⟨last, .subscribe h⟩
  | unsubscribe channel id next ih =>
    obtain ⟨last, h⟩ := ih hrun
    exact ⟨last, .unsubscribe h⟩
  | clear next ih =>
    obtain ⟨last, h⟩ := ih hrun
    exact ⟨last, .clear h⟩
  | count channel next ih =>
    obtain ⟨last, h⟩ := ih _ hrun
    exact ⟨last, .count h⟩
  | publish event next ih =>
    rcases hemit : emit conduct depth event scene with ⟨got, middle⟩
    have hnext : (next (learnt got)).run (emit conduct depth) middle = (outcome, after) := by
      rw [Conduct.run, hemit] at hrun
      cases got with
      | ok value => exact hrun
      | error thrown => exact hrun
    obtain ⟨hmiddle, -⟩ := conduct_notes (emit_notes conduct depth) _ _ _ _ hnext hcut
    obtain ⟨last, h⟩ := ih _ hnext
    exact ⟨last, .published ⟨depth, hemit, hmiddle⟩ h⟩

/-- At every point of a run, the table records what has happened until then. -/
theorem Passes.records (h : Passes conduct program scene steps point)
    (hscene : scene.bus.Records scene.moments) : point.bus.Records point.moments := by
  induction h with
  | here => exact hscene
  | keep _ ih => exact ih hscene
  | subscribe _ ih => exact ih (hscene.apply (.subscribed _ _))
  | unsubscribe _ ih => exact ih (hscene.apply (.unsubscribed _ _))
  | clear _ ih => exact ih (hscene.apply .cleared)
  | count _ ih => exact ih hscene
  | @during _ _ _ middle _ _ _ _ _ _ _ hbefore hcut _ ih =>
    obtain ⟨-, moments, hmoments, hturns⟩ :=
      deliver_notes (emit_notes conduct _) conduct _ _ _ _ _ hbefore hcut
    have hmiddle : middle.bus.Records middle.moments := by
      rw [hmoments, ← hturns.replays]
      exact (hscene.apply (.published _)).replay moments
    exact ih (hmiddle.apply (.called _ _))
  | published hcomes _ ih =>
    obtain ⟨depth, hemit, hcut⟩ := hcomes
    obtain ⟨-, moments, hmoments, hdelivery⟩ := emit_notes conduct depth _ _ _ _ hemit hcut
    refine ih ?_
    rw [hmoments, ← hdelivery.replays]
    exact hscene.replay moments

end passes

/-! ## The theorem -/

/-- The table of a bus on which something has happened. An identifier that is given out is greater
than all that were, on whichever channel and however often the bus was cleared. The subscribers of a
channel stand in the order of their identifiers, and there are as many as have subscribed, were not
cleared away and have not left since. To let an identifier leave a channel takes away the one entry
of the channel that has it and is without any effect where there is none; there is none with an
identifier that was given out on the other channel, or before the bus was cleared. -/
structure TableKept (past : List (Moment H)) (bus : Bus H) : Prop where
  returned : ∀ channel reaction, (enrolments 0 (past ++ [.subscribed channel reaction])).getLast?
    = some ⟨channel, (bus.subscribe channel reaction).1, reaction, []⟩
  fresh : ∀ channel reaction, ∀ e ∈ enrolments 0 past, e.id < (bus.subscribe channel reaction).1
  distinct : ((enrolments 0 past).map Enrolment.id).Nodup
  increasing : ∀ channel, (bus.subscribers channel).Pairwise fun s t => s.id < t.id
  counted : ∀ channel, bus.count channel
    = (enrolments 0 past).countP fun e => e.channel = channel && e.stands
  removes : ∀ channel before s after, bus.subscribers channel = before ++ s :: after →
    (bus.unsubscribe channel s.id).subscribers channel = before ++ after ∧
      (∀ other ≠ channel, (bus.unsubscribe channel s.id).subscribers other
        = bus.subscribers other) ∧
      (bus.unsubscribe channel s.id).nextId = bus.nextId
  absent : ∀ channel id, (∀ s ∈ bus.subscribers channel, s.id ≠ id) →
    bus.unsubscribe channel id = bus
  foreign : ∀ channel, ∀ e ∈ enrolments 0 past, e.channel ≠ channel →
    bus.unsubscribe channel e.id = bus
  outdated : ∀ channel before later, past = before ++ .cleared :: later →
    ∀ e ∈ enrolments 0 before, bus.unsubscribe channel e.id = bus

namespace Bus

variable {bus : Bus H} {past : List (Moment H)} {channel : Channel}

/-- Who has no entry on a channel need not leave it. -/
theorem unsubscribe_of_absent {id : Nat} (h : ∀ s ∈ bus.subscribers channel, s.id ≠ id) :
    bus.unsubscribe channel id = bus := by
  have hkept : ((bus.subscribers channel).filter fun s => s.id != id) = bus.subscribers channel :=
    List.filter_eq_self.2 fun s hs => bne_iff_ne.2 (h s hs)
  rw [unsubscribe, hkept]
  cases channel <;> rfl

theorem Records.increasing (h : bus.Records past) (channel : Channel) :
    (bus.subscribers channel).Pairwise fun s t => s.id < t.id := by
  have hids : (enrolments 0 past).Pairwise fun e other => e.id < other.id := by
    rw [← List.pairwise_map, ids_enrolments]
    exact List.pairwise_lt_range'
  rw [h.subscribers, standing, List.pairwise_map]
  exact hids.filter _

theorem Records.count (h : bus.Records past) (channel : Channel) : bus.count channel
    = (enrolments 0 past).countP fun e => e.channel = channel && e.stands := by
  rw [Bus.count, h.subscribers, standing, List.length_map, List.countP_eq_length_filter]

/-- A subscription has no entry on another channel, nor on any when it has ended. -/
theorem Records.absent (h : bus.Records past) {e : Enrolment H} (he : e ∈ enrolments 0 past)
    (hgone : e.channel ≠ channel ∨ e.stands = false) :
    ∀ s ∈ bus.subscribers channel, s.id ≠ e.id := by
  intro s hs hid
  rw [h.subscribers] at hs
  obtain ⟨other, hother, hchannel, hstands, rfl⟩ := mem_standing.1 hs
  obtain rfl : other = e := eq_of_same_id hother he hid
  rcases hgone with hgone | hgone
  · exact hgone hchannel
  · rw [hstands] at hgone
    cases hgone

/-- In an increasing list an identifier stands once. -/
theorem Records.subscribers_unsubscribe_self (h : bus.Records past)
    {before after : List (Subscription H)} {s : Subscription H}
    (hlist : bus.subscribers channel = before ++ s :: after) :
    (bus.unsubscribe channel s.id).subscribers channel = before ++ after := by
  have hincreasing := h.increasing channel
  rw [hlist, List.pairwise_append, List.pairwise_cons] at hincreasing
  obtain ⟨-, ⟨hafter, -⟩, hbefore⟩ := hincreasing
  rw [subscribers_unsubscribe, if_pos rfl, hlist, List.filter_append,
    List.filter_cons_of_neg (by simp)]
  congr 1
  · refine List.filter_eq_self.2 fun t ht => bne_iff_ne.2 ?_
    exact Nat.ne_of_lt (hbefore t ht s List.mem_cons_self)
  · exact List.filter_eq_self.2 fun t ht => bne_iff_ne.2 (Nat.ne_of_gt (hafter t ht))

/-- What a table records settles all this. -/
theorem Records.tableKept (h : bus.Records past) : TableKept past bus where
  returned channel reaction := by
    rw [enrolments_append, Nat.zero_add, ← h.nextId]
    exact List.getLast?_concat
  fresh channel reaction e he := by
    have hid : e.id ∈ (enrolments 0 past).map Enrolment.id := List.mem_map_of_mem he
    rw [ids_enrolments, ← h.nextId, List.mem_range'_1] at hid
    have hreturned : (bus.subscribe channel reaction).1 = bus.nextId := rfl
    omega
  distinct := by
    rw [ids_enrolments]
    exact List.nodup_range'
  increasing := h.increasing
  counted := h.count
  removes channel before s after hlist := by
    refine ⟨h.subscribers_unsubscribe_self hlist, fun other hother => ?_, ?_⟩
    · rw [subscribers_unsubscribe, if_neg hother]
    · exact nextId_withSubscribers ..
  absent _ _ := unsubscribe_of_absent
  foreign _ _ he hchannel := unsubscribe_of_absent (h.absent he (.inl hchannel))
  outdated channel before later hpast e he := by
    have hmem : e.extend (.cleared :: later) ∈ enrolments 0 past := by
      rw [hpast, enrolments_append]
      exact List.mem_append_left _ (List.mem_map_of_mem he)
    have hgone : (e.extend (.cleared :: later)).stands = false := by
      simp [Enrolment.stands_extend, Moment.ends]
    have habsent : ∀ s ∈ bus.subscribers channel, s.id ≠ (e.extend (.cleared :: later)).id :=
      h.absent hmem (.inr hgone)
    exact unsubscribe_of_absent habsent

end Bus

/-- At every point of every run that begins with a new bus, inside the calls of subscribers too, and
when it comes to an end, the table is kept as described. -/
theorem table_kept (conduct : H → Event → Conduct W H) (program : Conduct W H) (kept : W) :
    (∀ steps point, Passes conduct program { kept := kept } steps point →
      TableKept point.moments point.bus) ∧
    ∀ depth outcome after, program.run (emit conduct depth) { kept := kept } = (outcome, after) →
      after.cutOff = false → TableKept after.moments after.bus := by
  have hpoint {steps : Conduct W H} {point : Scene W H}
      (h : Passes conduct program { kept := kept } steps point) :
      TableKept point.moments point.bus := (h.records Bus.records_new).tableKept
  refine ⟨fun _ _ => hpoint, fun depth outcome after hrun hcut => ?_⟩
  obtain ⟨last, h⟩ := passes_end hrun hcut
  exact hpoint h

/-- What some subscribers do: the first lets another in on the other channel and counts a copy; who
hears of it clears the bus and subscribes anew. -/
def renewing : Nat → Event → Conduct Unit Nat
  | 1, .status attempt _ =>
    .subscribe .counter 2 fun _ => .publish (.increment attempt .copy 1) fun _ => .done
  | 2, .increment .. => .clear <| .subscribe .status 3 fun id => .unsubscribe .counter id .done
  | _, _ => .done

/-- Inside the inner call, after the bus was cleared: who has subscribed since is there alone, and
is not touched when its identifier leaves the other channel, nor when one from before leaves. -/
theorem table_kept_renewed : ∃ point : Scene Unit Nat,
    Passes renewing
      (.subscribe .status 1 fun _ => .publish (.status (utf8 "a") (utf8 "b")) fun _ => .done)
      { kept := () } (.unsubscribe .counter 2 .done) point ∧
    point.bus.subscribers .status = [⟨2, 3⟩] ∧ point.bus.unsubscribe .counter 2 = point.bus ∧
    point.bus.unsubscribe .status 0 = point.bus := by
  have hpasses : Passes renewing
      (.subscribe .status 1 fun _ => .publish (.status (utf8 "a") (utf8 "b")) fun _ => .done)
      { kept := () } (.unsubscribe .counter 2 .done) _ :=
    .subscribe <| .first rfl rfl <| .subscribe <| .first rfl rfl <|
      .clear <| .subscribe <| .here _ _
  have hkept := (table_kept _ _ _).1 _ _ hpasses
  refine ⟨_, hpasses, rfl, ?_, ?_⟩
  · refine hkept.foreign .counter ⟨.status, 2, 3, []⟩ ?_ (by decide)
    simp [Scene.note, Scene.change, enrolments]
  · exact hkept.outdated .status
      [.subscribed .status 1, .published (.status (utf8 "a") (utf8 "b")),
        .called 1 (.status (utf8 "a") (utf8 "b")), .subscribed .counter 2,
        .published (.increment (utf8 "a") .copy 1), .called 2 (.increment (utf8 "a") .copy 1)]
      [.subscribed .status 3] rfl _ (.head _)

end StagedCopy
