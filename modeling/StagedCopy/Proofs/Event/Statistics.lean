import Mathlib.Algebra.GroupWithZero.Nat
import StagedCopy.Event.Statistics

/-!
# What statistics sum up

Statistics that observe some events hold, for each counter with a name, the sum of what the counter
grew by, modulo `2 ^ 64`. Nothing else matters of the events: neither their order, nor the tasks
that they come from, nor the status texts among them.

* `Event.growth?`, `grownBy` — what an event adds, and what many add to one counter.
* `Statistics.total` — the sum that belongs to a counter.
* `Statistics.total_observed`, `Statistics.statusUpdates_observed` — the sums after any list of
  events.
* `Statistics.observed_perm`, `Statistics.observed_filter` — neither their order matters, nor any
  event of a counter without a name.
-/

namespace StagedCopy

/-- The counter that an event reports to have grown, and by how much. -/
def Event.growth? : Event → Option (Counter × Nat)
  | .status .. => none
  | .increment _ counter value => some (counter, value)

/-- All events count but those of a counter without a name. -/
def Event.counts : Event → Bool
  | .increment _ (.other _) _ => false
  | _ => true

/-! ## One counter among many -/

/-- How much of some growths belongs to a counter. -/
def grownBy (counter : Counter) (growths : List (Counter × Nat)) : Nat :=
  (growths.map fun growth => if growth.1 = counter then growth.2 else 0).sum

section grownBy

variable {counter other : Counter} {value : Nat} {s t : List (Counter × Nat)}

@[simp] theorem grownBy_nil : grownBy counter [] = 0 := rfl

@[simp] theorem grownBy_cons :
    grownBy counter ((other, value) :: s) =
      (if other = counter then value else 0) + grownBy counter s := rfl

@[simp] theorem grownBy_append :
    grownBy counter (s ++ t) = grownBy counter s + grownBy counter t := by
  simp [grownBy]

theorem grownBy_perm (h : s.Perm t) : grownBy counter s = grownBy counter t :=
  (h.map _).sum_nat

theorem grownBy_flatMap {α : Type} (l : List α) (f : α → List (Counter × Nat)) :
    grownBy counter (l.flatMap f) = (l.map fun a => grownBy counter (f a)).sum := by
  induction l with
  | nil => rfl
  | cons a rest ih => rw [List.flatMap_cons, grownBy_append, ih, List.map_cons, List.sum_cons]

end grownBy

/-! ## The sums -/

namespace Statistics

/-- The sum that belongs to a counter; a counter without a name has none. -/
def total (stats : Statistics) : Counter → Nat
  | .copy => stats.filesCopied
  | .skip => stats.filesSkipped
  | .fail => stats.filesFailed
  | .bytesCopied => stats.bytesCopied
  | .bytesExpected => stats.bytesExpected
  | .bytesFailed => stats.bytesFailed
  | .bytesSkipped => stats.bytesSkipped
  | .sleepTime => stats.sleepTime
  | .other _ => 0

variable {stats : Statistics} {counter other : Counter} {value n : Nat}

theorem total_add_self (h : counter ∈ Counter.all) :
    (stats.add value counter).total counter = wrap64 (stats.total counter + value) := by
  cases counter with
  | other code => simp [Counter.all] at h
  | _ => rfl

/-- A counter that grows leaves the sums of the others alone. -/
theorem total_add_of_ne (h : other ≠ counter) :
    (stats.add value other).total counter = stats.total counter := by
  cases other <;> cases counter <;> first | rfl | exact absurd rfl h

/-- One more event adds what it reports. -/
theorem total_observe {event : Event} (hnamed : counter ∈ Counter.all)
    (h : stats.total counter = wrap64 n) :
    (stats.observe event).total counter = wrap64 (n + grownBy counter event.growth?.toList) := by
  cases event with
  | status attempt text =>
    have hsame : (stats.observe (.status attempt text)).total counter = stats.total counter := by
      cases counter <;> rfl
    rw [hsame, h]
    rfl
  | increment attempt grown value =>
    show (stats.add value grown).total counter = wrap64 (n + grownBy counter [(grown, value)])
    rw [grownBy_cons, grownBy_nil, Nat.add_zero]
    by_cases hgrown : grown = counter
    · rw [if_pos hgrown, hgrown, total_add_self hnamed, h, wrap64_wrap64_add]
    · rw [if_neg hgrown, total_add_of_ne hgrown, h, Nat.add_zero]

/-- Events add what they report, whatever was summed up before them. -/
theorem total_foldl (hnamed : counter ∈ Counter.all) (events : List Event)
    (h : stats.total counter = wrap64 n) :
    (events.foldl observe stats).total counter =
      wrap64 (n + grownBy counter (events.filterMap Event.growth?)) := by
  induction events generalizing stats n with
  | nil => exact h
  | cons event rest ih =>
    rw [List.foldl_cons, ih (total_observe hnamed h), Nat.add_assoc, ← grownBy_append]
    cases hgrowth : event.growth? with
    | none => rw [List.filterMap_cons_none hgrowth]; rfl
    | some growth => rw [List.filterMap_cons_some hgrowth]; rfl

/-- The sums after some events, when nothing was summed up before them. -/
theorem total_observed (hnamed : counter ∈ Counter.all) (events : List Event) :
    (events.foldl observe {}).total counter =
      wrap64 (grownBy counter (events.filterMap Event.growth?)) := by
  have hnone : ({} : Statistics).total counter = wrap64 0 := by
    cases counter <;> rfl
  rw [total_foldl hnamed events hnone, Nat.zero_add]

/-! ## The status texts -/

theorem statusUpdates_foldl (events : List Event) (h : stats.statusUpdates = wrap64 n) :
    (events.foldl observe stats).statusUpdates =
      wrap64 (n + events.countP fun event => event.channel = .status) := by
  induction events generalizing stats n with
  | nil => exact h
  | cons event rest ih =>
    rw [List.foldl_cons]
    cases event with
    | status attempt text =>
      have hone : (stats.observe (.status attempt text)).statusUpdates = wrap64 (n + 1) := by
        rw [← wrap64_wrap64_add, ← h]
        rfl
      rw [ih hone, List.countP_cons_of_pos rfl, Nat.add_assoc, Nat.add_comm 1]
    | increment attempt counter value =>
      have hsame : (stats.observe (.increment attempt counter value)).statusUpdates = wrap64 n := by
        rw [← h]
        cases counter <;> rfl
      rw [ih hsame, List.countP_cons_of_neg (by simp [Event.channel])]

/-- The number of status texts among some events, when nothing was summed up before them. -/
theorem statusUpdates_observed (events : List Event) :
    (events.foldl observe {}).statusUpdates =
      wrap64 (events.countP fun event => event.channel = .status) := by
  rw [statusUpdates_foldl events (n := 0) rfl, Nat.zero_add]

/-! ## All sums -/

theorem eq_of_totals {other : Statistics}
    (htotal : ∀ counter ∈ Counter.all, stats.total counter = other.total counter)
    (hstatus : stats.statusUpdates = other.statusUpdates) : stats = other := by
  obtain ⟨_, _, _, _, _, _, _, _, _⟩ := stats
  obtain ⟨_, _, _, _, _, _, _, _, _⟩ := other
  simp only [Counter.all, List.forall_mem_cons, total] at htotal
  obtain ⟨rfl, rfl, rfl, rfl, rfl, rfl, rfl, rfl, -⟩ := htotal
  cases hstatus
  rfl

/-- The order of the events makes no difference. -/
theorem observed_perm {s t : List Event} (h : s.Perm t) :
    s.foldl observe {} = t.foldl observe {} := by
  refine eq_of_totals (fun counter hnamed => ?_) ?_
  · rw [total_observed hnamed, total_observed hnamed, grownBy_perm (h.filterMap _)]
  · rw [statusUpdates_observed, statusUpdates_observed, h.countP_eq]

/-- Events of counters without a name make no difference. -/
theorem observed_filter (events : List Event) (stats : Statistics) :
    (events.filter Event.counts).foldl observe stats = events.foldl observe stats := by
  induction events generalizing stats with
  | nil => rfl
  | cons event rest ih =>
    by_cases hcounts : event.counts
    · rw [List.filter_cons_of_pos hcounts, List.foldl_cons, List.foldl_cons, ih]
    · have hsame : stats.observe event = stats := by
        unfold Event.counts at hcounts
        split at hcounts
        · rfl
        · exact absurd rfl hcounts
      rw [List.filter_cons_of_neg hcounts, List.foldl_cons, hsame, ih]

end Statistics

end StagedCopy
