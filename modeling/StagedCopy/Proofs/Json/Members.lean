import Mathlib.Data.List.Nodup
import StagedCopy.Json

/-!
# Looking up members

Of several members with one name the last counts. Where no name occurs twice, the order of the
members does not matter; and a name is looked up among the members of that name only.

* `Json.member?_eq_some_iff` — members with names of their own.
* `Json.member?_perm` — the order of the members.
* `Json.member?_without`, `Json.member?_without_self` — the members without a name.
-/

namespace StagedCopy

namespace Json

variable {members other : List (Bytes × Json)} {name : Bytes} {value : Json}

theorem mem_of_member? (h : member? members name = some value) : (name, value) ∈ members := by
  obtain ⟨member, hfound, rfl⟩ := Option.map_eq_some_iff.1 h
  have hname := List.find?_some hfound
  rw [decide_eq_true_eq] at hname
  rw [← hname]
  exact List.mem_reverse.1 (List.mem_of_find?_eq_some hfound)

/-- A name that stands for a member is found. -/
theorem exists_member?_of_mem (h : (name, value) ∈ members) :
    ∃ found, member? members name = some found := by
  unfold member?
  cases hfound : members.reverse.find? fun member => decide (member.1 = name) with
  | some member => exact ⟨member.2, rfl⟩
  | none =>
    have hnot := List.find?_eq_none.1 hfound (name, value) (List.mem_reverse.2 h)
    simp at hnot

/-- Where no name occurs twice, a member is found just when it is there. -/
theorem member?_eq_some_iff (hnames : (members.map Prod.fst).Nodup) :
    member? members name = some value ↔ (name, value) ∈ members := by
  refine ⟨mem_of_member?, fun h => ?_⟩
  obtain ⟨found, hfound⟩ := exists_member?_of_mem h
  have hsame : (name, found) = (name, value) :=
    List.inj_on_of_nodup_map hnames (mem_of_member? hfound) h rfl
  exact hfound.trans (congrArg some (Prod.ext_iff.1 hsame).2)

/-- Where no name occurs twice, the order of the members does not matter. -/
theorem member?_perm (h : members.Perm other) (hnames : (members.map Prod.fst).Nodup)
    (name : Bytes) : member? other name = member? members name := by
  have hother : (other.map Prod.fst).Nodup := (h.map Prod.fst).nodup_iff.1 hnames
  refine Option.ext fun value => ?_
  rw [member?_eq_some_iff hother, member?_eq_some_iff hnames, h.mem_iff]

/-- The members without those of one name. -/
def without (members : List (Bytes × Json)) (name : Bytes) : List (Bytes × Json) :=
  members.filter fun member => member.1 ≠ name

theorem member?_without_self : member? (without members name) name = none := by
  unfold member? without
  rw [Option.map_eq_none_iff, List.find?_eq_none]
  intro member hmember
  simpa using (List.mem_filter.1 (List.mem_reverse.1 hmember)).2

/-- The other names are looked up as before. -/
theorem member?_without {wanted : Bytes} (h : wanted ≠ name) :
    member? (without members name) wanted = member? members wanted := by
  unfold member? without
  rw [← List.filter_reverse, List.find?_filter]
  congr 2
  funext member
  by_cases hwanted : member.1 = wanted
  · simp [hwanted, h]
  · simp [hwanted]

end Json

end StagedCopy
