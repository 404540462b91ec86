import StagedCopy.Proofs.Copy.Stores

/-!
# The target store of an execution

A store in memory that is the target of an execution, while all else answers as it likes: nothing
but the calls on the target changes it. How it answers these is a parameter, so a store that serves
every call and one whose calls may fail are treated alike, and one execution can have a part in
which calls fail and a part in which none does.

* `Answering`, `MemoryStore.Serves` — ways of answering; the one without faults.
* `TargetStep answers` — the target store along the exchanges of an execution.
* `eq_of_silent`, `settings_trail` — what is no call leaves the store as it is, and nothing changes
  its settings.
* `trail_of_serving` — the target store in a run with two stores that serve every call.
-/

namespace StagedCopy

open Program (Exchange)

/-- The request is a call on the target store. -/
def Request.onTarget : Request → Bool
  | storage .target _ => true
  | _ => false

/-- How a store answers calls, and the store after each answer. -/
abbrev Answering : Type := MemoryStore → (call : StorageCall) → call.Answer → MemoryStore → Prop

/-- The store answers without fail. -/
def MemoryStore.Serves (store : MemoryStore) (call : StorageCall) (answer : call.Answer)
    (after : MemoryStore) : Prop := store.perform call = (answer, after)

theorem onTarget_of_silent {r : Request} (h : r.isCall = false) : r.onTarget = false := by
  cases r with
  | storage => cases h
  | _ => rfl

/-- The target store answers its calls in the given way, and nothing else touches it. -/
inductive TargetStep (answers : Answering) : MemoryStore → Exchange → MemoryStore → Prop where
  | elsewhere {store : MemoryStore} {x : Exchange} (h : x.request.onTarget = false) :
      TargetStep answers store x store
  | target {store : MemoryStore} {call : StorageCall} {answer : call.Answer} {after : MemoryStore}
      (h : answers store call answer after) :
      TargetStep answers store ⟨.storage .target call, answer⟩ after

namespace TargetStep

variable {answers : Answering} {store after : MemoryStore} {x : Exchange} {call : StorageCall}
  {answer : call.Answer}

theorem of_elsewhere (h : TargetStep answers store x after) (hx : x.request.onTarget = false) :
    after = store := by
  cases h with
  | elsewhere => rfl
  | target => cases hx

theorem of_silent (h : TargetStep answers store x after) (hx : x.request.isCall = false) :
    after = store :=
  h.of_elsewhere (onTarget_of_silent hx)

theorem of_target (h : TargetStep answers store ⟨.storage .target call, answer⟩ after) :
    answers store call answer after := by
  cases h with
  | elsewhere hx => cases hx
  | target h => exact h

/-- The settings of the store stay. -/
theorem settings (h : TargetStep MemoryStore.Serves store x after) :
    after.checksumKind = store.checksumKind ∧ after.defaults = store.defaults := by
  cases h with
  | elsewhere => exact ⟨rfl, rfl⟩
  | @target call answer after hserves =>
    obtain ⟨-, rfl⟩ := Prod.ext_iff.1 hserves
    have hchange := MemoryStore.perform_change store call
    exact ⟨hchange.kind, hchange.defaults⟩

/-- What serves every call may be taken for what may fail. -/
theorem failStop (h : TargetStep MemoryStore.Serves store x after) :
    TargetStep FailStop store x after := by
  cases h with
  | elsewhere hx => exact .elsewhere hx
  | target hserves => exact .target (.served hserves)

end TargetStep

/-- What is no call on a store leaves the target store as it is. -/
theorem eq_of_silent {answers : Answering} {store after : MemoryStore} {exchanges : List Exchange}
    (h : Trail (TargetStep answers) store exchanges after)
    (hsilent : ∀ x ∈ exchanges, x.request.isCall = false) : after = store := by
  induction h with
  | stay => rfl
  | go first _ ih =>
    rw [ih fun x hx => hsilent x (List.mem_cons_of_mem _ hx)]
    exact first.of_silent (hsilent _ List.mem_cons_self)

/-- The settings of the target store stay, whatever it is told. -/
theorem settings_trail {store after : MemoryStore} {history : List Exchange}
    (h : Trail (TargetStep MemoryStore.Serves) store history after) :
    after.checksumKind = store.checksumKind ∧ after.defaults = store.defaults := by
  induction h with
  | stay => exact ⟨rfl, rfl⟩
  | go first _ ih =>
    have hsettings := first.settings
    exact ⟨ih.1.trans hsettings.1, ih.2.trans hsettings.2⟩

/-- Of two stores that serve every call the target store does so. -/
theorem TargetStep.of_serving {ε : Type} {surroundings : Program.Handler ε}
    {state after : StorePair × ε} {x : Exchange}
    (h : (StorePair.serving surroundings).step state x after) :
    TargetStep MemoryStore.Serves state.1.target x after.1.target := by
  obtain ⟨pair, e⟩ := state
  obtain ⟨r, answer⟩ := x
  obtain ⟨hanswer, rfl⟩ := Prod.ext_iff.1 h
  cases r with
  | storage side call =>
    cases side with
    | source => exact .elsewhere rfl
    | target => exact .target (Prod.ext_iff.2 ⟨hanswer, rfl⟩)
  | _ => exact .elsewhere rfl

/-- In a run with two stores that serve every call the target store does so. -/
theorem trail_of_serving {ε : Type} {surroundings : Program.Handler ε} {state after : StorePair × ε}
    {exchanges : List Exchange}
    (h : Trail (StorePair.serving surroundings).step state exchanges after) :
    Trail (TargetStep MemoryStore.Serves) state.1.target exchanges after.1.target :=
  h.map (f := fun state => state.1.target) TargetStep.of_serving

end StagedCopy
