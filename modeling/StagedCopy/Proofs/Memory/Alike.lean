import StagedCopy.Proofs.Memory.View

/-!
# Stores that look alike

Two stores in memory with the same settings and the same things at the same places answer alike
every call that is not about a stream, and look alike after it. The streams that were ever opened
make no difference, nor does the order in which a tree records its keys. A stream of the one and a
stream of the other with the same past answer alike as well.

* `MemoryStore.Alike` — the stores look alike; `Alike.perform` — they answer alike.
* `MemoryStore.Twins` — and a stream of each has the same past; `Twins.write`, `Twins.close`.
-/

namespace StagedCopy

/-- The call is about a stream. -/
def StorageCall.streams : StorageCall → Bool
  | openFile _ | createFile .. | read .. | write .. | close _ => true
  | _ => false

namespace MemoryStore

/-- The stores have the same settings, and the same stands at the same places. -/
structure Alike (s t : MemoryStore) : Prop where
  kind : s.checksumKind = t.checksumKind
  defaults : s.defaults = t.defaults
  view : ∀ k, s.get? k = t.get? k

variable {s t s' t' : MemoryStore}

namespace Alike

theorem refl (s : MemoryStore) : Alike s s := ⟨rfl, rfl, fun _ => rfl⟩

theorem hasBelow (h : Alike s t) (k : Key) : s.tree.hasBelow k = t.tree.hasBelow k := by
  rw [Bool.eq_iff_iff, Tree.hasBelow_iff, Tree.hasBelow_iff]
  refine exists_congr fun other => and_congr_right fun _ => ?_
  have hview : s.tree.get? other = t.tree.get? other := h.view other
  rw [hview]

theorem file? (h : Alike s t) (k : Key) : s.file? k = t.file? k := by
  rw [MemoryStore.file?, MemoryStore.file?, h.view]

/-- Trees that look alike make stores that look alike. -/
theorem of_trees {tree tree' : Tree MemoryFile} (h : Alike s t)
    (hview : ∀ k, tree.get? k = tree'.get? k) :
    Alike { s with tree := tree } { t with tree := tree' } :=
  ⟨h.kind, h.defaults, hview⟩

theorem erase (h : Alike s t) (k : Key) :
    Alike { s with tree := s.tree.erase k } { t with tree := t.tree.erase k } := by
  refine h.of_trees fun other => ?_
  have hview : s.tree.get? other = t.tree.get? other := h.view other
  rw [Tree.get?_erase, Tree.get?_erase, hview]

end Alike

/-- Two outcomes that are the same refusal, or the same value with stores that look alike. -/
inductive Agree {α : Type} : Outcome α → Outcome α → Prop where
  | refused (e : MemoryError) : Agree (.error e) (.error e)
  | done (value : α) {s' t' : MemoryStore} (h : Alike s' t') :
      Agree (.ok (value, s')) (.ok (value, t'))

theorem Agree.conclude {α : Type} {outcome outcome' : Outcome α} {answer : Except Bytes α}
    (h : Agree outcome outcome') (halike : Alike s t)
    (hs : s.conclude outcome = (answer, s')) :
    ∃ t', t.conclude outcome' = (answer, t') ∧ Alike s' t' := by
  cases h with
  | refused e =>
    obtain ⟨rfl, rfl⟩ := Prod.ext_iff.1 hs
    exact ⟨t, rfl, halike⟩
  | done value hafter =>
    obtain ⟨rfl, rfl⟩ := Prod.ext_iff.1 hs
    exact ⟨_, rfl, hafter⟩

theorem look_alike {α : Type} {result : Except MemoryError α} {answer : Except Bytes α}
    (halike : Alike s t) (hs : s.look result = (answer, s')) :
    ∃ t', t.look result = (answer, t') ∧ Alike s' t' := by
  cases result with
  | ok value =>
    obtain ⟨rfl, rfl⟩ := Prod.ext_iff.1 hs
    exact ⟨t, rfl, halike⟩
  | error e =>
    obtain ⟨rfl, rfl⟩ := Prod.ext_iff.1 hs
    exact ⟨t, rfl, halike⟩

/-! ## Calls that are about no stream -/

theorem Alike.remove (h : Alike s t) (path : Path) (recursive : Bool) :
    Agree (s.remove path recursive) (t.remove path recursive) := by
  simp only [MemoryStore.remove, h.view, h.hasBelow]
  cases t.get? path.key with
  | none => exact .refused _
  | some node =>
    simp only
    split
    · exact .refused _
    · split
      · split
        · refine .done () (h.of_trees fun other => ?_)
          have hview : s.tree.get? other = t.tree.get? other := h.view other
          simp only [Tree.get?_erase, Tree.get?_eraseBelow, hview]
        · exact .refused _
      · exact .done () (h.erase path.key)

theorem Alike.makeDirs (h : Alike s t) (path : Path) :
    Agree (s.makeDirs path) (t.makeDirs path) := by
  simp only [MemoryStore.makeDirs, h.view]
  split
  · exact .refused _
  · refine .done () ⟨h.kind, h.defaults, fun other => ?_⟩
    rw [get?_makeDirs, get?_makeDirs, h.view]

theorem Alike.rename (h : Alike s t) (source target : Path) :
    Agree (s.rename source target) (t.rename source target) := by
  simp only [MemoryStore.rename, h.view]
  cases t.get? source.key with
  | none => exact .refused _
  | some node =>
    cases node with
    | directory => exact .refused _
    | file f =>
      cases htarget : t.get? target.key with
      | some other => exact .refused _
      | none =>
        cases t.get? target.key.parent with
        | none => exact .refused _
        | some above =>
          cases above with
          | file g => exact .refused _
          | directory =>
            refine .done () (h.of_trees fun other => ?_)
            have hview : s.tree.get? other = t.tree.get? other := h.view other
            simp only [Tree.get?_insert _ (ne_root_of_none htarget), Tree.get?_erase, hview]

theorem Alike.status (h : Alike s t) (path : Path) : s.status path = t.status path := by
  simp only [MemoryStore.status, h.view]

theorem Alike.checksum (h : Alike s t) (path : Path) : s.checksum path = t.checksum path := by
  simp only [MemoryStore.checksum, h.file?, h.kind]

/-- Stores that look alike give the same answers to what is about no stream, and look alike after
them. -/
theorem Alike.perform {call : StorageCall} {answer : call.Answer} (h : Alike s t)
    (hcall : call.streams = false) (hs : s.perform call = (answer, s')) :
    ∃ t', t.perform call = (answer, t') ∧ Alike s' t' := by
  cases call with
  | openFile | createFile | read | write | close => cases hcall
  | pathExists path =>
    obtain ⟨rfl, rfl⟩ := Prod.ext_iff.1 hs
    refine ⟨t, ?_, h⟩
    rw [MemoryStore.perform, MemoryStore.perform, pathExists, pathExists, h.view]
  | remove path recursive => exact (h.remove path recursive).conclude h hs
  | makeDirs path => exact (h.makeDirs path).conclude h hs
  | rename source target => exact (h.rename source target).conclude h hs
  | status path =>
    have hlook : s.look (t.status path) = (answer, s') := by
      rw [← h.status]
      exact hs
    exact look_alike h hlook
  | checksum path =>
    have hlook : s.look (t.checksum path) = (answer, s') := by
      rw [← h.checksum]
      exact hs
    exact look_alike h hlook

/-! ## Streams with the same past -/

/-- The stores look alike, and a stream of each writes the same file and has accepted the same. -/
structure Twins (output output' : StreamId) (s t : MemoryStore) : Prop extends Alike s t where
  stream : ∃ writer, s.writers[output]? = some writer ∧ t.writers[output']? = some writer

variable {output output' : StreamId}

theorem Twins.write {data : Bytes} {answer : Except Bytes Unit} (h : Twins output output' s t)
    (hs : s.perform (.write output data) = (answer, s')) :
    ∃ t', t.perform (.write output' data) = (answer, t') ∧ Twins output output' s' t' := by
  obtain ⟨writer, hwriter, hwriter'⟩ := h.stream
  rw [perform] at hs
  cases hclosed : writer.closed with
  | true =>
    have hrefused : s.write output data = .error (.writeAfterClose writer.key) := by
      simp [MemoryStore.write, hwriter, hclosed]
    have hrefused' : t.write output' data = .error (.writeAfterClose writer.key) := by
      simp [MemoryStore.write, hwriter', hclosed]
    rw [hrefused] at hs
    obtain ⟨rfl, rfl⟩ := Prod.ext_iff.1 hs
    refine ⟨t, ?_, h⟩
    rw [perform, hrefused']
    rfl
  | false =>
    rw [write_eq_ok.2 ⟨writer, hwriter, hclosed, rfl⟩] at hs
    obtain ⟨rfl, rfl⟩ := Prod.ext_iff.1 hs
    refine ⟨_, conclude_eq_ok.2 (write_eq_ok.2 ⟨writer, hwriter', hclosed, rfl⟩),
      ⟨h.kind, h.defaults, h.view⟩, ?_⟩
    have hlt : output < s.writers.size := (Array.getElem?_eq_some_iff.1 hwriter).1
    have hlt' : output' < t.writers.size := (Array.getElem?_eq_some_iff.1 hwriter').1
    exact ⟨_, Array.getElem?_setIfInBounds_self_of_lt hlt,
      Array.getElem?_setIfInBounds_self_of_lt hlt'⟩

theorem Twins.close_alike (h : Twins output output' s t) :
    (s.close output).1 = (t.close output').1 ∧ Alike (s.close output).2 (t.close output').2 := by
  obtain ⟨writer, hwriter, hwriter'⟩ := h.stream
  cases hclosed : writer.closed with
  | true =>
    have hdone : s.close output = (.ok (), s) := by
      simp [MemoryStore.close, hwriter, hclosed]
    have hdone' : t.close output' = (.ok (), t) := by
      simp [MemoryStore.close, hwriter', hclosed]
    rw [hdone, hdone']
    exact ⟨rfl, h.toAlike⟩
  | false =>
    rw [close_eq hwriter hclosed, close_eq hwriter' hclosed, h.file?]
    cases hfile : t.file? writer.key with
    | none => exact ⟨rfl, h.kind, h.defaults, h.view⟩
    | some f =>
      refine ⟨rfl, h.kind, h.defaults, fun other => ?_⟩
      have hroot := ne_root_of_file (file?_eq_some.1 hfile)
      have hview : s.tree.get? other = t.tree.get? other := h.view other
      show (s.tree.insert writer.key _).get? other = (t.tree.insert writer.key _).get? other
      rw [Tree.get?_insert _ hroot, Tree.get?_insert _ hroot, hview]

theorem Twins.close {answer : Except Bytes Unit} (h : Twins output output' s t)
    (hs : s.perform (.close output) = (answer, s')) :
    ∃ t', t.perform (.close output') = (answer, t') ∧ Alike s' t' := by
  obtain ⟨hanswer, hafter⟩ := h.close_alike
  obtain ⟨hgiven, rfl⟩ := Prod.ext_iff.1 hs
  refine ⟨(t.close output').2, Prod.ext_iff.2 ⟨?_, rfl⟩, hafter⟩
  have hsame : (t.close output').1.mapError MemoryError.message
      = (s.close output).1.mapError MemoryError.message := by
    rw [hanswer]
  exact hsame.trans hgiven

end MemoryStore

end StagedCopy
