import StagedCopy.Proofs.Memory.Reachable

/-!
# Stores whose calls may fail

A store in memory behind something that may fail: every call may be refused without an effect, a
close may take effect and be reported as failed all the same, and a read may give fewer bytes than
were asked for, though never none of those that are left. What is answered without an error was
then done.

* `FailStop` — the answers to a call, and the store after each.
* `FailStop.change` — an answer changes the store no more than a call does.
* `FailStop.of_error`, `FailStop.of_createFile` and so on — what is known from an answer, in one
  lemma for each kind of call.
-/

namespace StagedCopy

/-- How a store in memory may answer a call when calls may fail, and the store after it. -/
inductive FailStop (store : MemoryStore) :
    (call : StorageCall) → call.Answer → MemoryStore → Prop where
  /-- The store answers. -/
  | served {call : StorageCall} {answer : call.Answer} {after : MemoryStore}
      (h : store.perform call = (answer, after)) : FailStop store call answer after
  /-- The call fails and has no effect. -/
  | refused (call : StorageCall) (message : Bytes) : FailStop store call (.error message) store
  /-- A stream is closed, but this is reported as a failure. -/
  | closedInVain (stream : StreamId) (message : Bytes) :
      FailStop store (.close stream) (.error message) (store.close stream).2
  /-- A read stops early, but not before the first byte. -/
  | short {stream : StreamId} {size n : Nat} {answer : (StorageCall.read stream n).Answer}
      {after : MemoryStore} (hpos : 0 < n) (hle : n ≤ size)
      (h : store.perform (.read stream n) = (answer, after)) :
      FailStop store (.read stream size) answer after

namespace FailStop

open MemoryStore

variable {store after : MemoryStore} {call : StorageCall} {path source target : Path}
  {stream : StreamId} {message : Bytes}

/-- An answer changes the store no more than some call does. -/
theorem change {answer : call.Answer} (h : FailStop store call answer after) :
    after = store ∨ ∃ done : StorageCall, after = (store.perform done).2 := by
  cases h with
  | served h => exact .inr ⟨call, by rw [h]⟩
  | refused => exact .inl rfl
  | closedInVain stream => exact .inr ⟨.close stream, rfl⟩
  | @short stream size n answer after hpos hle h => exact .inr ⟨.read stream n, by rw [h]⟩

theorem reachable {answer : call.Answer} (h : FailStop store call answer after)
    (hstore : store.Reachable) : after.Reachable := by
  rcases h.change with rfl | ⟨done, rfl⟩
  · exact hstore
  · exact .call done hstore

theorem kind {answer : call.Answer} (h : FailStop store call answer after) :
    after.checksumKind = store.checksumKind := by
  rcases h.change with rfl | ⟨done, rfl⟩
  · rfl
  · exact (perform_change store done).kind

theorem defaults {answer : call.Answer} (h : FailStop store call answer after) :
    after.defaults = store.defaults := by
  rcases h.change with rfl | ⟨done, rfl⟩
  · rfl
  · exact (perform_change store done).defaults

/-- What only looks leaves the tree as it is. -/
theorem tree_of_looks {answer : call.Answer} (h : FailStop store call answer after)
    (hlooks : call.looks = true) : after.tree = store.tree := by
  cases h with
  | served h =>
    have htree := MemoryStore.tree_of_looks store hlooks
    rw [h] at htree
    exact htree
  | refused => rfl
  | closedInVain => cases hlooks
  | @short stream size n answer after hpos hle h =>
    have htree : (store.perform (.read stream n)).2.tree = store.tree :=
      MemoryStore.tree_of_looks store rfl
    rw [h] at htree
    exact htree

/-! ## Failures -/

/-- A call that fails has no effect, unless it closes a stream. -/
theorem of_error (h : FailStop store call (.error message) after)
    (hclose : call.closes = false) : after = store := by
  cases h with
  | served h => exact perform_error h hclose
  | refused => rfl
  | closedInVain => cases hclose
  | short _ _ h => exact perform_error h rfl

/-- To close a stream has its effect or none, whatever is answered. -/
theorem of_close {answer : (StorageCall.close stream).Answer}
    (h : FailStop store (.close stream) answer after) :
    after = store ∨ after = (store.close stream).2 := by
  cases h with
  | served h => exact .inr (Prod.ext_iff.1 h).2.symm
  | refused => exact .inl rfl
  | closedInVain => exact .inr rfl

/-! ## Looks -/

theorem of_status {answer : (StorageCall.status path).Answer}
    (h : FailStop store (.status path) answer after) : after = store := by
  cases h with
  | served h => exact look_eq h
  | refused => rfl

theorem of_checksum {answer : (StorageCall.checksum path).Answer}
    (h : FailStop store (.checksum path) answer after) : after = store := by
  cases h with
  | served h => exact look_eq h
  | refused => rfl

/-! ## Successes -/

/-- What succeeds was done, unless it is a read. -/
theorem of_ok {value : call.Value} (h : FailStop store call (.ok value) after)
    (hread : call.reads = false) : store.perform call = (.ok value, after) := by
  cases h with
  | served h => exact h
  | short => cases hread

/-- A question about a path changes nothing, and what it says is so. -/
theorem of_pathExists {found : Bool} (h : FailStop store (.pathExists path) (.ok found) after) :
    after = store ∧ found = (store.get? path.key).isSome := by
  obtain ⟨hfound, rfl⟩ := Prod.ext_iff.1 (h.of_ok rfl)
  exact ⟨rfl, (Except.ok.inj hfound).symm⟩

/-- A file that is created is empty, its stream is open, and the directories above it are there. -/
theorem of_createFile {overwrite : Bool} {size : Nat} {layout : Layout}
    (h : FailStop store (.createFile path overwrite size layout) (.ok (.ok stream)) after) :
    after.writers[stream]? = some { key := path.key } ∧
      ∀ k, after.get? k =
        if k = path.key then some (.file ⟨[], store.layoutFor layout⟩)
        else if k ∈ path.key.properAncestors ∧ store.get? k = none then some .directory
        else store.get? k := by
  obtain ⟨_, hvalue, hcreate⟩ := perform_createFile_eq_ok.1 (h.of_ok rfl)
  obtain rfl := Except.ok.inj hvalue
  obtain ⟨hget, -, -, hafter⟩ := create_eq_ok.1 hcreate
  obtain ⟨hstream, hstore⟩ := Prod.ext_iff.1 hafter
  simp only at hstream hstore
  rw [← hstream, ← hstore]
  exact ⟨Array.getElem?_push_size, fun k => get?_startFile (ne_root hget)⟩

/-- A store in memory never breaks down. -/
theorem not_unbuffered {overwrite : Bool} {size : Nat} {layout : Layout} {trouble : Breakdown} :
    ¬ FailStop store (.createFile path overwrite size layout) (.ok (.error trouble)) after := by
  intro h
  obtain ⟨_, hvalue, -⟩ := perform_createFile_eq_ok.1 (h.of_ok rfl)
  cases hvalue

/-- A file that is opened has all of its content left. -/
theorem of_openFile (h : FailStop store (.openFile path) (.ok stream) after) :
    ∃ f, store.get? path.key = some (.file f) ∧
      after.readers[stream]? = some ⟨f.content⟩ := by
  obtain ⟨f, hget, hafter⟩ := openFile_eq_ok.1 (conclude_eq_ok.1 (h.of_ok rfl))
  obtain ⟨rfl, rfl⟩ := Prod.ext_iff.1 hafter
  exact ⟨f, hget, Array.getElem?_push_size⟩

/-- What a read gave is the beginning of what was left, and nothing only at the end. -/
theorem of_read {size : Nat} {chunk : Bytes} (hsize : 0 < size)
    (h : FailStop store (.read stream size) (.ok chunk) after) :
    ∃ rest, store.readers[stream]? = some ⟨chunk ++ rest⟩ ∧ (chunk = [] → rest = []) ∧
      after.readers[stream]? = some ⟨rest⟩ := by
  have hread : ∃ n, 0 < n ∧ store.perform (.read stream n) = (.ok chunk, after) := by
    cases h with
    | served h => exact ⟨size, hsize, h⟩
    | short hpos _ h => exact ⟨_, hpos, h⟩
  obtain ⟨n, hn, hperform⟩ := hread
  obtain ⟨reader, hreader, hafter⟩ := read_eq_ok.1 (conclude_eq_ok.1 hperform)
  obtain ⟨rfl, rfl⟩ := Prod.ext_iff.1 hafter
  have hlt : stream < store.readers.size := (Array.getElem?_eq_some_iff.1 hreader).1
  refine ⟨reader.rest.drop n, ?_, ?_, Array.getElem?_setIfInBounds_self_of_lt hlt⟩
  · rw [hreader, List.take_append_drop n reader.rest]
  · intro hempty
    rw [List.take_eq_nil_iff] at hempty
    rcases hempty with hzero | hrest
    · omega
    · rw [hrest, List.drop_nil]

/-- The bytes that a write brings are the last ones that its stream has accepted. -/
theorem of_write {data : Bytes} (h : FailStop store (.write stream data) (.ok ()) after) :
    ∃ writer, store.writers[stream]? = some writer ∧ writer.closed = false ∧
      after.writers[stream]? = some { writer with chunks := data :: writer.chunks } := by
  obtain ⟨writer, hwriter, hopen, hafter⟩ := write_eq_ok.1 (conclude_eq_ok.1 (h.of_ok rfl))
  obtain ⟨-, rfl⟩ := Prod.ext_iff.1 hafter
  have hlt : stream < store.writers.size := (Array.getElem?_eq_some_iff.1 hwriter).1
  exact ⟨writer, hwriter, hopen, Array.getElem?_setIfInBounds_self_of_lt hlt⟩

theorem of_closed (h : FailStop store (.close stream) (.ok ()) after) :
    after = (store.close stream).2 :=
  (Prod.ext_iff.1 (h.of_ok rfl)).2.symm

theorem of_remove (h : FailStop store (.remove path false) (.ok ()) after) :
    ∀ k, after.get? k = if k = path.key then none else store.get? k := by
  obtain ⟨hroot, -, hafter⟩ := remove_eq_ok.1 (conclude_eq_ok.1 (h.of_ok rfl))
  obtain ⟨-, rfl⟩ := Prod.ext_iff.1 hafter
  exact fun k => get?_erase hroot

theorem of_makeDirs (h : FailStop store (.makeDirs path) (.ok ()) after) :
    ∀ k, after.get? k =
      if (k = path.key ∨ k ∈ path.key.properAncestors) ∧ store.get? k = none then
        some .directory
      else store.get? k := by
  obtain ⟨-, hafter⟩ := makeDirs_eq_ok.1 (conclude_eq_ok.1 (h.of_ok rfl))
  obtain ⟨-, rfl⟩ := Prod.ext_iff.1 hafter
  exact fun k => get?_makeDirs

theorem of_rename (h : FailStop store (.rename source target) (.ok ()) after) :
    ∃ f, store.get? source.key = some (.file f) ∧
      ∀ k, after.get? k =
        if k = target.key then some (.file f) else if k = source.key then none
        else store.get? k := by
  obtain ⟨f, hsource, htarget, -, hafter⟩ :=
    rename_eq_ok.1 (conclude_eq_ok.1 (h.of_ok rfl))
  obtain ⟨-, rfl⟩ := Prod.ext_iff.1 hafter
  exact ⟨f, hsource, fun k => get?_rename (ne_root_of_file hsource) (ne_root_of_none htarget)⟩

end FailStop

end StagedCopy
