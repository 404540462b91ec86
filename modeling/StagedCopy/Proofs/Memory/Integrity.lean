import Mathlib.Data.List.Nodup
import StagedCopy.Proofs.Memory.Reachable
import StagedCopy.Proofs.Path.Canonical

/-!
# A store in memory is always a tree

Whatever is done to a store in memory, its keys are spelled canonically and each once, the parent
of every key but the root is a directory, so nothing is ever beneath a file, and whatever is no
directory has a content that can be asked for. Operations come in any order, on any paths, through
any streams that were ever opened, and they may fail.

* `Tree.mem_keys`, `Tree.KeyedOnce` — the keys of a tree, each recorded once.
* `MemoryStore.occupied_before` — a key that is there after a call was there before or is canonical.
* `MemoryOperation`, `MemoryStore.operate` — what can be done to a store.
* `MemoryStore.Sound` — what is so after any operations; `sound_after_operations`, the theorem.
-/

namespace StagedCopy

/-! ## Keys of a tree -/

theorem insertBy_perm {α : Type} (le : α → α → Bool) (a : α) (l : List α) :
    (insertBy le a l).Perm (a :: l) := by
  induction l with
  | nil => exact .refl _
  | cons b rest ih =>
    unfold insertBy
    split
    · exact .refl _
    · exact (ih.cons b).trans (.swap a b rest)

theorem sortBy_perm {α : Type} (le : α → α → Bool) (l : List α) : (sortBy le l).Perm l := by
  induction l with
  | nil => exact .refl _
  | cons a rest ih => exact (insertBy_perm le a (sortBy le rest)).trans (ih.cons a)

namespace Tree

variable {α : Type} {tree : Tree α} {k : Key}

/-- The keys of a tree are those at which something stands. -/
theorem mem_keys : k ∈ tree.keys ↔ tree.get? k ≠ none := by
  rw [keys, List.mem_cons, List.mem_map]
  by_cases hk : k = []
  · simp [hk]
  · rw [Tree.get?_ne_none_iff hk, or_iff_right hk]

/-- Every key is recorded once, and the root, which needs no record, has none. -/
def KeyedOnce (tree : Tree α) : Prop := tree.keys.Nodup

theorem keyedOnce_iff :
    tree.KeyedOnce ↔ [] ∉ tree.entries.map (·.1) ∧ (tree.entries.map (·.1)).Nodup :=
  List.nodup_cons

theorem KeyedOnce.filter (h : tree.KeyedOnce) (p : Key × Node α → Bool) :
    (⟨tree.entries.filter p⟩ : Tree α).KeyedOnce := by
  rw [keyedOnce_iff] at h ⊢
  have hsub : ((tree.entries.filter p).map (·.1)).Sublist (tree.entries.map (·.1)) :=
    List.filter_sublist.map _
  exact ⟨fun hroot => h.1 (hsub.subset hroot), h.2.sublist hsub⟩

theorem KeyedOnce.insert (h : tree.KeyedOnce) (hk : k ≠ []) (node : Node α) :
    (tree.insert k node).KeyedOnce := by
  obtain ⟨hroot, hrest⟩ := keyedOnce_iff.1 (h.filter fun entry => entry.1 != k)
  refine keyedOnce_iff.2 ⟨?_, ?_⟩
  · rw [Tree.insert, List.map_cons, List.mem_cons, not_or]
    exact ⟨Ne.symm hk, hroot⟩
  · rw [Tree.insert, List.map_cons, List.nodup_cons]
    refine ⟨fun hmem => ?_, hrest⟩
    obtain ⟨entry, hentry, heq⟩ := List.mem_map.1 hmem
    have hne := (List.mem_filter.1 hentry).2
    rw [heq] at hne
    simp at hne

theorem KeyedOnce.addDirectories (h : tree.KeyedOnce) (ks : List Key) :
    (tree.addDirectories ks).KeyedOnce := by
  induction ks generalizing tree with
  | nil => exact h
  | cons k more ih =>
    unfold Tree.addDirectories
    split
    · next hnone =>
      have hk : k ≠ [] := by
        rintro rfl
        rw [get?_root] at hnone
        cases hnone
      exact ih (h.insert hk _)
    · exact ih h

end Tree

namespace MemoryStore

variable {store after : MemoryStore} {k : Key}

/-! ## Keys of a store -/

theorem TreeChange.keyedOnce {tree : Tree MemoryFile} (hchange : TreeChange store tree)
    (h : store.tree.KeyedOnce) : tree.KeyedOnce := by
  cases hchange with
  | same => exact h
  | started f hk => exact (h.addDirectories _).insert hk _
  | removed => exact h.filter _
  | emptied k => exact (h.filter _).filter _
  | housed => exact (h.addDirectories _).addDirectories _
  | renamed hold hnew => exact (h.filter _).insert (ne_root_of_none hnew) _
  | committed g hget => exact h.insert (ne_root_of_file hget) _

/-- A place is occupied where it was before, or it is a place that paths lead to. -/
def Occupied (store after : MemoryStore) (k : Key) : Prop :=
  after.get? k ≠ none → store.get? k ≠ none ∨ k.Canonical

theorem Occupied.of_same (h : after.get? k = store.get? k) : Occupied store after k := by
  intro hsome
  rw [h] at hsome
  exact .inl hsome

theorem occupied_conclude {α : Type} {outcome : Outcome α}
    (h : ∀ value after, outcome = .ok (value, after) → Occupied store after k) :
    Occupied store (store.conclude outcome).2 k := by
  cases outcome with
  | ok result => exact h result.1 result.2 rfl
  | error e => exact .of_same rfl

theorem canonical_of_mem_properAncestors {a k : Key} (h : k.Canonical)
    (ha : a ∈ k.properAncestors) : a.Canonical :=
  h.of_prefix (Key.isAbove_iff.1 (Key.mem_properAncestors.1 ha).2).1

theorem occupied_remove {path : Path} {recursive : Bool}
    (h : store.remove path recursive = .ok ((), after)) : Occupied store after k := by
  -- a removal leaves at any place what stood there or nothing
  have herased : ∀ tree : Tree MemoryFile, (tree.erase path.key).get? k ≠ none →
      tree.get? k ≠ none := by
    intro tree hsome
    rw [Tree.get?_erase] at hsome
    split at hsome
    · exact absurd rfl hsome
    · exact hsome
  have hemptied : (store.tree.eraseBelow path.key).get? k ≠ none → store.get? k ≠ none := by
    intro hsome
    rw [Tree.get?_eraseBelow] at hsome
    split at hsome
    · exact absurd rfl hsome
    · exact hsome
  cases recursive with
  | false =>
    obtain ⟨-, -, hafter⟩ := remove_eq_ok.1 h
    obtain ⟨-, rfl⟩ := Prod.ext_iff.1 hafter
    exact fun hsome => .inl (herased _ hsome)
  | true =>
    obtain ⟨-, node, -, hafter⟩ := removeAll_eq_ok.1 h
    obtain ⟨-, rfl⟩ := Prod.ext_iff.1 hafter
    intro hsome
    left
    change Tree.get? (if _ then _ else _) k ≠ none at hsome
    split at hsome
    · exact hemptied (herased _ hsome)
    · exact herased _ hsome

/-- A place that is occupied after a call was so before, or it is one that paths lead to. -/
theorem occupied_before (store : MemoryStore) (call : StorageCall) (k : Key) :
    Occupied store (store.perform call).2 k := by
  cases call with
  | openFile | pathExists | status | checksum | read | write =>
    refine .of_same ?_
    rw [get?, tree_of_looks store rfl]
    rfl
  | createFile path overwrite bufferSize layout =>
    refine occupied_conclude fun value after h => ?_
    obtain ⟨stream, -, hcreate⟩ := unbuffered_eq_ok.1 h
    obtain ⟨hget, -, -, hafter⟩ := create_eq_ok.1 hcreate
    obtain ⟨-, rfl⟩ := Prod.ext_iff.1 hafter
    intro hsome
    rw [get?_startFile (ne_root hget)] at hsome
    split at hsome
    · next heq =>
      rw [heq]
      exact .inr path.key_canonical
    · split at hsome
      · next hnew => exact .inr (canonical_of_mem_properAncestors path.key_canonical hnew.1)
      · exact .inl hsome
  | remove path recursive => exact occupied_conclude fun value after h => occupied_remove h
  | makeDirs path =>
    refine occupied_conclude fun value after h => ?_
    obtain ⟨-, hafter⟩ := makeDirs_eq_ok.1 h
    obtain ⟨-, rfl⟩ := Prod.ext_iff.1 hafter
    intro hsome
    rw [get?_makeDirs] at hsome
    split at hsome
    · next hnew =>
      rcases hnew.1 with heq | hmem
      · rw [heq]
        exact .inr path.key_canonical
      · exact .inr (canonical_of_mem_properAncestors path.key_canonical hmem)
    · exact .inl hsome
  | rename source target =>
    refine occupied_conclude fun value after h => ?_
    obtain ⟨f, hold, hnew, -, hafter⟩ := rename_eq_ok.1 h
    obtain ⟨-, rfl⟩ := Prod.ext_iff.1 hafter
    intro hsome
    rw [get?_rename (ne_root_of_file hold) (ne_root_of_none hnew)] at hsome
    split at hsome
    · next heq =>
      rw [heq]
      exact .inr target.key_canonical
    · split at hsome
      · exact absurd rfl hsome
      · exact .inl hsome
  | close stream =>
    obtain ⟨writers, tree, hafter, htree⟩ := close_change store stream
    show Occupied store (store.close stream).2 k
    rw [hafter]
    rcases htree with rfl | ⟨place, f, g, hget, rfl⟩
    · exact .of_same rfl
    · intro hsome
      have hview : (store.tree.insert place (.file g)).get? k ≠ none := hsome
      rw [Tree.get?_insert _ (ne_root_of_file hget)] at hview
      split at hview
      · next heq =>
        rw [heq, hget]
        exact .inl (Option.some_ne_none _)
      · exact .inl hview

/-- In a reachable store every key is canonical. -/
theorem Reachable.canonical (h : Reachable store) (hk : store.get? k ≠ none) : k.Canonical := by
  induction h with
  | new kind defaults =>
    by_cases hroot : k = []
    · rw [hroot]
      exact fun name hname => absurd hname List.not_mem_nil
    · exact absurd ((Tree.get?_empty k).trans (if_neg hroot)) hk
  | call call _ ih =>
    rcases occupied_before _ call k hk with hold | hnew
    · exact ih hold
    · exact hnew

/-- In a reachable store every key is recorded once. -/
theorem Reachable.keyedOnce (h : Reachable store) : store.tree.KeyedOnce := by
  induction h with
  | new kind defaults => exact List.nodup_singleton []
  | call call _ ih => exact (perform_change _ call).tree.keyedOnce ih

end MemoryStore

/-! ## Operations -/

/-- What can be done to a store in memory: a call, or to put a whole file in one step. -/
inductive MemoryOperation where
  | call (call : StorageCall)
  | put (path : Path) (content : Bytes) (layout : Layout)

namespace MemoryStore

variable {store after : MemoryStore}

/-- The store after an operation: the old one when a whole file could not be put. -/
def operate (store : MemoryStore) : MemoryOperation → MemoryStore
  | .call call => (store.perform call).2
  | .put path content layout =>
    match store.put path content layout with
    | .ok ((), after) => after
    | .error _ => store

/-- To put a file is to create it, to write its content and to close it. -/
theorem Reachable.put {path : Path} {content : Bytes} {layout : Layout} (h : Reachable store)
    (hput : store.put path content layout = .ok ((), after)) : Reachable after := by
  unfold MemoryStore.put at hput
  cases hcreate : store.create path true layout with
  | error e => simp [hcreate] at hput
  | ok started =>
    obtain ⟨stream, created⟩ := started
    have hcreated : Reachable created := by
      have hcall := h.call (.createFile path true 0 layout)
      rw [perform, hcreate] at hcall
      exact hcall
    cases hwrite : created.write stream content with
    | error e => simp [hcreate, hwrite] at hput
    | ok result =>
      obtain ⟨⟨⟩, written⟩ := result
      have hwritten : Reachable written := by
        have hcall := hcreated.call (.write stream content)
        rw [perform, hwrite] at hcall
        exact hcall
      have hclosed := hwritten.call (.close stream)
      simp only [hcreate, hwrite] at hput
      cases hclose : written.close stream with
      | mk answer closed =>
        rw [perform, hclose] at hclosed
        cases answer with
        | error e => simp [hclose] at hput
        | ok =>
          simp only [hclose, Except.ok.injEq, Prod.mk.injEq, true_and] at hput
          rw [← hput]
          exact hclosed

theorem Reachable.operate (h : Reachable store) (operation : MemoryOperation) :
    Reachable (store.operate operation) := by
  cases operation with
  | call call => exact .call call h
  | put path content layout =>
    cases hput : store.put path content layout with
    | error e =>
      simp only [MemoryStore.operate, hput]
      exact h
    | ok result =>
      simp only [MemoryStore.operate, hput]
      exact h.put hput

/-- After any operations a store is as calls leave it. -/
theorem reachable_after_operations (operations : List MemoryOperation) (h : Reachable store) :
    Reachable (operations.foldl MemoryStore.operate store) := by
  induction operations generalizing store with
  | nil => exact h
  | cons operation rest ih => exact ih (h.operate operation)

/-! ## The theorem -/

/-- What can be said of a store in memory from outside: the root is listed, every key is listed
once and in canonical spelling, its parent is a directory and is listed, nothing is listed beneath
a file, and what is no directory is a file whose content can be asked for in every way. -/
structure Sound (store : MemoryStore) : Prop where
  root : [slash] ∈ store.list ∧ store.get? (Path.key [slash]) = some .directory
  listed : ∀ path : Path, path.key.text ∈ store.list ↔ store.pathExists path = true
  once : store.list.Nodup
  canonical : ∀ p ∈ store.list, Path.IsCanonical p ∧ (Path.key p).text = p
  parent : ∀ p ∈ store.list, p ≠ [slash] →
    Path.parent p ∈ store.list ∧ store.get? (Path.parent p).key = some .directory
  beneath : ∀ p ∈ store.list, ∀ other ∈ store.list, p ++ [slash] <+: other →
    store.get? (Path.key p) = some .directory
  content : ∀ path : Path, store.pathExists path = true →
    store.get? path.key = some .directory ∨ ∃ f : MemoryFile,
      store.status path = .ok {
        path := path.key.text, length := wrap64 f.content.length
        replication := f.layout.replication, blockSize := f.layout.blockSize } ∧
      store.checksum path = .ok (checksumOf store.checksumKind f.layout.blockSize f.content) ∧
      store.get path = .ok f.content ∧
      ∃ opened : MemoryStore, store.openFile path = .ok (store.readers.size, opened) ∧
        opened.readers[store.readers.size]? = some ⟨f.content⟩

theorem mem_list {p : Path} : p ∈ store.list ↔ ∃ k, store.get? k ≠ none ∧ k.text = p := by
  rw [list, sortBytes, (sortBy_perm _ _).mem_iff, List.mem_map]
  exact exists_congr fun k => and_congr_left fun _ => Tree.mem_keys

/-- What is listed is spelled by a canonical key at which something stands. -/
theorem Reachable.exists_of_mem_list (h : Reachable store) {p : Path} (hp : p ∈ store.list) :
    ∃ k : Key, k.Canonical ∧ store.get? k ≠ none ∧ k.text = p ∧ p.key = k := by
  obtain ⟨k, hk, rfl⟩ := mem_list.1 hp
  exact ⟨k, h.canonical hk, hk, rfl, (h.canonical hk).key_text⟩

theorem Reachable.nodup_list (h : Reachable store) : store.list.Nodup := by
  rw [list, sortBytes, (sortBy_perm _ _).nodup_iff]
  refine List.Nodup.map_on (fun k hk other hother htext => ?_) h.keyedOnce
  have hcanonical := h.canonical (Tree.mem_keys.1 hk)
  exact hcanonical.eq_of_text (h.canonical (Tree.mem_keys.1 hother)) htext

/-- The place of a path is listed exactly when something is there. -/
theorem Reachable.listed (h : Reachable store) (path : Path) :
    path.key.text ∈ store.list ↔ store.pathExists path = true := by
  rw [pathExists, Option.isSome_iff_ne_none]
  constructor
  · intro hmem
    obtain ⟨k, -, hget, -, hkey⟩ := h.exists_of_mem_list hmem
    rw [path.key_canonical.key_text] at hkey
    rw [hkey]
    exact hget
  · exact fun hget => mem_list.2 ⟨path.key, hget, rfl⟩

theorem content_of_file {path : Path} {f : MemoryFile}
    (hfile : store.get? path.key = some (.file f)) :
    store.status path = .ok {
        path := path.key.text, length := wrap64 f.content.length
        replication := f.layout.replication, blockSize := f.layout.blockSize } ∧
      store.checksum path = .ok (checksumOf store.checksumKind f.layout.blockSize f.content) ∧
      store.get path = .ok f.content ∧
      ∃ opened : MemoryStore, store.openFile path = .ok (store.readers.size, opened) ∧
        opened.readers[store.readers.size]? = some ⟨f.content⟩ := by
  have hfound := file?_eq_some.2 hfile
  refine ⟨?_, ?_, ?_, _, openFile_eq_ok.2 ⟨f, hfile, rfl⟩, Array.getElem?_push_size⟩
  · simp only [status, hfile]
  · simp only [checksum, hfound]
  · simp only [get, hfound]

theorem Reachable.sound (h : Reachable store) : Sound store where
  root := ⟨mem_list.2 ⟨[], by simp [get?], rfl⟩, Tree.get?_root store.tree⟩
  listed := h.listed
  once := h.nodup_list
  canonical p hp := by
    obtain ⟨k, hk, -, rfl, hkey⟩ := h.exists_of_mem_list hp
    exact ⟨hk.isCanonical_text, by rw [hkey]⟩
  parent p hp hroot := by
    obtain ⟨k, hk, hget, rfl, -⟩ := h.exists_of_mem_list hp
    have hne : k ≠ [] := by
      rintro rfl
      exact hroot rfl
    have hparent := h.wellFormed k hne hget
    rw [hk.parent_text hne, hk.parent.key_text]
    refine ⟨mem_list.2 ⟨k.parent, ?_, rfl⟩, hparent⟩
    rw [get?, hparent]
    exact Option.some_ne_none _
  beneath p hp other hother hbegins := by
    obtain ⟨k, hk, -, rfl, hkey⟩ := h.exists_of_mem_list hp
    obtain ⟨below, hbelow, hget, rfl, -⟩ := h.exists_of_mem_list hother
    rw [hkey]
    by_cases hroot : k = []
    · rw [hroot]
      exact Tree.get?_root store.tree
    · have habove := hk.isAbove_of_text hroot hbelow hbegins
      exact h.wellFormed.above hget (Key.mem_properAncestors.2 ⟨hroot, habove⟩)
  content path hpath := by
    cases hget : store.get? path.key with
    | none => simp [pathExists, hget] at hpath
    | some node =>
      cases node with
      | directory => exact .inl rfl
      | file f => exact .inr ⟨f, content_of_file hget⟩

/-- After any operations on a new store, in any order, on any paths and through any streams, and
whether they succeed or fail, the store is sound. -/
theorem sound_after_operations (kind : ChecksumKind) (defaults : Layout)
    (operations : List MemoryOperation) :
    Sound (operations.foldl MemoryStore.operate { checksumKind := kind, defaults := defaults }) :=
  (reachable_after_operations operations (.new kind defaults)).sound

end MemoryStore

end StagedCopy
