import StagedCopy.Proofs.Memory.View

/-!
# Stores that can come to be

The stores in memory that calls lead to from an empty one. In each of them the parent of whatever
stands somewhere is a directory, so everything above it is.

* `MemoryStore.TreeChange`, `MemoryStore.Change` — all that one call can do, with the conditions
  under which it does it; `perform_change`.
* `MemoryStore.Reachable` — the stores that calls lead to.
* `Tree.WellFormed` — the parent of what stands somewhere is a directory.
* `MemoryStore.Reachable.wellFormed` — reachable stores are well formed.
-/

namespace StagedCopy

/-! ## Well-formed trees -/

namespace Tree

variable {α : Type} {tree : Tree α}

/-- The parent of whatever stands somewhere is a directory. -/
def WellFormed (tree : Tree α) : Prop :=
  ∀ k : Key, k ≠ [] → tree.get? k ≠ none → tree.get? k.parent = some .directory

/-- Everything above what stands somewhere is a directory. -/
theorem WellFormed.above (h : tree.WellFormed) {k a : Key} (hk : tree.get? k ≠ none)
    (ha : a ∈ k.properAncestors) : tree.get? a = some .directory := by
  induction hn : k.length generalizing k with
  | zero =>
    obtain rfl : k = [] := List.length_eq_zero_iff.1 hn
    exact absurd ha List.not_mem_nil
  | succ n ih =>
    have hne : k ≠ [] := by
      rintro rfl
      cases hn
    have hparent := h k hne hk
    rcases (Key.mem_properAncestors_iff_parent.1 ha).2 with heq | hmem
    · rw [heq]
      exact hparent
    · refine ih ?_ hmem ?_
      · rw [hparent]
        exact Option.some_ne_none _
      · rw [Key.parent, List.length_dropLast, hn]
        rfl

/-- Where the parent of a place is a directory, so is all above the place. -/
theorem WellFormed.above_of_parent (h : tree.WellFormed) {k a : Key}
    (hparent : tree.get? k.parent = some .directory) (ha : a ∈ k.properAncestors) :
    tree.get? a = some .directory := by
  rcases (Key.mem_properAncestors_iff_parent.1 ha).2 with rfl | habove
  · exact hparent
  · refine h.above ?_ habove
    rw [hparent]
    exact Option.some_ne_none _

/-- What something else begins with is a directory, the root among them. -/
theorem WellFormed.of_prefix (h : tree.WellFormed) {k a : Key} (hk : tree.get? k ≠ none)
    (ha : a <+: k) (hne : a ≠ k) : tree.get? a = some .directory := by
  by_cases hroot : a = []
  · rw [hroot]
    exact get?_root tree
  · exact h.above hk (Key.mem_properAncestors.2 ⟨hroot, Key.isAbove_iff.2 ⟨ha, hne⟩⟩)

/-- Where nothing is recorded below a place, nothing stands there. -/
theorem get?_of_hasBelow {k other : Key} (h : tree.hasBelow k = false)
    (hbelow : k.isAbove other = true) : tree.get? other = none := by
  by_contra hsome
  have hrecorded := hasBelow_iff.2 ⟨other, hbelow, hsome⟩
  rw [h] at hrecorded
  cases hrecorded

/-- Something may come to stand in a directory, but no file in place of a directory. -/
theorem WellFormed.insert {k : Key} {node : Node α} (h : tree.WellFormed) (hk : k ≠ [])
    (hparent : tree.get? k.parent = some .directory)
    (hnode : tree.get? k = some .directory → node = .directory) :
    (tree.insert k node).WellFormed := by
  have hstays : ∀ a, tree.get? a = some .directory →
      (tree.insert k node).get? a = some .directory := by
    intro a ha
    rw [get?_insert _ hk]
    split
    · next heq =>
      rw [heq] at ha
      rw [hnode ha]
    · exact ha
  intro other hother hsome
  rw [get?_insert _ hk] at hsome
  by_cases heq : other = k
  · rw [heq]
    exact hstays _ hparent
  · rw [if_neg heq] at hsome
    exact hstays _ (h other hother hsome)

/-- What has nothing below it may go. -/
theorem WellFormed.erase {k : Key} (h : tree.WellFormed)
    (hbelow : ∀ other, k.isAbove other = true → tree.get? other = none) :
    (tree.erase k).WellFormed := by
  intro other hother hsome
  rw [get?_erase] at hsome
  split at hsome
  · exact absurd rfl hsome
  · have hne : other.parent ≠ k := by
      rintro rfl
      exact hsome (hbelow other (Key.isAbove_parent hother))
    rw [get?_erase, if_neg (fun hboth => hne hboth.1)]
    exact h other hother hsome

theorem WellFormed.eraseBelow {k : Key} (h : tree.WellFormed) :
    (tree.eraseBelow k).WellFormed := by
  intro other hother hsome
  rw [get?_eraseBelow] at hsome
  split at hsome
  · exact absurd rfl hsome
  · next hother_below =>
    have hparent_below : ¬ k.isAbove other.parent = true :=
      fun hbelow => hother_below (Key.isAbove_of_parent hbelow)
    rw [get?_eraseBelow, if_neg hparent_below]
    exact h other hother hsome

/-- With no file above a place, the directories above it can be made, and then its parent is a
directory. -/
theorem WellFormed.addParents {k : Key} (h : tree.WellFormed)
    (hfree : ∀ a ∈ k.properAncestors, ∀ f, tree.get? a ≠ some (.file f)) :
    (tree.addDirectories k.properAncestors).WellFormed ∧
      (tree.addDirectories k.properAncestors).get? k.parent = some .directory := by
  have hget : ∀ a, (tree.addDirectories k.properAncestors).get? a =
      if a ∈ k.properAncestors ∧ tree.get? a = none then some .directory else tree.get? a :=
    Tree.get?_addDirectories tree (Key.nil_not_mem_properAncestors k)
  -- the places above are directories, whether they were there or not
  have hdirectory : ∀ a, a = [] ∨ a ∈ k.properAncestors →
      (tree.addDirectories k.properAncestors).get? a = some .directory := by
    rintro a (rfl | ha)
    · exact get?_root _
    · rw [hget]
      cases hold : tree.get? a with
      | none => simp [ha]
      | some node =>
        cases node with
        | directory => simp
        | file f => exact absurd hold (hfree a ha f)
  constructor
  · intro other hother hsome
    by_cases hmem : other ∈ k.properAncestors
    · exact hdirectory _ (Key.parent_mem_properAncestors hmem)
    · rw [hget, if_neg (fun hboth => hmem hboth.1)] at hsome
      have hparent := h other hother hsome
      rw [hget, if_neg (by simp [hparent])]
      exact hparent
  · by_cases hk : k = []
    · rw [hk]
      exact get?_root _
    · by_cases hroot : k.parent = []
      · exact hdirectory _ (.inl hroot)
      · exact hdirectory _ (.inr (Key.mem_properAncestors_iff_parent.2 ⟨hroot, .inl rfl⟩))

/-- Nothing stands below a file. -/
theorem WellFormed.below_file {k other : Key} {f : α} (h : tree.WellFormed) (hk : k ≠ [])
    (hfile : tree.get? k = some (.file f)) (hbelow : k.isAbove other = true) :
    tree.get? other = none := by
  by_contra hsome
  have habove := h.above hsome (Key.mem_properAncestors.2 ⟨hk, hbelow⟩)
  rw [hfile] at habove
  cases habove

end Tree

namespace MemoryStore

variable {store : MemoryStore}

/-! ## What a call does to the tree -/

/-- A tree that a store can have after one call. -/
inductive TreeChange (store : MemoryStore) : Tree MemoryFile → Prop where
  | same : TreeChange store store.tree
  /-- A file is created where no directory is, with no file above it. -/
  | started {k : Key} (f : MemoryFile) (hk : k ≠ []) (hget : store.get? k ≠ some .directory)
      (habove : ∀ a ∈ k.properAncestors, ∀ g, store.get? a ≠ some (.file g)) :
      TreeChange store ((store.addParents k).insert k (.file f))
  /-- A file goes, or a directory with nothing below it. -/
  | removed {k : Key} {node : Node MemoryFile} (hk : k ≠ []) (hget : store.get? k = some node)
      (hbelow : node = .directory → store.tree.hasBelow k = false) :
      TreeChange store (store.tree.erase k)
  /-- A directory goes with all below it. -/
  | emptied (k : Key) : TreeChange store ((store.tree.eraseBelow k).erase k)
  /-- Directories are made, with no file at any of their places. -/
  | housed {k : Key}
      (hfree : ∀ a, (a = k ∨ a ∈ k.properAncestors) → ∀ g, store.get? a ≠ some (.file g)) :
      TreeChange store ((store.addParents k).addDirectories [k])
  /-- A file goes to another place in a directory, where nothing stands. -/
  | renamed {old new : Key} {f : MemoryFile} (hold : store.get? old = some (.file f))
      (hnew : store.get? new = none) (hparent : store.get? new.parent = some .directory) :
      TreeChange store ((store.tree.erase old).insert new (.file f))
  /-- A file gets another content. -/
  | committed {k : Key} {f : MemoryFile} (g : MemoryFile) (hget : store.get? k = some (.file f)) :
      TreeChange store (store.tree.insert k (.file g))

/-- What one call can make of a store: the settings stay. -/
structure Change (store after : MemoryStore) : Prop where
  kind : after.checksumKind = store.checksumKind
  defaults : after.defaults = store.defaults
  tree : TreeChange store after.tree

theorem Change.refl (store : MemoryStore) : Change store store := ⟨rfl, rfl, .same⟩

theorem conclude_change {α : Type} {outcome : Outcome α}
    (h : ∀ value after, outcome = .ok (value, after) → Change store after) :
    Change store (store.conclude outcome).2 := by
  cases outcome with
  | ok result => exact h result.1 result.2 rfl
  | error e => exact .refl store

theorem look_change {α : Type} (result : Except MemoryError α) :
    Change store (store.look result).2 := by
  have hsame : (store.look result).2 = store := look_eq rfl
  rw [hsame]
  exact .refl store

theorem remove_change {path : Path} {recursive : Bool} {after : MemoryStore}
    (h : store.remove path recursive = .ok ((), after)) : Change store after := by
  cases recursive with
  | false =>
    obtain ⟨hk, ⟨node, hget, hbelow⟩, hafter⟩ := remove_eq_ok.1 h
    obtain ⟨-, rfl⟩ := Prod.ext_iff.1 hafter
    exact ⟨rfl, rfl, .removed hk hget hbelow⟩
  | true =>
    obtain ⟨hk, node, hget, hafter⟩ := removeAll_eq_ok.1 h
    obtain ⟨-, rfl⟩ := Prod.ext_iff.1 hafter
    refine ⟨rfl, rfl, ?_⟩
    show TreeChange store (if _ then _ else _)
    split
    · exact .emptied path.key
    · next hkeep =>
      refine .removed hk hget ?_
      rintro rfl
      simpa [Node.isFile] using hkeep

theorem perform_change (store : MemoryStore) (call : StorageCall) :
    Change store (store.perform call).2 := by
  cases call with
  | openFile path =>
    refine conclude_change fun stream after h => ?_
    obtain ⟨f, -, hafter⟩ := openFile_eq_ok.1 h
    obtain ⟨-, rfl⟩ := Prod.ext_iff.1 hafter
    exact ⟨rfl, rfl, .same⟩
  | createFile path overwrite bufferSize layout =>
    refine conclude_change fun value after h => ?_
    obtain ⟨stream, -, hcreate⟩ := unbuffered_eq_ok.1 h
    obtain ⟨hget, -, habove, hafter⟩ := create_eq_ok.1 hcreate
    obtain ⟨-, rfl⟩ := Prod.ext_iff.1 hafter
    exact ⟨rfl, rfl, .started _ (ne_root hget) hget (fileAbove?_eq_none.1 habove)⟩
  | pathExists path => exact .refl store
  | remove path recursive => exact conclude_change fun value after h => remove_change h
  | makeDirs path =>
    refine conclude_change fun value after h => ?_
    obtain ⟨hfree, hafter⟩ := makeDirs_eq_ok.1 h
    obtain ⟨-, rfl⟩ := Prod.ext_iff.1 hafter
    exact ⟨rfl, rfl, .housed hfree⟩
  | rename source target =>
    refine conclude_change fun value after h => ?_
    obtain ⟨f, hold, hnew, hparent, hafter⟩ := rename_eq_ok.1 h
    obtain ⟨-, rfl⟩ := Prod.ext_iff.1 hafter
    exact ⟨rfl, rfl, .renamed hold hnew hparent⟩
  | status path => exact look_change _
  | checksum path => exact look_change _
  | read stream size =>
    refine conclude_change fun chunk after h => ?_
    obtain ⟨reader, -, hafter⟩ := read_eq_ok.1 h
    obtain ⟨-, rfl⟩ := Prod.ext_iff.1 hafter
    exact ⟨rfl, rfl, .same⟩
  | write stream data =>
    refine conclude_change fun value after h => ?_
    obtain ⟨writer, -, -, hafter⟩ := write_eq_ok.1 h
    obtain ⟨-, rfl⟩ := Prod.ext_iff.1 hafter
    exact ⟨rfl, rfl, .same⟩
  | close stream =>
    obtain ⟨writers, tree, hafter, htree⟩ := close_change store stream
    show Change store (store.close stream).2
    rw [hafter]
    refine ⟨rfl, rfl, ?_⟩
    rcases htree with rfl | ⟨k, f, g, hget, rfl⟩
    · exact .same
    · exact .committed g hget

/-! ## Well-formed stores -/

theorem TreeChange.wellFormed {tree : Tree MemoryFile} (hchange : TreeChange store tree)
    (h : store.tree.WellFormed) : tree.WellFormed := by
  cases hchange with
  | same => exact h
  | @started k f hk hget habove =>
    obtain ⟨hadded, hparent⟩ := h.addParents habove
    refine hadded.insert hk hparent fun hdirectory => ?_
    have hself : (store.addParents k).get? k = store.get? k := by
      rw [get?_addParents, if_neg (fun hboth => Key.not_mem_properAncestors_self k hboth.1)]
    exact absurd (hself.symm.trans hdirectory) hget
  | @removed k node hk hget hbelow =>
    refine h.erase fun other hother => ?_
    cases node with
    | directory => exact Tree.get?_of_hasBelow (hbelow rfl) hother
    | file f => exact h.below_file hk hget hother
  | emptied k =>
    refine h.eraseBelow.erase fun other hother => ?_
    rw [Tree.get?_eraseBelow, if_pos hother]
  | @housed k hfree =>
    obtain ⟨hadded, hparent⟩ := h.addParents fun a ha => hfree a (.inr ha)
    show ((store.addParents k).addDirectories [k]).WellFormed
    unfold Tree.addDirectories
    split
    · next hnone =>
      by_cases hk : k = []
      · rw [hk] at hnone
        cases hnone.symm.trans (Tree.get?_root _)
      · exact hadded.insert hk hparent fun _ => rfl
    · exact hadded
  | @renamed old new f hold hnew hparent =>
    have hne : new.parent ≠ old := by
      rintro rfl
      cases hparent.symm.trans hold
    refine (h.erase fun other => h.below_file (ne_root_of_file hold) hold).insert
      (ne_root_of_none hnew) ?_ ?_
    · rw [Tree.get?_erase, if_neg (fun hboth => hne hboth.1)]
      exact hparent
    · intro hdirectory
      rw [Tree.get?_erase] at hdirectory
      split at hdirectory
      · cases hdirectory
      · cases hnew.symm.trans hdirectory
  | @committed k f g hget =>
    have hsome : store.tree.get? k ≠ none := by
      intro hnone
      cases hget.symm.trans hnone
    have hk : k ≠ [] := ne_root_of_file hget
    refine h.insert hk (h k hk hsome) ?_
    intro hdirectory
    cases hget.symm.trans hdirectory

/-! ## Reachable stores -/

/-- The stores that calls lead to from one that was just made with any settings. -/
inductive Reachable : MemoryStore → Prop where
  | new (kind : ChecksumKind) (defaults : Layout) :
      Reachable { checksumKind := kind, defaults := defaults }
  | call {store : MemoryStore} (call : StorageCall) (h : Reachable store) :
      Reachable (store.perform call).2

/-- Any calls lead from a reachable store to one. -/
theorem Reachable.calls (h : Reachable store) (calls : List StorageCall) :
    Reachable (calls.foldl (fun store call => (store.perform call).2) store) := by
  induction calls generalizing store with
  | nil => exact h
  | cons call rest ih => exact ih (.call call h)

/-- In a reachable store the parent of whatever stands somewhere is a directory. -/
theorem Reachable.wellFormed (h : Reachable store) : store.tree.WellFormed := by
  induction h with
  | new kind defaults =>
    intro k hk hsome
    rw [Tree.get?_empty, if_neg hk] at hsome
    exact absurd rfl hsome
  | call call _ ih => exact (perform_change _ call).tree.wellFormed ih

end MemoryStore

end StagedCopy
