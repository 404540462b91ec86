import StagedCopy.Memory
import StagedCopy.Proofs.Path.Parent

/-!
# What the operations of a store in memory do

For each operation of a store in memory: exactly when it succeeds, and what stands where after it.
A store is read through `MemoryStore.get?` only, and what an operation does to the streams and the
settings is seen from the store that it gives.

* `create_eq_ok`, `openFile_eq_ok`, `remove_eq_ok`, `makeDirs_eq_ok`, `rename_eq_ok` — when they
  succeed and what they give.
* `get?_startFile`, `get?_erase`, `get?_makeDirs`, `get?_rename`, `get?_close` — the view after
  each.
* `StorageCall.looks`, `tree_of_looks` — the calls that leave what stands in the store as it is;
  `writers_of_perform`, `readers_of_perform` — those that leave the streams alone.
* `perform_error` — a call that fails changes nothing, unless it closes a stream.
-/

namespace StagedCopy

/-- Something stands at a place other than the root exactly when there is a record of it. -/
theorem Tree.get?_ne_none_iff {α : Type} {tree : Tree α} {k : Key} (hk : k ≠ []) :
    tree.get? k ≠ none ↔ ∃ entry ∈ tree.entries, entry.1 = k := by
  rw [get?, if_neg hk, ne_eq, List.lookup_eq_none_iff]
  constructor
  · intro hsome
    by_contra hnone
    refine hsome fun entry hentry => bne_iff_ne.2 fun heq => hnone ⟨entry, hentry, heq.symm⟩
  · rintro ⟨entry, hentry, heq⟩ hnone
    exact bne_iff_ne.1 (hnone entry hentry) heq.symm

/-- Nothing is above the root. -/
theorem Key.ne_root_of_isAbove {k below : Key} (h : k.isAbove below = true) : below ≠ [] := by
  rintro rfl
  rw [isAbove_iff, List.prefix_nil] at h
  exact h.2 h.1

/-- Something is recorded below a place exactly when something stands there. -/
theorem Tree.hasBelow_iff {α : Type} {tree : Tree α} {k : Key} :
    tree.hasBelow k = true ↔ ∃ other, k.isAbove other = true ∧ tree.get? other ≠ none := by
  rw [hasBelow, List.any_eq_true]
  constructor
  · rintro ⟨entry, hentry, habove⟩
    exact ⟨entry.1, habove, (get?_ne_none_iff (Key.ne_root_of_isAbove habove)).2
      ⟨entry, hentry, rfl⟩⟩
  · rintro ⟨other, habove, hsome⟩
    obtain ⟨entry, hentry, rfl⟩ := (get?_ne_none_iff (Key.ne_root_of_isAbove habove)).1 hsome
    exact ⟨entry, hentry, habove⟩

namespace MemoryStore

variable {store after : MemoryStore} {k other : Key} {path source target : Path}
  {stream : StreamId} {wanted : Layout} {writer : MemoryWriter}

/-! ## Files -/

theorem file?_eq_some {f : MemoryFile} :
    store.file? k = some f ↔ store.get? k = some (.file f) := by
  unfold file?
  split
  · next g hg => simp [hg]
  · next hnone =>
    constructor
    · intro h
      cases h
    · intro h
      exact absurd h (hnone f)

/-- The root is a directory, so what is none stands elsewhere. -/
theorem ne_root (h : store.get? k ≠ some .directory) : k ≠ [] := by
  rintro rfl
  exact h (Tree.get?_root store.tree)

theorem ne_root_of_file {f : MemoryFile} (h : store.get? k = some (.file f)) : k ≠ [] := by
  have hne : store.get? k ≠ some .directory := by simp [h]
  exact ne_root hne

theorem ne_root_of_none (h : store.get? k = none) : k ≠ [] := by
  have hne : store.get? k ≠ some .directory := by simp [h]
  exact ne_root hne

/-- No file stands above a place exactly when the place is not found to have one. -/
theorem fileAbove?_eq_none :
    store.tree.fileAbove? k = none ↔
      ∀ place ∈ k.properAncestors, ∀ f, store.get? place ≠ some (.file f) := by
  unfold Tree.fileAbove?
  rw [List.find?_eq_none]
  refine forall₂_congr fun place _ => ?_
  show ¬ (store.get? place).any Node.isFile = true ↔ _
  cases store.get? place with
  | none => simp
  | some node => cases node <;> simp [Node.isFile]

/-- Of what is above a place, the root is never missing. -/
theorem missing_above_iff {above : Key} :
    (above.isAbove k ∧ store.get? above = none) ↔
      (above ∈ k.properAncestors ∧ store.get? above = none) := by
  rw [Key.mem_properAncestors]
  constructor
  · rintro ⟨habove, hmissing⟩
    exact ⟨⟨ne_root_of_none hmissing, habove⟩, hmissing⟩
  · rintro ⟨⟨-, habove⟩, hmissing⟩
    exact ⟨habove, hmissing⟩

/-! ## Creating -/

theorem create_eq_ok {overwrite : Bool} {result : StreamId × MemoryStore} :
    store.create path overwrite wanted = .ok result ↔
      store.get? path.key ≠ some .directory ∧ (store.get? path.key = none ∨ overwrite = true) ∧
        store.tree.fileAbove? path.key = none ∧ store.startFile path.key wanted = result := by
  unfold create
  cases hget : store.get? path.key with
  | none => cases habove : store.tree.fileAbove? path.key <;> simp [hget, habove]
  | some node =>
    cases node with
    | directory => simp [hget]
    | file f =>
      cases overwrite
      · simp [hget]
      · cases habove : store.tree.fileAbove? path.key <;> simp [hget, habove]

theorem unbuffered_eq_ok {created : Outcome StreamId} {value : Except Breakdown StreamId} :
    unbuffered created = .ok (value, after) ↔
      ∃ stream, value = .ok stream ∧ created = .ok (stream, after) := by
  cases created with
  | ok result =>
    obtain ⟨stream, started⟩ := result
    constructor
    · intro h
      obtain ⟨rfl, rfl⟩ := Prod.ext_iff.1 (Except.ok.inj h)
      exact ⟨stream, rfl, rfl⟩
    · rintro ⟨_, rfl, hstarted⟩
      obtain ⟨rfl, rfl⟩ := Prod.ext_iff.1 (Except.ok.inj hstarted)
      rfl
  | error e => simp [unbuffered, Except.map]

theorem get?_addParents (store : MemoryStore) (k other : Key) :
    (store.addParents k).get? other =
      if other ∈ k.properAncestors ∧ store.get? other = none then some .directory
      else store.get? other :=
  Tree.get?_addDirectories store.tree (Key.nil_not_mem_properAncestors k) other

/-- A new file is empty, and the directories above it are there. -/
theorem get?_startFile (hk : k ≠ []) :
    (store.startFile k wanted).2.get? other =
      if other = k then some (.file ⟨[], store.layoutFor wanted⟩)
      else if other ∈ k.properAncestors ∧ store.get? other = none then some .directory
      else store.get? other := by
  show ((store.addParents k).insert k _).get? other = _
  rw [Tree.get?_insert _ hk, get?_addParents]

/-! ## Removing -/

theorem remove_eq_ok {result : Unit × MemoryStore} :
    store.remove path false = .ok result ↔
      path.key ≠ [] ∧
        (∃ node, store.get? path.key = some node ∧
          (node = .directory → store.tree.hasBelow path.key = false)) ∧
        ((), { store with tree := store.tree.erase path.key }) = result := by
  unfold remove
  cases hget : store.get? path.key with
  | none => simp [hget]
  | some node =>
    simp only [hget]
    by_cases hk : path.key = []
    · simp [hk]
    · cases node with
      | directory => cases store.tree.hasBelow path.key <;> simp [hk, Node.isFile]
      | file f => simp [hk, Node.isFile]

/-- Anything but the root can be removed with all below it. -/
theorem removeAll_eq_ok {result : Unit × MemoryStore} :
    store.remove path true = .ok result ↔
      path.key ≠ [] ∧ ∃ node, store.get? path.key = some node ∧
        ((), { store with tree :=
          if !node.isFile && store.tree.hasBelow path.key then
            (store.tree.eraseBelow path.key).erase path.key
          else store.tree.erase path.key }) = result := by
  unfold remove
  cases hget : store.get? path.key with
  | none => simp [hget]
  | some node =>
    simp only [hget]
    by_cases hk : path.key = []
    · simp [hk]
    · by_cases hfull : node.isFile = false ∧ store.tree.hasBelow path.key = true
      · simp [hk, hfull]
      · simp [hk, hfull]

theorem get?_erase (hk : k ≠ []) :
    ({ store with tree := store.tree.erase k } : MemoryStore).get? other =
      if other = k then none else store.get? other := by
  show (store.tree.erase k).get? other = _
  rw [Tree.get?_erase]
  by_cases h : other = k
  · rw [if_pos ⟨h, h ▸ hk⟩, if_pos h]
  · rw [if_neg (fun hboth => h hboth.1), if_neg h]
    rfl

/-! ## Making directories -/

theorem makeDirs_eq_ok {result : Unit × MemoryStore} :
    store.makeDirs path = .ok result ↔
      (∀ place, (place = path.key ∨ place ∈ path.key.properAncestors) →
        ∀ f, store.get? place ≠ some (.file f)) ∧
      ((), { store with tree := (store.addParents path.key).addDirectories [path.key] })
        = result := by
  have hfind : (path.key :: path.key.properAncestors).find?
      (fun place => (store.get? place).any Node.isFile) = none ↔
        ∀ place, (place = path.key ∨ place ∈ path.key.properAncestors) →
          ∀ f, store.get? place ≠ some (.file f) := by
    rw [List.find?_eq_none]
    refine forall_congr' fun place => ?_
    rw [List.mem_cons]
    refine forall_congr' fun _ => ?_
    cases store.get? place with
    | none => simp
    | some node => cases node <;> simp [Node.isFile]
  unfold makeDirs
  cases hfound : (path.key :: path.key.properAncestors).find?
      (fun place => (store.get? place).any Node.isFile) with
  | none =>
    simp only [hfound]
    constructor
    · intro h
      exact ⟨hfind.1 hfound, Except.ok.inj h⟩
    · rintro ⟨-, rfl⟩
      rfl
  | some place =>
    have hnot : ¬ ∀ place, (place = path.key ∨ place ∈ path.key.properAncestors) →
        ∀ f, store.get? place ≠ some (.file f) := by
      rw [← hfind, hfound]
      simp
    simp only [hfound]
    constructor
    · intro h
      cases h
    · intro h
      exact absurd h.1 hnot

/-- The missing ones of a place and the places above it are made. -/
theorem get?_makeDirs :
    ({ store with tree := (store.addParents k).addDirectories [k] } : MemoryStore).get? other =
      if (other = k ∨ other ∈ k.properAncestors) ∧ store.get? other = none then some .directory
      else store.get? other := by
  show ((store.addParents k).addDirectories [k]).get? other = _
  by_cases hk : k = []
  · have hroot : (store.addParents k).addDirectories [k] = store.addParents k := by
      rw [hk, Tree.addDirectories, Tree.get?_root]
      rfl
    rw [hroot, get?_addParents]
    by_cases hother : other = k
    · have hget : store.get? other = some .directory := by
        rw [hother, hk]
        exact Tree.get?_root store.tree
      simp [hget]
    · simp [hother]
  · have hnil : [] ∉ [k] := by
      rw [List.mem_singleton]
      exact Ne.symm hk
    rw [Tree.get?_addDirectories _ hnil, get?_addParents]
    by_cases hother : other = k
    · simp [hother, Key.not_mem_properAncestors_self]
    · simp [hother]

/-! ## Renaming -/

theorem rename_eq_ok {result : Unit × MemoryStore} :
    store.rename source target = .ok result ↔
      ∃ f, store.get? source.key = some (.file f) ∧ store.get? target.key = none ∧
        store.get? target.key.parent = some .directory ∧
        ((), { store with tree := (store.tree.erase source.key).insert target.key (.file f) })
          = result := by
  unfold rename
  cases hsource : store.get? source.key with
  | none => simp [hsource]
  | some node =>
    cases node with
    | directory => simp [hsource]
    | file f =>
      cases htarget : store.get? target.key with
      | some other => simp [hsource, htarget]
      | none =>
        simp only [hsource, htarget]
        cases hparent : store.get? target.key.parent with
        | none => simp
        | some above => cases above <;> simp

/-- What stands at a place is nowhere but at the new place. -/
theorem get?_rename {old new : Key} {node : Node MemoryFile} (hold : old ≠ []) (hnew : new ≠ []) :
    ({ store with tree := (store.tree.erase old).insert new node } : MemoryStore).get? other =
      if other = new then some node else if other = old then none else store.get? other := by
  show ((store.tree.erase old).insert new node).get? other = _
  rw [Tree.get?_insert _ hnew, Tree.get?_erase]
  by_cases h : other = old
  · have hne : other ≠ [] := h ▸ hold
    simp [h, hold]
  · simp [h, get?]

/-! ## Streams -/

theorem openFile_eq_ok {result : StreamId × MemoryStore} :
    store.openFile path = .ok result ↔
      ∃ f, store.get? path.key = some (.file f) ∧
        (store.readers.size, { store with readers := store.readers.push ⟨f.content⟩ })
          = result := by
  unfold openFile
  cases hget : store.get? path.key with
  | none => simp [hget]
  | some node => cases node <;> simp [hget]

theorem read_eq_ok {size : Nat} {result : Bytes × MemoryStore} :
    store.read stream size = .ok result ↔
      ∃ reader, store.readers[stream]? = some reader ∧
        (reader.rest.take size, { store with
          readers := store.readers.setIfInBounds stream ⟨reader.rest.drop size⟩ }) = result := by
  unfold read
  cases store.readers[stream]? <;> simp

theorem write_eq_ok {data : Bytes} {result : Unit × MemoryStore} :
    store.write stream data = .ok result ↔
      ∃ writer, store.writers[stream]? = some writer ∧ writer.closed = false ∧
        ((), { store with
          writers := store.writers.setIfInBounds stream
            { writer with chunks := data :: writer.chunks } }) = result := by
  unfold write
  cases store.writers[stream]? with
  | none => simp
  | some writer => cases hclosed : writer.closed <;> simp [hclosed]

/-- To close a stream the first time gives its file the content, if the file is there. -/
theorem close_eq (hwriter : store.writers[stream]? = some writer) (hopen : writer.closed = false) :
    store.close stream =
      let closed := { store with
        writers := store.writers.setIfInBounds stream { writer with closed := true } }
      match store.file? writer.key with
      | none => (.error (.vanished writer.key), closed)
      | some f => (.ok (), { closed with
          tree := store.tree.insert writer.key (.file { f with content := writer.content }) }) := by
  unfold close
  rw [hwriter]
  simp only [hopen]
  rw [if_neg Bool.false_ne_true, commit]
  show _ = match store.file? writer.key with
    | none => _
    | some f => _
  have hfile : ({ store with
      writers := store.writers.setIfInBounds stream { writer with closed := true } } :
        MemoryStore).file? writer.key = store.file? writer.key := rfl
  rw [hfile]
  cases store.file? writer.key <;> rfl

/-- After a stream is closed the first time, its file has the content. -/
theorem get?_close {f : MemoryFile} (hwriter : store.writers[stream]? = some writer)
    (hopen : writer.closed = false) (hfile : store.get? writer.key = some (.file f)) :
    (store.close stream).2.get? other =
      if other = writer.key then some (.file { f with content := writer.content })
      else store.get? other := by
  rw [close_eq hwriter hopen, file?_eq_some.2 hfile]
  exact Tree.get?_insert store.tree (ne_root_of_file hfile) _ other

/-- To close a stream the first time closes it, whether its file is there or not. -/
theorem writers_of_close (hwriter : store.writers[stream]? = some writer)
    (hopen : writer.closed = false) :
    (store.close stream).2.writers
      = store.writers.setIfInBounds stream { writer with closed := true } := by
  rw [close_eq hwriter hopen]
  cases store.file? writer.key <;> rfl

/-- To close a stream that is not open changes nothing. -/
theorem close_of_not_open
    (h : ∀ writer, store.writers[stream]? = some writer → writer.closed = true) :
    (store.close stream).2 = store := by
  unfold close
  cases hwriter : store.writers[stream]? with
  | none => rfl
  | some writer => simp [h writer hwriter]

/-- To close a stream changes nothing but the streams and, at most, the content of a file. -/
theorem close_change (store : MemoryStore) (stream : StreamId) :
    ∃ writers tree, (store.close stream).2 = { store with writers := writers, tree := tree } ∧
      (tree = store.tree ∨
        ∃ k f g, store.get? k = some (.file f) ∧ tree = store.tree.insert k (.file g)) := by
  by_cases hstream : ∃ writer, store.writers[stream]? = some writer ∧ writer.closed = false
  · obtain ⟨writer, hwriter, hopen⟩ := hstream
    rw [close_eq hwriter hopen]
    cases hfile : store.file? writer.key with
    | none => exact ⟨_, _, rfl, .inl rfl⟩
    | some f => exact ⟨_, _, rfl, .inr ⟨writer.key, f, _, file?_eq_some.1 hfile, rfl⟩⟩
  · refine ⟨store.writers, store.tree, close_of_not_open ?_, .inl rfl⟩
    intro writer hwriter
    by_contra hopen
    rw [Bool.not_eq_true] at hopen
    exact hstream ⟨writer, hwriter, hopen⟩

/-! ## Calls -/

theorem conclude_eq_ok {α : Type} {outcome : Outcome α} {value : α} :
    store.conclude outcome = (.ok value, after) ↔ outcome = .ok (value, after) := by
  cases outcome with
  | ok result => simp [conclude, Prod.ext_iff]
  | error e => simp [conclude]

/-- A creation gives a stream and does not break down. -/
theorem perform_createFile_eq_ok {overwrite : Bool} {size : Nat}
    {value : Except Breakdown StreamId} :
    store.perform (.createFile path overwrite size wanted) = (.ok value, after) ↔
      ∃ stream, value = .ok stream ∧ store.create path overwrite wanted = .ok (stream, after) :=
  conclude_eq_ok.trans unbuffered_eq_ok

theorem conclude_error {α : Type} {outcome : Outcome α} {message : Bytes}
    (h : store.conclude outcome = (.error message, after)) : after = store := by
  cases outcome with
  | ok result => simp [conclude] at h
  | error e => exact (Prod.ext_iff.1 h).2.symm

/-- An operation that cannot succeed is refused, and changes nothing. -/
theorem conclude_refused {α : Type} {outcome : Outcome α}
    (h : ∀ result, outcome ≠ .ok result) :
    ∃ message, store.conclude outcome = (.error message, store) := by
  cases outcome with
  | ok result => exact absurd rfl (h result)
  | error e => exact ⟨e.message, rfl⟩

/-- What only looks leaves the store as it is. -/
theorem look_eq {α : Type} {result : Except MemoryError α} {answer : Except Bytes α}
    (h : store.look result = (answer, after)) : after = store := by
  cases result with
  | ok value => exact (Prod.ext_iff.1 h).2.symm
  | error e => exact (Prod.ext_iff.1 h).2.symm

end MemoryStore

namespace StorageCall

/-- The call asks, opens a file for reading or moves bytes through a stream: it leaves what stands
in the store as it is. -/
def looks : StorageCall → Bool
  | openFile _ | pathExists _ | status _ | checksum _ | read .. | write .. => true
  | createFile .. | remove .. | makeDirs _ | rename .. | close _ => false

/-- The call closes a stream. -/
def closes : StorageCall → Bool
  | close _ => true
  | _ => false

/-- The call asks for bytes. -/
def reads : StorageCall → Bool
  | read .. => true
  | _ => false

/-- The call is about streams opened for reading. -/
def draws : StorageCall → Bool
  | openFile _ | read .. => true
  | _ => false

/-- The call is about streams opened for writing. -/
def fills : StorageCall → Bool
  | createFile .. | write .. | close _ => true
  | _ => false

end StorageCall

namespace MemoryStore

variable {store after : MemoryStore} {call : StorageCall} {answer : call.Answer}

/-- A call that fails changes nothing, unless it closes a stream. -/
theorem perform_error {message : Bytes} (h : store.perform call = (.error message, after))
    (hclose : call.closes = false) : after = store := by
  cases call with
  | close stream => cases hclose
  | pathExists path => simp [perform] at h
  | status path => exact look_eq h
  | checksum path => exact look_eq h
  | _ => exact conclude_error h

/-- What an operation leaves alone when it succeeds is left alone. -/
theorem conclude_keeps {α β : Type} {outcome : Outcome α} (part : MemoryStore → β)
    (h : ∀ value after, outcome = .ok (value, after) → part after = part store) :
    part (store.conclude outcome).2 = part store := by
  cases outcome with
  | ok result => exact h result.1 result.2 rfl
  | error e => rfl

theorem tree_of_looks (store : MemoryStore) (h : call.looks = true) :
    (store.perform call).2.tree = store.tree := by
  cases call with
  | openFile path =>
    refine conclude_keeps tree fun stream after hopen => ?_
    obtain ⟨f, -, hafter⟩ := openFile_eq_ok.1 hopen
    obtain ⟨-, rfl⟩ := Prod.ext_iff.1 hafter
    rfl
  | pathExists path => rfl
  | status path => exact congrArg tree (look_eq rfl)
  | checksum path => exact congrArg tree (look_eq rfl)
  | read stream size =>
    refine conclude_keeps tree fun chunk after hread => ?_
    obtain ⟨reader, -, hafter⟩ := read_eq_ok.1 hread
    obtain ⟨-, rfl⟩ := Prod.ext_iff.1 hafter
    rfl
  | write stream data =>
    refine conclude_keeps tree fun value after hwrite => ?_
    obtain ⟨writer, -, -, hafter⟩ := write_eq_ok.1 hwrite
    obtain ⟨-, rfl⟩ := Prod.ext_iff.1 hafter
    rfl
  | createFile | remove | makeDirs | rename | close => cases h

/-- A call that has to do with no stream changes the tree, if anything. -/
theorem only_tree_of_perform (store : MemoryStore) (hdraws : call.draws = false)
    (hfills : call.fills = false) :
    ∃ tree, (store.perform call).2 = { store with tree := tree } := by
  have hkeeps : ∀ {outcome : Outcome Unit},
      (∀ after, outcome = .ok ((), after) → ∃ tree, after = { store with tree := tree }) →
      ∃ tree, (store.conclude outcome).2 = { store with tree := tree } := by
    intro outcome h
    cases outcome with
    | ok result => exact h result.2 rfl
    | error e => exact ⟨store.tree, rfl⟩
  cases call with
  | remove path recursive =>
    refine hkeeps fun after hremove => ?_
    cases recursive with
    | false =>
      obtain ⟨-, -, hafter⟩ := remove_eq_ok.1 hremove
      exact ⟨_, (Prod.ext_iff.1 hafter).2.symm⟩
    | true =>
      obtain ⟨-, node, -, hafter⟩ := removeAll_eq_ok.1 hremove
      exact ⟨_, (Prod.ext_iff.1 hafter).2.symm⟩
  | makeDirs path =>
    refine hkeeps fun after hmake => ?_
    obtain ⟨-, hafter⟩ := makeDirs_eq_ok.1 hmake
    exact ⟨_, (Prod.ext_iff.1 hafter).2.symm⟩
  | rename source target =>
    refine hkeeps fun after hrename => ?_
    obtain ⟨f, -, -, -, hafter⟩ := rename_eq_ok.1 hrename
    exact ⟨_, (Prod.ext_iff.1 hafter).2.symm⟩
  | pathExists path => exact ⟨store.tree, rfl⟩
  | status path => exact ⟨store.tree, look_eq rfl⟩
  | checksum path => exact ⟨store.tree, look_eq rfl⟩
  | openFile | read => cases hdraws
  | createFile | write | close => cases hfills

theorem writers_of_perform (h : store.perform call = (answer, after))
    (hfills : call.fills = false) :
    after.writers = store.writers := by
  obtain ⟨-, rfl⟩ := Prod.ext_iff.1 h
  cases hdraws : call.draws with
  | false =>
    obtain ⟨tree, hafter⟩ := only_tree_of_perform store hdraws hfills
    rw [hafter]
  | true =>
    cases call with
    | openFile path =>
      refine conclude_keeps writers fun stream after hopen => ?_
      obtain ⟨f, -, hafter⟩ := openFile_eq_ok.1 hopen
      obtain ⟨-, rfl⟩ := Prod.ext_iff.1 hafter
      rfl
    | read stream size =>
      refine conclude_keeps writers fun chunk after hread => ?_
      obtain ⟨reader, -, hafter⟩ := read_eq_ok.1 hread
      obtain ⟨-, rfl⟩ := Prod.ext_iff.1 hafter
      rfl
    | _ => cases hdraws

theorem readers_of_perform (h : store.perform call = (answer, after))
    (hdraws : call.draws = false) :
    after.readers = store.readers := by
  obtain ⟨-, rfl⟩ := Prod.ext_iff.1 h
  cases hfills : call.fills with
  | false =>
    obtain ⟨tree, hafter⟩ := only_tree_of_perform store hdraws hfills
    rw [hafter]
  | true =>
    cases call with
    | createFile path overwrite size layout =>
      refine conclude_keeps readers fun value after hcreate => ?_
      obtain ⟨stream, -, hstarted⟩ := unbuffered_eq_ok.1 hcreate
      obtain ⟨-, -, -, hafter⟩ := create_eq_ok.1 hstarted
      obtain ⟨-, rfl⟩ := Prod.ext_iff.1 hafter
      rfl
    | write stream data =>
      refine conclude_keeps readers fun value after hwrite => ?_
      obtain ⟨writer, -, -, hafter⟩ := write_eq_ok.1 hwrite
      obtain ⟨-, rfl⟩ := Prod.ext_iff.1 hafter
      rfl
    | close stream =>
      obtain ⟨writers, tree, hafter, -⟩ := close_change store stream
      show (store.close stream).2.readers = store.readers
      rw [hafter]
    | _ => cases hfills

end MemoryStore

end StagedCopy
