import StagedCopy.Proofs.ByteOrder
import StagedCopy.Proofs.Memory.Integrity

/-!
# What an operation touches

Every operation of a store in memory does all that it says or nothing. When it fails, what stands
where is as it was; when it succeeds, only the places change that it is about. To put a whole file
is three calls, and none but the first of them can fail.

What lies below a directory is told by names, not by spellings, so a neighbour whose name only
begins like that of the directory is never taken for something below it. In the sorted list of all
spellings, the places below a directory are the stretch of those that begin with its spelling and a
slash.

* `Key.Canonical.isAbove_iff_text` — the places below a place, by spelling.
* `MemoryStore.attempt`, `MemoryStore.putByCalls` — an operation and its answer, and a whole file
  put call by call.
* `tree_of_failed` — a failure changes nothing; `get?_of_succeeded` — what stands where otherwise.
* `list_of_removed`, `listedBelow_eq` — a directory goes with a stretch of the list.
* `MemoryStore.KeepsToFootprint` — all of this; `Reachable.keepsToFootprint`, the theorem.
-/

namespace StagedCopy

/-! ## Places below a place -/

namespace Key

/-- What the spelling of every place below a place begins with. -/
def beginning (k : Key) : Bytes := if k = [] then [slash] else k.text ++ [slash]

theorem beginning_of_ne_root {k : Key} (hk : k ≠ []) : k.beginning = k.text ++ [slash] := if_neg hk

/-- A place is below another exactly when it is spelled with more after a slash; all but the root is
below the root. -/
theorem Canonical.isAbove_iff_text {k other : Key} (h : k.Canonical) (hother : other.Canonical) :
    k.isAbove other = true ↔ other ≠ k ∧ k.beginning <+: other.text := by
  by_cases hk : k = []
  · subst hk
    cases other with
    | nil => simp [isAbove]
    | cons name more => simp [isAbove, beginning, text]
  · rw [beginning_of_ne_root hk]
    constructor
    · intro habove
      obtain ⟨⟨rest, rfl⟩, hne⟩ := isAbove_iff.1 habove
      refine ⟨Ne.symm hne, ?_⟩
      cases rest with
      | nil => simp at hne
      | cons name more =>
        rw [text_of_ne_root hk, text_of_ne_root (by simp), List.flatMap_append]
        simp
    · rintro ⟨-, hbegins⟩
      exact h.isAbove_of_text hk hother hbegins

end Key

namespace MemoryStore

variable {store after : MemoryStore} {k : Key} {path source target : Path} {stream : StreamId}
  {wanted : Layout} {content : Bytes} {operation : MemoryOperation} {message : Bytes}

/-! ## Operations and their answers -/

/-- What an operation answers, and the store after it. -/
def attempt (store : MemoryStore) : MemoryOperation → Except Bytes Unit × MemoryStore
  | .call call => ((store.perform call).1.map fun _ => (), (store.perform call).2)
  | .put path content layout => store.conclude (store.put path content layout)

/-- To put a file call by call: it is created, written and closed, until one of these fails or there
is no buffer. -/
def putByCalls (store : MemoryStore) (path : Path) (content : Bytes) (layout : Layout) :
    Except Bytes Unit × MemoryStore :=
  match store.perform (.createFile path true 0 layout) with
  | (.error message, after) => (.error message, after)
  | (.ok (.error trouble), after) => (.error trouble.message, after)
  | (.ok (.ok stream), created) =>
    match created.perform (.write stream content) with
    | (.error message, after) => (.error message, after)
    | (.ok _, written) => written.perform (.close stream)

/-! ## Failures -/

/-- To close a stream may fail, but then no file gets a content. -/
theorem tree_of_close_error {e : MemoryError} (h : store.close stream = (.error e, after)) :
    after.tree = store.tree := by
  cases hwriter : store.writers[stream]? with
  | none =>
    rw [close, hwriter] at h
    simp only [Prod.mk.injEq] at h
    rw [← h.2]
  | some writer =>
    cases hclosed : writer.closed with
    | true =>
      rw [close, hwriter] at h
      simp [hclosed] at h
    | false =>
      rw [close_eq hwriter hclosed] at h
      cases hfile : store.file? writer.key with
      | none =>
        simp only [hfile, Prod.mk.injEq] at h
        rw [← h.2]
      | some f => simp [hfile] at h

theorem close_of_perform {answer : Except Bytes Unit}
    (h : store.perform (.close stream) = (answer, after)) :
    ∃ result, store.close stream = (result, after) ∧
      result.mapError MemoryError.message = answer := by
  rcases hclose : store.close stream with ⟨result, closed⟩
  simp only [perform, hclose] at h
  obtain ⟨hanswer, rfl⟩ := Prod.ext_iff.1 h
  exact ⟨result, rfl, hanswer⟩

/-- An operation that fails leaves what stands where as it was. -/
theorem tree_of_failed (h : store.attempt operation = (.error message, after)) :
    after.tree = store.tree := by
  cases operation with
  | call call =>
    rcases hcall : store.perform call with ⟨answer, final⟩
    simp only [attempt, hcall, Prod.mk.injEq] at h
    obtain ⟨hanswer, rfl⟩ := h
    obtain ⟨message', rfl⟩ : ∃ message', answer = .error message' := by
      cases answer with
      | ok value => cases hanswer
      | error message' => exact ⟨message', rfl⟩
    cases hcloses : call.closes with
    | false => rw [perform_error hcall hcloses]
    | true =>
      match call, hcloses with
      | .close stream, _ =>
        obtain ⟨result, hclose, hresult⟩ := close_of_perform hcall
        cases result with
        | ok value => cases hresult
        | error e => exact tree_of_close_error hclose
  | put path content layout => rw [conclude_error h]

/-! ## Whole files -/

/-- A file that was just created has an open stream, and is empty. -/
theorem of_created {overwrite : Bool} {created : MemoryStore}
    (h : store.create path overwrite wanted = .ok (stream, created)) :
    created.writers[stream]? = some { key := path.key } ∧
      created.get? path.key = some (.file ⟨[], store.layoutFor wanted⟩) := by
  obtain ⟨hget, -, -, hstarted⟩ := create_eq_ok.1 h
  obtain ⟨rfl, rfl⟩ := Prod.ext_iff.1 hstarted
  refine ⟨Array.getElem?_push_size, ?_⟩
  rw [get?_startFile (ne_root hget), if_pos rfl]

/-- Once a file is created, it can be written and closed, and then it has the content. -/
theorem put_of_created {created : MemoryStore} (content : Bytes)
    (h : store.create path true wanted = .ok (stream, created)) :
    ∃ written closed, created.perform (.write stream content) = (.ok (), written) ∧
      written.perform (.close stream) = (.ok (), closed) ∧
      store.put path content wanted = .ok ((), closed) ∧
      ∀ k, closed.get? k = if k = path.key then some (.file ⟨content, store.layoutFor wanted⟩)
        else created.get? k := by
  obtain ⟨hwriter, hfile⟩ := of_created h
  obtain ⟨written, hwritten⟩ : ∃ written, written = ({ created with
      writers := created.writers.setIfInBounds stream
        { key := path.key, chunks := [content] } } : MemoryStore) := ⟨_, rfl⟩
  have hwrite : created.write stream content = .ok ((), written) :=
    write_eq_ok.2 ⟨_, hwriter, rfl, by rw [hwritten]⟩
  have hwriter' : written.writers[stream]? = some { key := path.key, chunks := [content] } := by
    obtain ⟨hstream, -⟩ := Array.getElem?_eq_some_iff.1 hwriter
    rw [hwritten]
    exact Array.getElem?_setIfInBounds_self_of_lt hstream
  have hfile' : written.get? path.key = some (.file ⟨[], store.layoutFor wanted⟩) := by
    rw [hwritten]
    exact hfile
  have hclose := close_eq hwriter' rfl
  rw [file?_eq_some.2 hfile'] at hclose
  refine ⟨written, (written.close stream).2, ?_, ?_, ?_, ?_⟩
  · simp only [perform, hwrite, conclude]
  · simp only [perform, hclose]
    rfl
  · simp only [put, h, hwrite, hclose]
  · intro k
    rw [get?_close hwriter' rfl hfile', hwritten]
    simp [MemoryWriter.content]
    rfl

/-- Of the calls that put a file only the first can fail. -/
theorem put_eq_putByCalls (store : MemoryStore) (path : Path) (content : Bytes)
    (layout : Layout) :
    store.conclude (store.put path content layout) = store.putByCalls path content layout := by
  cases hcreate : store.create path true layout with
  | error e => simp only [put, putByCalls, perform, hcreate, unbuffered, Except.map, conclude]
  | ok result =>
    obtain ⟨stream, created⟩ := result
    obtain ⟨written, closed, hwrite, hclose, hput, -⟩ := put_of_created content hcreate
    have hcreated : store.perform (.createFile path true 0 layout) = (.ok (.ok stream), created) :=
      perform_createFile_eq_ok.2 ⟨stream, rfl, hcreate⟩
    simp only [putByCalls, hcreated, hwrite, hclose, hput, conclude]
    rfl

/-! ## What stands where -/

/-- A file at a place, and directories above it where they were missing. -/
def filed (store : MemoryStore) (place : Key) (file : MemoryFile) (k : Key) :
    Option (Node MemoryFile) :=
  if k = place then some (.file file)
  else if k.isAbove place ∧ store.get? k = none then some .directory
  else store.get? k

/-- What a stream leaves at a place: its file with the content that it brought, when it was open,
and everything else as it was. -/
def refilled (store : MemoryStore) (stream : StreamId) (k : Key) : Option (Node MemoryFile) :=
  match store.writers[stream]?, store.get? k with
  | some writer, some (.file f) =>
    if writer.closed = false ∧ k = writer.key then some (.file { f with content := writer.content })
    else some (.file f)
  | _, found => found

/-- What stands at a place after an operation that succeeded. -/
def standsAfter (store : MemoryStore) (k : Key) : MemoryOperation → Option (Node MemoryFile)
  | .call (.createFile path _ _ layout) => store.filed path.key ⟨[], store.layoutFor layout⟩ k
  | .put path content layout => store.filed path.key ⟨content, store.layoutFor layout⟩ k
  | .call (.makeDirs path) =>
    if (k = path.key ∨ k.isAbove path.key) ∧ store.get? k = none then some .directory
    else store.get? k
  | .call (.remove path recursive) =>
    if k = path.key ∨ recursive = true ∧ path.key.isAbove k then none else store.get? k
  | .call (.rename source target) =>
    if k = target.key then store.get? source.key
    else if k = source.key then none
    else store.get? k
  | .call (.close stream) => store.refilled stream k
  | .call _ => store.get? k

theorem get?_of_create {overwrite : Bool}
    (h : store.create path overwrite wanted = .ok (stream, after)) :
    after.get? k = store.filed path.key ⟨[], store.layoutFor wanted⟩ k := by
  obtain ⟨hget, -, -, hstarted⟩ := create_eq_ok.1 h
  obtain ⟨-, rfl⟩ := Prod.ext_iff.1 hstarted
  rw [get?_startFile (ne_root hget), filed]
  simp only [missing_above_iff]

theorem get?_of_put (h : store.put path content wanted = .ok ((), after)) :
    after.get? k = store.filed path.key ⟨content, store.layoutFor wanted⟩ k := by
  cases hcreate : store.create path true wanted with
  | error e => simp [put, hcreate] at h
  | ok result =>
    obtain ⟨stream, created⟩ := result
    obtain ⟨written, closed, -, -, hput, hget⟩ := put_of_created content hcreate
    have hclosed : closed = after := by
      rw [h] at hput
      simpa using hput.symm
    rw [← hclosed, hget, get?_of_create hcreate, filed, filed]
    by_cases hk : k = path.key
    · rw [if_pos hk, if_pos hk]
    · rw [if_neg hk, if_neg hk, if_neg hk]

theorem get?_of_makeDirs (h : store.makeDirs path = .ok ((), after)) :
    after.get? k =
      if (k = path.key ∨ k.isAbove path.key) ∧ store.get? k = none then some .directory
      else store.get? k := by
  obtain ⟨-, hafter⟩ := makeDirs_eq_ok.1 h
  obtain ⟨-, rfl⟩ := Prod.ext_iff.1 hafter
  rw [get?_makeDirs]
  simp only [or_and_right, missing_above_iff]

/-- Whatever is removed is gone, and with `recursive` all below it. -/
theorem get?_of_remove (hwell : store.tree.WellFormed) {recursive : Bool}
    (h : store.remove path recursive = .ok ((), after)) :
    after.get? k =
      if k = path.key ∨ recursive = true ∧ path.key.isAbove k then none else store.get? k := by
  cases recursive with
  | false =>
    obtain ⟨hroot, -, hafter⟩ := remove_eq_ok.1 h
    obtain ⟨-, rfl⟩ := Prod.ext_iff.1 hafter
    rw [get?_erase hroot]
    simp
  | true =>
    obtain ⟨hroot, node, hnode, hafter⟩ := removeAll_eq_ok.1 h
    obtain ⟨-, rfl⟩ := Prod.ext_iff.1 hafter
    show Tree.get? (if _ then _ else _) k = _
    split
    · rw [Tree.get?_erase, Tree.get?_eraseBelow]
      by_cases hk : k = path.key
      · simp [hk, hroot]
      · simp [hk, get?]
    · next hkeep =>
      -- nothing stands below a file, nor below a directory that has nothing recorded below it
      have hbelow : path.key.isAbove k = true → store.get? k = none := by
        intro habove
        cases node with
        | file f => exact hwell.below_file hroot hnode habove
        | directory => exact Tree.get?_of_hasBelow (by simpa [Node.isFile] using hkeep) habove
      rw [Tree.get?_erase]
      by_cases hk : k = path.key
      · simp [hk, hroot]
      · by_cases habove : path.key.isAbove k = true
        · have hnone : store.tree.get? k = none := hbelow habove
          simp [hk, habove, hnone]
        · simp [hk, habove, get?]

theorem get?_of_rename (h : store.rename source target = .ok ((), after)) :
    after.get? k =
      if k = target.key then store.get? source.key
      else if k = source.key then none
      else store.get? k := by
  obtain ⟨f, hold, hnew, -, hafter⟩ := rename_eq_ok.1 h
  obtain ⟨-, rfl⟩ := Prod.ext_iff.1 hafter
  rw [get?_rename (ne_root_of_file hold) (ne_root_of_none hnew), hold]

theorem get?_of_close (h : store.close stream = (.ok (), after)) :
    after.get? k = store.refilled stream k := by
  unfold refilled
  cases hwriter : store.writers[stream]? with
  | none => simp [close, hwriter] at h
  | some writer =>
    cases hclosed : writer.closed with
    | true =>
      have hsame : after = store := by
        rw [close, hwriter] at h
        simpa [hclosed] using h.symm
      rw [hsame]
      cases store.get? k with
      | none => rfl
      | some node => cases node <;> simp [hclosed]
    | false =>
      cases hfile : store.file? writer.key with
      | none =>
        rw [close_eq hwriter hclosed] at h
        simp [hfile] at h
      | some f =>
        have hget : (store.close stream).2.get? k = _ :=
          get?_close hwriter hclosed (file?_eq_some.1 hfile)
        rw [h] at hget
        rw [hget]
        by_cases hk : k = writer.key
        · rw [if_pos hk, hk, file?_eq_some.1 hfile]
          simp [hclosed]
        · rw [if_neg hk]
          cases store.get? k with
          | none => rfl
          | some node => cases node <;> simp [hk]

/-- After an operation that succeeded, only the places have changed that it is about. -/
theorem get?_of_succeeded (hwell : store.tree.WellFormed)
    (h : store.attempt operation = (.ok (), after)) (k : Key) :
    after.get? k = store.standsAfter k operation := by
  cases operation with
  | put path content layout => exact get?_of_put (conclude_eq_ok.1 h)
  | call call =>
    rcases hcall : store.perform call with ⟨answer, final⟩
    simp only [attempt, hcall, Prod.mk.injEq] at h
    obtain ⟨hanswer, rfl⟩ := h
    obtain ⟨value, rfl⟩ : ∃ value, answer = .ok value := by
      cases answer with
      | ok value => exact ⟨value, rfl⟩
      | error message => cases hanswer
    have hlooks : call.looks = true → final.get? k = store.get? k := by
      intro hlooks
      have hsame := tree_of_looks store hlooks
      rw [hcall] at hsame
      rw [get?, get?, hsame]
    cases call with
    | createFile path overwrite size layout =>
      obtain ⟨stream, -, hcreate⟩ := perform_createFile_eq_ok.1 hcall
      exact get?_of_create hcreate
    | remove path recursive => exact get?_of_remove hwell (conclude_eq_ok.1 hcall)
    | makeDirs path => exact get?_of_makeDirs (conclude_eq_ok.1 hcall)
    | rename source target => exact get?_of_rename (conclude_eq_ok.1 hcall)
    | close stream =>
      obtain ⟨result, hclose, hresult⟩ := close_of_perform hcall
      cases result with
      | ok => exact get?_of_close hclose
      | error e => cases hresult
    | openFile | pathExists | status | checksum | read | write => exact hlooks rfl

/-! ## Directories and the list -/

/-- A directory is kept exactly when something is below it, or it is the root. -/
theorem remove_fails_iff (hdirectory : store.get? path.key = some .directory) :
    (∃ message after, store.attempt (.call (.remove path false)) = (.error message, after)) ↔
      path.key = [] ∨ ∃ k, path.key.isAbove k = true ∧ store.get? k ≠ none := by
  have hfull : store.tree.hasBelow path.key = true ↔
      ∃ k, path.key.isAbove k = true ∧ store.get? k ≠ none := Tree.hasBelow_iff
  rw [← hfull]
  constructor
  · rintro ⟨message, after, herror⟩
    by_contra hempty
    rw [not_or, Bool.not_eq_true] at hempty
    have hremove := remove_eq_ok.2 ⟨hempty.1, ⟨_, hdirectory, fun _ => hempty.2⟩, rfl⟩
    simp only [attempt, perform, hremove, conclude] at herror
    cases (Prod.ext_iff.1 herror).1
  · intro hkept
    obtain ⟨message, hrefused⟩ : ∃ message, store.perform (.remove path false)
        = (.error message, store) := by
      apply conclude_refused
      intro result hresult
      obtain ⟨hroot, ⟨node, hnode, hempty⟩, -⟩ := remove_eq_ok.1 hresult
      obtain rfl : node = .directory := Option.some.inj (hnode.symm.trans hdirectory)
      rcases hkept with hk | hbelow
      · exact hroot hk
      · rw [hempty rfl] at hbelow
        cases hbelow
    refine ⟨message, store, ?_⟩
    simp only [attempt, hrefused]
    rfl

/-- Of the list, what lies below a place: from where the first of them would stand, as long as they
begin like it. -/
def listedBelow (store : MemoryStore) (k : Key) : List Bytes :=
  (store.list.dropWhile fun p => !bytesLe k.beginning p).takeWhile k.beginning.isPrefixOf

theorem listedBelow_eq (store : MemoryStore) (k : Key) :
    store.listedBelow k = store.list.filter k.beginning.isPrefixOf :=
  (filter_prefix_eq_stretch (sortBytes_pairwise _) k.beginning).symm

/-- That stretch of the list holds what lies below the place, and nothing else. -/
theorem Reachable.mem_listedBelow (h : store.Reachable) (hk : k.Canonical) (hroot : k ≠ [])
    {p : Bytes} :
    p ∈ store.listedBelow k ↔
      ∃ below, k.isAbove below = true ∧ store.get? below ≠ none ∧ below.text = p := by
  rw [listedBelow_eq, List.mem_filter, List.isPrefixOf_iff_prefix]
  constructor
  · rintro ⟨hlisted, hbegins⟩
    obtain ⟨below, hbelow, hthere, rfl, -⟩ := h.exists_of_mem_list hlisted
    rw [Key.beginning_of_ne_root hroot] at hbegins
    exact ⟨below, hk.isAbove_of_text hroot hbelow hbegins, hthere, rfl⟩
  · rintro ⟨below, habove, hthere, rfl⟩
    have hcanonical := h.canonical hthere
    exact ⟨mem_list.2 ⟨below, hthere, rfl⟩, ((hk.isAbove_iff_text hcanonical).1 habove).2⟩

/-- A directory that goes with all below it goes from the list with that stretch. -/
theorem Reachable.list_of_removed (h : store.Reachable)
    (hremoved : store.attempt (.call (.remove path true)) = (.ok (), after)) :
    after.list = store.list.filter fun p =>
      p ≠ path.key.text ∧ p ∉ store.listedBelow path.key := by
  have hafter : after.Reachable := by
    have hsame : (store.perform (.remove path true)).2 = after := congrArg Prod.snd hremoved
    rw [← hsame]
    exact h.call (.remove path true)
  have hview := get?_of_succeeded h.wellFormed hremoved
  have hroot : path.key ≠ [] := by
    intro hroot
    have hgone := hview path.key
    rw [standsAfter, if_pos (.inl rfl), hroot] at hgone
    cases hgone
  refine List.Perm.eq_of_pairwise (fun p q _ _ => List.le_antisymm) (sortBytes_pairwise _)
    ((sortBytes_pairwise _).filter _) ?_
  rw [List.perm_ext_iff_of_nodup hafter.nodup_list (h.nodup_list.filter _)]
  intro p
  rw [mem_list, List.mem_filter, mem_list, decide_eq_true_iff,
    h.mem_listedBelow path.key_canonical hroot]
  constructor
  · rintro ⟨k, hk, rfl⟩
    rw [hview, standsAfter] at hk
    split at hk
    · exact absurd rfl hk
    · next hkept =>
      have hcanonical := h.canonical hk
      rw [not_or] at hkept
      refine ⟨⟨k, hk, rfl⟩, ?_, ?_⟩
      · intro htext
        exact hkept.1 (hcanonical.eq_of_text path.key_canonical htext)
      · rintro ⟨below, habove, hthere, htext⟩
        obtain rfl := (h.canonical hthere).eq_of_text hcanonical htext
        exact hkept.2 ⟨rfl, habove⟩
  · rintro ⟨⟨k, hk, rfl⟩, hne, hkept⟩
    refine ⟨k, ?_, rfl⟩
    rw [hview, standsAfter, if_neg]
    · exact hk
    · rintro (heq | ⟨-, habove⟩)
      · exact hne (by rw [heq])
      · exact hkept ⟨k, habove, hk, rfl⟩

/-! ## The theorem -/

/-- What operations do to a store: one that fails leaves the tree as it was, and after one that
succeeds every place holds what the operation says. A whole file is put as it is call by call. A
directory is kept, unless all below it may go too, exactly when something is below it or it is the
root; what is below it is the stretch of the list that begins with its spelling and a slash, and
with this stretch it goes from the list. -/
structure KeepsToFootprint (store : MemoryStore) : Prop where
  failed : ∀ operation message after, store.attempt operation = (.error message, after) →
    after.tree = store.tree
  succeeded : ∀ operation after, store.attempt operation = (.ok (), after) →
    ∀ k, after.get? k = store.standsAfter k operation
  whole : ∀ path content layout,
    store.attempt (.put path content layout) = store.putByCalls path content layout
  kept : ∀ path : Path, store.get? path.key = some .directory →
    ((∃ message after, store.attempt (.call (.remove path false)) = (.error message, after)) ↔
      path.key = [] ∨ ∃ k, path.key.isAbove k = true ∧ store.get? k ≠ none)
  below : ∀ (path : Path) (p : Bytes), path.key ≠ [] →
    (p ∈ store.listedBelow path.key ↔
      ∃ k, path.key.isAbove k = true ∧ store.get? k ≠ none ∧ k.text = p)
  emptied : ∀ (path : Path) after, store.attempt (.call (.remove path true)) = (.ok (), after) →
    after.list = store.list.filter fun p => p ≠ path.key.text ∧ p ∉ store.listedBelow path.key

/-- Every operation of a store that can come to be is atomic and keeps to its footprint. -/
theorem Reachable.keepsToFootprint (h : store.Reachable) : store.KeepsToFootprint where
  failed _ _ _ := tree_of_failed
  succeeded _ _ := get?_of_succeeded h.wellFormed
  whole := put_eq_putByCalls store
  kept _ := remove_fails_iff
  below path _ hroot := h.mem_listedBelow path.key_canonical hroot
  emptied _ _ := h.list_of_removed

end MemoryStore

/-- Calls that make a directory with a file in it, and neighbours that are named almost like it: in
the list the one with a dot comes between the directory and its file, and the other after both. -/
def neighbouringCalls : List StorageCall :=
  [.createFile (utf8 "a/b") true 64 ⟨1, 64⟩, .createFile (utf8 "a.b") true 64 ⟨1, 64⟩,
    .createFile (utf8 "ab") true 64 ⟨1, 64⟩]

/-- A store in which those calls were made. -/
def neighbourly : MemoryStore :=
  neighbouringCalls.foldl (fun store call => (store.perform call).2) { defaults := ⟨1, 64⟩ }

theorem keepsToFootprint_neighbourly :
    neighbourly.list = [utf8 "/", utf8 "/a", utf8 "/a.b", utf8 "/a/b", utf8 "/ab"] ∧
    (∃ message after, neighbourly.attempt (.call (.remove (utf8 "a") false))
      = (.error message, after)) ∧
    (neighbourly.attempt (.call (.remove (utf8 "a") true))).2.list
      = [utf8 "/", utf8 "/a.b", utf8 "/ab"] := by
  have hreachable : neighbourly.Reachable := .calls (.new _ _) neighbouringCalls
  have hkeeps := hreachable.keepsToFootprint
  refine ⟨by decide +kernel, ?_, ?_⟩
  · refine (hkeeps.kept _ (by decide +kernel)).2 (.inr ⟨[utf8 "a", utf8 "b"], ?_, ?_⟩)
    · decide +kernel
    · decide +kernel
  · rw [hkeeps.emptied _ _ (Prod.ext_iff.2 ⟨by decide +kernel, rfl⟩)]
    decide +kernel

end StagedCopy
