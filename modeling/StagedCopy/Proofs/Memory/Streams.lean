import Mathlib.Algebra.GroupWithZero.Nat
import StagedCopy.Proofs.Memory.Footprint

/-!
# Streams in memory

No file of a store in memory ever has a part of what was written for it. Any number of streams may
be open at once, some of them on one path, and anything may be done to their files before they are
closed: what a file holds is nothing, or all that one stream accepted before it was closed.

All this is about what was done before, so the calls are recorded with their answers. The invariant
says what the store keeps of them: for a stream that is still open, all that it accepted. A reader
needs no history but its own, for no call except those on itself changes it.

* `AnsweredCall`, `MemoryStore.Runs` — calls with their answers, and the stores that they lead to.
* `MemoryStore.history` — the calls of a list of operations.
* `IsOpen`, `IsClosed` — a stream that was created, what it accepted since, and how it was closed.
* `MemoryStore.WriterStep` — what a call does to the streams opened for writing.
* `MemoryStore.Remembers` — the invariant; `Runs.remembers`.
* `MemoryStore.NeverPartial`, `neverPartial_after_operations` — the theorem.
-/

namespace StagedCopy

/-! ## Calls with their answers -/

/-- A call and how it was answered. -/
structure AnsweredCall where
  call : StorageCall
  answer : call.Answer

namespace AnsweredCall

/-- The stream that was opened for writing. -/
def created? : AnsweredCall → Option StreamId
  | ⟨.createFile .., .ok (.ok stream)⟩ => some stream
  | _ => none

/-- The bytes that a stream accepted. -/
def acceptedBy (stream : StreamId) : AnsweredCall → Bytes
  | ⟨.write written data, .ok _⟩ => if written = stream then data else []
  | _ => []

/-- The bytes that came from a stream. -/
def readFrom (stream : StreamId) : AnsweredCall → Bytes
  | ⟨.read asked _, .ok data⟩ => if asked = stream then data else []
  | _ => []

/-- The number of bytes that a stream was asked for. -/
def requestedFrom (stream : StreamId) : AnsweredCall → Nat
  | ⟨.read asked size, _⟩ => if asked = stream then size else 0
  | _ => 0

end AnsweredCall

open AnsweredCall

/-! ## Streams of the past -/

section past

variable {past : List AnsweredCall} {stream : StreamId} {content : Bytes} {c : AnsweredCall}
  {answer : Except Bytes Unit}

/-- A stream was created in the course of the calls and not closed since, and this is all that it
accepted, in order. -/
def IsOpen (past : List AnsweredCall) (stream : StreamId) (content : Bytes) : Prop :=
  ∃ before creation since, past = before ++ creation :: since ∧
    creation.created? = some stream ∧ (∀ c ∈ since, c.call ≠ .close stream) ∧
    content = since.flatMap (acceptedBy stream)

/-- A stream was created in the course of the calls, it had accepted this when it was closed for the
first time, and that was answered so. -/
def IsClosed (past : List AnsweredCall) (stream : StreamId) (content : Bytes)
    (answer : Except Bytes Unit) : Prop :=
  ∃ before since, past = before ++ ⟨.close stream, answer⟩ :: since ∧ IsOpen before stream content

/-- A stream that was just created has accepted nothing. -/
theorem isOpen_of_created (h : c.created? = some stream) : IsOpen (past ++ [c]) stream [] := by
  refine ⟨past, c, [], rfl, h, ?_, rfl⟩
  intro other hother
  cases hother

theorem IsOpen.snoc (h : IsOpen past stream content) (hc : c.call ≠ .close stream) :
    IsOpen (past ++ [c]) stream (content ++ c.acceptedBy stream) := by
  obtain ⟨before, creation, since, rfl, hcreation, hsince, rfl⟩ := h
  refine ⟨before, creation, since ++ [c], by simp, hcreation, ?_, by simp⟩
  intro other hother
  rcases List.mem_append.1 hother with hother | hother
  · exact hsince other hother
  · rw [List.mem_singleton.1 hother]
    exact hc

theorem IsOpen.mem_created (h : IsOpen past stream content) :
    stream ∈ past.filterMap created? := by
  obtain ⟨before, creation, since, rfl, hcreation, -⟩ := h
  rw [List.mem_filterMap]
  exact ⟨creation, by simp, hcreation⟩

theorem IsOpen.close (h : IsOpen past stream content) :
    IsClosed (past ++ [⟨.close stream, answer⟩]) stream content answer :=
  ⟨past, [], rfl, h⟩

theorem IsClosed.snoc (h : IsClosed past stream content answer) :
    IsClosed (past ++ [c]) stream content answer := by
  obtain ⟨before, since, rfl, hopen⟩ := h
  exact ⟨before, since ++ [c], by simp, hopen⟩

/-- A stream that is closed was closed before the last call, or by it. -/
theorem isClosed_snoc (h : IsClosed (past ++ [c]) stream content answer) :
    IsClosed past stream content answer ∨
      c = ⟨.close stream, answer⟩ ∧ IsOpen past stream content := by
  obtain ⟨before, since, heq, hopen⟩ := h
  rcases List.eq_nil_or_concat since with rfl | ⟨earlier, last, rfl⟩
  · obtain ⟨rfl, hlast⟩ := List.append_inj' heq rfl
    exact .inr ⟨List.singleton_inj.1 hlast, hopen⟩
  · have hpast : past = before ++ ⟨.close stream, answer⟩ :: earlier := by
      have hlast : past ++ [c] = (before ++ ⟨.close stream, answer⟩ :: earlier) ++ [last] := by
        rw [heq]
        simp
      exact (List.append_inj' hlast rfl).1
    exact .inl ⟨before, earlier, hpast, hopen⟩

end past

namespace MemoryStore

variable {store after next : MemoryStore} {past more : List AnsweredCall} {call : StorageCall}
  {stream : StreamId} {content : Bytes}

/-! ## Runs -/

/-- The calls lead from the store to the other, and were answered so. -/
inductive Runs (store : MemoryStore) : List AnsweredCall → MemoryStore → Prop where
  | nil : Runs store [] store
  | snoc {past : List AnsweredCall} {after next : MemoryStore} {call : StorageCall}
      {answer : call.Answer} (h : Runs store past after)
      (hcall : after.perform call = (answer, next)) : Runs store (past ++ [⟨call, answer⟩]) next

theorem Runs.append (h : Runs store past after) (hmore : Runs after more next) :
    Runs store (past ++ more) next := by
  induction hmore with
  | nil =>
    rw [List.append_nil]
    exact h
  | snoc _ hcall ih =>
    rw [← List.append_assoc]
    exact ih.snoc hcall

theorem Runs.reachable (h : Runs store past after) (hstore : store.Reachable) :
    after.Reachable := by
  induction h with
  | nil => exact hstore
  | @snoc past after next call answer _ hcall ih =>
    have hnext := ih.call call
    rw [hcall] at hnext
    exact hnext

/-- The calls of an operation with their answers: a whole file is created, and if it could be, it is
written and closed. -/
def answered (store : MemoryStore) : MemoryOperation → List AnsweredCall
  | .call call => [⟨call, (store.perform call).1⟩]
  | .put path content layout =>
    match store.perform (.createFile path true 0 layout) with
    | (.error message, _) => [⟨.createFile path true 0 layout, .error message⟩]
    | (.ok (.error trouble), _) => [⟨.createFile path true 0 layout, .ok (.error trouble)⟩]
    | (.ok (.ok stream), created) =>
      let (accepted, written) := created.perform (.write stream content)
      [⟨.createFile path true 0 layout, .ok (.ok stream)⟩, ⟨.write stream content, accepted⟩,
        ⟨.close stream, (written.perform (.close stream)).1⟩]

/-- The calls of some operations with their answers. -/
def history (store : MemoryStore) : List MemoryOperation → List AnsweredCall
  | [] => []
  | operation :: rest =>
    store.answered operation ++ (store.operate operation).history rest

theorem runs_answered (store : MemoryStore) (operation : MemoryOperation) :
    Runs store (store.answered operation) (store.operate operation) := by
  cases operation with
  | call call => exact Runs.nil.snoc rfl
  | put path content layout =>
    cases hcreate : store.create path true layout with
    | error e =>
      have hrefused : store.perform (.createFile path true 0 layout)
          = (.error e.message, store) := by
        simp only [perform, hcreate, unbuffered, Except.map, conclude]
      have hsame : store.operate (.put path content layout) = store := by
        simp only [operate, put, hcreate]
      simp only [answered, hrefused, hsame]
      exact Runs.nil.snoc hrefused
    | ok result =>
      obtain ⟨stream, created⟩ := result
      obtain ⟨written, closed, hwrite, hclose, hput, -⟩ := put_of_created content hcreate
      have hcreated : store.perform (.createFile path true 0 layout)
          = (.ok (.ok stream), created) :=
        perform_createFile_eq_ok.2 ⟨stream, rfl, hcreate⟩
      simp only [answered, hcreated, hwrite, hclose, operate, hput]
      exact ((Runs.nil.snoc hcreated).snoc hwrite).snoc hclose

theorem runs_history (store : MemoryStore) (operations : List MemoryOperation) :
    Runs store (store.history operations) (operations.foldl operate store) := by
  induction operations generalizing store with
  | nil => exact .nil
  | cons operation rest ih => exact (runs_answered store operation).append (ih _)

/-! ## Streams opened for writing -/

/-- What a call does to the streams that were opened for writing. -/
inductive WriterStep (store : MemoryStore) : AnsweredCall → Array MemoryWriter → Prop where
  | created (path : Path) (overwrite : Bool) (size : Nat) (layout : Layout) :
      WriterStep store ⟨.createFile path overwrite size layout, .ok (.ok store.writers.size)⟩
        (store.writers.push { key := path.key })
  | written {stream : StreamId} {writer : MemoryWriter} (data : Bytes)
      (hwriter : store.writers[stream]? = some writer) (hopen : writer.closed = false) :
      WriterStep store ⟨.write stream data, .ok ()⟩
        (store.writers.setIfInBounds stream { writer with chunks := data :: writer.chunks })
  | closed {stream : StreamId} {writer : MemoryWriter} (answer : Except Bytes Unit)
      (hwriter : store.writers[stream]? = some writer) (hopen : writer.closed = false) :
      WriterStep store ⟨.close stream, answer⟩
        (store.writers.setIfInBounds stream { writer with closed := true })
  /-- Nothing is created or accepted, and no stream is closed that was open. -/
  | kept {c : AnsweredCall} (hcreated : c.created? = none)
      (haccepted : ∀ stream, c.acceptedBy stream = [])
      (hclosed : ∀ stream writer, c.call = .close stream →
        store.writers[stream]? = some writer → writer.closed = true) :
      WriterStep store c store.writers

theorem writerStep_of_close {answer : Except Bytes Unit}
    (h : store.perform (.close stream) = (answer, after)) :
    WriterStep store ⟨.close stream, answer⟩ after.writers := by
  have hafter : (store.close stream).2 = after := congrArg Prod.snd h
  rw [← hafter]
  by_cases hstream : ∃ writer, store.writers[stream]? = some writer ∧ writer.closed = false
  · obtain ⟨writer, hwriter, hopen⟩ := hstream
    rw [writers_of_close hwriter hopen]
    exact .closed answer hwriter hopen
  · have hclosed : ∀ writer, store.writers[stream]? = some writer → writer.closed = true := by
      intro writer hwriter
      by_contra hopen
      rw [Bool.not_eq_true] at hopen
      exact hstream ⟨writer, hwriter, hopen⟩
    rw [close_of_not_open hclosed]
    refine .kept rfl (fun _ => rfl) ?_
    rintro other writer ⟨⟩
    exact hclosed writer

theorem writerStep_of_perform {answer : call.Answer} (h : store.perform call = (answer, after)) :
    WriterStep store ⟨call, answer⟩ after.writers := by
  cases hfills : call.fills with
  | false =>
    rw [writers_of_perform h hfills]
    refine .kept ?_ ?_ ?_
    · cases call with
      | createFile => cases hfills
      | _ => rfl
    · intro stream
      cases call with
      | write => cases hfills
      | _ => rfl
    · rintro stream writer rfl
      cases hfills
  | true =>
    cases call with
    | createFile path overwrite size layout =>
      cases answer with
      | error message =>
        rw [conclude_error h]
        refine .kept rfl (fun _ => rfl) ?_
        rintro stream writer ⟨⟩
      | ok value =>
        obtain ⟨stream, rfl, hcreate⟩ := perform_createFile_eq_ok.1 h
        obtain ⟨-, -, -, hstarted⟩ := create_eq_ok.1 hcreate
        obtain ⟨rfl, rfl⟩ := Prod.ext_iff.1 hstarted
        exact .created path overwrite size layout
    | write stream data =>
      cases answer with
      | error message =>
        rw [conclude_error h]
        refine .kept rfl (fun _ => rfl) ?_
        rintro stream writer ⟨⟩
      | ok accepted =>
        obtain ⟨writer, hwriter, hopen, hafter⟩ := write_eq_ok.1 (conclude_eq_ok.1 h)
        obtain ⟨-, rfl⟩ := Prod.ext_iff.1 hafter
        exact .written data hwriter hopen
    | close stream => exact writerStep_of_close h
    | _ => cases hfills

/-- A number is given to one stream only: the next one to each. -/
theorem WriterStep.numbered {c : AnsweredCall} {writers : Array MemoryWriter}
    (h : WriterStep store c writers)
    (hpast : past.filterMap created? = List.range store.writers.size) :
    (past ++ [c]).filterMap created? = List.range writers.size := by
  rw [List.filterMap_append, hpast]
  cases h with
  | created path overwrite size layout =>
    rw [Array.size_push, List.range_succ]
    rfl
  | written data hwriter hopen => simp [created?]
  | closed answer hwriter hopen => simp [created?]
  | kept hcreated => simp [hcreated]

/-- What an open stream holds is all that it accepted. -/
theorem WriterStep.accepted {c : AnsweredCall} {writers : Array MemoryWriter}
    (h : WriterStep store c writers)
    (hpast : ∀ stream writer, store.writers[stream]? = some writer → writer.closed = false →
      IsOpen past stream writer.content)
    {stream : StreamId} {writer : MemoryWriter} (hwriter : writers[stream]? = some writer)
    (hopen : writer.closed = false) : IsOpen (past ++ [c]) stream writer.content := by
  -- a stream that the call is not about, by what was known of it
  have hother : store.writers[stream]? = some writer → c.call ≠ .close stream →
      c.acceptedBy stream = [] → IsOpen (past ++ [c]) stream writer.content := by
    intro hsame hc hnothing
    have hkept := (hpast stream writer hsame hopen).snoc hc
    rwa [hnothing, List.append_nil] at hkept
  cases h with
  | created path overwrite size layout =>
    rw [Array.getElem?_push] at hwriter
    split at hwriter
    · next hstream =>
      obtain rfl := Option.some.inj hwriter
      rw [hstream]
      exact isOpen_of_created rfl
    · exact hother hwriter (by simp) rfl
  | @written written old data hold hopen' =>
    by_cases hstream : written = stream
    · subst hstream
      rw [Array.getElem?_setIfInBounds_self] at hwriter
      split at hwriter
      · obtain rfl := Option.some.inj hwriter
        have hlonger : IsOpen (past ++ [⟨.write written data, .ok ()⟩]) written
            (old.content ++ acceptedBy written ⟨.write written data, .ok ()⟩) :=
          (hpast _ _ hold hopen').snoc (by simp)
        simpa [MemoryWriter.content, acceptedBy] using hlonger
      · cases hwriter
    · rw [Array.getElem?_setIfInBounds_ne hstream] at hwriter
      exact hother hwriter (by simp) (if_neg hstream)
  | @closed closed old answer hold hopen' =>
    by_cases hstream : closed = stream
    · subst hstream
      rw [Array.getElem?_setIfInBounds_self] at hwriter
      split at hwriter
      · obtain rfl := Option.some.inj hwriter
        cases hopen
      · cases hwriter
    · rw [Array.getElem?_setIfInBounds_ne hstream] at hwriter
      exact hother hwriter (by simpa using hstream) rfl
  | kept hcreated haccepted hclosed =>
    refine hother hwriter ?_ (haccepted stream)
    intro hc
    rw [hclosed stream writer hc hwriter] at hopen
    cases hopen

/-- A stream that is closed stays closed. -/
theorem WriterStep.stays {c : AnsweredCall} {writers : Array MemoryWriter}
    (h : WriterStep store c writers) {writer : MemoryWriter}
    (hwriter : store.writers[stream]? = some writer) (hclosed : writer.closed = true) :
    writers[stream]? = some writer := by
  have hlt := (Array.getElem?_eq_some_iff.1 hwriter).1
  have hother : ∀ {other : StreamId} {old : MemoryWriter} (new : MemoryWriter),
      store.writers[other]? = some old → old.closed = false →
      (store.writers.setIfInBounds other new)[stream]? = some writer := by
    intro other old new hold hopen
    have hne : other ≠ stream := by
      rintro rfl
      rw [Option.some.inj (hold.symm.trans hwriter), hclosed] at hopen
      cases hopen
    rw [Array.getElem?_setIfInBounds_ne hne]
    exact hwriter
  cases h with
  | created path overwrite size layout =>
    rw [Array.getElem?_push, if_neg (Nat.ne_of_lt hlt)]
    exact hwriter
  | written data hold hopen => exact hother _ hold hopen
  | closed answer hold hopen => exact hother _ hold hopen
  | kept => exact hwriter

/-- A stream that was closed just now is closed. -/
theorem WriterStep.closes {answer : Except Bytes Unit} {writers : Array MemoryWriter}
    (h : WriterStep store ⟨.close stream, answer⟩ writers) (hlt : stream < store.writers.size) :
    ∃ writer, writers[stream]? = some writer ∧ writer.closed = true := by
  cases h with
  | closed answer hold hopen =>
    exact ⟨_, Array.getElem?_setIfInBounds_self_of_lt hlt, rfl⟩
  | kept hcreated haccepted hclosed =>
    have hwriter := Array.getElem?_eq_getElem hlt
    exact ⟨_, hwriter, hclosed stream _ rfl hwriter⟩

/-! ## Contents -/

/-- Where a content comes from that a file has after a call. -/
inductive ContentStep (store : MemoryStore) : AnsweredCall → Bytes → Prop where
  /-- The file is new. -/
  | empty (c : AnsweredCall) : ContentStep store c []
  /-- A file had it before. -/
  | old (c : AnsweredCall) {k : Key} {f : MemoryFile} (hfile : store.get? k = some (.file f)) :
      ContentStep store c f.content
  /-- A stream was closed that had accepted it. -/
  | committed {stream : StreamId} {writer : MemoryWriter}
      (hwriter : store.writers[stream]? = some writer) (hopen : writer.closed = false) :
      ContentStep store ⟨.close stream, .ok ()⟩ writer.content

theorem contentStep_of_succeeded {value : call.Value} {k : Key} {f : MemoryFile}
    (h : store.standsAfter k (.call call) = some (.file f)) :
    ContentStep store ⟨call, .ok value⟩ f.content := by
  have hold : store.get? k = some (.file f) → ContentStep store ⟨call, .ok value⟩ f.content :=
    fun hfile => .old _ hfile
  cases call with
  | createFile path overwrite size layout =>
    simp only [standsAfter, filed] at h
    split at h
    · cases h
      exact .empty _
    · split at h
      · cases h
      · exact hold h
  | makeDirs path =>
    simp only [standsAfter] at h
    split at h
    · cases h
    · exact hold h
  | remove path recursive =>
    simp only [standsAfter] at h
    split at h
    · cases h
    · exact hold h
  | rename source target =>
    simp only [standsAfter] at h
    split at h
    · exact .old _ h
    · split at h
      · cases h
      · exact hold h
  | close stream =>
    simp only [standsAfter, refilled] at h
    split at h
    · next writer g hwriter hfile =>
      split at h
      · next hopen =>
        cases h
        exact .committed hwriter hopen.1
      · cases h
        exact hold hfile
    · exact hold h
  | openFile | pathExists | status | checksum | read | write => exact hold h

theorem contentStep_of_perform (hwell : store.tree.WellFormed) {answer : call.Answer} {k : Key}
    {f : MemoryFile} (h : store.perform call = (answer, after))
    (hfile : after.get? k = some (.file f)) : ContentStep store ⟨call, answer⟩ f.content := by
  cases answer with
  | error message =>
    have hfailed : store.attempt (.call call) = (.error message, after) := by
      simp only [attempt, h]
      rfl
    rw [get?, tree_of_failed hfailed] at hfile
    exact .old _ hfile
  | ok value =>
    have hsucceeded : store.attempt (.call call) = (.ok (), after) := by
      simp only [attempt, h]
      rfl
    rw [get?_of_succeeded hwell hsucceeded] at hfile
    exact contentStep_of_succeeded hfile

/-! ## What a store keeps -/

/-- What a store that was new keeps of the calls since: each stream has its number, an open one
holds all that it accepted, one that was closed is closed, and a file is empty or holds all that
some stream had accepted when it was closed. -/
structure Remembers (store : MemoryStore) (past : List AnsweredCall) : Prop where
  numbered : past.filterMap created? = List.range store.writers.size
  accepted : ∀ stream writer, store.writers[stream]? = some writer → writer.closed = false →
    IsOpen past stream writer.content
  sealed : ∀ stream content answer, IsClosed past stream content answer →
    ∃ writer, store.writers[stream]? = some writer ∧ writer.closed = true
  whole : ∀ k f, store.get? k = some (.file f) →
    f.content = [] ∨ ∃ stream, IsClosed past stream f.content (.ok ())

theorem remembers_new (kind : ChecksumKind) (defaults : Layout) :
    Remembers { checksumKind := kind, defaults := defaults } [] where
  numbered := rfl
  accepted stream writer hwriter := by simp at hwriter
  sealed stream content answer hclosed := by
    obtain ⟨before, since, hnil, -⟩ := hclosed
    simp at hnil
  whole k f hfile := by
    rw [get?, Tree.get?_empty] at hfile
    split at hfile <;> cases hfile

/-- Any call is remembered. -/
theorem Remembers.snoc (h : Remembers store past) (hwell : store.tree.WellFormed)
    {answer : call.Answer} (hcall : store.perform call = (answer, after)) :
    Remembers after (past ++ [⟨call, answer⟩]) := by
  have hstep := writerStep_of_perform hcall
  refine ⟨hstep.numbered h.numbered, fun _ _ => hstep.accepted h.accepted, ?_, ?_⟩
  · intro stream content result hclosed
    rcases isClosed_snoc hclosed with hbefore | ⟨hlast, hopen⟩
    · obtain ⟨writer, hwriter, hwriter_closed⟩ := h.sealed stream content result hbefore
      exact ⟨writer, hstep.stays hwriter hwriter_closed, hwriter_closed⟩
    · have hlt := hopen.mem_created
      rw [h.numbered, List.mem_range] at hlt
      rw [hlast] at hstep
      exact hstep.closes hlt
  · intro k f hfile
    have hcontent := contentStep_of_perform hwell hcall hfile
    generalize hc : (⟨call, answer⟩ : AnsweredCall) = c at hcontent ⊢
    generalize f.content = content at hcontent ⊢
    cases hcontent with
    | empty => exact .inl rfl
    | old _ hold =>
      rcases h.whole _ _ hold with hempty | ⟨stream, hclosed⟩
      · exact .inl hempty
      · exact .inr ⟨stream, hclosed.snoc⟩
    | committed hwriter hopen => exact .inr ⟨_, (h.accepted _ _ hwriter hopen).close⟩

theorem Runs.remembers {kind : ChecksumKind} {defaults : Layout}
    (h : Runs { checksumKind := kind, defaults := defaults } past after) :
    Remembers after past := by
  induction h with
  | nil => exact remembers_new kind defaults
  | snoc hpast hcall ih => exact ih.snoc (hpast.reachable (.new kind defaults)).wellFormed hcall

/-! ## Streams opened for reading -/

/-- How many bytes a stream was asked for in the course of the calls. -/
def requested (past : List AnsweredCall) (stream : StreamId) : Nat :=
  (past.map (requestedFrom stream)).sum

/-- A stream that was just opened has all of the content left that its file has. -/
theorem reader_of_opened {path : Path} (h : store.perform (.openFile path) = (.ok stream, after)) :
    ∃ f, store.get? path.key = some (.file f) ∧ after.readers[stream]? = some ⟨f.content⟩ := by
  obtain ⟨f, hfile, hopened⟩ := openFile_eq_ok.1 (conclude_eq_ok.1 h)
  obtain ⟨rfl, rfl⟩ := Prod.ext_iff.1 hopened
  exact ⟨f, hfile, Array.getElem?_push_size⟩

theorem perform_read {rest : Bytes} (hreader : store.readers[stream]? = some ⟨rest⟩) (size : Nat) :
    store.perform (.read stream size) = (.ok (rest.take size),
      { store with readers := store.readers.setIfInBounds stream ⟨rest.drop size⟩ }) := by
  simp only [perform, read, hreader, conclude]

/-- A reader has left what a read did not take from its front, and one on another stream takes
nothing. -/
theorem reader_of_read {rest : Bytes} {asked : StreamId} {size : Nat}
    {answer : (StorageCall.read asked size).Answer} (hreader : store.readers[stream]? = some ⟨rest⟩)
    (h : store.perform (.read asked size) = (answer, after)) :
    after.readers[stream]? = some ⟨rest.drop (requestedFrom stream ⟨.read asked size, answer⟩)⟩ ∧
      readFrom stream ⟨.read asked size, answer⟩
        = rest.take (requestedFrom stream ⟨.read asked size, answer⟩) := by
  by_cases hstream : asked = stream
  · subst hstream
    have hread := perform_read hreader size
    rw [h, Prod.mk.injEq] at hread
    obtain ⟨rfl, rfl⟩ := hread
    have hlt := (Array.getElem?_eq_some_iff.1 hreader).1
    simp [requestedFrom, readFrom, hlt]
  · have hrequested : requestedFrom stream ⟨.read asked size, answer⟩ = 0 := if_neg hstream
    rw [hrequested]
    cases answer with
    | error message =>
      rw [conclude_error h]
      exact ⟨hreader, rfl⟩
    | ok data =>
      obtain ⟨reader, -, hafter⟩ := read_eq_ok.1 (conclude_eq_ok.1 h)
      obtain ⟨-, rfl⟩ := Prod.ext_iff.1 hafter
      exact ⟨(Array.getElem?_setIfInBounds_ne hstream).trans hreader, if_neg hstream⟩

/-- No call but a read changes what a reader has left. -/
theorem reader_of_perform {rest : Bytes} {answer : call.Answer}
    (hreader : store.readers[stream]? = some ⟨rest⟩) (h : store.perform call = (answer, after)) :
    after.readers[stream]? = some ⟨rest.drop (requestedFrom stream ⟨call, answer⟩)⟩ ∧
      readFrom stream ⟨call, answer⟩ = rest.take (requestedFrom stream ⟨call, answer⟩) := by
  cases call with
  | read asked size => exact reader_of_read hreader h
  | openFile path =>
    refine ⟨?_, rfl⟩
    cases answer with
    | error message =>
      rw [conclude_error h]
      exact hreader
    | ok opened =>
      obtain ⟨f, -, hafter⟩ := openFile_eq_ok.1 (conclude_eq_ok.1 h)
      obtain ⟨-, rfl⟩ := Prod.ext_iff.1 hafter
      have hlt := (Array.getElem?_eq_some_iff.1 hreader).1
      show (store.readers.push ⟨f.content⟩)[stream]? = _
      rw [Array.getElem?_push, if_neg (Nat.ne_of_lt hlt)]
      exact hreader
  | _ =>
    rw [readers_of_perform h rfl]
    exact ⟨hreader, rfl⟩

/-- What was read is what the content begins with, and the reader has the rest. -/
theorem Runs.reader (h : Runs store past after)
    (hreader : store.readers[stream]? = some ⟨content⟩) :
    after.readers[stream]? = some ⟨content.drop (requested past stream)⟩ ∧
      past.flatMap (readFrom stream) = content.take (requested past stream) := by
  induction h with
  | nil => exact ⟨hreader, rfl⟩
  | @snoc past after next call answer _ hcall ih =>
    obtain ⟨hleft, hread⟩ := ih
    obtain ⟨hleft', hread'⟩ := reader_of_perform hleft hcall
    have hsum : requested (past ++ [⟨call, answer⟩]) stream
        = requested past stream + requestedFrom stream ⟨call, answer⟩ := by simp [requested]
    rw [hsum]
    constructor
    · rw [hleft', List.drop_drop]
    · simp [hread, hread', List.take_add]

/-! ## The theorem -/

/-- What a stream gave in the course of the calls is what the content begins with, as much of it as
was asked for, and the next that it gives comes after this. -/
structure Continues (store : MemoryStore) (past : List AnsweredCall) (stream : StreamId)
    (content : Bytes) : Prop where
  given : past.flatMap (readFrom stream) = content.take (requested past stream)
  next : ∀ size, (store.perform (.read stream size)).1
    = .ok ((content.drop (requested past stream)).take size)

/-- What can be said of a store and the calls that led to it from a new one. No two streams have one
number. What a file holds is nothing, or all that one stream had accepted when it was closed for the
first time, without fail. To write to a stream that was closed is an error, and changes nothing. A
stream that is now opened for reading gives what its file holds now, whatever is done then. -/
structure NeverPartial (store : MemoryStore) (past : List AnsweredCall) : Prop where
  single : (past.filterMap created?).Nodup
  whole : ∀ k f, store.get? k = some (.file f) →
    f.content = [] ∨ ∃ stream, IsClosed past stream f.content (.ok ())
  sealed : ∀ stream content answer, IsClosed past stream content answer → ∀ data, ∃ k : Key,
    store.perform (.write stream data) = (.error (MemoryError.writeAfterClose k).message, store)
  steady : ∀ path stream opened, store.perform (.openFile path) = (.ok stream, opened) →
    ∃ f, store.get? path.key = some (.file f) ∧ ∀ operations : List MemoryOperation,
      Continues (operations.foldl operate opened) (opened.history operations) stream f.content

theorem Remembers.neverPartial (h : Remembers store past) : NeverPartial store past where
  single := by
    rw [h.numbered]
    exact List.nodup_range
  whole := h.whole
  sealed stream content answer hclosed data := by
    obtain ⟨writer, hwriter, hwriter_closed⟩ := h.sealed stream content answer hclosed
    refine ⟨writer.key, ?_⟩
    simp only [perform, write, hwriter, hwriter_closed, if_true, conclude]
  steady path stream opened hopen := by
    obtain ⟨f, hfile, hreader⟩ := reader_of_opened hopen
    refine ⟨f, hfile, fun operations => ?_⟩
    obtain ⟨hleft, hread⟩ := (runs_history opened operations).reader hreader
    refine ⟨hread, fun size => ?_⟩
    rw [perform_read hleft]

/-- Whatever is done to a new store, in whatever order and through any streams, it never shows a
part of what was written for a file. -/
theorem neverPartial_after_operations (kind : ChecksumKind) (defaults : Layout)
    (operations : List MemoryOperation) :
    NeverPartial (operations.foldl operate { checksumKind := kind, defaults := defaults })
      (history { checksumKind := kind, defaults := defaults } operations) :=
  (runs_history _ operations).remembers.neverPartial

end MemoryStore

/-- Two streams are open on one path. One of them is closed; the other has its bytes yet. -/
def interleavedOperations : List MemoryOperation :=
  [.call (.createFile (utf8 "f") true 64 ⟨1, 64⟩), .call (.write 0 (utf8 "ab")),
    .call (.createFile (utf8 "f") true 64 ⟨1, 64⟩), .call (.write 1 (utf8 "xy")),
    .call (.write 0 (utf8 "c")), .call (.close 0)]

/-- A new store after those operations. -/
def interleaved : MemoryStore :=
  interleavedOperations.foldl MemoryStore.operate { defaults := ⟨1, 64⟩ }

/-- What is done while a file is read: the other stream is closed, and the file goes. -/
def interruptions : List MemoryOperation :=
  [.call (.read 0 1), .call (.close 1), .call (.remove (utf8 "f") false), .call (.read 0 1),
    .call (.read 0 9)]

theorem neverPartial_interleaved :
    interleaved.get? [utf8 "f"] = some (.file ⟨utf8 "abc", ⟨1, 64⟩⟩) ∧
    (∃ stream, IsClosed (MemoryStore.history { defaults := ⟨1, 64⟩ } interleavedOperations) stream
      (utf8 "abc") (.ok ())) ∧
    ∃ opened, interleaved.perform (.openFile (utf8 "f")) = (.ok (0 : Nat), opened) ∧
      (opened.history interruptions).flatMap (AnsweredCall.readFrom 0) = utf8 "abc" := by
  have hnever := MemoryStore.neverPartial_after_operations .blockCrc32 ⟨1, 64⟩
    interleavedOperations
  have hfile : interleaved.get? [utf8 "f"] = some (.file ⟨utf8 "abc", ⟨1, 64⟩⟩) := by
    decide +kernel
  refine ⟨hfile, ?_, _, rfl, ?_⟩
  · exact (hnever.whole _ _ hfile).resolve_left (by decide +kernel)
  · obtain ⟨f, hf, hcontinues⟩ := hnever.steady (utf8 "f") (0 : Nat) _ rfl
    have hcontent : f.content = utf8 "abc" := by
      have hsame : some (Node.file f) = some (.file ⟨utf8 "abc", ⟨1, 64⟩⟩) := by
        rw [← hf, ← hfile]
        rfl
      cases hsame
      rfl
    have hgiven := (hcontinues interruptions).given
    rw [hcontent] at hgiven
    exact hgiven.trans (by decide +kernel)

end StagedCopy
