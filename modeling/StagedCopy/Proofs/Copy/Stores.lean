import StagedCopy.Proofs.Copy.History
import StagedCopy.Proofs.Memory.FailStop

/-!
# An attempt between two stores in memory

What stands in the target store while an attempt goes on between two stores in memory whose calls
may fail. As long as nothing has failed, the target store is known exactly at every phase, as what
it was in the beginning with the temporary file, then without the target, then with the
directories above it, and in the end with the target in place of the temporary file. Once something
has failed, the place of the target is as it was in the beginning or empty.

* `StorePair`, `StorePair.Step` — the two stores, and their answers to the exchanges of an attempt.
* `CopyJob.Fits` — what is asked of the job and the stores at the beginning.
* `CopyJob.CanStage` — the temporary file can be created.
* `CopyJob.staged`, `discarded`, `cleared`, `housed`, `published` — what stands where, at five
  moments.
* `CopyJob.copied` — what stands where at the end, in terms of the beginning alone.
* `CopyPhase.Stands` — what the phase says about the stores; `stands_trail` — it is so along every
  execution.
-/

namespace StagedCopy

open Program (Exchange)

/-! ## Two stores -/

/-- The stores of a copy. -/
structure StorePair where
  source : MemoryStore
  target : MemoryStore

/-- The stores answer their calls, which may fail, and nothing else touches them. -/
inductive StorePair.Step : StorePair → Exchange → StorePair → Prop where
  | silent {pair : StorePair} {x : Exchange} (h : x.request.isCall = false) : Step pair x pair
  | source {pair : StorePair} {call : StorageCall} {answer : call.Answer} {after : MemoryStore}
      (h : FailStop pair.source call answer after) :
      Step pair ⟨.storage .source call, answer⟩ { pair with source := after }
  | target {pair : StorePair} {call : StorageCall} {answer : call.Answer} {after : MemoryStore}
      (h : FailStop pair.target call answer after) :
      Step pair ⟨.storage .target call, answer⟩ { pair with target := after }

namespace StorePair.Step

variable {pair after : StorePair} {call : StorageCall} {answer : call.Answer} {x : Exchange}

theorem of_silent (h : Step pair x after) (hx : x.request.isCall = false) : after = pair := by
  cases h with
  | silent => rfl
  | source => cases hx
  | target => cases hx

theorem of_source (h : Step pair ⟨.storage .source call, answer⟩ after) :
    FailStop pair.source call answer after.source ∧ after.target = pair.target := by
  cases h with
  | silent hx => cases hx
  | source h => exact ⟨h, rfl⟩

theorem of_target (h : Step pair ⟨.storage .target call, answer⟩ after) :
    FailStop pair.target call answer after.target ∧ after.source = pair.source := by
  cases h with
  | silent hx => cases hx
  | target h => exact ⟨h, rfl⟩

end StorePair.Step

/-! ## What stands where -/

namespace CopyJob

variable (job : CopyJob) (store : MemoryStore) (content : Bytes)

/-- The temporary file has a content, the directories above it are there, and all else is as it
was. -/
def staged (k : Key) : Option (Node MemoryFile) :=
  if k = job.temp.key then some (.file ⟨content, store.layoutFor job.layout⟩)
  else if k ∈ job.temp.key.properAncestors ∧ store.get? k = none then some .directory
  else store.get? k

/-- The temporary file is removed: nothing is at its place, the directories above it are there, and
all else is as it was. -/
def discarded (k : Key) : Option (Node MemoryFile) :=
  if k = job.temp.key then none
  else if k ∈ job.temp.key.properAncestors ∧ store.get? k = none then some .directory
  else store.get? k

/-- What is staged, and nothing at the target. -/
def cleared (k : Key) : Option (Node MemoryFile) :=
  if k = job.target.key then none else job.staged store content k

/-- What is cleared, with the directories above the target. -/
def housed (k : Key) : Option (Node MemoryFile) :=
  if k ∈ job.target.key.properAncestors ∧ job.cleared store content k = none then some .directory
  else job.cleared store content k

/-- What is housed, with the temporary file at the place of the target. -/
def published (k : Key) : Option (Node MemoryFile) :=
  if k = job.target.key then some (.file ⟨content, store.layoutFor job.layout⟩)
  else if k = job.temp.key then none
  else job.housed store content k

/-- The layout of the copy: what is to be preserved comes from the source where it says something,
and all else is the default of the target store. -/
def copiedLayout (defaults : Layout) : Layout where
  replication :=
    if job.attributes.replication ∧ 0 < job.source.replication then job.source.replication
    else defaults.replication
  blockSize :=
    if job.attributes.blockSize ∧ 0 < job.source.blockSize then job.source.blockSize
    else defaults.blockSize

/-- What stands where after a copy with nothing in its way: the copy, nothing at the place of the
temporary file, and directories where they were missing above these two. -/
def copied (k : Key) : Option (Node MemoryFile) :=
  if k = job.target.key then some (.file ⟨content, job.copiedLayout store.defaults⟩)
  else if k = job.temp.key then none
  else if (k ∈ job.target.key.properAncestors ∨ k ∈ job.temp.key.properAncestors) ∧
      store.get? k = none then some .directory
  else store.get? k

/-- The source is a file, the target store has come to be by calls, and the target is spelled in
normal form without a separator at the end, is not the temporary file and not above it. -/
structure Fits (init : StorePair) (file : MemoryFile) : Prop where
  source : init.source.get? job.source.path.key = some (.file file)
  reachable : init.target.Reachable
  normal : job.target.lexicallyNormal = job.target
  unended : job.target.endsInSlash = false
  apart : job.target.key ≠ job.temp.key
  notAbove : job.target.key.isAbove job.temp.key = false

variable {job} {store} {content}

section fits

variable {init : StorePair} {file : MemoryFile}

theorem Fits.target_ne_root (h : job.Fits init file) : job.target.key ≠ [] := by
  intro hroot
  have habove := h.notAbove
  rw [hroot] at habove
  have hne : [] ≠ job.temp.key := hroot ▸ h.apart
  rw [Key.isAbove_iff.2 ⟨List.nil_prefix, hne⟩] at habove
  cases habove

theorem Fits.key_parent (h : job.Fits init file) :
    job.target.parent.key = job.target.key.parent :=
  Path.key_parent h.normal h.unended h.target_ne_root

/-- Staging leaves the place of the target alone. -/
theorem Fits.staged_target (h : job.Fits init file) :
    job.staged store content job.target.key = store.get? job.target.key := by
  have hmem : job.target.key ∉ job.temp.key.properAncestors := by
    intro hmem
    have habove := (Key.mem_properAncestors.1 hmem).2
    rw [h.notAbove] at habove
    cases habove
  rw [staged, if_neg h.apart, if_neg fun hboth => hmem hboth.1]

/-- Staging puts nothing below the target. -/
theorem Fits.staged_below (h : job.Fits init file) {k : Key}
    (hbelow : job.target.key.isAbove k = true) :
    job.staged store content k = store.get? k := by
  have htemp : k ≠ job.temp.key := by
    rintro rfl
    rw [h.notAbove] at hbelow
    cases hbelow
  have hmem : k ∉ job.temp.key.properAncestors := by
    intro hmem
    have habove := Key.isAbove_trans hbelow (Key.mem_properAncestors.1 hmem).2
    rw [h.notAbove] at habove
    cases habove
  rw [staged, if_neg htemp, if_neg fun hboth => hmem hboth.1]

theorem housed_target : job.housed store content job.target.key = none := by
  rw [housed, if_neg fun hboth => Key.not_mem_properAncestors_self _ hboth.1, cleared, if_pos rfl]

theorem published_target :
    job.published store content job.target.key
      = some (.file ⟨content, store.layoutFor job.layout⟩) := by
  rw [published, if_pos rfl]

/-- The temporary file is there until it is renamed. -/
theorem Fits.housed_temp (h : job.Fits init file) :
    job.housed store content job.temp.key
      = some (.file ⟨content, store.layoutFor job.layout⟩) := by
  have hcleared : job.cleared store content job.temp.key
      = some (.file ⟨content, store.layoutFor job.layout⟩) := by
    rw [cleared, if_neg (Ne.symm h.apart), staged, if_pos rfl]
  rw [housed, hcleared, if_neg (by simp)]

end fits

/-- The temporary file can be created: no directory is at its place, and no file above it. -/
def CanStage (job : CopyJob) (store : MemoryStore) : Prop :=
  store.get? job.temp.key ≠ some .directory ∧
    ∀ a ∈ job.temp.key.properAncestors, ∀ f, store.get? a ≠ some (.file f)

/-- The store creates the temporary file exactly when it can be created. -/
theorem create_served_iff {store after : MemoryStore} {output : StreamId} {size : Nat} :
    store.perform (.createFile job.temp true size job.layout) = (.ok (.ok output), after) ↔
      job.CanStage store ∧ store.startFile job.temp.key job.layout = (output, after) := by
  have hcreate : store.create job.temp true job.layout = .ok (output, after) ↔
      job.CanStage store ∧ store.startFile job.temp.key job.layout = (output, after) := by
    refine MemoryStore.create_eq_ok.trans ?_
    rw [MemoryStore.fileAbove?_eq_none]
    constructor
    · rintro ⟨hdirectory, -, habove, hstart⟩
      exact ⟨⟨hdirectory, habove⟩, hstart⟩
    · rintro ⟨⟨hdirectory, habove⟩, hstart⟩
      exact ⟨hdirectory, .inr rfl, habove, hstart⟩
  rw [← hcreate]
  constructor
  · intro hserved
    obtain ⟨_, hvalue, hcreated⟩ := MemoryStore.perform_createFile_eq_ok.1 hserved
    obtain rfl := Except.ok.inj hvalue
    exact hcreated
  · intro hcreated
    exact MemoryStore.perform_createFile_eq_ok.2 ⟨output, rfl, hcreated⟩

end CopyJob

/-! ## What stays -/

/-- What an attempt keeps of the stores that it began with: what stands in the source, the
settings, and that the target store has come to be by calls. -/
structure StorePair.Frame (init pair : StorePair) : Prop where
  sourceTree : pair.source.tree = init.source.tree
  sourceKind : pair.source.checksumKind = init.source.checksumKind
  targetKind : pair.target.checksumKind = init.target.checksumKind
  targetDefaults : pair.target.defaults = init.target.defaults
  reachable : pair.target.Reachable

theorem CopyJob.Reads.looks {job : CopyJob} {call : StorageCall}
    (h : job.Reads (.storage .source call)) : call.looks = true := by
  cases call with
  | openFile | read | status | checksum => rfl
  | _ => cases h

theorem StorePair.Frame.step {job : CopyJob} {init pair pair' : StorePair} {x : Exchange}
    (h : Frame init pair) (hreads : job.Reads x.request) (hstep : StorePair.Step pair x pair') :
    Frame init pair' := by
  cases hstep with
  | silent => exact h
  | source hanswer =>
    refine ⟨?_, ?_, h.targetKind, h.targetDefaults, h.reachable⟩
    · exact (hanswer.tree_of_looks hreads.looks).trans h.sourceTree
    · exact hanswer.kind.trans h.sourceKind
  | target hanswer =>
    refine ⟨h.sourceTree, h.sourceKind, ?_, ?_, hanswer.reachable h.reachable⟩
    · exact hanswer.kind.trans h.targetKind
    · exact hanswer.defaults.trans h.targetDefaults

/-! ## What each phase says -/

/-- A stream is open for writing the temporary file and has accepted some bytes. -/
def CopyJob.Accepts (job : CopyJob) (store : MemoryStore) (output : StreamId) (bytes : Bytes) :
    Prop :=
  ∃ writer, store.writers[output]? = some writer ∧ writer.key = job.temp.key ∧
    writer.closed = false ∧ writer.content = bytes

/-- These bytes are left of a stream that is open for reading. -/
def Gives (store : MemoryStore) (input : StreamId) (rest : Bytes) : Prop :=
  store.readers[input]? = some ⟨rest⟩

/-- What stands in a store. -/
def Holds (store : MemoryStore) (view : Key → Option (Node MemoryFile)) : Prop :=
  ∀ k, store.get? k = view k

theorem Holds.of_tree {store after : MemoryStore} {view : Key → Option (Node MemoryFile)}
    (h : Holds store view) (htree : after.tree = store.tree) : Holds after view := by
  intro k
  rw [← h k, MemoryStore.get?, htree]
  rfl

theorem chunkSize_pos (job : CopyJob) : 0 < job.plan.chunkSize :=
  Nat.lt_of_lt_of_le Nat.one_pos (Nat.le_max_right _ 1)

namespace CopyPhase

section stands

variable (job : CopyJob) (init : StorePair) (content : Bytes)

/-- The place of the target is as it was, or empty. -/
def Unwritten (pair : StorePair) : Prop :=
  pair.target.get? job.target.key = init.target.get? job.target.key ∨
    pair.target.get? job.target.key = none

/-- What stands in the stores once the end is decided. -/
def Settled (pair : StorePair) : AttemptEnd → Prop
  | .ok copied =>
    Holds pair.target (job.published init.target content) ∧ copied = wrap64 content.length
  | .error _ | .broken .. => Unwritten job init pair

/-- What the phase says about the stores, when the source had a content at the beginning. -/
def Stands (pair : StorePair) : CopyPhase → Prop
  | creating => pair = init
  | opening output =>
    pair.source = init.source ∧ Holds pair.target (job.staged init.target []) ∧
      job.Accepts pair.target output []
  | reading output input moved =>
    Holds pair.target (job.staged init.target []) ∧
      job.Accepts pair.target output moved.flatten ∧
      ∃ rest, Gives pair.source input rest ∧ moved.flatten ++ rest = content
  | writing output input moved chunk =>
    Holds pair.target (job.staged init.target []) ∧
      job.Accepts pair.target output moved.flatten ∧
      ∃ rest, Gives pair.source input rest ∧ moved.flatten ++ (chunk ++ rest) = content
  | closing output moved none =>
    Holds pair.target (job.staged init.target []) ∧ job.Accepts pair.target output content ∧
      moved.flatten = content
  | closing output _ (some _) =>
    Holds pair.target (job.staged init.target []) ∧ ∃ bytes, job.Accepts pair.target output bytes
  | sizingSource moved | sizingTemp moved | summingSource moved | summingTemp moved _
  | findingTarget moved | clearingTarget moved =>
    Holds pair.target (job.staged init.target content) ∧ moved.flatten = content
  | findingParent moved | makingParent moved =>
    Holds pair.target (job.cleared init.target content) ∧ moved.flatten = content
  | publishing moved =>
    Holds pair.target (job.housed init.target content) ∧ moved.flatten = content
  | findingTemp result | clearingTemp result | finished result =>
    Settled job init content pair result

end stands

section calls

variable {job : CopyJob} {init pair pair' : StorePair} {content : Bytes} {file : MemoryFile}

/-- A call of the target store that fails leaves both stores as they are. -/
theorem eq_of_error {call : StorageCall} {message : Bytes}
    (h : StorePair.Step pair ⟨.storage .target call, .error message⟩ pair')
    (hclose : call.closes = false) : pair' = pair := by
  obtain ⟨hanswer, hsource⟩ := h.of_target
  have htarget := hanswer.of_error hclose
  cases pair
  cases pair'
  rw [StorePair.mk.injEq]
  exact ⟨hsource, htarget⟩

theorem unwritten_of_staged {bytes : Bytes} (hfits : job.Fits init file)
    (h : Holds pair.target (job.staged init.target bytes)) : Unwritten job init pair :=
  .inl ((h job.target.key).trans hfits.staged_target)

theorem Unwritten.of_same (h : Unwritten job init pair) (htarget : pair'.target = pair.target) :
    Unwritten job init pair' := by
  unfold Unwritten
  rw [htarget]
  exact h

theorem unwritten_of_cleared (h : Holds pair.target (job.cleared init.target content)) :
    Unwritten job init pair := by
  refine .inr ((h job.target.key).trans ?_)
  rw [CopyJob.cleared, if_pos rfl]

theorem unwritten_of_housed (h : Holds pair.target (job.housed init.target content)) :
    Unwritten job init pair :=
  .inr ((h job.target.key).trans CopyJob.housed_target)

/-- What is said once the end is decided is about the target store only. -/
theorem Settled.of_same {result : AttemptEnd}
    (h : Settled job init content pair result) (htarget : pair'.target = pair.target) :
    Settled job init content pair' result := by
  cases result with
  | ok copied =>
    unfold Settled
    rw [htarget]
    exact h
  | error | broken => exact Unwritten.of_same h htarget

/-- The source is opened: all of the file is left. -/
theorem gives_opened {store after : MemoryStore} {path : Path} {input : StreamId}
    (hfile : store.get? path.key = some (.file file))
    (h : FailStop store (.openFile path) (.ok input) after) : Gives after input file.content := by
  obtain ⟨f, hget, hgives⟩ := h.of_openFile
  obtain rfl := Node.file.inj (Option.some.inj (hget.symm.trans hfile))
  exact hgives

/-- A read takes the beginning of what is left. -/
theorem gives_read {store after : MemoryStore} {input : StreamId} {size : Nat} {chunk rest : Bytes}
    (hsize : 0 < size) (hgives : Gives store input rest)
    (h : FailStop store (.read input size) (.ok chunk) after) :
    ∃ left, rest = chunk ++ left ∧ (chunk = [] → left = []) ∧ Gives after input left := by
  obtain ⟨left, hreader, hend, hleft⟩ := h.of_read hsize
  have hrest := Option.some.inj (hgives.symm.trans hreader)
  exact ⟨left, congrArg MemoryReader.rest hrest, hend, hleft⟩

/-- A chunk is accepted after the bytes that were. -/
theorem accepts_written {store after : MemoryStore} {output : StreamId} {bytes chunk : Bytes}
    (haccepts : job.Accepts store output bytes)
    (h : FailStop store (.write output chunk) (.ok ()) after) :
    job.Accepts after output (bytes ++ chunk) := by
  obtain ⟨writer, hwriter, hopen, hafter⟩ := h.of_write
  obtain ⟨writer', hwriter', hkey, -, hcontent⟩ := haccepts
  obtain rfl := Option.some.inj (hwriter.symm.trans hwriter')
  refine ⟨_, hafter, hkey, hopen, ?_⟩
  rw [← hcontent]
  simp [MemoryWriter.content]

/-- The temporary file is created. -/
theorem holds_created {store after : MemoryStore} {output : StreamId}
    (h : FailStop store (.createFile job.temp true job.options.bufferSize job.layout)
      (.ok (.ok output)) after) :
    Holds after (job.staged store []) ∧ job.Accepts after output [] := by
  obtain ⟨hwriter, hget⟩ := h.of_createFile
  exact ⟨hget, _, hwriter, rfl, rfl, rfl⟩

/-- A stream that is closed gives the temporary file its content. -/
theorem holds_committed {before store : MemoryStore} {output : StreamId} {bytes : Bytes}
    (hholds : Holds store (job.staged before [])) (haccepts : job.Accepts store output bytes) :
    Holds (store.close output).2 (job.staged before bytes) := by
  obtain ⟨writer, hwriter, hkey, hopen, hcontent⟩ := haccepts
  have hfile : store.get? writer.key = some (.file ⟨[], before.layoutFor job.layout⟩) := by
    rw [hkey, hholds, CopyJob.staged, if_pos rfl]
  intro k
  rw [MemoryStore.get?_close hwriter hopen hfile, hkey, hcontent, hholds]
  unfold CopyJob.staged
  by_cases hk : k = job.temp.key
  · rw [if_pos hk, if_pos hk]
  · rw [if_neg hk, if_neg hk, if_neg hk]

/-- However closing is answered, the place of the target is as it was. -/
theorem unwritten_of_close {output : StreamId} {bytes : Bytes}
    {answer : (StorageCall.close output).Answer} (hfits : job.Fits init file)
    (hholds : Holds pair.target (job.staged init.target []))
    (haccepts : job.Accepts pair.target output bytes)
    (h : FailStop pair.target (.close output) answer pair'.target) : Unwritten job init pair' := by
  rcases h.of_close with hsame | hclosed
  · have hstaged : Holds pair'.target (job.staged init.target []) := by
      rw [hsame]
      exact hholds
    exact unwritten_of_staged hfits hstaged
  · have hstaged : Holds pair'.target (job.staged init.target bytes) := by
      rw [hclosed]
      exact holds_committed hholds haccepts
    exact unwritten_of_staged hfits hstaged

/-- Nothing stands at the target. -/
theorem holds_absent (hholds : Holds pair.target (job.staged init.target content))
    (habsent : pair.target.get? job.target.key = none) :
    Holds pair.target (job.cleared init.target content) := by
  intro k
  rw [CopyJob.cleared]
  split
  · next heq =>
    rw [heq]
    exact habsent
  · exact hholds k

/-- What stands at the target is removed. -/
theorem holds_removed (hholds : Holds pair.target (job.staged init.target content))
    (h : FailStop pair.target (.remove job.target false) (.ok ()) pair'.target) :
    Holds pair'.target (job.cleared init.target content) := by
  intro k
  rw [h.of_remove, hholds]
  rfl

/-- With no place between the root and the target, no directories are missing. -/
theorem holds_unhoused (hfits : job.Fits init file)
    (hholds : Holds pair.target (job.cleared init.target content))
    (hparent : job.target.parent.isEmpty = true) :
    Holds pair.target (job.housed init.target content) := by
  have hkey : job.target.key.parent = [] := by
    rw [← hfits.key_parent, List.isEmpty_iff.1 hparent]
    rfl
  intro k
  have hmem : k ∉ job.target.key.properAncestors := by
    rw [Key.mem_properAncestors_iff_parent, hkey]
    rintro ⟨hne, heq | hmem⟩
    · exact hne heq
    · exact List.not_mem_nil hmem
  rw [CopyJob.housed, if_neg fun hboth => hmem hboth.1]
  exact hholds k

/-- When the parent of the target is there, so is everything above it. -/
theorem holds_found (hfits : job.Fits init file) (hreachable : pair.target.Reachable)
    (hholds : Holds pair.target (job.cleared init.target content))
    (hparent : (pair.target.get? job.target.parent.key).isSome = true) :
    Holds pair.target (job.housed init.target content) := by
  rw [hfits.key_parent, Option.isSome_iff_ne_none] at hparent
  intro k
  have hthere : k ∈ job.target.key.properAncestors →
      job.cleared init.target content k ≠ none := by
    intro hmem
    rw [← hholds]
    rcases (Key.mem_properAncestors_iff_parent.1 hmem).2 with heq | hmem
    · rw [heq]
      exact hparent
    · have habove : pair.target.get? k = some .directory :=
        hreachable.wellFormed.above hparent hmem
      rw [habove]
      exact Option.some_ne_none _
  rw [CopyJob.housed, if_neg fun hboth => hthere hboth.1 hboth.2]
  exact hholds k

/-- The directories above the target are made. -/
theorem holds_housed (hfits : job.Fits init file)
    (hholds : Holds pair.target (job.cleared init.target content))
    (h : FailStop pair.target (.makeDirs job.target.parent) (.ok ()) pair'.target) :
    Holds pair'.target (job.housed init.target content) := by
  intro k
  rw [h.of_makeDirs, hfits.key_parent, CopyJob.housed, ← hholds]
  by_cases hnone : pair.target.get? k = none
  · have hk : k ≠ [] := MemoryStore.ne_root_of_none hnone
    have hmem := Key.mem_properAncestors_iff_parent (k := job.target.key) (a := k)
    simp [hmem, hk]
  · simp [hnone]

/-- The temporary file is renamed to the target. -/
theorem holds_published (hfits : job.Fits init file)
    (hholds : Holds pair.target (job.housed init.target content))
    (h : FailStop pair.target (.rename job.temp job.target) (.ok ()) pair'.target) :
    Holds pair'.target (job.published init.target content) := by
  obtain ⟨f, htemp, hget⟩ := h.of_rename
  rw [hholds, hfits.housed_temp] at htemp
  obtain rfl := Node.file.inj (Option.some.inj htemp)
  intro k
  rw [hget, hholds]
  rfl

/-- The temporary file is removed. -/
theorem settled_of_discarded {result : AttemptEnd} (hfits : job.Fits init file)
    (hsettled : Settled job init content pair result)
    (h : FailStop pair.target (.remove job.temp false) (.ok ()) pair'.target) :
    Settled job init content pair' result := by
  have hget := h.of_remove
  cases result with
  | ok copied =>
    refine ⟨fun k => ?_, hsettled.2⟩
    rw [hget]
    split
    · next heq => rw [heq, CopyJob.published, if_neg (Ne.symm hfits.apart), if_pos rfl]
    · exact hsettled.1 k
  | error | broken =>
    unfold Settled Unwritten
    rw [hget, if_neg hfits.apart]
    exact hsettled

theorem stands_afterLengths {moved : List Bytes}
    (h : Holds pair.target (job.staged init.target content) ∧ moved.flatten = content) :
    Stands job init content pair (afterLengths job moved) := by
  unfold afterLengths
  split
  · exact h
  · exact h

theorem stands_afterClearing {moved : List Bytes} (hfits : job.Fits init file)
    (h : Holds pair.target (job.cleared init.target content) ∧ moved.flatten = content) :
    Stands job init content pair (afterClearing job moved) := by
  unfold afterClearing
  split
  · next hparent => exact ⟨holds_unhoused hfits h.1 hparent, h.2⟩
  · exact h

end calls

/-- Every exchange keeps what the phase says about the stores. -/
theorem stands_step {job : CopyJob} {init pair pair' : StorePair} {file : MemoryFile}
    {phase after : CopyPhase} {x : Exchange} (hfits : job.Fits init file)
    (hframe : StorePair.Frame init pair) (h : Stands job init file.content pair phase)
    (hstep : Step job phase x after) (hpair : StorePair.Step pair x pair') :
    Stands job init file.content pair' after := by
  cases hstep with
  | silent hx =>
    rw [hpair.of_silent hx]
    exact h
  | created output =>
    obtain rfl : pair = init := h
    obtain ⟨hanswer, hsource⟩ := hpair.of_target
    exact ⟨hsource, holds_created hanswer⟩
  | createdUnbuffered => exact absurd hpair.of_target.1 FailStop.not_unbuffered
  | notCreated message =>
    obtain rfl : pair = init := h
    rw [eq_of_error hpair rfl]
    exact Or.inl rfl
  | openedUnbuffered input =>
    exact (unwritten_of_staged hfits h.2.1).of_same hpair.of_source.2
  | opened input =>
    obtain ⟨hsource, hholds, haccepts⟩ := h
    obtain ⟨hanswer, htarget⟩ := hpair.of_source
    rw [hsource] at hanswer
    show Holds pair'.target _ ∧ job.Accepts pair'.target _ _ ∧ _
    rw [htarget]
    exact ⟨hholds, haccepts, file.content, gives_opened hfits.source hanswer, rfl⟩
  | notOpened message =>
    obtain ⟨-, hholds, haccepts⟩ := h
    show Holds pair'.target _ ∧ ∃ bytes, job.Accepts pair'.target _ bytes
    rw [hpair.of_source.2]
    exact ⟨hholds, _, haccepts⟩
  | delivered hchunk =>
    obtain ⟨hholds, haccepts, rest, hgives, hcontent⟩ := h
    obtain ⟨hanswer, htarget⟩ := hpair.of_source
    obtain ⟨left, rfl, -, hleft⟩ := gives_read (chunkSize_pos job) hgives hanswer
    show Holds pair'.target _ ∧ job.Accepts pair'.target _ _ ∧ _
    rw [htarget]
    exact ⟨hholds, haccepts, left, hleft, hcontent⟩
  | ended =>
    obtain ⟨hholds, haccepts, rest, hgives, hcontent⟩ := h
    obtain ⟨hanswer, htarget⟩ := hpair.of_source
    obtain ⟨left, rfl, hend, -⟩ := gives_read (chunkSize_pos job) hgives hanswer
    rw [hend rfl, List.append_nil] at hcontent
    rw [hcontent] at haccepts
    show Holds pair'.target _ ∧ job.Accepts pair'.target _ _ ∧ _
    rw [htarget]
    exact ⟨hholds, haccepts, hcontent⟩
  | notRead message =>
    obtain ⟨hholds, haccepts, -⟩ := h
    show Holds pair'.target _ ∧ ∃ bytes, job.Accepts pair'.target _ bytes
    rw [hpair.of_source.2]
    exact ⟨hholds, _, haccepts⟩
  | written =>
    obtain ⟨hholds, haccepts, rest, hgives, hcontent⟩ := h
    obtain ⟨hanswer, hsource⟩ := hpair.of_target
    refine ⟨hholds.of_tree (hanswer.tree_of_looks rfl), ?_, rest, ?_, ?_⟩
    · rw [List.flatten_append, List.flatten_singleton]
      exact accepts_written haccepts hanswer
    · rw [hsource]
      exact hgives
    · rw [List.flatten_append, List.flatten_singleton, List.append_assoc]
      exact hcontent
  | notWritten message =>
    obtain ⟨hholds, haccepts, -⟩ := h
    rw [eq_of_error hpair rfl]
    exact ⟨hholds, _, haccepts⟩
  | closed =>
    obtain ⟨hholds, haccepts, hcontent⟩ := h
    refine ⟨?_, hcontent⟩
    rw [hpair.of_target.1.of_closed]
    exact holds_committed hholds haccepts
  | notClosed message =>
    exact unwritten_of_close hfits h.1 h.2.1 hpair.of_target.1
  | closedAfter answer =>
    obtain ⟨hholds, bytes, haccepts⟩ := h
    exact unwritten_of_close hfits hholds haccepts hpair.of_target.1
  | sourceSized hlength =>
    show Holds pair'.target _ ∧ _
    rw [hpair.of_source.2]
    exact h
  | sourceOff hlength =>
    exact (unwritten_of_staged hfits h.1).of_same hpair.of_source.2
  | sourceUnsized message =>
    exact (unwritten_of_staged hfits h.1).of_same hpair.of_source.2
  | tempSized hlength =>
    refine stands_afterLengths ?_
    rw [hpair.of_target.1.of_status]
    exact h
  | tempOff hlength =>
    exact (unwritten_of_staged hfits h.1).of_same hpair.of_target.1.of_status
  | tempUnsized message =>
    rw [eq_of_error hpair rfl]
    exact unwritten_of_staged hfits h.1
  | sourceSummed sum =>
    show Holds pair'.target _ ∧ _
    rw [hpair.of_source.2]
    exact h
  | sourceUnsummed message =>
    exact (unwritten_of_staged hfits h.1).of_same hpair.of_source.2
  | tempSummed hequal =>
    show Holds pair'.target _ ∧ _
    rw [hpair.of_target.1.of_checksum]
    exact h
  | tempDiffers hdiffers =>
    exact (unwritten_of_staged hfits h.1).of_same hpair.of_target.1.of_checksum
  | tempUnsummed message =>
    rw [eq_of_error hpair rfl]
    exact unwritten_of_staged hfits h.1
  | targetFound =>
    obtain ⟨hsame, -⟩ := hpair.of_target.1.of_pathExists
    show Holds pair'.target _ ∧ _
    rw [hsame]
    exact h
  | targetAbsent =>
    obtain ⟨hsame, habsent⟩ := hpair.of_target.1.of_pathExists
    refine stands_afterClearing hfits ?_
    rw [hsame]
    refine ⟨holds_absent h.1 ?_, h.2⟩
    simpa using habsent.symm
  | targetUnknown message =>
    rw [eq_of_error hpair rfl]
    exact unwritten_of_staged hfits h.1
  | targetCleared =>
    exact stands_afterClearing hfits ⟨holds_removed h.1 hpair.of_target.1, h.2⟩
  | targetKept message =>
    rw [eq_of_error hpair rfl]
    exact unwritten_of_staged hfits h.1
  | parentFound =>
    obtain ⟨hsame, hfound⟩ := hpair.of_target.1.of_pathExists
    show Holds pair'.target _ ∧ _
    rw [hsame]
    exact ⟨holds_found hfits hframe.reachable h.1 hfound.symm, h.2⟩
  | parentAbsent =>
    obtain ⟨hsame, -⟩ := hpair.of_target.1.of_pathExists
    show Holds pair'.target _ ∧ _
    rw [hsame]
    exact h
  | parentUnknown message =>
    rw [eq_of_error hpair rfl]
    exact unwritten_of_cleared h.1
  | parentMade => exact ⟨holds_housed hfits h.1 hpair.of_target.1, h.2⟩
  | parentNotMade message =>
    rw [eq_of_error hpair rfl]
    exact unwritten_of_cleared h.1
  | renamed =>
    exact ⟨holds_published hfits h.1 hpair.of_target.1, tally_eq_of_flatten h.2⟩
  | notRenamed message =>
    rw [eq_of_error hpair rfl]
    exact unwritten_of_housed h.1
  | tempFound =>
    obtain ⟨hsame, -⟩ := hpair.of_target.1.of_pathExists
    exact Settled.of_same h hsame
  | tempAbsent =>
    obtain ⟨hsame, -⟩ := hpair.of_target.1.of_pathExists
    exact Settled.of_same h hsame
  | tempUnknown message =>
    rw [eq_of_error hpair rfl]
    exact h
  | tempCleared answer =>
    cases answer with
    | error message =>
      rw [eq_of_error hpair rfl]
      exact h
    | ok => exact settled_of_discarded hfits h hpair.of_target.1

/-- Along every execution the stores are as the phase says. -/
theorem stands_trail {job : CopyJob} {init pair : StorePair} {file : MemoryFile}
    {phase : CopyPhase} {exchanges : List Exchange} (hfits : job.Fits init file)
    (hphase : Trail (Step job) .creating exchanges phase)
    (hpair : Trail StorePair.Step init exchanges pair) :
    StorePair.Frame init pair ∧ Stands job init file.content pair phase := by
  refine Trail.together (I := fun phase pair =>
    StorePair.Frame init pair ∧ Stands job init file.content pair phase) ?_ hphase hpair ?_
  · rintro phase pair x after pair' ⟨hframe, hstands⟩ hstep hanswer
    have hreads := reads_step hstep
    exact ⟨hframe.step hreads hanswer, stands_step hfits hframe hstands hstep hanswer⟩
  · exact ⟨⟨rfl, rfl, rfl, rfl, hfits.reachable⟩, rfl⟩

end CopyPhase

/-! ## Stores that do not fail -/

namespace StorePair

variable {ε : Type}

/-- Two stores that answer their calls without fail; all else is answered from surroundings. -/
def serving (surroundings : Program.Handler ε) : Program.Handler (StorePair × ε)
  | .storage .source call, (pair, e) =>
    ((pair.source.perform call).1, { pair with source := (pair.source.perform call).2 }, e)
  | .storage .target call, (pair, e) =>
    ((pair.target.perform call).1, { pair with target := (pair.target.perform call).2 }, e)
  | r, (pair, e) => ((surroundings r e).1, pair, (surroundings r e).2)

variable {surroundings : Program.Handler ε}

theorem step_of_serving {state after : StorePair × ε} {x : Exchange}
    (h : (serving surroundings).step state x after) : Step state.1 x after.1 := by
  obtain ⟨r, answer⟩ := x
  obtain ⟨pair, e⟩ := state
  obtain ⟨hanswer, rfl⟩ := Prod.ext_iff.1 h
  cases r with
  | storage side call =>
    cases side with
    | source => exact .source (.served (Prod.ext_iff.2 ⟨hanswer, rfl⟩))
    | target => exact .target (.served (Prod.ext_iff.2 ⟨hanswer, rfl⟩))
  | _ => exact .silent rfl

/-- What the stores do while a program runs is a trail of stores whose calls may fail. -/
theorem trail_serving {α : Type} (surroundings : Program.Handler ε) (p : Program α)
    (pair : StorePair) (e : ε) :
    Trail Step pair (Program.exchanges (serving surroundings) p (pair, e))
      (Program.run (serving surroundings) p (pair, e)).2.1 := by
  have htrail := Program.trail_exchanges (serving surroundings) p (pair, e)
  exact Trail.map (f := Prod.fst) step_of_serving htrail

end StorePair

/-- Two small stores: a source with the file of the small job, and a target without anything. -/
def smallStores : StorePair where
  source := { tree := ⟨[([utf8 "s"], .file ⟨utf8 "abc", ⟨1, 64⟩⟩)]⟩ }
  target := { defaults := ⟨1, 64⟩ }

end StagedCopy
