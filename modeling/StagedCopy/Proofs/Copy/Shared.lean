import StagedCopy.Proofs.Copy.Success

/-!
# One store on both sides

An attempt that reads from the store that it writes to. The place of the temporary file is made
from the target and the attempt id, and nothing keeps it away from the source and from the target:
at the source the temporary file takes the place of what is to be read, and at the target it is
removed as the old target before it can be renamed. When it stands at neither of the two, or at a
target that was not there, no file is lost but, in the end, the one that is replaced, and a failure
leaves the place of the target as it was.

* `SharedStep`, `MemoryStore.sharing` — a store that answers the calls of both sides.
* `CopyPhase.Harmless` — what the phase says about the target and the temporary file;
  `harmless_step`, `keeps_step` — kept by every step, and no other file is touched.
* `shared_copy_harmless` — the theorem.
* `shared_copy_harms` — with the temporary file at the source, or at a target that is there, files
  are lost.
-/

namespace StagedCopy

open Program (Exchange Handler)

/-! ## One store -/

/-- One store answers the calls of both sides, and nothing else touches it. -/
inductive SharedStep : MemoryStore → Exchange → MemoryStore → Prop where
  | silent {store : MemoryStore} {x : Exchange} (h : x.request.isCall = false) :
      SharedStep store x store
  | call {store : MemoryStore} {side : Side} {call : StorageCall} {answer : call.Answer}
      {after : MemoryStore} (h : store.perform call = (answer, after)) :
      SharedStep store ⟨.storage side call, answer⟩ after

namespace SharedStep

variable {store after : MemoryStore} {side : Side} {call : StorageCall} {answer : call.Answer}
  {x : Exchange}

theorem of_silent (h : SharedStep store x after) (hx : x.request.isCall = false) :
    after = store := by
  cases h with
  | silent => rfl
  | call => cases hx

theorem of_call (h : SharedStep store ⟨.storage side call, answer⟩ after) :
    store.perform call = (answer, after) := by
  cases h with
  | silent hx => cases hx
  | call h => exact h

/-- What serves every call may be taken for what may fail. -/
theorem failStop (h : SharedStep store ⟨.storage side call, answer⟩ after) :
    FailStop store call answer after := .served h.of_call

theorem reachable (h : SharedStep store x after) (hstore : store.Reachable) : after.Reachable := by
  cases h with
  | silent => exact hstore
  | @call side call answer after h =>
    obtain ⟨-, rfl⟩ := Prod.ext_iff.1 h
    exact .call call hstore

/-- The store decides the answer. -/
theorem unique {answer' : call.Answer} {other : MemoryStore}
    (h : SharedStep store ⟨.storage side call, answer⟩ after)
    (h' : SharedStep store ⟨.storage side call, answer'⟩ other) :
    answer = answer' ∧ after = other :=
  Prod.ext_iff.1 (h.of_call.symm.trans h'.of_call)

theorem kind (h : SharedStep store x after) : after.checksumKind = store.checksumKind := by
  cases h with
  | silent => rfl
  | call h => exact (FailStop.served h).kind

end SharedStep

namespace MemoryStore

variable {ε : Type}

/-- A store that answers the calls of both sides without fail; all else is answered from
surroundings. -/
def sharing (surroundings : Handler ε) : Handler (MemoryStore × ε)
  | .storage _ call, (store, e) => ((store.perform call).1, (store.perform call).2, e)
  | r, (store, e) => ((surroundings r e).1, store, (surroundings r e).2)

theorem step_of_sharing {surroundings : Handler ε} {state after : MemoryStore × ε} {x : Exchange}
    (h : (sharing surroundings).step state x after) : SharedStep state.1 x after.1 := by
  obtain ⟨r, answer⟩ := x
  obtain ⟨store, e⟩ := state
  obtain ⟨hanswer, rfl⟩ := Prod.ext_iff.1 h
  cases r with
  | storage side call => exact .call (Prod.ext_iff.2 ⟨hanswer, rfl⟩)
  | _ => exact .silent rfl

/-- What the store does while a program runs is a trail of one that answers both sides. -/
theorem trail_sharing {α : Type} (surroundings : Handler ε) (p : Program α) (store : MemoryStore)
    (e : ε) :
    Trail SharedStep store (Program.exchanges (sharing surroundings) p (store, e))
      (Program.run (sharing surroundings) p (store, e)).2.1 :=
  (Program.trail_exchanges (sharing surroundings) p (store, e)).map (f := Prod.fst) step_of_sharing

end MemoryStore

/-! ## What each phase says -/

namespace CopyJob

variable (job : CopyJob) (init store : MemoryStore)

/-- What is asked of the job: the target is spelled in normal form without a separator at the end
and is not above the temporary file, which stands at the target only when nothing did. -/
structure Harmless : Prop where
  normal : job.target.lexicallyNormal = job.target
  unended : job.target.endsInSlash = false
  notAbove : job.target.key.isAbove job.temp.key = false
  unclaimed : job.temp.key = job.target.key → init.get? job.target.key = none

/-- The temporary file is there. -/
def HasTemp : Prop := ∃ f, store.get? job.temp.key = some (.file f)

/-- The place of the target is as it was, unless it is the place of the temporary file. -/
def KeepsTarget : Prop :=
  job.temp.key ≠ job.target.key → store.get? job.target.key = init.get? job.target.key

/-- The place of the target is as it was, and a temporary file at that place is no directory. -/
def Recovers : Prop :=
  job.KeepsTarget init store ∧
    (job.temp.key = job.target.key → store.get? job.temp.key ≠ some .directory)

/-- The place of the target is as it was, and a temporary file at that place can be removed. -/
def RemovesOwn : Prop :=
  job.KeepsTarget init store ∧ (job.temp.key = job.target.key → job.HasTemp store)

/-- Nothing stands at the target, as in the beginning. -/
def StaysFree : Prop := init.get? job.target.key = none ∧ store.get? job.target.key = none

/-- Nothing stands at the target any more, and nothing prevents the rename. -/
def IsReady : Prop :=
  job.HasTemp store ∧ store.get? job.target.key = none ∧
    store.get? job.target.key.parent = some .directory

/-- The stream is open for writing the temporary file. -/
def Writes (output : StreamId) : Prop := ∃ bytes, job.Accepts store output bytes

/-- The source has as many bytes left as the chunks that were moved leave. -/
def Delivers (input : StreamId) (moved : List Bytes) (content : Bytes) : Prop :=
  (∃ rest, Gives store input rest ∧ moved.flatten ++ rest = content) ∧ ∀ c ∈ moved, c ≠ []

end CopyJob

namespace CopyPhase

section harmless

variable (job : CopyJob) (init : MemoryStore) (content : Bytes)

/-- What the phase says about the target, the temporary file and the streams. -/
def Harmless (store : MemoryStore) : CopyPhase → Prop
  | creating => store = init
  | opening output => job.Writes store output ∧ job.HasTemp store ∧ job.KeepsTarget init store
  | reading output input moved =>
    (job.Writes store output ∧ CopyJob.Delivers store input moved content) ∧
      job.HasTemp store ∧ job.KeepsTarget init store
  | writing output input moved chunk =>
    (job.Writes store output ∧ CopyJob.Delivers store input (moved ++ [chunk]) content) ∧
      job.HasTemp store ∧ job.KeepsTarget init store
  | closing output _ _ => job.Writes store output ∧ job.HasTemp store ∧ job.KeepsTarget init store
  | sizingSource _ | sizingTemp _ | summingSource _ | summingTemp .. | findingTarget _
  | clearingTarget _ => job.HasTemp store ∧ job.KeepsTarget init store
  | findingParent _ | publishing _ => job.StaysFree init store ∨ job.IsReady store
  | makingParent _ => job.StaysFree init store
  | findingTemp (.error _) => job.Recovers init store
  | clearingTemp (.error _) => job.RemovesOwn init store
  | finished (.error _) => store.get? job.target.key = init.get? job.target.key
  | findingTemp (.broken trouble _) =>
    job.plan.bufferTrouble? = some trouble ∧ job.Recovers init store
  | clearingTemp (.broken trouble _) =>
    job.plan.bufferTrouble? = some trouble ∧ job.RemovesOwn init store
  | finished (.broken trouble _) =>
    job.plan.bufferTrouble? = some trouble ∧
      store.get? job.target.key = init.get? job.target.key
  | findingTemp (.ok _) | clearingTemp (.ok _) | finished (.ok _) => True

end harmless

section effects

variable {job : CopyJob} {init store after : MemoryStore} {content : Bytes} {k : Key}

/-- A file that is opened is delivered as a whole. -/
theorem delivers_opened {path : Path} {input : StreamId} {file : MemoryFile}
    (hfile : store.get? path.key = some (.file file))
    (h : FailStop store (.openFile path) (.ok input) after) :
    CopyJob.Delivers after input [] file.content :=
  ⟨⟨file.content, gives_opened hfile h, rfl⟩, fun _ hc => absurd hc List.not_mem_nil⟩

/-- A chunk that is read is one that is delivered. -/
theorem delivers_read {input : StreamId} {moved : List Bytes} {chunk : Bytes} {size : Nat}
    (hdelivers : CopyJob.Delivers store input moved content) (hsize : 0 < size)
    (hchunk : chunk ≠ []) (h : FailStop store (.read input size) (.ok chunk) after) :
    CopyJob.Delivers after input (moved ++ [chunk]) content := by
  obtain ⟨⟨rest, hgives, hcontent⟩, hchunks⟩ := hdelivers
  obtain ⟨left, rfl, -, hleft⟩ := gives_read hsize hgives h
  refine ⟨⟨left, hleft, ?_⟩, fun c hc => ?_⟩
  · rw [List.flatten_append, List.flatten_singleton, List.append_assoc]
    exact hcontent
  · rcases List.mem_append.1 hc with hc | hc
    · exact hchunks c hc
    · rw [List.mem_singleton.1 hc]
      exact hchunk

/-- What only concerns streams for writing leaves what is delivered alone. -/
theorem delivers_of_readers {input : StreamId} {moved : List Bytes}
    (h : CopyJob.Delivers store input moved content) (hreaders : after.readers = store.readers) :
    CopyJob.Delivers after input moved content := by
  unfold CopyJob.Delivers Gives
  rw [hreaders]
  exact h

theorem get?_of_tree (htree : after.tree = store.tree) (k : Key) : after.get? k = store.get? k := by
  rw [MemoryStore.get?, htree]
  rfl

/-- What only looks leaves the temporary file and the target alone. -/
theorem kept_of_tree (h : job.HasTemp store ∧ job.KeepsTarget init store)
    (htree : after.tree = store.tree) : job.HasTemp after ∧ job.KeepsTarget init after := by
  obtain ⟨⟨f, hfile⟩, hkeeps⟩ := h
  refine ⟨⟨f, (get?_of_tree htree _).trans hfile⟩, fun hne => ?_⟩
  rw [get?_of_tree htree]
  exact hkeeps hne

theorem writes_of_writers {output : StreamId} (h : job.Writes store output)
    (hwriters : after.writers = store.writers) : job.Writes after output := by
  unfold CopyJob.Writes CopyJob.Accepts
  rw [hwriters]
  exact h

/-- To close the temporary file changes nothing else. -/
theorem get?_of_close {output : StreamId} {answer : (StorageCall.close output).Answer}
    (hwrites : job.Writes store output) (htemp : job.HasTemp store)
    (h : store.perform (.close output) = (answer, after)) :
    job.HasTemp after ∧ ∀ k, k ≠ job.temp.key → after.get? k = store.get? k := by
  obtain ⟨bytes, writer, hwriter, hkey, hopen, -⟩ := hwrites
  obtain ⟨f, hfile⟩ := htemp
  have hafter : after = (store.close output).2 := (Prod.ext_iff.1 h).2.symm
  have hget : ∀ k, (store.close output).2.get? k = if k = writer.key then
      some (.file { f with content := writer.content }) else store.get? k :=
    fun _ => MemoryStore.get?_close hwriter hopen (hkey ▸ hfile)
  rw [← hafter, hkey] at hget
  exact ⟨⟨_, (hget _).trans (if_pos rfl)⟩, fun k hk => (hget k).trans (if_neg hk)⟩

theorem target_of_staged (hjob : job.Harmless init)
    (hholds : Holds after (job.staged store content)) (hne : job.temp.key ≠ job.target.key) :
    after.get? job.target.key = store.get? job.target.key := by
  have hmem : job.target.key ∉ job.temp.key.properAncestors := by
    intro hmem
    have habove := (Key.mem_properAncestors.1 hmem).2
    rw [hjob.notAbove] at habove
    cases habove
  rw [hholds, CopyJob.staged, if_neg hne.symm, if_neg fun hboth => hmem hboth.1]

/-- Where the temporary file is, the target is not the root. -/
theorem target_ne_root (hjob : job.Harmless init) (htemp : job.HasTemp store) :
    job.target.key ≠ [] := by
  obtain ⟨f, hfile⟩ := htemp
  intro hroot
  have habove := hjob.notAbove
  rw [hroot, Bool.eq_false_iff] at habove
  exact habove (Key.isAbove_iff.2 ⟨List.nil_prefix, (MemoryStore.ne_root_of_file hfile).symm⟩)

theorem harmless_afterLengths {moved : List Bytes}
    (h : job.HasTemp store ∧ job.KeepsTarget init store) :
    Harmless job init content store (afterLengths job moved) :=
  afterLengths_cases (fun _ => h) fun _ => h

theorem harmless_afterClearing {moved : List Bytes}
    (h : job.StaysFree init store ∨ job.IsReady store) :
    Harmless job init content store (afterClearing job moved) :=
  afterClearing_cases (fun _ => h) fun _ => h

/-- What stands at the target is removed: either the temporary file is gone, at a place where
nothing stood, or it can be renamed. -/
theorem ready_of_removed (hjob : job.Harmless init) (hreachable : store.Reachable)
    (htemp : job.HasTemp store)
    (h : store.perform (.remove job.target false) = (.ok (), after)) :
    job.StaysFree init after ∨ job.IsReady after := by
  have hget := (FailStop.served h).of_remove
  have hgone : after.get? job.target.key = none := (hget _).trans (if_pos rfl)
  by_cases hsame : job.temp.key = job.target.key
  · exact .inl ⟨hjob.unclaimed hsame, hgone⟩
  · obtain ⟨hroot, ⟨node, hnode, -⟩, -⟩ :=
      MemoryStore.remove_eq_ok.1 (MemoryStore.conclude_eq_ok.1 h)
    have hthere : store.tree.get? job.target.key ≠ none := by
      rw [MemoryStore.get?] at hnode
      rw [hnode]
      exact Option.some_ne_none _
    have hparent : store.get? job.target.key.parent = some .directory :=
      hreachable.wellFormed _ hroot hthere
    have hne : job.target.key.parent ≠ job.target.key :=
      (Key.isAbove_iff.1 (Key.isAbove_parent hroot)).2
    obtain ⟨f, hfile⟩ := htemp
    refine .inr ⟨⟨f, ?_⟩, hgone, ?_⟩
    · rw [hget, if_neg hsame]
      exact hfile
    · rw [hget, if_neg hne]
      exact hparent

/-- The directories above the target are made, and nothing at the target. -/
theorem staysFree_of_made (hjob : job.Harmless init) (hfree : job.StaysFree init store)
    (h : store.perform (.makeDirs job.target.parent) = (.ok (), after)) :
    job.StaysFree init after := by
  have hroot : job.target.key ≠ [] := MemoryStore.ne_root_of_none hfree.1
  refine ⟨hfree.1, ?_⟩
  rw [(FailStop.served h).of_makeDirs, Path.key_parent hjob.normal hjob.unended hroot, if_neg]
  · exact hfree.2
  · rintro ⟨heq | hmem, -⟩
    · exact (Key.isAbove_iff.1 (Key.isAbove_parent hroot)).2 heq.symm
    · have habove := (Key.mem_properAncestors.1 hmem).2
      exact (Key.isAbove_iff.1 (Key.isAbove_of_parent habove)).2 rfl

theorem recovers_of_free (hfree : job.StaysFree init store) : job.Recovers init store := by
  refine ⟨fun _ => hfree.2.trans hfree.1.symm, fun hsame hdirectory => ?_⟩
  rw [hsame, hfree.2] at hdirectory
  cases hdirectory

theorem recovers_of_temp (htemp : job.HasTemp store) (hkeeps : job.KeepsTarget init store) :
    job.Recovers init store := by
  obtain ⟨f, hfile⟩ := htemp
  refine ⟨hkeeps, fun _ hdirectory => ?_⟩
  cases hfile.symm.trans hdirectory

/-- The temporary file is gone, so the target is as it was. -/
theorem target_of_gone (hjob : job.Harmless init) (hkeeps : job.KeepsTarget init store)
    (hgone : store.get? job.temp.key = none) :
    store.get? job.target.key = init.get? job.target.key := by
  by_cases hsame : job.temp.key = job.target.key
  · rw [← hsame, hgone, hsame, hjob.unclaimed hsame]
  · exact hkeeps hsame

/-- What is found at the place of the temporary file can be removed, if the target is there too. -/
theorem discards_of_found (h : job.Recovers init store)
    (hfound : (store.get? job.temp.key).isSome = true) : job.RemovesOwn init store := by
  refine ⟨h.1, fun hsame => ?_⟩
  obtain ⟨node, hnode⟩ := Option.isSome_iff_exists.1 hfound
  cases node with
  | file f => exact ⟨f, hnode⟩
  | directory => exact absurd hnode (h.2 hsame)

/-- However the removal of the temporary file is answered, the target is as it was. -/
theorem target_of_answered {answer : (StorageCall.remove job.temp false).Answer}
    (hjob : job.Harmless init) (h : job.RemovesOwn init store)
    (hserved : store.perform (.remove job.temp false) = (answer, after)) :
    after.get? job.target.key = init.get? job.target.key := by
  cases answer with
  | ok =>
    have hget := (FailStop.served hserved).of_remove
    refine target_of_gone hjob (fun hne => ?_) ((hget _).trans (if_pos rfl))
    rw [hget, if_neg hne.symm]
    exact h.1 hne
  | error message =>
    obtain rfl := (FailStop.served hserved).of_error rfl
    refine h.1 fun hsame => ?_
    -- a temporary file is never kept
    obtain ⟨f, hfile⟩ := h.2 hsame
    have hremove := MemoryStore.remove_eq_ok.2 ⟨MemoryStore.ne_root_of_file hfile,
      ⟨.file f, hfile, fun hdirectory => nomatch hdirectory⟩, rfl⟩
    cases (Prod.ext_iff.1 hserved).1.symm.trans (MemoryStore.conclude_fst hremove)

end effects

/-- Every exchange keeps what the phase says. -/
theorem harmless_step {job : CopyJob} {init store after : MemoryStore} {file : MemoryFile}
    {phase next : CopyPhase} {x : Exchange} (hjob : job.Harmless init)
    (hreachable : store.Reachable)
    (hsource : store.get? job.source.path.key = some (.file file))
    (h : Harmless job init file.content store phase) (hstep : Step job phase x next)
    (hserved : SharedStep store x after) : Harmless job init file.content after next := by
  cases hstep with
  | silent hx =>
    rw [hserved.of_silent hx]
    exact h
  | created output =>
    obtain rfl : store = init := h
    obtain ⟨hholds, haccepts⟩ := holds_created hserved.failStop
    exact ⟨⟨_, haccepts⟩, ⟨_, (hholds _).trans (if_pos rfl)⟩, target_of_staged hjob hholds⟩
  | createdUnbuffered trouble => exact hserved.failStop.not_unbuffered.elim
  | notCreated message =>
    obtain rfl : store = init := h
    rw [hserved.failStop.of_error rfl]
    refine ⟨fun _ => rfl, fun hsame hdirectory => ?_⟩
    rw [hsame, hjob.unclaimed hsame] at hdirectory
    cases hdirectory
  | openedUnbuffered input hbuffer =>
    have hkept := kept_of_tree h.2 (hserved.failStop.tree_of_looks rfl)
    exact ⟨hbuffer, recovers_of_temp hkept.1 hkept.2⟩
  | opened input =>
    obtain ⟨hwrites, htemp, hkeeps⟩ := h
    have hwriters := MemoryStore.writers_of_perform hserved.of_call rfl
    exact ⟨⟨writes_of_writers hwrites hwriters, delivers_opened hsource hserved.failStop⟩,
      kept_of_tree ⟨htemp, hkeeps⟩ (hserved.failStop.tree_of_looks rfl)⟩
  | notOpened message =>
    rw [hserved.failStop.of_error rfl]
    exact h
  | delivered hchunk =>
    obtain ⟨⟨hwrites, hdelivers⟩, hkept⟩ := h
    have hwriters := MemoryStore.writers_of_perform hserved.of_call rfl
    exact ⟨⟨writes_of_writers hwrites hwriters,
      delivers_read hdelivers (chunkSize_pos job) hchunk hserved.failStop⟩,
      kept_of_tree hkept (hserved.failStop.tree_of_looks rfl)⟩
  | ended =>
    obtain ⟨⟨hwrites, -⟩, hkept⟩ := h
    have hwriters := MemoryStore.writers_of_perform hserved.of_call rfl
    exact ⟨writes_of_writers hwrites hwriters,
      kept_of_tree hkept (hserved.failStop.tree_of_looks rfl)⟩
  | notRead message =>
    rw [hserved.failStop.of_error rfl]
    exact ⟨h.1.1, h.2⟩
  | @written output input moved chunk =>
    obtain ⟨⟨⟨bytes, haccepts⟩, hdelivers⟩, hkept⟩ := h
    have hreaders := MemoryStore.readers_of_perform hserved.of_call rfl
    exact ⟨⟨⟨_, accepts_written haccepts hserved.failStop⟩,
      delivers_of_readers hdelivers hreaders⟩,
      kept_of_tree hkept (hserved.failStop.tree_of_looks rfl)⟩
  | notWritten message =>
    rw [hserved.failStop.of_error rfl]
    exact ⟨h.1.1, h.2⟩
  | closed =>
    obtain ⟨hwrites, htemp, hkeeps⟩ := h
    obtain ⟨htemp', hget⟩ := get?_of_close hwrites htemp hserved.of_call
    exact ⟨htemp', fun hne => (hget _ hne.symm).trans (hkeeps hne)⟩
  | notClosed | closedAfter =>
    obtain ⟨hwrites, htemp, hkeeps⟩ := h
    obtain ⟨htemp', hget⟩ := get?_of_close hwrites htemp hserved.of_call
    exact recovers_of_temp htemp' fun hne => (hget _ hne.symm).trans (hkeeps hne)
  | sourceSized | sourceSummed =>
    exact kept_of_tree h (hserved.failStop.tree_of_looks rfl)
  | tempSized =>
    exact harmless_afterLengths (kept_of_tree h (hserved.failStop.tree_of_looks rfl))
  | tempSummed => exact kept_of_tree h (hserved.failStop.tree_of_looks rfl)
  | sourceOff | sourceUnsized | tempOff | tempUnsized | sourceUnsummed | tempDiffers
  | tempUnsummed =>
    have hkept := kept_of_tree h (hserved.failStop.tree_of_looks rfl)
    exact recovers_of_temp hkept.1 hkept.2
  | targetFound => exact kept_of_tree h (hserved.failStop.tree_of_looks rfl)
  | targetAbsent =>
    obtain ⟨rfl, habsent⟩ := hserved.failStop.of_pathExists
    have hnone : after.get? job.target.key = none := by simpa using habsent.symm
    have hne : job.temp.key ≠ job.target.key := by
      intro hsame
      obtain ⟨f, hfile⟩ := h.1
      rw [hsame, hnone] at hfile
      cases hfile
    exact harmless_afterClearing (.inl ⟨(h.2 hne).symm.trans hnone, hnone⟩)
  | targetUnknown message => cases (Prod.ext_iff.1 hserved.of_call).1
  | targetCleared =>
    exact harmless_afterClearing (ready_of_removed hjob hreachable h.1 hserved.of_call)
  | targetKept message =>
    rw [hserved.failStop.of_error rfl]
    exact recovers_of_temp h.1 h.2
  | parentFound =>
    obtain ⟨rfl, -⟩ := hserved.failStop.of_pathExists
    exact h
  | parentAbsent =>
    obtain ⟨rfl, habsent⟩ := hserved.failStop.of_pathExists
    rcases h with hfree | ⟨htemp, -, hparent⟩
    · exact hfree
    · -- the parent of a target that was removed is there
      rw [Path.key_parent hjob.normal hjob.unended (target_ne_root hjob htemp), hparent] at habsent
      cases habsent
  | parentUnknown message => cases (Prod.ext_iff.1 hserved.of_call).1
  | parentMade => exact .inl (staysFree_of_made hjob h hserved.of_call)
  | parentNotMade message =>
    rw [hserved.failStop.of_error rfl]
    exact recovers_of_free h
  | renamed => trivial
  | notRenamed message =>
    rcases h with hfree | ⟨⟨f, hfile⟩, hgone, hparent⟩
    · rw [hserved.failStop.of_error rfl]
      exact recovers_of_free hfree
    · have hrename := MemoryStore.rename_eq_ok.2 ⟨f, hfile, hgone, hparent, rfl⟩
      cases (Prod.ext_iff.1 hserved.of_call).1.symm.trans (MemoryStore.conclude_fst hrename)
  | @tempFound result =>
    obtain ⟨rfl, hfound⟩ := hserved.failStop.of_pathExists
    cases result with
    | ok => trivial
    | error => exact discards_of_found h hfound.symm
    | broken => exact ⟨h.1, discards_of_found h.2 hfound.symm⟩
  | @tempAbsent result =>
    obtain ⟨rfl, habsent⟩ := hserved.failStop.of_pathExists
    have hgone : after.get? job.temp.key = none := by simpa using habsent.symm
    cases result with
    | ok => trivial
    | error => exact target_of_gone hjob h.1 hgone
    | broken => exact ⟨h.1, target_of_gone hjob h.2.1 hgone⟩
  | tempUnknown message => cases (Prod.ext_iff.1 hserved.of_call).1
  | @tempCleared result answer =>
    cases result with
    | ok => trivial
    | error => exact target_of_answered hjob h hserved.of_call
    | broken => exact ⟨h.1, target_of_answered hjob h.2 hserved.of_call⟩

/-- No exchange touches a file that stands neither at the target nor at the place of the temporary
file. -/
theorem keeps_step {job : CopyJob} {init store after : MemoryStore} {content : Bytes}
    {phase next : CopyPhase} {x : Exchange} {k : Key} {f : MemoryFile}
    (htarget : k ≠ job.target.key) (htemp : k ≠ job.temp.key)
    (h : Harmless job init content store phase) (hstep : Step job phase x next)
    (hserved : SharedStep store x after) (hfile : store.get? k = some (.file f)) :
    after.get? k = some (.file f) := by
  cases hstep with
  | silent hx =>
    rw [hserved.of_silent hx]
    exact hfile
  | created output =>
    have hholds := (holds_created hserved.failStop).1
    rw [hholds, CopyJob.staged, if_neg htemp, hfile, if_neg (by simp)]
  | createdUnbuffered => exact hserved.failStop.not_unbuffered.elim
  | closed | notClosed | closedAfter =>
    rw [(get?_of_close h.1 h.2.1 hserved.of_call).2 k htemp]
    exact hfile
  | targetCleared =>
    rw [hserved.failStop.of_remove, if_neg htarget]
    exact hfile
  | parentMade =>
    rw [hserved.failStop.of_makeDirs, hfile, if_neg (by simp)]
  | renamed =>
    obtain ⟨g, -, hget⟩ := hserved.failStop.of_rename
    rw [hget, if_neg htarget, if_neg htemp]
    exact hfile
  | @tempCleared result answer =>
    cases answer with
    | ok =>
      rw [hserved.failStop.of_remove, if_neg htemp]
      exact hfile
    | error message =>
      rw [hserved.failStop.of_error rfl]
      exact hfile
  | notCreated | targetKept | parentNotMade | notRenamed =>
    rw [hserved.failStop.of_error rfl]
    exact hfile
  | _ => exact (get?_of_tree (hserved.failStop.tree_of_looks rfl) k).trans hfile

end CopyPhase

/-! ## The theorem -/

open CopyPhase in
/-- Along an execution with one store on both sides, what the phase says holds and no file is lost
but, at most, at the target and at the place of the temporary file. -/
theorem harmless_trail {job : CopyJob} {init store : MemoryStore} {file : MemoryFile}
    {phase : CopyPhase} {exchanges : List Exchange} (hjob : job.Harmless init)
    (hreachable : init.Reachable)
    (hsource : init.get? job.source.path.key = some (.file file))
    (htarget : job.source.path.key ≠ job.target.key)
    (htemp : job.source.path.key ≠ job.temp.key)
    (hphase : Trail (Step job) .creating exchanges phase)
    (hstore : Trail SharedStep init exchanges store) :
    Harmless job init file.content store phase ∧
      ∀ k f, k ≠ job.target.key → k ≠ job.temp.key → init.get? k = some (.file f) →
        store.get? k = some (.file f) := by
  have htogether := Trail.together (I := fun phase store => store.Reachable ∧
      Harmless job init file.content store phase ∧
      ∀ k f, k ≠ job.target.key → k ≠ job.temp.key → init.get? k = some (.file f) →
        store.get? k = some (.file f)) ?_ hphase hstore
    ⟨hreachable, rfl, fun _ _ _ _ hfile => hfile⟩
  · exact htogether.2
  · rintro phase store x next after ⟨hreachable, hharmless, hfiles⟩ hstep hserved
    have hthere := hfiles _ _ htarget htemp hsource
    refine ⟨hserved.reachable hreachable, ?_, fun k f hk hk' hfile => ?_⟩
    · exact harmless_step hjob hreachable hthere hharmless hstep hserved
    · exact keeps_step hk hk' hharmless hstep hserved (hfiles k f hk hk' hfile)

/-- An attempt that reads a file of the store that it writes to comes to an end, and to a result
when it gets its buffer, if its temporary file stands neither at the source nor at a target that is
there. However it ends, every file is kept but, at most, what stands at the target and at the place
of the temporary file, so the source is; and when it does not succeed, the place of the target is
as it was. -/
theorem shared_copy_harmless {ε : Type} (surroundings : Handler ε) (e : ε) {bound : Nat}
    {job : CopyJob} {init : MemoryStore} {file : MemoryFile} (hreachable : init.Reachable)
    (hsource : init.get? job.source.path.key = some (.file file))
    (hjob : job.Harmless init) (hid : isAttemptId job.attemptId = true)
    (htarget : job.target.key ≠ job.source.path.key)
    (htemp : job.temp.key ≠ job.source.path.key) (hbound : file.content.length < bound) :
    ∃ (outcome : Program.Outcome (Except CopyError Nat)) (final : MemoryStore × ε),
      Program.run (MemoryStore.sharing surroundings) (copyOnce bound job) (init, e)
        = (outcome, final) ∧
      outcome ≠ .unfinished ∧
      (∀ trouble, outcome = .broken trouble → job.plan.bufferTrouble? = some trouble) ∧
      final.1.get? job.source.path.key = some (.file file) ∧
      (∀ k f, k ≠ job.target.key → k ≠ job.temp.key → init.get? k = some (.file f) →
        final.1.get? k = some (.file f)) ∧
      ((∀ copied, outcome ≠ .done (.ok copied)) →
        final.1.get? job.target.key = init.get? job.target.key) := by
  have hstore := MemoryStore.trail_sharing surroundings (copyOnce bound job) init e
  obtain ⟨phase, hphase, hend⟩ :=
    (copyOnce_follows hid).of_handler (MemoryStore.sharing surroundings) (init, e)
  obtain ⟨hharmless, hfiles⟩ :=
    harmless_trail hjob hreachable hsource htarget.symm htemp.symm hphase hstore
  rcases hrun : Program.run (MemoryStore.sharing surroundings) (copyOnce bound job) (init, e) with
    ⟨outcome, final⟩
  rw [hrun] at hend hharmless hfiles
  have hkept := hfiles _ _ htarget.symm htemp.symm hsource
  cases outcome with
  | unfinished =>
    obtain ⟨output, input, moved, rfl, hlength⟩ := hend
    obtain ⟨⟨-, ⟨rest, -, hcontent⟩, hchunks⟩, -⟩ := hharmless
    have hmoved := CopyPhase.length_le_of_moved hchunks hcontent
    omega
  | done result =>
    obtain ⟨decided, rfl, hdecided⟩ := hend
    refine ⟨_, final, rfl, nofun, nofun, hkept, hfiles, fun hfailed => ?_⟩
    cases decided with
    | ok copied => exact absurd hdecided (hfailed copied)
    | error failure => exact hharmless
    | broken => cases hdecided
  | broken trouble =>
    obtain ⟨decided, rfl, hdecided⟩ := hend
    cases decided with
    | ok | error => cases hdecided
    | broken other left =>
      cases hdecided
      refine ⟨_, final, rfl, nofun, ?_, hkept, hfiles, fun _ => hharmless.2⟩
      rintro _ ⟨⟩
      exact hharmless.1

/-! ## A small store -/

/-- The calls that make a file and one that is named like the temporary file of the small job. -/
def crowdingCalls : List StorageCall :=
  [.createFile (utf8 "s") true 0 ⟨0, 0⟩, .write 0 (utf8 "abc"), .close 0,
    .createFile (utf8 ".dcp.tmp.7") true 0 ⟨0, 0⟩, .write 1 (utf8 "old"), .close 1]

/-- A store with these two files. -/
def crowdedStore : MemoryStore :=
  crowdingCalls.foldl (fun store call => (store.perform call).2) { defaults := ⟨1, 64⟩ }

theorem crowdedStore_reachable : crowdedStore.Reachable := .calls (.new _ _) crowdingCalls

theorem shared_copy_harmless_small :
    smallJob.Harmless crowdedStore ∧
    (Program.run (MemoryStore.sharing (obliging 0)) (copyOnce 4 smallJob)
      (crowdedStore, [])).2.1.get? [utf8 "s"] = some (.file ⟨utf8 "abc", ⟨1, 64⟩⟩) ∧
    (Program.run (MemoryStore.sharing (obliging 0)) (copyOnce 4 smallJob)
      (crowdedStore, [])).2.1.get? [utf8 ".dcp.tmp.7"]
        = some (.file ⟨utf8 "old", ⟨1, 64⟩⟩) := by
  have hjob : smallJob.Harmless crowdedStore := by
    refine ⟨?_, ?_, ?_, ?_⟩ <;> decide +kernel
  have hsource : crowdedStore.get? smallJob.source.path.key
      = some (.file ⟨utf8 "abc", ⟨1, 64⟩⟩) := by decide +kernel
  have hbound : (utf8 "abc").length < 4 := by decide +kernel
  obtain ⟨outcome, final, hrun, -, -, hkept, hfiles, -⟩ :=
    shared_copy_harmless (obliging 0) [] crowdedStore_reachable hsource hjob
      (by decide +kernel) (by decide +kernel) (by decide +kernel) hbound
  rw [hrun]
  exact ⟨hjob, hkept, hfiles _ _ (by decide +kernel) (by decide +kernel) (by decide +kernel)⟩

/-- A copy of the file that is named like a temporary file. -/
def selfishJob : CopyJob :=
  { smallJob with source := { path := utf8 ".dcp.tmp.7", length := 3 }, target := utf8 "t" }

/-- A copy to the file that is named like a temporary file. -/
def narrowJob : CopyJob := { smallJob with target := utf8 ".dcp.tmp.7" }

/-- A copy whose temporary file stands at the source succeeds without a byte, and the source is
gone; one whose temporary file stands at a target that is there fails, and the target is gone. -/
theorem shared_copy_harms :
    (crowdedStore.Reachable ∧
      crowdedStore.get? [utf8 ".dcp.tmp.7"] = some (.file ⟨utf8 "old", ⟨1, 64⟩⟩)) ∧
    (isAttemptId selfishJob.attemptId = true ∧
      selfishJob.target.lexicallyNormal = selfishJob.target ∧
      selfishJob.target.endsInSlash = false ∧
      selfishJob.target.key ≠ selfishJob.source.path.key ∧
      selfishJob.target.key.isAbove selfishJob.temp.key = false ∧
      selfishJob.source.path.key = [utf8 ".dcp.tmp.7"] ∧
      (Program.run (MemoryStore.sharing (obliging 0)) (copyOnce 4 selfishJob)
        (crowdedStore, [])).1 = .done (.ok 0) ∧
      (Program.run (MemoryStore.sharing (obliging 0)) (copyOnce 4 selfishJob)
        (crowdedStore, [])).2.1.get? [utf8 ".dcp.tmp.7"] = none) ∧
    (isAttemptId narrowJob.attemptId = true ∧
      narrowJob.target.lexicallyNormal = narrowJob.target ∧
      narrowJob.target.endsInSlash = false ∧
      narrowJob.target.key ≠ narrowJob.source.path.key ∧
      narrowJob.target.key.isAbove narrowJob.temp.key = false ∧
      narrowJob.target.key = [utf8 ".dcp.tmp.7"] ∧
      (Program.run (MemoryStore.sharing (obliging 0)) (copyOnce 4 narrowJob)
        (crowdedStore, [])).1.map Except.isOk = .done false ∧
      (Program.run (MemoryStore.sharing (obliging 0)) (copyOnce 4 narrowJob)
        (crowdedStore, [])).2.1.get? [utf8 ".dcp.tmp.7"] = none) := by
  refine ⟨⟨crowdedStore_reachable, ?_⟩, ?_, ?_⟩ <;> decide +kernel

end StagedCopy
