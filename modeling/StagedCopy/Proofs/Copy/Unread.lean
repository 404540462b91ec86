import StagedCopy.Proofs.Copy.Rounds
import StagedCopy.Proofs.Copy.Target

/-!
# An attempt that could not read the source

When the target store serves every call, an attempt that could not open or read the source, or that
broke down, leaves almost nothing behind. Its temporary file was created, so no file stood above
that place and no directory at it; the file is gone at the end, whatever stood there before, and
only the directories above it stay. A second such attempt then changes nothing more.

* `CopyJob.discarded_of_discarded` — what stands where after such an attempt stays after another.
* `CopyPhase.Leaves` — what the phase says about the target store, kept by every step.
* `Residual` — the target store after one or more such attempts; `residual_of_unread`.
-/

namespace StagedCopy

open Program (Exchange Run)

/-! ## Before and after -/

namespace CopyJob

variable {job : CopyJob}

theorem layoutFor_eq {store other : MemoryStore} (h : store.defaults = other.defaults)
    (wanted : Layout) : store.layoutFor wanted = other.layoutFor wanted := by
  rw [MemoryStore.layoutFor, MemoryStore.layoutFor, h]

/-- A file that is staged again, after one was removed, stands among the same as the first. -/
theorem staged_of_discarded {store init : MemoryStore} (h : Holds store (job.discarded init))
    (hdefaults : store.defaults = init.defaults) (content : Bytes) :
    job.staged store content = job.staged init content := by
  funext k
  unfold staged
  rw [h k, discarded, layoutFor_eq hdefaults]
  by_cases hk : k = job.temp.key
  · rw [if_pos hk, if_pos hk]
  · rw [if_neg hk, if_neg hk, if_neg hk]
    by_cases hnew : k ∈ job.temp.key.properAncestors ∧ init.get? k = none
    · simp [hnew]
    · rw [if_neg hnew, if_neg hnew]

/-- To remove a staged file a second time changes nothing. -/
theorem discarded_of_discarded {store init : MemoryStore}
    (h : Holds store (job.discarded init)) : job.discarded store = job.discarded init := by
  funext k
  rw [discarded, h k]
  by_cases hk : k = job.temp.key
  · rw [if_pos hk, discarded, if_pos hk]
  · rw [if_neg hk]
    split
    · next hboth =>
      rw [discarded, if_neg hk] at hboth ⊢
      split at hboth
      · cases hboth.2
      · next hnew => exact absurd hboth hnew
    · rfl

/-- What was not in the way of the first temporary file is not in the way of the next. -/
theorem CanStage.of_discarded {store init : MemoryStore} (hinit : job.CanStage init)
    (h : Holds store (job.discarded init)) : job.CanStage store := by
  refine ⟨?_, fun a ha f => ?_⟩
  · rw [h, discarded, if_pos rfl]
    exact fun hdirectory => by cases hdirectory
  · rw [h, discarded]
    split
    · exact fun hfile => by cases hfile
    · split
      · exact fun hfile => by cases hfile
      · exact hinit.2 a ha f

end CopyJob

/-! ## The phases of such an attempt -/

namespace CopyPhase

/-- A staged file is open. -/
def Staging (job : CopyJob) (init store : MemoryStore) (output : StreamId) : Prop :=
  job.CanStage init ∧ Holds store (job.staged init []) ∧ ∃ bytes, job.Accepts store output bytes

/-- What the phase says about the target store, as long as nothing but reading has failed, also when
the attempt has broken down. -/
def Leaves (job : CopyJob) (init store : MemoryStore) : CopyPhase → Prop
  | creating => store = init
  | opening output | reading output _ _ | writing output _ _ _ | closing output _ _ =>
    Staging job init store output
  | findingTemp (.error failure) | clearingTemp (.error failure) =>
    failure.kind = .readFailure →
      job.CanStage init ∧ ∃ bytes, Holds store (job.staged init bytes)
  | finished (.error failure) =>
    failure.kind = .readFailure → job.CanStage init ∧ Holds store (job.discarded init)
  | findingTemp (.broken ..) | clearingTemp (.broken ..) =>
    job.CanStage init ∧ ∃ bytes, Holds store (job.staged init bytes)
  | finished (.broken ..) => job.CanStage init ∧ Holds store (job.discarded init)
  | _ => True

variable {job : CopyJob} {init store store' : MemoryStore} {phase after : CopyPhase}
  {x : Exchange} {output : StreamId} {content : Bytes}

/-- The staged file is closed: it has some content now. -/
theorem Staging.closed {answer : Except Bytes Unit} (h : Staging job init store output)
    (hserved : MemoryStore.Serves store (.close output) answer store') :
    job.CanStage init ∧ ∃ bytes, Holds store' (job.staged init bytes) := by
  obtain ⟨hcan, hholds, bytes, haccepts⟩ := h
  obtain ⟨-, rfl⟩ := Prod.ext_iff.1 hserved
  exact ⟨hcan, bytes, holds_committed hholds haccepts⟩

/-- The staged file is there to be removed, and then it is gone. -/
theorem holds_discarded {answer : Except Bytes Unit}
    (hholds : Holds store (job.staged init content))
    (hserved : MemoryStore.Serves store (.remove job.temp false) answer store') :
    Holds store' (job.discarded init) := by
  have hfile : store.get? job.temp.key = some (.file ⟨content, init.layoutFor job.layout⟩) := by
    rw [hholds, CopyJob.staged, if_pos rfl]
  have hroot := MemoryStore.ne_root_of_file hfile
  have hremove := MemoryStore.remove_eq_ok.2
    ⟨hroot, ⟨_, hfile, fun hdirectory => by cases hdirectory⟩, rfl⟩
  obtain ⟨-, rfl⟩ := Prod.ext_iff.1 ((MemoryStore.conclude_eq_ok.2 hremove).symm.trans hserved)
  intro k
  show MemoryStore.get? { store with tree := store.tree.erase job.temp.key } k = _
  rw [MemoryStore.get?_erase hroot, hholds, CopyJob.staged, CopyJob.discarded]
  by_cases hk : k = job.temp.key
  · rw [if_pos hk, if_pos hk]
  · rw [if_neg hk, if_neg hk, if_neg hk]

/-- A question about the staged file is answered with yes. -/
theorem found_of_holds {answer : Except Bytes Bool}
    (hholds : Holds store (job.staged init content))
    (hserved : MemoryStore.Serves store (.pathExists job.temp) answer store') :
    answer = .ok true ∧ store' = store := by
  obtain ⟨hanswer, rfl⟩ := Prod.ext_iff.1 hserved
  refine ⟨hanswer.symm.trans ?_, rfl⟩
  rw [MemoryStore.perform, MemoryStore.pathExists, hholds, CopyJob.staged, if_pos rfl]
  rfl

theorem leaves_step (h : Leaves job init store phase) (hstep : Step job phase x after)
    (hserved : TargetStep MemoryStore.Serves store x store') : Leaves job init store' after := by
  cases hstep with
  | silent hx =>
    rw [hserved.of_silent hx]
    exact h
  | created output =>
    obtain rfl : store = init := h
    obtain ⟨hcan, -⟩ := CopyJob.create_served_iff.1 hserved.of_target
    obtain ⟨hholds, haccepts⟩ := holds_created (.served hserved.of_target)
    exact ⟨hcan, hholds, [], haccepts⟩
  | createdUnbuffered =>
    exact absurd (.served hserved.of_target) FailStop.not_unbuffered
  | opened | notOpened | delivered | ended | notRead =>
    rw [hserved.of_elsewhere rfl]
    exact h
  | openedUnbuffered =>
    rw [hserved.of_elsewhere rfl]
    obtain ⟨hcan, hholds, -⟩ := h
    exact ⟨hcan, [], hholds⟩
  | written =>
    obtain ⟨hcan, hholds, bytes, haccepts⟩ := h
    have hanswer : FailStop store _ _ store' := .served hserved.of_target
    exact ⟨hcan, hholds.of_tree (hanswer.tree_of_looks rfl), _, accepts_written haccepts hanswer⟩
  | notWritten message =>
    have hanswer : FailStop store _ _ store' := .served hserved.of_target
    rw [hanswer.of_error rfl]
    exact h
  | closedAfter answer =>
    have hstaging : Staging job init store _ := h
    exact fun _ => hstaging.closed hserved.of_target
  -- these failures are none of reading
  | notCreated | notClosed | sourceOff | sourceUnsized | tempOff | tempUnsized | sourceUnsummed
  | tempDiffers | tempUnsummed | targetUnknown | targetKept | parentUnknown | parentNotMade
  | notRenamed => exact fun hkind => by cases hkind
  | tempSized => exact afterLengths_cases (fun _ => trivial) fun _ => trivial
  | targetAbsent | targetCleared => exact afterClearing_cases (fun _ => trivial) fun _ => trivial
  | @tempFound result =>
    cases result with
    | ok copied => trivial
    | error failure =>
      intro hkind
      obtain ⟨hcan, bytes, hholds⟩ := h hkind
      rw [(found_of_holds hholds hserved.of_target).2]
      exact ⟨hcan, bytes, hholds⟩
    | broken =>
      obtain ⟨hcan, bytes, hholds⟩ := h
      rw [(found_of_holds hholds hserved.of_target).2]
      exact ⟨hcan, bytes, hholds⟩
  | @tempAbsent result | @tempUnknown result =>
    cases result with
    | ok copied => trivial
    | error failure =>
      intro hkind
      obtain ⟨-, bytes, hholds⟩ := h hkind
      cases (found_of_holds hholds hserved.of_target).1
    | broken =>
      obtain ⟨-, bytes, hholds⟩ := h
      cases (found_of_holds hholds hserved.of_target).1
  | @tempCleared result answer =>
    cases result with
    | ok copied => trivial
    | error failure =>
      intro hkind
      obtain ⟨hcan, bytes, hholds⟩ := h hkind
      exact ⟨hcan, holds_discarded hholds hserved.of_target⟩
    | broken =>
      obtain ⟨hcan, bytes, hholds⟩ := h
      exact ⟨hcan, holds_discarded hholds hserved.of_target⟩
  | _ => trivial

/-- Along every attempt with a target store that serves every call the store is as the phase
says. -/
theorem leaves_trail {history : List Exchange} (hphase : Trail (Step job) .creating history phase)
    (hserved : Trail (TargetStep MemoryStore.Serves) init history store) :
    Leaves job init store phase := by
  refine Trail.together (I := fun phase store => Leaves job init store phase) ?_ hphase hserved rfl
  intro phase store x after store' hleaves hstep hanswer
  exact leaves_step hleaves hstep hanswer

end CopyPhase

/-! ## After one attempt or more -/

/-- A target store as attempts leave it that could not read the source. -/
structure Residual (job : CopyJob) (init store : MemoryStore) : Prop where
  kind : store.checksumKind = init.checksumKind
  defaults : store.defaults = init.defaults
  holds : Holds store (job.discarded init)
  canStage : job.CanStage init

/-- The first attempt that could not read the source leaves what it leaves. -/
theorem residual_of_unread {bound : Nat} {job : CopyJob} {init after : MemoryStore} {round : Round}
    (hid : isAttemptId job.attemptId) (hrun : Run (copyOnce bound job) round.exchanges round.result)
    (hunread : round.Unread)
    (hserved : Trail (TargetStep MemoryStore.Serves) init round.exchanges after) :
    Residual job init after := by
  obtain ⟨decided, hphase, hresult⟩ := copyOnce_finished hid hrun
  obtain ⟨error, herror, hkind⟩ := hunread
  rw [herror] at hresult
  cases decided with
  | ok copied => cases hresult
  | broken => cases hresult
  | error failure =>
    obtain rfl : error = job.report failure := Except.error.inj (Program.Outcome.done.inj hresult)
    obtain ⟨hcan, hholds⟩ := CopyPhase.leaves_trail hphase hserved hkind
    obtain ⟨hsettings, hdefaults⟩ := settings_trail hserved
    exact ⟨hsettings, hdefaults, hholds, hcan⟩

/-- Every further one leaves the same. -/
theorem Residual.again {bound : Nat} {job : CopyJob} {init store after : MemoryStore}
    {round : Round} (h : Residual job init store) (hid : isAttemptId job.attemptId)
    (hrun : Run (copyOnce bound job) round.exchanges round.result) (hunread : round.Unread)
    (hserved : Trail (TargetStep MemoryStore.Serves) store round.exchanges after) :
    Residual job init after := by
  have hnext := residual_of_unread hid hrun hunread hserved
  refine ⟨hnext.kind.trans h.kind, hnext.defaults.trans h.defaults, ?_, h.canStage⟩
  have hholds := hnext.holds
  rw [CopyJob.discarded_of_discarded h.holds] at hholds
  exact hholds

end StagedCopy
