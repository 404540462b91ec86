import StagedCopy.Proofs.Copy.Booking
import StagedCopy.Proofs.Copy.Redirection
import StagedCopy.Proofs.Copy.Unread
import StagedCopy.Proofs.Memory.Alike

/-!
# Attempts that failed leave no residue

When the target store serves every call, only the last attempt of a copy with retries matters. The
attempts before it could not read the source, so they left nothing but directories above the place
of the temporary file, which the last attempt would have made as well. It therefore goes as it would
have gone on the first store, and leaves a store that looks the same.

* `CopyPhase.Echoes` — an attempt after such attempts, beside the same attempt without them.
* `echo_of_residual` — the second goes along with the first.
* `SingleCopy` — one attempt with a target store; `SingleCopy.unique` — the others decide it.
* `Unspoilt` — the store after attempts that could not read the source; `Unspoilt.repeated`, any
  number of them, and `Unspoilt.echo`, the last attempt on such a store beside one on the first.
-/

namespace StagedCopy

open Program (Exchange Run)

/-! ## One attempt with two stores -/

namespace CopyPhase

/-- Two stores at the same moment of an attempt: one that began after attempts which could not read
the source, and one that began with the first store. -/
def Echoes (job : CopyJob) (init store fresh : MemoryStore) : CopyPhase → Prop
  | creating => fresh = init ∧ Residual job init store
  | opening output | reading output _ _ | writing output _ _ _ | closing output _ _ =>
    MemoryStore.Twins output init.writers.size store fresh
  | _ => MemoryStore.Alike store fresh

variable {job : CopyJob} {init store store' fresh : MemoryStore} {phase after : CopyPhase}
  {x : Exchange} {output : StreamId}

/-- What is said to anyone else stays the same and touches neither store. -/
theorem follows_elsewhere (hx : x.request.onTarget = false)
    (hserved : TargetStep MemoryStore.Serves store x store') :
    store' = store ∧ TargetStep MemoryStore.Serves fresh (x.redirect output) fresh := by
  refine ⟨hserved.of_elsewhere hx, ?_⟩
  rw [redirect_of_not_onTarget hx]
  exact .elsewhere hx

/-- A call about no stream is answered alike. -/
theorem follows_plain {call : StorageCall} {answer : call.Answer} (hcall : call.streams = false)
    (h : MemoryStore.Alike store fresh)
    (hserved : TargetStep MemoryStore.Serves store ⟨.storage .target call, answer⟩ store') :
    ∃ fresh', TargetStep MemoryStore.Serves fresh
        ((⟨.storage .target call, answer⟩ : Exchange).redirect output) fresh' ∧
      MemoryStore.Alike store' fresh' := by
  obtain ⟨fresh', hperform, halike⟩ := h.perform hcall hserved.of_target
  refine ⟨fresh', ?_, halike⟩
  have hplain : (Request.storage .target call).plain = true := by
    cases call with
    | openFile | createFile | read | write | close => cases hcall
    | _ => rfl
  rw [redirect_of_plain hplain]
  exact .target hperform

/-- The temporary file is created in both stores, and its streams have the same past. -/
theorem follows_created (h : Residual job init store)
    (hserved : TargetStep MemoryStore.Serves store
      ⟨.storage .target (.createFile job.temp true job.options.bufferSize job.layout),
        .ok (.ok output)⟩ store') :
    ∃ fresh', TargetStep MemoryStore.Serves init
        ⟨.storage .target (.createFile job.temp true job.options.bufferSize job.layout),
          .ok (.ok init.writers.size)⟩ fresh' ∧
      MemoryStore.Twins output init.writers.size store' fresh' := by
  have hfresh : TargetStep MemoryStore.Serves init
      ⟨.storage .target (.createFile job.temp true job.options.bufferSize job.layout),
        .ok (.ok init.writers.size)⟩ (init.startFile job.temp.key job.layout).2 :=
    .target (CopyJob.create_served_iff.2 ⟨h.canStage, rfl⟩)
  obtain ⟨hwriter, hview⟩ := FailStop.of_createFile (.served hserved.of_target)
  obtain ⟨hwriter', hview'⟩ := FailStop.of_createFile (.served hfresh.of_target)
  obtain ⟨hkind, hdefaults⟩ := hserved.settings
  obtain ⟨hkind', hdefaults'⟩ := hfresh.settings
  refine ⟨_, hfresh, ⟨?_, ?_, fun k => ?_⟩, _, hwriter, hwriter'⟩
  · rw [hkind, hkind', h.kind]
  · rw [hdefaults, hdefaults', h.defaults]
  · have hsame := congrFun (CopyJob.staged_of_discarded h.holds h.defaults []) k
    exact ((hview k).trans hsame).trans (hview' k).symm

/-- Whatever the attempt does with the one store, it can do with the other. -/
theorem echoes_step (h : Echoes job init store fresh phase) (hstep : Step job phase x after)
    (hserved : TargetStep MemoryStore.Serves store x store') :
    ∃ fresh', TargetStep MemoryStore.Serves fresh (x.redirect init.writers.size) fresh' ∧
      Echoes job init store' fresh' after := by
  cases hstep with
  | silent hx =>
    obtain ⟨rfl, hfollows⟩ := follows_elsewhere (onTarget_of_silent hx) hserved
    exact ⟨fresh, hfollows, h⟩
  | created output =>
    obtain ⟨rfl, hresidual⟩ := h
    exact follows_created hresidual hserved
  | notCreated message =>
    -- the file can be created, as it could the first time
    obtain ⟨rfl, hresidual⟩ := h
    have hcreated : store.perform (.createFile job.temp true job.options.bufferSize job.layout)
        = (.ok (.ok store.writers.size), (store.startFile job.temp.key job.layout).2) :=
      CopyJob.create_served_iff.2 ⟨hresidual.canStage.of_discarded hresidual.holds, rfl⟩
    cases hcreated.symm.trans hserved.of_target
  | createdUnbuffered =>
    exact absurd (.served hserved.of_target) FailStop.not_unbuffered
  | opened | notOpened | delivered | ended | notRead =>
    obtain ⟨rfl, hfollows⟩ := follows_elsewhere rfl hserved
    exact ⟨fresh, hfollows, h⟩
  | openedUnbuffered =>
    obtain ⟨rfl, hfollows⟩ := follows_elsewhere rfl hserved
    exact ⟨fresh, hfollows, MemoryStore.Twins.toAlike h⟩
  | written | notWritten =>
    obtain ⟨fresh', hperform, htwins⟩ := MemoryStore.Twins.write h hserved.of_target
    exact ⟨fresh', .target hperform, htwins⟩
  | closed | notClosed | closedAfter =>
    obtain ⟨fresh', hperform, halike⟩ := MemoryStore.Twins.close h hserved.of_target
    exact ⟨fresh', .target hperform, halike⟩
  | sourceSized | sourceOff | sourceUnsized | sourceSummed | sourceUnsummed =>
    obtain ⟨rfl, hfollows⟩ := follows_elsewhere rfl hserved
    exact ⟨fresh, hfollows, h⟩
  | tempSized =>
    obtain ⟨fresh', hfollows, halike⟩ := follows_plain rfl h hserved
    exact ⟨fresh', hfollows, afterLengths_cases (fun _ => halike) fun _ => halike⟩
  | targetAbsent | targetCleared =>
    obtain ⟨fresh', hfollows, halike⟩ := follows_plain rfl h hserved
    exact ⟨fresh', hfollows, afterClearing_cases (fun _ => halike) fun _ => halike⟩
  | _ => exact follows_plain rfl h hserved

end CopyPhase

/-- An attempt with a target store that serves every call: its history, its result, and the store
at its end. -/
structure SingleCopy (bound : Nat) (job : CopyJob) (init : MemoryStore) (history : List Exchange)
    (result : Except CopyError Nat) (after : MemoryStore) : Prop where
  run : Run (copyOnce bound job) history result
  served : Trail (TargetStep MemoryStore.Serves) init history after

variable {bound : Nat} {job : CopyJob} {init store after : MemoryStore}

/-- An attempt after others that could not read the source goes as it would have gone without them,
when everyone but the target store does the same. -/
theorem echo_of_residual {history : List Exchange} {result : Except CopyError Nat}
    (hid : isAttemptId job.attemptId) (h : Residual job init store)
    (hcopy : SingleCopy bound job store history result after) :
    ∃ single fresh, SingleCopy bound job init single result fresh ∧
      elsewhere single = elsewhere history ∧ MemoryStore.Alike after fresh := by
  obtain ⟨decided, hphase, -⟩ := copyOnce_finished hid hcopy.run
  have hstart : CopyPhase.Echoes job init store init .creating := ⟨rfl, h⟩
  obtain ⟨fresh, htrail, halike⟩ : ∃ fresh, Trail (TargetStep MemoryStore.Serves) init
      (history.map (Program.Exchange.redirect init.writers.size)) fresh ∧
      CopyPhase.Echoes job init after fresh (.finished decided) := by
    refine Trail.follow (I := fun phase store fresh => CopyPhase.Echoes job init store fresh phase)
      ?_ hphase hcopy.served hstart
    intro phase store fresh x next store' hechoes hstep hserved
    exact CopyPhase.echoes_step hechoes hstep hserved
  exact ⟨_, fresh, ⟨copyOnce_redirect hid hcopy.run, htrail⟩, elsewhere_redirect _ _, halike⟩

/-- With a target store that serves every call, the answer to a request is decided by what everyone
else answers. -/
theorem TargetStep.answer_unique {r : Request} {answer answer' : r.Answer}
    {first second : MemoryStore} (h : TargetStep MemoryStore.Serves store ⟨r, answer⟩ first)
    (h' : TargetStep MemoryStore.Serves store ⟨r, answer'⟩ second)
    (hsame : r.onTarget = false → answer' = answer) : answer' = answer ∧ second = first := by
  cases hr : r.onTarget with
  | false =>
    have hfirst := h.of_elsewhere hr
    exact ⟨hsame hr, (h'.of_elsewhere hr).trans hfirst.symm⟩
  | true =>
    cases r with
    | storage side call =>
      cases side with
      | source => cases hr
      | target => exact Prod.ext_iff.1 (h'.of_target.symm.trans h.of_target)
    | _ => cases hr

/-- With a target store that serves every call, an attempt is decided by what everyone else does. -/
theorem SingleCopy.unique {first second : List Exchange} {result result' : Except CopyError Nat}
    {after' : MemoryStore} (h : SingleCopy bound job init first result after)
    (h' : SingleCopy bound job init second result' after')
    (hsame : elsewhere second = elsewhere first) :
    second = first ∧ result' = result ∧ after' = after := by
  obtain ⟨hrun, hserved⟩ := h
  obtain ⟨hrun', hserved'⟩ := h'
  generalize copyOnce bound job = p at hrun hrun'
  induction hrun generalizing init second with
  | done =>
    cases hrun'
    cases hserved
    cases hserved'
    exact ⟨rfl, rfl, rfl⟩
  | @ask r next rest result answer hrest ih =>
    cases hrun' with
    | @ask _ _ rest' _ answer' hrest' =>
      cases hserved with
      | go first tail =>
        cases hserved' with
        | go first' tail' =>
          have hanswer : r.onTarget = false → answer' = answer := by
            intro hr
            rw [elsewhere_cons_of_not_onTarget hr, elsewhere_cons_of_not_onTarget hr] at hsame
            cases (List.cons.inj hsame).1
            rfl
          obtain ⟨rfl, rfl⟩ := first.answer_unique first' hanswer
          have hrests : elsewhere rest' = elsewhere rest := by
            cases hr : r.onTarget with
            | true =>
              rw [elsewhere_cons_of_onTarget hr, elsewhere_cons_of_onTarget hr] at hsame
              exact hsame
            | false =>
              rw [elsewhere_cons_of_not_onTarget hr, elsewhere_cons_of_not_onTarget hr] at hsame
              exact (List.cons.inj hsame).2
          obtain ⟨rfl, hresult, hafter⟩ := ih hrests tail tail' hrest'
          exact ⟨rfl, hresult, hafter⟩

/-! ## All attempts -/

/-- The first store, or what is left of it by attempts that could not read the source. -/
def Unspoilt (job : CopyJob) (init store : MemoryStore) : Prop :=
  store = init ∨ Residual job init store

/-- One more attempt that could not read the source. -/
theorem Unspoilt.unread {round : Round} (h : Unspoilt job init store)
    (hid : isAttemptId job.attemptId) (hrun : Run (copyOnce bound job) round.exchanges round.result)
    (hunread : round.Unread)
    (hserved : Trail (TargetStep MemoryStore.Serves) store round.exchanges after) :
    Residual job init after := by
  rcases h with rfl | hresidual
  · exact residual_of_unread hid hrun hunread hserved
  · exact hresidual.again hid hrun hunread hserved

/-- Any number of attempts that could not read the source, with a pause after each. -/
theorem Unspoilt.repeated {policy : RetryPolicy} {unread : List Round} {made : Nat}
    (h : Unspoilt job init store) (hid : isAttemptId job.attemptId)
    (hunread : ∀ round ∈ unread, Run (copyOnce bound job) round.exchanges round.result ∧
      round.Unread)
    (hserved : Trail (TargetStep MemoryStore.Serves) store (policy.repeated made unread) after) :
    Unspoilt job init after := by
  induction unread generalizing made store with
  | nil =>
    cases hserved
    exact h
  | cons round more ih =>
    obtain ⟨hrun, hround⟩ := hunread round List.mem_cons_self
    obtain ⟨attempted, hattempt, hrest⟩ := Trail.append_iff.1 hserved
    obtain ⟨paused, hpause, hmore⟩ := Trail.append_iff.1 hrest
    have hresidual := h.unread hid hrun hround hattempt
    rw [eq_of_silent hpause pause_silent] at hmore
    exact ih (.inr hresidual) (fun other hother => hunread other (List.mem_cons_of_mem _ hother))
      hmore

/-- The last attempt goes as it would have gone as the only one. -/
theorem Unspoilt.echo {history : List Exchange} {result : Except CopyError Nat}
    (h : Unspoilt job init store) (hid : isAttemptId job.attemptId)
    (hcopy : SingleCopy bound job store history result after) :
    ∃ single fresh, SingleCopy bound job init single result fresh ∧
      elsewhere single = elsewhere history ∧ MemoryStore.Alike after fresh := by
  rcases h with rfl | hresidual
  · exact ⟨history, after, hcopy, rfl, .refl after⟩
  · exact echo_of_residual hid hresidual hcopy

/-! ## The theorem -/

/-- A file that is not the temporary one is where it was. -/
theorem Residual.file {k : Key} {f : MemoryFile} (h : Residual job init after)
    (hk : k ≠ job.temp.key) (hfile : init.get? k = some (.file f)) :
    after.get? k = some (.file f) := by
  rw [h.holds, CopyJob.discarded, if_neg hk, hfile, if_neg]
  rintro ⟨-, hnone⟩
  cases hnone

/-- A finished copy with retries, with a target store that serves every call, is made of attempts
that could not read the source, a last attempt, and the booking of its result.

Unless the last attempt could not read the source either, the target store looks at the end as after
one attempt alone, with the same result, on the store of the beginning, in which everyone else does
what they did in the last attempt; there is one such attempt and only one. And if the last attempt
could not read the source, the target store holds at the end what it held at the beginning, without
what stood at the temporary place and with directories above it, so that every file elsewhere is
where it was. -/
theorem no_residue {policy : RetryPolicy} {skipReadFailures : Bool} {history : List Exchange}
    {outcome : Except CopyError CopyOutcome} {final : MemoryStore}
    (hid : isAttemptId job.attemptId)
    (hrun : Run (copyWithRetries bound job policy skipReadFailures) history outcome)
    (hserved : Trail (TargetStep MemoryStore.Serves) init history final) :
    ∃ unread last booking, Rounds (copyOnce bound job) policy.attemptBudget unread last ∧
      history = policy.attempts unread last ++ booking ∧
      outcome = settledOutcome skipReadFailures (unread.length + 1) last.result ∧
      (¬ last.Unread →
        (∃ single after, SingleCopy bound job init single last.result after ∧
          elsewhere single = elsewhere last.exchanges ∧ MemoryStore.Alike final after) ∧
        ∀ single result after, SingleCopy bound job init single result after →
          elsewhere single = elsewhere last.exchanges →
            result = last.result ∧ MemoryStore.Alike final after) ∧
      (last.Unread →
        final.checksumKind = init.checksumKind ∧ final.defaults = init.defaults ∧
          (∀ k, final.get? k =
            if k = job.temp.key then none
            else if k ∈ job.temp.key.properAncestors ∧ init.get? k = none then some .directory
            else init.get? k) ∧
          ∀ k f, k ≠ job.temp.key → init.get? k = some (.file f) →
            final.get? k = some (.file f)) := by
  obtain ⟨unread, last, booking, hrounds, hbooking, rfl⟩ := run_copyWithRetries_iff.1 hrun
  obtain ⟨attempted, hattempts, hbooked⟩ := Trail.append_iff.1 hserved
  obtain ⟨reached, hrepeated, hlast⟩ := Trail.append_iff.1 hattempts
  obtain ⟨ended, hended, hfarewell⟩ := Trail.append_iff.1 hlast
  -- after the last attempt the target store is left alone
  obtain rfl : final = ended :=
    (eq_of_silent hbooked ((settle_asks last.result).of_run hbooking)).trans
      (eq_of_silent hfarewell farewell_silent)
  have hunspoilt : Unspoilt job init reached :=
    Unspoilt.repeated (.inl rfl) hid hrounds.repeated hrepeated
  have houtcome := (settle_books last.result booking outcome hbooking).1
  refine ⟨unread, last, booking, hrounds, rfl, houtcome, fun _ => ?_, fun hunread => ?_⟩
  · obtain ⟨single, after, hcopy, hsame, halike⟩ := hunspoilt.echo hid ⟨hrounds.ended, hended⟩
    refine ⟨⟨single, after, hcopy, hsame, halike⟩, fun other result after' hother hother' => ?_⟩
    obtain ⟨-, rfl, rfl⟩ := hcopy.unique hother (hother'.trans hsame.symm)
    exact ⟨rfl, halike⟩
  · have hresidual := hunspoilt.unread hid hrounds.ended hunread hended
    exact ⟨hresidual.kind, hresidual.defaults, hresidual.holds, fun k f => hresidual.file⟩

/-- Two stores that serve every call, except that the source cannot be opened the first time. -/
def openingLate : Program.Handler (Bool × StorePair × List Bytes)
  | .storage .source (.openFile _), (false, stores) => (.error (utf8 "late"), true, stores)
  | r, (opened, stores) =>
    ((StorePair.serving (obliging 0) r stores).1, opened,
      (StorePair.serving (obliging 0) r stores).2)

theorem TargetStep.of_openingLate {state after : Bool × StorePair × List Bytes} {x : Exchange}
    (h : openingLate.step state x after) :
    TargetStep MemoryStore.Serves state.2.1.target x after.2.1.target := by
  obtain ⟨opened, stores⟩ := state
  obtain ⟨r, answer⟩ := x
  obtain ⟨hanswer, rfl⟩ := Prod.ext_iff.1 h
  cases r with
  | storage side call =>
    cases side with
    | source =>
      cases call with
      | openFile => cases opened <;> exact .elsewhere rfl
      | _ => exact .elsewhere rfl
    | target => exact .target (Prod.ext_iff.2 ⟨hanswer, rfl⟩)
  | _ => exact .elsewhere rfl

/-- The small job, for which two attempts are made. -/
def lateHistory : List Exchange :=
  Program.exchanges openingLate (copyWithRetries 4 smallJob {} false) (false, smallStores, [])

theorem no_residue_small :
    Run (copyWithRetries 4 smallJob {} false) lateHistory (.ok ⟨.copied, 3, 2⟩) ∧
    ∃ final, Trail (TargetStep MemoryStore.Serves) smallStores.target lateHistory final ∧
      final.get? smallJob.target.key = some (.file ⟨utf8 "abc", ⟨1, 64⟩⟩) ∧
      ∃ single after, SingleCopy 4 smallJob smallStores.target single (.ok 3) after ∧
        MemoryStore.Alike final after := by
  have hoption : (Program.run openingLate (copyWithRetries 4 smallJob {} false)
      (false, smallStores, [])).1.value?.bind Except.toOption = some ⟨.copied, 3, 2⟩ := by
    decide +kernel
  have hrun : Run (copyWithRetries 4 smallJob {} false) lateHistory (.ok ⟨.copied, 3, 2⟩) := by
    obtain ⟨outcome, houtcome, hvalue⟩ := Option.bind_eq_some_iff.1 hoption
    cases outcome with
    | error error => cases hvalue
    | ok value =>
      obtain rfl := Option.some.inj hvalue
      exact Program.run_exchanges (Program.Outcome.eq_done_of_value? houtcome)
  have htrail := Program.trail_exchanges openingLate (copyWithRetries 4 smallJob {} false)
    (false, smallStores, [])
  have hserved : Trail (TargetStep MemoryStore.Serves) smallStores.target lateHistory _ :=
    htrail.map (f := fun state => state.2.1.target) TargetStep.of_openingLate
  refine ⟨hrun, _, hserved, by decide +kernel, ?_⟩
  obtain ⟨unread, last, booking, -, -, houtcome, hlast, -⟩ :=
    no_residue (by decide) hrun hserved
  have hresult : last.result = .ok 3 := by
    cases hanswered : last.result with
    | ok bytes =>
      rw [hanswered] at houtcome
      have hbytes := congrArg CopyOutcome.bytes (Except.ok.inj houtcome)
      exact congrArg Except.ok hbytes.symm
    | error error =>
      rw [hanswered, settledOutcome, if_neg (by simp)] at houtcome
      cases houtcome
  have hread : ¬ last.Unread := by
    rintro ⟨error, herror, -⟩
    rw [hresult] at herror
    cases herror
  obtain ⟨⟨single, after, hcopy, -, halike⟩, -⟩ := hlast hread
  rw [hresult] at hcopy
  exact ⟨single, after, hcopy, halike⟩

end StagedCopy
