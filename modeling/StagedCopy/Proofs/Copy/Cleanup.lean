import StagedCopy.Proofs.Copy.Classification
import StagedCopy.Proofs.Copy.Publication
import StagedCopy.Proofs.Copy.Target

/-!
# The temporary file goes, whichever way an attempt ends

Every attempt with a usable id ends with the same last calls: it asks whether the temporary file is
still there, and removes it exactly when it is told so. By then the outcome is decided, so nothing
that these calls are answered matters to it, and the stream of the temporary file has been closed,
unless the attempt has broken down: then it is never closed. When the target is a store in memory
and these two calls are served, no file is left at the temporary place, whatever failed before.

* `createdStreams`, `closedStreams` — the streams that were opened for writing, and those that were
  closed; `CopyPhase.ledger_step` balances them, `CopyPhase.filling_step` says when none was closed.
* `CopyJob.Discards` — the last calls of an attempt.
* `CopyPhase.discards_trail` — every attempt comes to them with its end decided.
* `discards_last` — the theorem, over all handlers.
-/

namespace StagedCopy

open Program (Begins Exchange Handler Yields)

/-! ## Streams that are opened and closed -/

namespace Program.Exchange

/-- The stream that an exchange opens for writing. -/
def creation? : Exchange → Option StreamId
  | ⟨.storage .target (.createFile ..), .ok (.ok output)⟩ => some output
  | _ => none

/-- The stream that an exchange closes, whatever was answered. -/
def closing? : Exchange → Option StreamId
  | ⟨.storage .target (.close output), _⟩ => some output
  | _ => none

theorem creation?_silent {x : Exchange} (h : x.request.isCall = false) : x.creation? = none := by
  obtain ⟨r, answer⟩ := x
  cases r with
  | storage => cases h
  | _ => rfl

theorem closing?_silent {x : Exchange} (h : x.request.isCall = false) : x.closing? = none := by
  obtain ⟨r, answer⟩ := x
  cases r with
  | storage => cases h
  | _ => rfl

end Program.Exchange

/-- The streams that the target store opened for writing, in order. -/
def createdStreams (history : List Exchange) : List StreamId :=
  history.filterMap Exchange.creation?

/-- The streams of the target store that were closed, in order. -/
def closedStreams (history : List Exchange) : List StreamId :=
  history.filterMap Exchange.closing?

theorem createdStreams_snoc (history : List Exchange) (x : Exchange) :
    createdStreams (history ++ [x]) = createdStreams history ++ x.creation?.toList :=
  filterMap_snoc _ history x

theorem closedStreams_snoc (history : List Exchange) (x : Exchange) :
    closedStreams (history ++ [x]) = closedStreams history ++ x.closing?.toList :=
  filterMap_snoc _ history x

namespace CopyPhase

/-- The stream that was opened for writing and is not closed yet. -/
def unclosed : CopyPhase → List StreamId
  | opening output | reading output _ _ | writing output _ _ _ | closing output _ _ => [output]
  | findingTemp (.broken _ left) | clearingTemp (.broken _ left) | finished (.broken _ left) => left
  | _ => []

/-- The phases at which no stream was closed yet. -/
def filling : CopyPhase → Bool
  | creating | opening _ | reading .. | writing .. | closing .. => true
  | findingTemp (.broken ..) | clearingTemp (.broken ..) | finished (.broken ..) => true
  | _ => false

/-- The number of streams that may still be opened for writing. -/
def uncreated : CopyPhase → Nat
  | creating => 1
  | _ => 0

variable {job : CopyJob} {phase after : CopyPhase} {x : Exchange}

/-- A step opens the stream that is unclosed after it, or closes the one that was unclosed before
it, or does neither. -/
theorem ledger_step (h : Step job phase x after) :
    phase.unclosed ++ x.creation?.toList = x.closing?.toList ++ after.unclosed := by
  cases h with
  | silent hx =>
    rw [Exchange.creation?_silent hx, Exchange.closing?_silent hx]
    exact List.append_nil _
  | tempSized => exact afterLengths_cases (fun _ => rfl) fun _ => rfl
  | targetAbsent | targetCleared => exact afterClearing_cases (fun _ => rfl) fun _ => rfl
  | @tempFound result | @tempAbsent result | @tempUnknown result | @tempCleared result =>
    cases result with
    | ok | error => rfl
    | broken => exact List.append_nil _
  | _ => rfl

/-- The way to a phase at which no stream was closed is one on which none is closed. -/
theorem filling_step (h : Step job phase x after) (hafter : after.filling = true) :
    phase.filling = true ∧ x.closing? = none := by
  cases h with
  | silent hx => exact ⟨hafter, Exchange.closing?_silent hx⟩
  | tempSized =>
    exact absurd hafter
      (afterLengths_cases (fun _ => Bool.false_ne_true) fun _ => Bool.false_ne_true)
  | targetAbsent | targetCleared =>
    exact absurd hafter
      (afterClearing_cases (fun _ => Bool.false_ne_true) fun _ => Bool.false_ne_true)
  | @tempFound result | @tempAbsent result | @tempUnknown result | @tempCleared result =>
    cases result with
    | ok | error => cases hafter
    | broken => exact ⟨rfl, rfl⟩
  | _ => first | exact ⟨rfl, rfl⟩ | cases hafter

theorem closedStreams_of_filling {history : List Exchange}
    (h : Trail (Step job) .creating history phase) (hphase : phase.filling = true) :
    closedStreams history = [] := by
  refine Trail.history (I := fun before phase => phase.filling = true →
    closedStreams before = []) ?_ h (fun _ => rfl) hphase
  intro before phase x after hI hstep hafter
  obtain ⟨hbefore, hclosing⟩ := filling_step hstep hafter
  rw [closedStreams_snoc, hI hbefore, hclosing]
  rfl

theorem uncreated_step (h : Step job phase x after) :
    x.creation?.toList.length + after.uncreated ≤ phase.uncreated := by
  cases h with
  | silent hx =>
    rw [Exchange.creation?_silent hx]
    exact Nat.le_of_eq (Nat.zero_add _)
  | tempSized => exact afterLengths_cases (fun _ => Nat.le_refl 0) fun _ => Nat.le_refl 0
  | targetAbsent | targetCleared =>
    exact afterClearing_cases (fun _ => Nat.le_refl 0) fun _ => Nat.le_refl 0
  | notCreated | createdUnbuffered => exact Nat.zero_le 1
  | _ => exact Nat.le_refl _

/-- The streams that were opened are those that were closed and, while there is one, the stream
that is unclosed; and there is at most one. -/
theorem created_eq {history : List Exchange} (h : Trail (Step job) .creating history phase) :
    createdStreams history = closedStreams history ++ phase.unclosed ∧
      (createdStreams history).length + phase.uncreated ≤ 1 := by
  refine Trail.history (I := fun before phase =>
    createdStreams before = closedStreams before ++ phase.unclosed ∧
      (createdStreams before).length + phase.uncreated ≤ 1) ?_ h ⟨rfl, Nat.le_refl 1⟩
  rintro before phase x after ⟨hledger, hcount⟩ hstep
  have hfew := uncreated_step hstep
  constructor
  · rw [createdStreams_snoc, hledger, closedStreams_snoc, List.append_assoc, ledger_step hstep,
      List.append_assoc]
  · rw [createdStreams_snoc, List.length_append]
    omega

end CopyPhase

/-! ## The last calls -/

/-- The last calls of an attempt: a question about the temporary file, and when the answer is that
it is there, its removal. -/
inductive CopyJob.Discards (job : CopyJob) : List Exchange → Prop where
  | absent (answer : Except Bytes Bool) (h : answer ≠ .ok true) :
      Discards job [⟨.storage .target (.pathExists job.temp), answer⟩]
  | present (answer : Except Bytes Unit) :
      Discards job [⟨.storage .target (.pathExists job.temp), .ok true⟩,
        ⟨.storage .target (.remove job.temp false), answer⟩]

namespace CopyPhase

variable {job : CopyJob}

/-- The exchanges since the end was decided, which has happened at the phase that the last calls
begin with. -/
def DiscardsSince (job : CopyJob) (history : List Exchange) (result : AttemptEnd)
    (calls : List Exchange → Prop) : Prop :=
  ∃ before last, history = before ++ last ∧
    Trail (Step job) .creating before (.findingTemp result) ∧ calls (callsOf last)

/-- What was called since the end was decided. -/
def Discarding (job : CopyJob) (history : List Exchange) : CopyPhase → Prop
  | clearingTemp result => DiscardsSince job history result fun calls =>
      calls = [⟨.storage .target (.pathExists job.temp), .ok true⟩]
  | finished result => DiscardsSince job history result job.Discards
  | _ => True

theorem DiscardsSince.silent {history : List Exchange} {result : AttemptEnd}
    {calls : List Exchange → Prop} {x : Exchange} (h : DiscardsSince job history result calls)
    (hx : x.request.isCall = false) : DiscardsSince job (history ++ [x]) result calls := by
  obtain ⟨before, last, rfl, htrail, hcalls⟩ := h
  refine ⟨before, last ++ [x], List.append_assoc _ _ _, htrail, ?_⟩
  rw [callsOf_snoc_silent last hx]
  exact hcalls

theorem discarding_step {history : List Exchange} {phase after : CopyPhase} {x : Exchange}
    (htrail : Trail (Step job) .creating history phase) (h : Discarding job history phase)
    (hstep : Step job phase x after) : Discarding job (history ++ [x]) after := by
  cases hstep with
  | silent hx =>
    cases phase with
    | clearingTemp result =>
      have hsince : DiscardsSince job history result fun calls =>
        calls = [⟨.storage .target (.pathExists job.temp), .ok true⟩] := h
      exact hsince.silent hx
    | finished result =>
      have hsince : DiscardsSince job history result job.Discards := h
      exact hsince.silent hx
    | _ => trivial
  | tempSized => exact afterLengths_cases (fun _ => trivial) fun _ => trivial
  | targetAbsent | targetCleared => exact afterClearing_cases (fun _ => trivial) fun _ => trivial
  | tempFound => exact ⟨history, _, rfl, htrail, rfl⟩
  | tempAbsent => exact ⟨history, _, rfl, htrail, .absent _ (fun heq => by cases heq)⟩
  | tempUnknown message => exact ⟨history, _, rfl, htrail, .absent _ (fun heq => by cases heq)⟩
  | tempCleared answer =>
    obtain ⟨before, last, rfl, hbefore, hcalls⟩ := h
    refine ⟨before, last ++ [_], List.append_assoc _ _ _, hbefore, ?_⟩
    rw [callsOf_snoc_of_isCall last rfl, hcalls]
    exact .present answer
  | _ => trivial

/-- An attempt at its end has come to its last calls with the end decided. -/
theorem discards_trail {history : List Exchange} {result : AttemptEnd}
    (h : Trail (Step job) .creating history (.finished result)) :
    DiscardsSince job history result job.Discards := by
  have hboth := Trail.history (I := fun before phase =>
    Trail (Step job) .creating before phase ∧ Discarding job before phase) ?_ h
    ⟨.stay _, trivial⟩
  · exact hboth.2
  · rintro before phase x after ⟨htrail, hdiscarding⟩ hstep
    exact ⟨htrail.snoc hstep, discarding_step htrail hdiscarding hstep⟩

/-- The calls alone decide how far an attempt has come. -/
theorem eq_of_callsOf {phase after other : CopyPhase} {history history' : List Exchange}
    (h : Trail (Step job) phase history after) (h' : Trail (Step job) phase history' other)
    (hcalls : callsOf history = callsOf history') : after = other := by
  have hleft := h.callsOf fun hstep hx => hstep.eq_of_silent hx
  have hright := h'.callsOf fun hstep hx => hstep.eq_of_silent hx
  rw [hcalls] at hleft
  exact Trail.unique (fun hfirst hsecond => hfirst.unique hsecond) hleft hright

/-- The last calls come to the end that was decided before them. -/
theorem eq_of_discards {result decided : AttemptEnd} {last : List Exchange}
    (h : Trail (Step job) (.findingTemp result) last (.finished decided))
    (hlast : job.Discards (callsOf last)) : decided = result := by
  have hcalls := h.callsOf fun hstep hx => hstep.eq_of_silent hx
  generalize callsOf last = calls at hlast hcalls
  cases hlast with
  | absent answer hanswer =>
    cases hcalls with
    | go first rest =>
      cases rest
      cases first with
      | tempAbsent => rfl
      | tempUnknown => rfl
  | present answer =>
    cases hcalls with
    | go first rest =>
      cases rest with
      | go second rest =>
        cases rest
        cases first with
        | silent hx => cases hx
        | tempFound =>
          cases second with
          | tempCleared => rfl

/-- Two attempts with the same calls before the last ones come to the same end. -/
theorem eq_of_callsOf_before {before before' last' : List Exchange}
    {result decided : AttemptEnd}
    (h : Trail (Step job) .creating before (.findingTemp result))
    (h' : Trail (Step job) .creating (before' ++ last') (.finished decided))
    (hcalls : callsOf before' = callsOf before) (hlast : job.Discards (callsOf last')) :
    decided = result := by
  obtain ⟨middle, hbefore, hrest⟩ := Trail.append_iff.1 h'
  obtain rfl : middle = .findingTemp result := eq_of_callsOf hbefore h hcalls
  exact eq_of_discards hrest hlast

/-- Of the calls before the last ones only those of publishing can be spelled as these are. -/
theorem publishes_before {before : List Exchange} {result : AttemptEnd}
    (h : Trail (Step job) .creating before (.findingTemp result)) :
    ∀ x ∈ before, x.request ∈ discardingRequests job → x.request ∈ publishingRequests job := by
  intro x hx hrequest
  have hshape : x.request.isCall = true ∧ x.request.publishes = true := by
    simp only [discardingRequests, List.mem_cons, List.not_mem_nil, or_false] at hrequest
    rcases hrequest with heq | heq <;> simp [heq, Request.isCall, Request.publishes]
  obtain ⟨staged, published, discarded, hcalls, hstaged, hpublished, hdiscarded, -⟩ := told_trail h
  have hmem : x ∈ callsOf before := List.mem_filter.2 ⟨hx, hshape.1⟩
  rw [hcalls, List.mem_append, List.mem_append] at hmem
  rcases hmem with (hmem | hmem) | hmem
  · have hnot := hstaged x hmem
    rw [hshape.2] at hnot
    cases hnot
  · exact hpublished.subset (List.mem_map_of_mem hmem)
  · rw [List.take_zero, List.map_eq_nil_iff] at hdiscarded
    rw [hdiscarded] at hmem
    exact absurd hmem List.not_mem_nil

end CopyPhase

/-! ## What is left at the temporary place -/

namespace MemoryStore

/-- A file is removed when its removal is asked for. -/
theorem not_file_of_remove (store : MemoryStore) (path : Path) (f : MemoryFile) :
    (store.perform (.remove path false)).2.get? path.key ≠ some (.file f) := by
  intro hfile
  cases hremove : store.remove path false with
  | ok result =>
    obtain ⟨hroot, -, rfl⟩ := remove_eq_ok.1 hremove
    simp only [perform, hremove, conclude] at hfile
    rw [get?_erase hroot, if_pos rfl] at hfile
    cases hfile
  | error e =>
    -- a removal that is refused was not one of a file
    simp only [perform, hremove, conclude] at hfile
    have hdone := remove_eq_ok.2
      ⟨ne_root_of_file hfile, ⟨_, hfile, fun hdirectory => by cases hdirectory⟩, rfl⟩
    cases hremove.symm.trans hdone

end MemoryStore

/-- Last calls that a store in memory serves leave no file at the temporary place. -/
theorem CopyJob.Discards.leaves_no_file {job : CopyJob} {store after : MemoryStore}
    {last : List Exchange} (h : job.Discards (callsOf last))
    (htrail : Trail (TargetStep MemoryStore.Serves) store last after) (f : MemoryFile) :
    after.get? job.temp.key ≠ some (.file f) := by
  have hcalls := htrail.callsOf TargetStep.of_silent
  generalize callsOf last = calls at h hcalls
  cases h with
  | absent answer hanswer =>
    cases hcalls with
    | go first rest =>
      cases rest
      obtain ⟨hfound, rfl⟩ := Prod.ext_iff.1 first.of_target
      intro hfile
      have hthere : store.get? job.temp.key = some (.file f) := hfile
      refine hanswer (hfound.symm.trans ?_)
      rw [MemoryStore.perform, MemoryStore.pathExists, hthere]
      rfl
  | present answer =>
    cases hcalls with
    | go first rest =>
      cases rest with
      | go second rest =>
        cases rest
        obtain ⟨-, rfl⟩ := Prod.ext_iff.1 second.of_target
        exact MemoryStore.not_file_of_remove _ job.temp f

/-! ## The theorem -/

/-- With every handler under which the source comes to its end or fails before the bound is used
up, an attempt with a usable id comes to a result or breaks down, and either way its exchanges end
with the last calls.

No call before them is one of them, unless publishing spells it the same. At most one stream was
opened for writing before them; with a result it was closed once, and after a breakdown it was not
closed at all. An attempt with the same calls before the last ones has the same outcome, whatever
its last calls and everything else are answered. And when the target is a store in memory that
serves the last calls, no file is left at the temporary place, whatever stood there before and
however the other calls failed. -/
theorem discards_last {σ : Type} (handler : Handler σ) (s : σ) (bound : Nat) (job : CopyJob)
    (hid : isAttemptId job.attemptId)
    (hends : (deliveredChunks (Program.exchanges handler (copyOnce bound job) s)).length
      < bound) :
    (Program.run handler (copyOnce bound job) s).1 ≠ .unfinished ∧
    ∃ before last, Program.exchanges handler (copyOnce bound job) s = before ++ last ∧
      job.Discards (callsOf last) ∧
      (∀ x ∈ before, x.request ∈ discardingRequests job → x.request ∈ publishingRequests job) ∧
      (createdStreams before).length ≤ 1 ∧
      (match (Program.run handler (copyOnce bound job) s).1 with
        | .broken _ => closedStreams before = []
        | _ => closedStreams before = createdStreams before) ∧
      (∀ before' last' outcome, Yields (copyOnce bound job) (before' ++ last') outcome →
        outcome ≠ .unfinished → callsOf before' = callsOf before →
        job.Discards (callsOf last') →
        outcome = (Program.run handler (copyOnce bound job) s).1) ∧
      (∀ store middle after : MemoryStore, Trail (TargetStep FailStop) store before middle →
        Trail (TargetStep MemoryStore.Serves) middle last after →
        ∀ f, after.get? job.temp.key ≠ some (.file f)) := by
  have hended := ends_of_delivered_lt hends
  obtain ⟨decided, htrail, houtcome⟩ :=
    copyOnce_ended hid (Program.yields_exchanges handler _ s) hended
  obtain ⟨before, last, hsplit, hbefore, hlast⟩ := CopyPhase.discards_trail htrail
  obtain ⟨hledger, hcount⟩ := CopyPhase.created_eq hbefore
  refine ⟨hended, before, last, hsplit, hlast, CopyPhase.publishes_before hbefore, hcount,
    ?_, ?_, ?_⟩
  · rw [houtcome]
    cases decided with
    | ok | error =>
      rw [hledger]
      exact (List.append_nil _).symm
    | broken trouble left => exact CopyPhase.closedStreams_of_filling hbefore rfl
  · intro before' last' outcome hyields hends' hcalls hlast'
    obtain ⟨decided', htrail', rfl⟩ := copyOnce_ended hid hyields hends'
    rw [CopyPhase.eq_of_callsOf_before hbefore htrail' hcalls hlast', houtcome]
  · intro store middle after _ hserved f
    exact hlast.leaves_no_file hserved f

/-- A source without the file of the small job, and a target in which an older attempt with the
same id has left its temporary file. -/
def staleStores : StorePair where
  source := {}
  target := { tree := ⟨[([utf8 "d"], .directory),
    ([utf8 "d", utf8 ".dcp.tmp.7"], .file ⟨utf8 "ab", ⟨1, 64⟩⟩)]⟩ }

theorem discards_last_stale :
    (deliveredChunks (Program.exchanges (StorePair.serving (obliging 0)) (copyOnce 1 smallJob)
      (staleStores, []))).length < 1 ∧
    staleStores.target.get? smallJob.temp.key = some (.file ⟨utf8 "ab", ⟨1, 64⟩⟩) ∧
    ∀ f, (Program.run (StorePair.serving (obliging 0)) (copyOnce 1 smallJob)
      (staleStores, [])).2.1.target.get? smallJob.temp.key ≠ some (.file f) := by
  have hends : (deliveredChunks (Program.exchanges (StorePair.serving (obliging 0))
      (copyOnce 1 smallJob) (staleStores, []))).length < 1 := by decide +kernel
  refine ⟨hends, by decide +kernel, ?_⟩
  obtain ⟨-, before, last, hsplit, -, -, -, -, -, hgone⟩ :=
    discards_last _ _ 1 smallJob (by decide) hends
  have htrail := trail_of_serving
    (Program.trail_exchanges (StorePair.serving (obliging 0)) (copyOnce 1 smallJob)
      (staleStores, []))
  rw [hsplit] at htrail
  obtain ⟨middle, hbefore, hlast⟩ := Trail.append_iff.1 htrail
  have hfail : Trail (TargetStep FailStop) staleStores.target before middle :=
    hbefore.map (f := id) TargetStep.failStop
  exact hgone _ _ _ hfail hlast

/-- The stream of the temporary file is opened and never closed. -/
theorem discards_unclosed :
    isAttemptId unbufferedJob.attemptId = true ∧
    createdStreams (Program.exchanges (obliging 3) (copyOnce 1 unbufferedJob) [utf8 "abc"])
      = [(0 : Nat)] ∧
    closedStreams (Program.exchanges (obliging 3) (copyOnce 1 unbufferedJob) [utf8 "abc"]) = [] :=
  ⟨by decide, rfl, rfl⟩

end StagedCopy
