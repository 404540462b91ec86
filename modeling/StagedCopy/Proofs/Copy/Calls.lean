import Mathlib.Logic.Relation
import StagedCopy.Proofs.Copy.Simulation

/-!
# Attempts call by call

An attempt with whatever answers its calls is one transition system, whose steps are the calls. The
phase decides which call comes next, and every answer leads on to one phase. So where the answers
are decided as well, an attempt has one run only, and two attempts can be compared call by call:
when each call of the first can be matched by one of the second, everything that the second comes
to is matched by something that the first comes to.

* `CopyPhase.next` — the call that comes next; `CopyPhase.exists_step` — every answer leads on.
* `CopyPhase.Move` — a call with its answer; `CopyPhase.moves_of_run` — the calls of a run.
* `matched_of_moves`, `exists_matched` — what is kept call by call, followed from either side.
* `matched_ends` — where two systems stop, they are matched.
-/

namespace StagedCopy

open Program (Exchange Handler)
open Relation (ReflTransGen)
open Relator (RightUnique)

namespace CopyPhase

variable {job : CopyJob} {phase after : CopyPhase} {side : Side} {call : StorageCall}

/-- The call that comes next, and the store that it goes to. -/
def next (job : CopyJob) : CopyPhase → Option (Side × StorageCall)
  | creating => some (.target, .createFile job.temp true job.options.bufferSize job.layout)
  | opening _ => some (.source, .openFile job.source.path)
  | reading _ input _ => some (.source, .read input job.plan.chunkSize)
  | writing output _ _ chunk => some (.target, .write output chunk)
  | closing output _ _ => some (.target, .close output)
  | sizingSource _ => some (.source, .status job.source.path)
  | sizingTemp _ => some (.target, .status job.temp)
  | summingSource _ => some (.source, .checksum job.source.path)
  | summingTemp .. => some (.target, .checksum job.temp)
  | findingTarget _ => some (.target, .pathExists job.target)
  | clearingTarget _ => some (.target, .remove job.target false)
  | findingParent _ => some (.target, .pathExists job.target.parent)
  | makingParent _ => some (.target, .makeDirs job.target.parent)
  | publishing _ => some (.target, .rename job.temp job.target)
  | findingTemp _ => some (.target, .pathExists job.temp)
  | clearingTemp _ => some (.target, .remove job.temp false)
  | finished _ => none

/-- No other call than the next one moves an attempt on. -/
theorem Step.next_eq {x : Exchange} (h : Step job phase x after) (hx : x.request.isCall = true) :
    ∃ side call, ∃ answer : call.Answer, x = ⟨.storage side call, answer⟩ ∧
      phase.next job = some (side, call) := by
  cases h with
  | silent hsilent => cases hsilent.symm.trans hx
  | _ => exact ⟨_, _, _, rfl, rfl⟩

/-- Whatever is answered to the next call leads on. -/
theorem exists_step (h : phase.next job = some (side, call)) (answer : call.Answer) :
    ∃ after, Step job phase ⟨.storage side call, answer⟩ after := by
  cases phase with
  | creating =>
    cases h
    match answer with
    | .ok (.ok output) => exact ⟨_, .created output⟩
    | .ok (.error trouble) => exact ⟨_, .createdUnbuffered trouble⟩
    | .error message => exact ⟨_, .notCreated message⟩
  | opening output =>
    cases h
    cases answer with
    | ok input =>
      cases hbuffer : job.plan.bufferTrouble? with
      | none => exact ⟨_, .opened input hbuffer⟩
      | some trouble => exact ⟨_, .openedUnbuffered input hbuffer⟩
    | error message => exact ⟨_, .notOpened message⟩
  | reading output input moved =>
    cases h
    match answer with
    | .ok [] => exact ⟨_, .ended⟩
    | .ok (b :: rest) => exact ⟨_, .delivered (List.cons_ne_nil b rest)⟩
    | .error message => exact ⟨_, .notRead message⟩
  | writing output input moved chunk =>
    cases h
    cases answer with
    | ok => exact ⟨_, .written⟩
    | error message => exact ⟨_, .notWritten message⟩
  | closing output moved failed =>
    cases h
    cases failed with
    | some failure => exact ⟨_, .closedAfter answer⟩
    | none =>
      cases answer with
      | ok => exact ⟨_, .closed⟩
      | error message => exact ⟨_, .notClosed message⟩
  | sizingSource moved =>
    cases h
    cases answer with
    | ok status =>
      by_cases hlength : FileStatus.length status = tally moved
      · exact ⟨_, .sourceSized hlength⟩
      · exact ⟨_, .sourceOff hlength⟩
    | error message => exact ⟨_, .sourceUnsized message⟩
  | sizingTemp moved =>
    cases h
    cases answer with
    | ok status =>
      by_cases hlength : FileStatus.length status = tally moved
      · exact ⟨_, .tempSized hlength⟩
      · exact ⟨_, .tempOff hlength⟩
    | error message => exact ⟨_, .tempUnsized message⟩
  | summingSource moved =>
    cases h
    cases answer with
    | ok sum => exact ⟨_, .sourceSummed sum⟩
    | error message => exact ⟨_, .sourceUnsummed message⟩
  | summingTemp moved sourceSum =>
    cases h
    cases answer with
    | ok tempSum =>
      by_cases hverdict : (ChecksumReport.ofChecksums sourceSum tempSum).verdict = .equal
      · exact ⟨_, .tempSummed hverdict⟩
      · exact ⟨_, .tempDiffers hverdict⟩
    | error message => exact ⟨_, .tempUnsummed message⟩
  | findingTarget moved =>
    cases h
    match answer with
    | .ok true => exact ⟨_, .targetFound⟩
    | .ok false => exact ⟨_, .targetAbsent⟩
    | .error message => exact ⟨_, .targetUnknown message⟩
  | clearingTarget moved =>
    cases h
    cases answer with
    | ok => exact ⟨_, .targetCleared⟩
    | error message => exact ⟨_, .targetKept message⟩
  | findingParent moved =>
    cases h
    match answer with
    | .ok true => exact ⟨_, .parentFound⟩
    | .ok false => exact ⟨_, .parentAbsent⟩
    | .error message => exact ⟨_, .parentUnknown message⟩
  | makingParent moved =>
    cases h
    cases answer with
    | ok => exact ⟨_, .parentMade⟩
    | error message => exact ⟨_, .parentNotMade message⟩
  | publishing moved =>
    cases h
    cases answer with
    | ok => exact ⟨_, .renamed⟩
    | error message => exact ⟨_, .notRenamed message⟩
  | findingTemp result =>
    cases h
    match answer with
    | .ok true => exact ⟨_, .tempFound⟩
    | .ok false => exact ⟨_, .tempAbsent⟩
    | .error message => exact ⟨_, .tempUnknown message⟩
  | clearingTemp result =>
    cases h
    exact ⟨_, .tempCleared answer⟩
  | finished result => cases h

/-! ## Calls as steps -/

variable {σ : Type} {served : σ → Exchange → σ → Prop}

/-- A call of an attempt is answered. -/
def Move (job : CopyJob) (served : σ → Exchange → σ → Prop) (a b : CopyPhase × σ) : Prop :=
  ∃ x : Exchange, x.request.isCall = true ∧ Step job a.1 x b.1 ∧ served a.2 x b.2

/-- An attempt goes on by its calls alone. -/
theorem moves_of_trails
    (hsilent : ∀ {s x s'}, served s x s' → x.request.isCall = false → s' = s)
    {exchanges : List Exchange} {s s' : σ} (hphase : Trail (Step job) phase exchanges after)
    (hserved : Trail served s exchanges s') :
    ReflTransGen (Move job served) (phase, s) (after, s') := by
  refine Trail.together (I := fun other t =>
    ReflTransGen (Move job served) (phase, s) (other, t)) ?_ hphase hserved .refl
  intro other t x other' t' hmoves hstep hanswer
  cases hx : x.request.isCall with
  | true => exact hmoves.tail ⟨x, hx, hstep, hanswer⟩
  | false =>
    rw [hstep.eq_of_silent hx, hsilent hanswer hx]
    exact hmoves

/-- A run of an attempt is a number of moves from the first phase on. It is left unfinished while it
is still reading, or it ends in the last phase, with the outcome that this one holds. -/
theorem moves_of_run {τ : Type} (job : CopyJob) (handler : Handler τ) (part : τ → σ) (bound : Nat)
    (hid : isAttemptId job.attemptId = true)
    (hsilent : ∀ {s x s'}, served s x s' → x.request.isCall = false → s' = s)
    (hserves : ∀ {t x t'}, handler.step t x t' → served (part t) x (part t')) (t : τ) :
    ∃ phase, ReflTransGen (Move job served) (creating, part t)
        (phase, part (Program.run handler (copyOnce bound job) t).2) ∧
      ((∃ output input moved, phase = reading output input moved ∧ moved.length = bound) ∨
        ∃ decided, phase = finished decided ∧
          (Program.run handler (copyOnce bound job) t).1 = job.outcome decided) := by
  obtain ⟨phase, hphase, hend⟩ := (copyOnce_follows hid).of_handler handler t
  have htrail := (Program.trail_exchanges handler (copyOnce bound job) t).map (f := part) hserves
  refine ⟨phase, moves_of_trails hsilent hphase htrail, ?_⟩
  cases houtcome : (Program.run handler (copyOnce bound job) t).1 with
  | unfinished =>
    rw [houtcome] at hend
    exact .inl hend
  | done | broken =>
    rw [houtcome] at hend
    exact .inr hend

/-- Where the answers to calls are decided, so are the moves. -/
theorem move_unique
    (hserved : ∀ {s side call} {answer answer' : call.Answer} {s' s'' : σ},
      served s ⟨.storage side call, answer⟩ s' → served s ⟨.storage side call, answer'⟩ s'' →
        answer = answer' ∧ s' = s'') : RightUnique (Move job served) := by
  intro a b b' h h'
  obtain ⟨x, hx, hstep, hanswer⟩ := h
  obtain ⟨x', hx', hstep', hanswer'⟩ := h'
  obtain ⟨side, call, answer, rfl, hnext⟩ := hstep.next_eq hx
  obtain ⟨side', call', answer', rfl, hnext'⟩ := hstep'.next_eq hx'
  cases hnext.symm.trans hnext'
  obtain ⟨rfl, hstate⟩ := hserved hanswer hanswer'
  exact Prod.ext (hstep.unique hstep') hstate

/-- Unless it is over, an attempt moves on when its calls are answered. -/
theorem exists_move
    (hserved : ∀ (s : σ) (side : Side) (call : StorageCall),
      ∃ (answer : call.Answer) (s' : σ), served s ⟨.storage side call, answer⟩ s')
    {a : CopyPhase × σ} (h : a.1.next job ≠ none) : ∃ b, Move job served a b := by
  obtain ⟨⟨side, call⟩, hnext⟩ := Option.ne_none_iff_exists'.1 h
  obtain ⟨answer, s', hanswer⟩ := hserved a.2 side call
  obtain ⟨after, hstep⟩ := exists_step hnext answer
  exact ⟨(after, s'), _, rfl, hstep, hanswer⟩

/-- When an attempt is over, it does not move. -/
theorem Move.not_of_finished {result : AttemptEnd} {s : σ} {b : CopyPhase × σ} :
    ¬ Move job served (.finished result, s) b := by
  rintro ⟨x, hx, hstep, -⟩
  obtain ⟨side, call, answer, -, hnext⟩ := hstep.next_eq hx
  cases hnext

end CopyPhase

/-! ## Two systems call by call -/

section matching

variable {α β : Type} {first : α → α → Prop} {second : β → β → Prop} {matched : α → β → Prop}

/-- A second system without choices that matches every step of a first, which does not stop before
it, comes to nothing that the first has no match for. -/
theorem matched_of_moves
    (hkeeps : ∀ a a' b, matched a b → first a a' → ∃ b', second b b' ∧ matched a' b')
    (hgoes : ∀ a b b', matched a b → second b b' → ∃ a', first a a')
    (hunique : RightUnique second)
    {a : α} {b b' : β} (h : matched a b) (hmoves : ReflTransGen second b b') :
    ∃ a', ReflTransGen first a a' ∧ matched a' b' := by
  induction hmoves with
  | refl => exact ⟨a, .refl, h⟩
  | tail _ hlast ih =>
    obtain ⟨middle, hfirst, hmiddle⟩ := ih
    obtain ⟨a', hmove⟩ := hgoes _ _ _ hmiddle hlast
    obtain ⟨b', hmove', hmatched⟩ := hkeeps _ _ _ hmiddle hmove
    obtain rfl := hunique hmove' hlast
    exact ⟨a', hfirst.tail hmove, hmatched⟩

/-- Everything that the first system comes to is matched. -/
theorem exists_matched
    (hkeeps : ∀ a a' b, matched a b → first a a' → ∃ b', second b b' ∧ matched a' b')
    {a a' : α} {b : β} (h : matched a b) (hmoves : ReflTransGen first a a') :
    ∃ b', ReflTransGen second b b' ∧ matched a' b' := by
  induction hmoves with
  | refl => exact ⟨b, .refl, h⟩
  | tail _ hlast ih =>
    obtain ⟨middle, hsecond, hmiddle⟩ := ih
    obtain ⟨b', hmove, hmatched⟩ := hkeeps _ _ _ hmiddle hlast
    exact ⟨b', hsecond.tail hmove, hmatched⟩

/-- A system without choices ends in one state. -/
theorem end_unique (hunique : RightUnique first) {a b b' : α}
    (h : ReflTransGen first a b) (h' : ReflTransGen first a b') (hend : ∀ c, ¬ first b c)
    (hend' : ∀ c, ¬ first b' c) : b = b' := by
  rcases ReflTransGen.total_of_right_unique hunique h h' with hgoes | hgoes
  · rcases hgoes.cases_head with heq | ⟨c, hmove, -⟩
    · exact heq
    · exact absurd hmove (hend c)
  · rcases hgoes.cases_head with heq | ⟨c, hmove, -⟩
    · exact heq.symm
    · exact absurd hmove (hend' c)

/-- Where both stop, they are matched. -/
theorem matched_ends
    (hkeeps : ∀ a a' b, matched a b → first a a' → ∃ b', second b b' ∧ matched a' b')
    (hgoes : ∀ a b b', matched a b → second b b' → ∃ a', first a a')
    (hunique : RightUnique second)
    {a a' : α} {b b' : β} (h : matched a b) (hmoves : ReflTransGen first a a')
    (hmoves' : ReflTransGen second b b') (hend : ∀ c, ¬ first a' c) (hend' : ∀ c, ¬ second b' c) :
    matched a' b' := by
  obtain ⟨reached, hreached, hmatched⟩ := exists_matched hkeeps h hmoves
  have hstops : ∀ c, ¬ second reached c := by
    intro c hmove
    obtain ⟨c', hmove'⟩ := hgoes _ _ _ hmatched hmove
    exact hend c' hmove'
  obtain rfl := end_unique hunique hreached hmoves' hstops hend'
  exact hmatched

end matching

end StagedCopy
