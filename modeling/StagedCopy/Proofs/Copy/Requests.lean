import StagedCopy.Copy.Attempt
import StagedCopy.Proofs.Execution

/-!
# What the parts of an attempt can ask

Most of an attempt neither opens, fills or closes a stream nor books anything: verifying,
publishing, discarding, reading through the throttle and reporting progress are plain. Only staging
is not, and in it there is one creation, one opening, one closing and one booking. All plain parts
but reporting progress are quiet, too: they ask nothing of the task. What comes after staging is
even discreet: it has no part in the loop over the chunks and in what is told about it.

* `Request.plain` — the request is of none of these kinds; `Request.quiet` — nor is it a status.
* `Request.aside` — the request is no part of moving the bytes and of telling the task about that;
  `Request.discreet` — it is quiet and aside.
* `checkLengths_discreet`, `checkChecksums_discreet`, `promote_discreet`, `discardTemp_discreet` —
  the discreet parts; `throttledRead_quiet`, `reportProgress_plain` — the others.
* `throttledRead_follows` — a read through the throttle is one read and looks at the clock.
* `publish_discreet`, `conclude_discreet` — all that comes after staging.
-/

namespace StagedCopy

open Program

/-- The request opens no stream, moves no bytes to one, closes none, and books nothing. -/
def Request.plain : Request → Bool
  | storage _ (.createFile ..) | storage _ (.openFile _) => false
  | storage _ (.write ..) | storage _ (.close _) => false
  | increment .. => false
  | _ => true

/-- The request is plain and asks nothing of the task. -/
def Request.quiet : Request → Bool
  | setStatus _ => false
  | r => r.plain

/-- The line complains that a status was refused. -/
def Log.Line.complainsOfProgress (line : Log.Line) : Bool :=
  line.level == .warn && (utf8 "Progress update failed for ").isPrefixOf line.text

/-- The request opens no stream, moves no bytes through one, tells the task no status and complains
of none. -/
def Request.aside : Request → Bool
  | storage _ (.createFile ..) | storage _ (.openFile _) => false
  | storage _ (.read ..) | storage _ (.write ..) => false
  | setStatus _ => false
  | log line => !line.complainsOfProgress
  | _ => true

/-- The request is quiet and aside. -/
def Request.discreet (r : Request) : Bool := r.quiet && r.aside

/-- All that the program can ask is plain. -/
def Program.Plain {α : Type} (p : Program α) : Prop := p.Asks fun r => r.plain = true

/-- All that the program can ask is quiet. -/
def Program.Quiet {α : Type} (p : Program α) : Prop := p.Asks fun r => r.quiet = true

/-- All that the program can ask is aside. -/
def Program.Aside {α : Type} (p : Program α) : Prop := p.Asks fun r => r.aside = true

/-- All that the program can ask is discreet. -/
def Program.Discreet {α : Type} (p : Program α) : Prop := p.Asks fun r => r.discreet = true

theorem Program.Quiet.plain {α : Type} {p : Program α} (h : p.Quiet) : p.Plain := by
  refine Program.Asks.mono h fun r hr => ?_
  cases r with
  | setStatus => cases hr
  | _ => exact hr

theorem Program.Discreet.quiet {α : Type} {p : Program α} (h : p.Discreet) : p.Quiet :=
  Program.Asks.mono h fun _ hr => ((Bool.and_eq_true ..).mp hr).1

theorem Program.Discreet.aside {α : Type} {p : Program α} (h : p.Discreet) : p.Aside :=
  Program.Asks.mono h fun _ hr => ((Bool.and_eq_true ..).mp hr).2

variable {α β : Type}

/-! ## Small programs -/

theorem plain_bind {p : Program α} {f : α → Program β} (hp : p.Plain) (hf : ∀ a, (f a).Plain) :
    (p >>= f).Plain :=
  asks_bind hp hf

theorem plain_request {r : Request} (h : r.plain = true) : (Program.request r).Plain :=
  asks_request h

theorem plain_log {level : Log.Level} {text : Bytes} : (Program.log level text).Plain :=
  plain_request rfl

theorem quiet_bind {p : Program α} {f : α → Program β} (hp : p.Quiet) (hf : ∀ a, (f a).Quiet) :
    (p >>= f).Quiet :=
  asks_bind hp hf

theorem quiet_request {r : Request} (h : r.quiet = true) : (Program.request r).Quiet :=
  asks_request h

theorem quiet_log {level : Log.Level} {text : Bytes} : (Program.log level text).Quiet :=
  quiet_request rfl

theorem discreet_bind {p : Program α} {f : α → Program β} (hp : p.Discreet)
    (hf : ∀ a, (f a).Discreet) : (p >>= f).Discreet :=
  asks_bind hp hf

theorem discreet_request {r : Request} (h : r.discreet = true) : (Program.request r).Discreet :=
  asks_request h

theorem discreet_call {side : Side} {c : StorageCall} {failure : Bytes → CopyFailure}
    (h : (Request.storage side c).discreet = true) :
    (Fallible.call side c failure).run.Discreet := by
  refine discreet_bind (discreet_request h) fun answer => ?_
  cases answer with
  | ok value => trivial
  | error message => trivial

/-- Two discreet programs that may fail, one after the other. -/
theorem discreet_fallible_bind {p : Fallible α} {f : α → Fallible β} (hp : p.run.Discreet)
    (hf : ∀ a, (f a).run.Discreet) : (p >>= f).run.Discreet := by
  refine discreet_bind hp fun outcome => ?_
  cases outcome with
  | ok a => exact hf a
  | error failure => trivial

theorem discreet_fallible_ite {c : Prop} [Decidable c] {p q : Fallible α} (hp : p.run.Discreet)
    (hq : q.run.Discreet) : (if c then p else q).run.Discreet := by
  split
  · exact hp
  · exact hq

/-! ## Moving the bytes -/

theorem throttledRead_quiet {input : StreamId} {size : Nat} {throttle : Throttle} :
    (throttle.read Program.clock (Program.call .source (.read input size))).Quiet := by
  refine quiet_bind (quiet_request rfl) fun answer => ?_
  match answer with
  | .error message => trivial
  | .ok [] => trivial
  | .ok (b :: rest) =>
    refine quiet_bind (quiet_request rfl) fun before => ?_
    show Program.Quiet (ite _ _ _)
    split
    · trivial
    · exact quiet_bind (quiet_request rfl) fun _ => quiet_bind (quiet_request rfl) fun _ => trivial

/-- A read through the throttle is one read of the source, and what is asked of the clock after it
leaves a system where it is, when it counts for nothing there. -/
theorem throttledRead_follows {σ : Type} {step : σ → Exchange → σ → Prop} {s : σ}
    {input : StreamId} {size : Nat} {throttle : Throttle}
    {post : Outcome (Except Bytes Bytes × Throttle) → σ → Prop}
    (h : ∀ answer : Except Bytes Bytes, ∃ after,
      step s ⟨.storage .source (.read input size), answer⟩ after ∧
        (∀ time : Nat, step after ⟨.now, time⟩ after) ∧
        (∀ nanoseconds : Int, step after ⟨.sleep nanoseconds, ()⟩ after) ∧
        ∀ throttle', post (.done (answer, throttle')) after) :
    (throttle.read Program.clock (Program.call .source (.read input size))).Follows
      step s post := by
  refine follows_bind.2 fun answer => ?_
  obtain ⟨after, hstep, hnow, hsleep, hpost⟩ := h answer
  refine ⟨after, hstep, ?_⟩
  match answer, hpost with
  | .error message, hpost => exact hpost _
  | .ok [], hpost => exact hpost _
  | .ok (b :: rest), hpost =>
    refine follows_bind.2 fun before => ⟨after, hnow before, ?_⟩
    show Program.Follows step (ite _ _ _) after post
    split
    · exact hpost _
    · exact follows_bind.2 fun _ => ⟨after, hsleep _,
        follows_bind.2 fun _ => ⟨after, hnow _, hpost _⟩⟩

theorem reportProgress_plain {plan : StreamPlan} {copied : Nat} {refused : Bool} :
    (reportProgress plan copied refused).Plain := by
  refine plain_bind (plain_request rfl) fun answer => ?_
  cases answer with
  | ok => trivial
  | error message =>
    cases refused with
    | true => trivial
    | false => exact plain_bind plain_log fun _ => trivial

/-! ## Verifying, publishing and discarding -/

variable {job : CopyJob}

theorem checkLengths_discreet {copied : Nat} : (checkLengths job copied).run.Discreet := by
  refine discreet_fallible_bind (discreet_call rfl) fun source => discreet_fallible_ite ?_ trivial
  exact discreet_fallible_bind (discreet_call rfl) fun temp => discreet_fallible_ite trivial trivial

theorem compareChecksums_discreet {source target : Path} :
    (compareChecksums source target).Discreet := by
  refine discreet_bind (discreet_request rfl) fun answer => ?_
  cases answer with
  | error message => trivial
  | ok sourceSum =>
    refine discreet_bind (discreet_request rfl) fun answer => ?_
    cases answer with
    | error message => trivial
    | ok targetSum =>
      simp only
      split
      · exact discreet_bind (discreet_request rfl) fun _ => trivial
      · trivial

theorem checkChecksums_discreet : (checkChecksums job).run.Discreet := by
  refine discreet_bind (discreet_bind compareChecksums_discreet fun report => trivial)
    fun outcome => ?_
  cases outcome with
  | ok report => exact discreet_fallible_ite trivial trivial
  | error failure => trivial

theorem promote_discreet {temp target : Path} : (promote temp target).run.Discreet := by
  have hrename : (Fallible.call .target (.rename temp target)
      (.promotion .rename temp target)).run.Discreet := discreet_call rfl
  -- what is left once nothing stands at the target
  have hcleared : (ExceptT.run (m := Program) (do
      unless target.parent.isEmpty do
        let housed : Bool ← Fallible.call .target (.pathExists target.parent)
          (.promotion .createParent temp target)
        unless housed do
          Fallible.call .target (.makeDirs target.parent) (.promotion .createParent temp target)
      Fallible.call .target (.rename temp target)
        (.promotion .rename temp target) : Fallible Unit)).Discreet := by
    refine discreet_fallible_ite hrename
      (discreet_fallible_bind (discreet_call rfl) fun housed => ?_)
    exact discreet_fallible_ite hrename
      (discreet_fallible_bind (discreet_call rfl) fun _ => hrename)
  refine discreet_fallible_bind (discreet_call rfl) fun occupied => ?_
  exact discreet_fallible_ite (discreet_fallible_bind (discreet_call rfl) fun _ => hcleared)
    hcleared

theorem discardTemp_discreet {temp : Path} : (discardTemp temp).Discreet := by
  refine discreet_bind (discreet_request rfl) fun answer => ?_
  match answer with
  | .error message => exact discreet_request rfl
  | .ok false => trivial
  | .ok true =>
    refine discreet_bind (discreet_request rfl) fun answer => ?_
    cases answer with
    | error message => exact discreet_request rfl
    | ok => exact discreet_request rfl

/-! ## The attempt -/

/-- What follows staging in an attempt, once staging has succeeded. -/
theorem publish_discreet {copied : Nat} : (ExceptT.run (m := Program) (do
    checkLengths job copied
    if 0 < copied ∧ job.options.verification = .verify then
      checkChecksums job
    promote job.temp job.target
    pure copied : Fallible Nat)).Discreet := by
  have hpromote : (ExceptT.run (m := Program) (do
      promote job.temp job.target
      pure copied : Fallible Nat)).Discreet :=
    discreet_fallible_bind promote_discreet fun _ => trivial
  refine discreet_fallible_bind checkLengths_discreet fun _ => discreet_fallible_ite ?_ hpromote
  exact discreet_fallible_bind checkChecksums_discreet fun _ => hpromote

/-- What follows the steps of an attempt, once their result is decided. -/
theorem conclude_discreet {result : Except CopyFailure Nat} : (match result with
    | .ok copied => do
      Program.log .debug (utf8 "Copied " ++ decimal copied ++ utf8 " bytes from "
        ++ job.source.path ++ utf8 " to " ++ job.target)
      discardTemp job.temp
      pure (.ok copied)
    | .error failure => do
      let error := job.report failure
      Program.log .error (utf8 "Copy failed: " ++ error.describe)
      discardTemp job.temp
      pure (.error error) : Program (Except CopyError Nat)).Discreet := by
  have hdiscard {outcome : Except CopyError Nat} :
      (discardTemp job.temp >>= fun _ => pure outcome).Discreet :=
    discreet_bind discardTemp_discreet fun _ => trivial
  cases result with
  | ok copied => exact discreet_bind (discreet_request rfl) fun _ => hdiscard
  | error failure => exact discreet_bind (discreet_request rfl) fun _ => hdiscard

end StagedCopy
