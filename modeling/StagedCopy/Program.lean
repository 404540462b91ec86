import StagedCopy.Counter
import StagedCopy.Log
import StagedCopy.Storage

/-!
# Programs

A copy is a program that talks to its surroundings only through requests: calls on the source and
the target store, status texts and counters for the task, the clock, and log lines. Such a program
is a tree that branches on the answers, so the same program can be run against stores of any kind
and can be reasoned about for all answers at once.

A read loop has no bound of its own; a program that uses up the bound it was given is
`unfinished`. A program that meets what it cannot go on after is `broken`.

* `Request` and `Request.Answer` — what a program can ask, and the type of each answer.
* `Program` — the tree, a monad.
* `Program.onBreakdown` — what is still done when a program breaks down.
* `Program.Outcome`, `Program.run` — running it with a handler that answers requests from a state.
* `Program.Run` — the finished runs under arbitrary answers, each with its exchanges in order.

`Program.run_bind` and `Program.run_bind_iff` say that both kinds of run go through one program
after another.
-/

namespace StagedCopy

/-! ## Requests -/

/-- The two stores of a copy. -/
inductive Side where
  | source | target
  deriving DecidableEq, Repr

/-- What a program can ask of its surroundings. -/
inductive Request where
  /-- A call on one of the stores. -/
  | storage (side : Side) (call : StorageCall)
  /-- A new status text for the task. -/
  | setStatus (text : Bytes)
  /-- A counter of the task grows. -/
  | increment (counter : Counter) (value : Nat)
  /-- The nanoseconds that the clock shows. -/
  | now
  /-- A wait of some nanoseconds; zero or less is no wait. -/
  | sleep (nanoseconds : Int)
  /-- A line for the log. -/
  | log (line : Log.Line)
  deriving DecidableEq, Repr

/-- The type of the answer to a request. A task may refuse a status text or a counter with a
message. -/
def Request.Answer : Request → Type
  | storage _ call => call.Answer
  | setStatus _ => Except Bytes Unit
  | increment .. => Except Bytes Unit
  | now => Nat
  | sleep _ => Unit
  | log _ => Unit

/-! ## Programs -/

/-- A program that ends with an `α`: it is done, it asks something and goes on with the answer, it
has used up its bound, or it has broken down. -/
inductive Program (α : Type) where
  | done (value : α)
  | unfinished
  | broken (trouble : Breakdown)
  | ask (request : Request) (next : request.Answer → Program α)

namespace Program

variable {α β σ : Type}

/-- One program after another. -/
def bind : Program α → (α → Program β) → Program β
  | done a, f => f a
  | unfinished, _ => unfinished
  | broken trouble, _ => broken trouble
  | ask request next, f => ask request fun answer => bind (next answer) f

instance : Monad Program where
  pure := done
  bind := bind

theorem bind_done (p : Program α) : p.bind done = p := by
  induction p with
  | done | unfinished | broken => rfl
  | ask request next ih => simp [bind, ih]

theorem bind_assoc {γ : Type} (p : Program α) (f : α → Program β) (g : β → Program γ) :
    (p.bind f).bind g = p.bind fun a => (f a).bind g := by
  induction p with
  | done | unfinished | broken => rfl
  | ask request next ih => simp [bind, ih]

instance : LawfulMonad Program := LawfulMonad.mk' Program bind_done (fun _ _ => rfl) bind_assoc

/-- A program with something that is still done when it breaks down, before the breakdown goes
on. -/
def onBreakdown : Program α → Program Unit → Program α
  | done a, _ => done a
  | unfinished, _ => unfinished
  | broken trouble, cleanup => cleanup.bind fun _ => broken trouble
  | ask request next, cleanup => ask request fun answer => onBreakdown (next answer) cleanup

/-! ## Single requests -/

/-- A single request. -/
def request (r : Request) : Program r.Answer := ask r done

/-- A call on one of the stores. -/
def call (side : Side) (c : StorageCall) : Program c.Answer := request (.storage side c)

/-- The nanoseconds that the clock shows. -/
def now : Program Nat := request .now

/-- A wait of some nanoseconds. -/
def sleep (nanoseconds : Int) : Program Unit := request (.sleep nanoseconds)

/-- A line for the log. -/
def log (level : Log.Level) (text : Bytes) : Program Unit := request (.log ⟨level, text⟩)

/-- A counter of the task grows; when the task refuses, this is logged and nothing more. -/
def incrementSafely (counter : Counter) (value : Nat) : Program Unit := do
  match ← request (.increment counter value) with
  | .ok () => pure ()
  | .error message =>
    log .warn (utf8 "Could not increment counter " ++ counter.name ++ utf8 " by " ++ decimal value
      ++ utf8 ": " ++ message)

/-! ## Running -/

/-- Answers to requests from a state. -/
abbrev Handler (σ : Type) : Type := (r : Request) → σ → r.Answer × σ

/-- How a program ends: with a value, with its bound used up, or with a breakdown. -/
inductive Outcome (α : Type) where
  | done (value : α)
  | unfinished
  | broken (trouble : Breakdown)
  deriving DecidableEq

/-- The outcome with another value. -/
def Outcome.map (f : α → β) : Outcome α → Outcome β
  | done a => done (f a)
  | unfinished => unfinished
  | broken trouble => broken trouble

/-- The value of a program that is done. -/
def Outcome.value? : Outcome α → Option α
  | done a => some a
  | _ => none

theorem Outcome.eq_done_of_value? {outcome : Outcome α} {a : α} (h : outcome.value? = some a) :
    outcome = done a := by
  cases outcome with
  | done b =>
    obtain rfl : b = a := Option.some.inj h
    rfl
  | unfinished | broken => cases h

/-- The outcome of a program, and the state that the handler is left with. -/
def run (handler : Handler σ) : Program α → σ → Outcome α × σ
  | done a, s => (.done a, s)
  | unfinished, s => (.unfinished, s)
  | broken trouble, s => (.broken trouble, s)
  | ask r next, s =>
    let (answer, s') := handler r s
    run handler (next answer) s'

/-- To run one program after another is to run the second from where the first left off. -/
theorem run_bind (handler : Handler σ) (p : Program α) (f : α → Program β) (s : σ) :
    run handler (p.bind f) s =
      match run handler p s with
      | (.done a, after) => run handler (f a) after
      | (.unfinished, after) => (.unfinished, after)
      | (.broken trouble, after) => (.broken trouble, after) := by
  induction p generalizing s with
  | done | unfinished | broken => rfl
  | ask r next ih => exact ih (handler r s).1 (handler r s).2

/-- A request with the answer that it got. -/
structure Exchange where
  request : Request
  answer : request.Answer

/-- `Run p exchanges a`: given the answers in `exchanges`, the program asks exactly these requests
in this order and is done with `a`. -/
inductive Run : Program α → List Exchange → α → Prop where
  | done (a : α) : Run (done a) [] a
  | ask {r : Request} {next : r.Answer → Program α} {exchanges : List Exchange} {a : α}
      (answer : r.Answer) (rest : Run (next answer) exchanges a) :
      Run (ask r next) (⟨r, answer⟩ :: exchanges) a

/-- The finished runs of one program after another are those of the first with those of the second
after them. -/
theorem run_bind_iff {p : Program α} {f : α → Program β} {exchanges : List Exchange} {b : β} :
    Run (p.bind f) exchanges b ↔
      ∃ first second a, exchanges = first ++ second ∧ Run p first a ∧ Run (f a) second b := by
  induction p generalizing exchanges with
  | done a =>
    constructor
    · intro h
      exact ⟨[], exchanges, a, rfl, .done a, h⟩
    · rintro ⟨first, second, a', rfl, hfirst, hsecond⟩
      cases hfirst
      exact hsecond
  | unfinished | broken =>
    constructor
    · intro h
      cases h
    · rintro ⟨_, _, _, _, h, _⟩
      cases h
  | ask r next ih =>
    constructor
    · intro h
      cases h with
      | ask answer rest =>
        obtain ⟨first, second, a, rfl, hfirst, hsecond⟩ := (ih answer).1 rest
        exact ⟨⟨r, answer⟩ :: first, second, a, rfl, .ask answer hfirst, hsecond⟩
    · rintro ⟨first, second, a, rfl, hfirst, hsecond⟩
      cases hfirst with
      | ask answer rest =>
        exact .ask answer ((ih answer).2 ⟨_, second, a, rfl, rest, hsecond⟩)

end Program

end StagedCopy
