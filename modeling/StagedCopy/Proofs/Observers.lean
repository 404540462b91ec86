import StagedCopy.Proofs.Execution

/-!
# Programs beside observers

What a program tells its task and what it writes to the log goes to observers; all else are
dealings with the stores and the clock. Two programs that are alike up to what they tell cannot be
told apart by the stores and the clock, whatever the observers answer.

* `Request.tells` — the request goes to the observers; `Program.dealings` — the exchanges that do
  not.
* `World`, `Observer` — the stores and the clock, and the observers; `World.observed` — both
  together as a handler.
* `Program.Alike` — two programs are alike up to what they tell; `alike_bind` takes this apart along
  the programs, `alike_of_tells` says it of programs that do nothing but tell.
* `Program.Unswayed` — what observers cannot change about a run; `Program.Alike.unswayed` — they
  cannot, for programs that are alike.
-/

namespace StagedCopy

/-- The request tells the observers something: a status, a counter or a log line. -/
def Request.tells : Request → Bool
  | setStatus _ | increment .. | log _ => true
  | _ => false

/-! ## The world and its observers -/

/-- The two stores and the clock, which share a state. -/
structure World (σ : Type) where
  call : Side → (c : StorageCall) → σ → c.Answer × σ
  now : σ → Nat × σ
  sleep : Int → σ → σ

/-- Those who are told about a copy, with a state of their own: a task, which may refuse a status
or a counter with the message of an exception, and the log. -/
structure Observer (τ : Type) where
  setStatus : Bytes → τ → Except Bytes Unit × τ
  increment : Counter → Nat → τ → Except Bytes Unit × τ
  log : Log.Line → τ → τ

/-- The world with an observer beside it: each answers what is asked of it, and neither touches the
state of the other. -/
def World.observed {σ τ : Type} (world : World σ) (observer : Observer τ) :
    Program.Handler (σ × τ)
  | .storage side c, (s, t) => ((world.call side c s).1, (world.call side c s).2, t)
  | .now, (s, t) => ((world.now s).1, (world.now s).2, t)
  | .sleep nanoseconds, (s, t) => ((), world.sleep nanoseconds s, t)
  | .setStatus text, (s, t) => ((observer.setStatus text t).1, s, (observer.setStatus text t).2)
  | .increment counter value, (s, t) =>
    ((observer.increment counter value t).1, s, (observer.increment counter value t).2)
  | .log line, (s, t) => ((), s, observer.log line t)

section world

variable {σ τ τ' : Type} (world : World σ) (observer : Observer τ) (observer' : Observer τ')
  {r : Request} (s : σ) (t : τ) (t' : τ')

/-- What is told to the observer leaves the world alone. -/
theorem World.observed_of_tells (h : r.tells = true) :
    (world.observed observer r (s, t)).2.1 = s := by
  cases r with
  | setStatus | increment | log => rfl
  | _ => cases h

/-- What is asked of the world does not depend on the observer. -/
theorem World.observed_of_not_tells (h : r.tells = false) :
    (world.observed observer r (s, t)).1 = (world.observed observer' r (s, t')).1 ∧
      (world.observed observer r (s, t)).2.1 = (world.observed observer' r (s, t')).2.1 := by
  cases r with
  | setStatus | increment | log => cases h
  | _ => exact ⟨rfl, rfl⟩

end world

namespace Program

/-! ## Programs that are alike -/

variable {α β γ δ : Type}

/-- Two programs ask the same of the world, in the same order, and go on alike whatever it answers;
between, each may tell the observers whatever it likes, and their answers make no difference. Where
they are done, their values are related. -/
inductive Alike (R : α → β → Prop) : Program α → Program β → Prop where
  | done {a : α} {b : β} (h : R a b) : Alike R (done a) (done b)
  | unfinished : Alike R unfinished unfinished
  | broken (trouble : Breakdown) : Alike R (broken trouble) (broken trouble)
  | ask {r : Request} {next : r.Answer → Program α} {next' : r.Answer → Program β}
      (hr : r.tells = false) (h : ∀ answer, Alike R (next answer) (next' answer)) :
      Alike R (ask r next) (ask r next')
  | tellFirst {r : Request} {next : r.Answer → Program α} {q : Program β} (hr : r.tells = true)
      (h : ∀ answer, Alike R (next answer) q) : Alike R (ask r next) q
  | tellSecond {p : Program α} {r : Request} {next : r.Answer → Program β} (hr : r.tells = true)
      (h : ∀ answer, Alike R p (next answer)) : Alike R p (ask r next)

theorem Alike.mono {R S : α → β → Prop} {p : Program α} {q : Program β} (h : Alike R p q)
    (himp : ∀ a b, R a b → S a b) : Alike S p q := by
  induction h with
  | done h => exact .done (himp _ _ h)
  | unfinished => exact .unfinished
  | broken trouble => exact .broken trouble
  | ask hr _ ih => exact .ask hr ih
  | tellFirst hr _ ih => exact .tellFirst hr ih
  | tellSecond hr _ ih => exact .tellSecond hr ih

/-- One program after another. -/
theorem alike_bind {R : α → β → Prop} {S : γ → δ → Prop} {p : Program α} {q : Program β}
    {f : α → Program γ} {g : β → Program δ} (h : Alike R p q)
    (hnext : ∀ a b, R a b → Alike S (f a) (g b)) : Alike S (p >>= f) (q >>= g) := by
  show Alike S (p.bind f) (q.bind g)
  induction h with
  | done h => exact hnext _ _ h
  | unfinished => exact .unfinished
  | broken trouble => exact .broken trouble
  | ask hr _ ih => exact .ask hr ih
  | tellFirst hr _ ih => exact .tellFirst hr ih
  | tellSecond hr _ ih => exact .tellSecond hr ih

/-- What is still done after a breakdown is alike as well. -/
theorem alike_onBreakdown {R : α → β → Prop} {p : Program α} {q : Program β}
    {cleanup cleanup' : Program Unit} (h : Alike R p q)
    (hcleanup : Alike (fun _ _ => True) cleanup cleanup') :
    Alike R (p.onBreakdown cleanup) (q.onBreakdown cleanup') := by
  induction h with
  | done h => exact .done h
  | unfinished => exact .unfinished
  | broken trouble => exact alike_bind hcleanup fun _ _ _ => .broken trouble
  | ask hr _ ih => exact .ask hr ih
  | tellFirst hr _ ih => exact .tellFirst hr ih
  | tellSecond hr _ ih => exact .tellSecond hr ih

/-- A program that does nothing but tell the observers something. -/
def Tells : Program α → Prop
  | done _ => True
  | unfinished => False
  | broken _ => False
  | ask r next => r.tells = true ∧ ∀ answer : r.Answer, Tells (next answer)

theorem tells_request {r : Request} (h : r.tells = true) : (request r).Tells :=
  ⟨h, fun _ => trivial⟩

theorem tells_bind {p : Program α} {f : α → Program β} (hp : p.Tells) (hf : ∀ a, (f a).Tells) :
    (p >>= f).Tells := by
  show (p.bind f).Tells
  induction p with
  | done a => exact hf a
  | unfinished | broken => exact hp
  | ask r next ih => exact ⟨hp.1, fun answer => ih answer (hp.2 answer)⟩

/-- Programs that do nothing but tell are alike, whatever they tell and whatever they are
answered. -/
theorem alike_of_tells {p : Program α} {q : Program β} (hp : p.Tells) (hq : q.Tells) :
    Alike (fun _ _ => True) p q := by
  induction p with
  | done a =>
    induction q with
    | done b => exact .done trivial
    | unfinished | broken => exact hq.elim
    | ask r next ih => exact .tellSecond hq.1 fun answer => ih answer (hq.2 answer)
  | unfinished | broken => exact hp.elim
  | ask r next ih => exact .tellFirst hp.1 fun answer => ih answer (hp.2 answer)

/-! ### Programs alike to themselves -/

/-- The program comes to the same whatever it is answered by the observers. -/
def Deaf (p : Program α) : Prop := Alike Eq p p

theorem deaf_done (a : α) : (done a).Deaf := .done rfl

theorem deaf_request {r : Request} (h : r.tells = false) : (request r).Deaf :=
  .ask h fun _ => .done rfl

theorem deaf_bind {p : Program α} {f : α → Program β} (hp : p.Deaf) (hf : ∀ a, (f a).Deaf) :
    (p >>= f).Deaf := by
  refine alike_bind hp ?_
  rintro a _ rfl
  exact hf a

theorem deaf_broken (trouble : Breakdown) : (broken trouble : Program α).Deaf := .broken trouble

theorem deaf_onBreakdown {p : Program α} {cleanup : Program Unit} (hp : p.Deaf)
    (hcleanup : cleanup.Deaf) : (p.onBreakdown cleanup).Deaf :=
  alike_onBreakdown hp (hcleanup.mono fun _ _ _ => trivial)

/-- A program that does nothing but tell, and has no more than one value to end with. -/
theorem deaf_of_tells {p : Program Unit} (h : p.Tells) : p.Deaf :=
  (alike_of_tells h h).mono fun _ _ _ => rfl

theorem incrementSafely_tells {counter : Counter} {value : Nat} :
    (incrementSafely counter value).Tells := by
  refine tells_bind (tells_request rfl) fun answer => ?_
  cases answer with
  | ok => trivial
  | error message => exact tells_request rfl

/-! ## Runs beside observers -/

/-- The exchanges of a program with the world, in order. -/
def dealings {σ : Type} (handler : Handler σ) (p : Program α) (s : σ) : List Exchange :=
  (exchanges handler p s).filter fun x => !x.request.tells

section runs

variable {σ τ τ' : Type} {handler : Handler σ} {s : σ} {r : Request} {next : r.Answer → Program α}

theorem dealings_of_tells (h : r.tells = true) :
    dealings handler (ask r next) s = dealings handler (next (handler r s).1) (handler r s).2 :=
  List.filter_cons_of_neg (by simp [h])

theorem dealings_of_not_tells (h : r.tells = false) :
    dealings handler (ask r next) s =
      ⟨r, (handler r s).1⟩ :: dealings handler (next (handler r s).1) (handler r s).2 :=
  List.filter_cons_of_pos (by simp [h])

/-- Two programs, each beside an observer of its own, come to the same end in one world, have the
same dealings with it, and leave it in the same state. -/
structure Unswayed (world : World σ) (observer : Observer τ) (observer' : Observer τ')
    (p q : Program α) (s : σ) (t : τ) (t' : τ') : Prop where
  outcome : (run (world.observed observer) p (s, t)).1
    = (run (world.observed observer') q (s, t')).1
  state : (run (world.observed observer) p (s, t)).2.1
    = (run (world.observed observer') q (s, t')).2.1
  dealings : dealings (world.observed observer) p (s, t)
    = dealings (world.observed observer') q (s, t')

section unswayed

variable {world : World σ} {observer : Observer τ} {observer' : Observer τ'} {p q : Program α}
  {s : σ} {t : τ} {t' : τ'}

theorem Unswayed.symm (h : Unswayed world observer observer' p q s t t') :
    Unswayed world observer' observer q p s t' t :=
  ⟨h.outcome.symm, h.state.symm, h.dealings.symm⟩

/-- The world takes no notice of what an observer is told. -/
theorem unswayed_tell (hr : r.tells = true)
    (h : ∀ answer t, Unswayed world observer observer' (next answer) q s t t') :
    Unswayed world observer observer' (ask r next) q s t t' := by
  have hstate := world.observed_of_tells observer s t hr
  rcases hanswer : world.observed observer r (s, t) with ⟨answer, s₁, t₁⟩
  rw [hanswer] at hstate
  obtain rfl : s₁ = s := hstate
  obtain ⟨houtcome, hworld, hdealings⟩ := h answer t₁
  refine ⟨?_, ?_, ?_⟩
  · simpa only [run, hanswer] using houtcome
  · simpa only [run, hanswer] using hworld
  · rw [dealings_of_tells hr, hanswer, hdealings]

/-- The world answers what it is asked, whoever observes this. -/
theorem unswayed_ask {next' : r.Answer → Program α} (hr : r.tells = false)
    (h : ∀ answer s t t', Unswayed world observer observer' (next answer) (next' answer) s t t') :
    Unswayed world observer observer' (ask r next) (ask r next') s t t' := by
  obtain ⟨hanswer, hstate⟩ := world.observed_of_not_tells observer observer' s t t' hr
  rcases hfirst : world.observed observer r (s, t) with ⟨answer, s₁, t₁⟩
  rcases hsecond : world.observed observer' r (s, t') with ⟨answer', s₁', t₁'⟩
  rw [hfirst, hsecond] at hanswer hstate
  obtain rfl : answer = answer' := hanswer
  obtain rfl : s₁ = s₁' := hstate
  obtain ⟨houtcome, hworld, hdealings⟩ := h answer s₁ t₁ t₁'
  refine ⟨?_, ?_, ?_⟩
  · simpa only [run, hfirst, hsecond] using houtcome
  · simpa only [run, hfirst, hsecond] using hworld
  · rw [dealings_of_not_tells hr, dealings_of_not_tells hr, hfirst, hsecond, hdealings]

end unswayed

/-- Programs that are alike are not told apart by the world, whoever observes them. -/
theorem Alike.unswayed {p q : Program α} (h : Alike Eq p q) (world : World σ)
    (observer : Observer τ) (observer' : Observer τ') (s : σ) (t : τ) (t' : τ') :
    Unswayed world observer observer' p q s t t' := by
  induction h generalizing s t t' with
  | done h =>
    rw [h]
    exact ⟨rfl, rfl, rfl⟩
  | unfinished | broken => exact ⟨rfl, rfl, rfl⟩
  | ask hr _ ih => exact unswayed_ask hr ih
  | tellFirst hr _ ih => exact unswayed_tell hr fun answer t => ih answer s t t'
  | tellSecond hr _ ih => exact (unswayed_tell hr fun answer t' => (ih answer s t t').symm).symm

end runs

end Program

end StagedCopy
