import StagedCopy.Program

/-!
# Executions of programs

An execution is the list of exchanges between a program and its surroundings. Safety is about
executions that go on, so beside the finished runs there are their beginnings; and what the
surroundings do while a program runs is a trail of states through the same exchanges. A program is
tied to a transition system by `Program.Follows`, which is decided along the text of the program,
and everything that the steps of the system keep then holds along every execution.

* `Program.Begins p exchanges` — a beginning of an execution under arbitrary answers, which need
  not be finished and may be one of an execution without an end.
* `Program.Yields p exchanges outcome` — the executions that are not cut short, each with its
  outcome.
* `Program.exchanges handler p s` — the execution with a handler.
* `Trail step s exchanges s'` — a transition system goes through the exchanges.
* `Trail.together` — what two systems keep in every common step holds along common trails.
* `Trail.follow` — a system that can answer every common step of two others goes along with them.
* `Trail.unique` — a system whose steps are decided by the exchanges has its trails decided by them.
* `Program.Ends handler I p` — a program comes to its end with a handler, from every state with a
  property that is kept.
* `Program.Asks kind p` — all that a program can ask is of a kind.
* `Program.Follows step p s post` — whatever is answered, the system can make the steps that the
  program asks for, and `post` holds where the program ends; `Program.follows_bind` and
  `Program.follows_onBreakdown` take the statement apart along the program.
* `Program.Follows.of_begins`, `of_yields`, `of_handler` — the trails of the system along
  beginnings, executions with an outcome and runs with a handler.
-/

namespace StagedCopy

/-! ## Trails -/

section trail

variable {σ τ : Type} {step : σ → Program.Exchange → σ → Prop}
  {other : τ → Program.Exchange → τ → Prop}

/-- A transition system whose steps carry exchanges goes from one state to another. -/
inductive Trail (step : σ → Program.Exchange → σ → Prop) :
    σ → List Program.Exchange → σ → Prop where
  | stay (s : σ) : Trail step s [] s
  | go {s s' s'' : σ} {x : Program.Exchange} {exchanges : List Program.Exchange}
      (first : step s x s') (rest : Trail step s' exchanges s'') :
      Trail step s (x :: exchanges) s''

namespace Trail

/-- A relation between the states of two systems that holds at the start and is kept by every two
steps with one exchange holds wherever a common trail leads. -/
theorem together {I : σ → τ → Prop}
    (keeps : ∀ {s t x s' t'}, I s t → step s x s' → other t x t' → I s' t')
    {s s' : σ} {t t' : τ} {exchanges : List Program.Exchange}
    (h : Trail step s exchanges s') (h' : Trail other t exchanges t') (start : I s t) :
    I s' t' := by
  induction h generalizing t with
  | stay => cases h'; exact start
  | go first _ ih =>
    cases h' with
    | go first' rest' => exact ih rest' (keeps start first first')

/-- A trail along two lists of exchanges passes through a state between them. -/
theorem append_iff {s s'' : σ} {before after : List Program.Exchange} :
    Trail step s (before ++ after) s'' ↔
      ∃ s', Trail step s before s' ∧ Trail step s' after s'' := by
  constructor
  · intro h
    induction before generalizing s with
    | nil => exact ⟨s, .stay s, h⟩
    | cons x rest ih =>
      cases h with
      | go first htail =>
        obtain ⟨s', hbefore, hafter⟩ := ih htail
        exact ⟨s', .go first hbefore, hafter⟩
  · rintro ⟨s', hbefore, hafter⟩
    induction hbefore with
    | stay => exact hafter
    | go first _ ih => exact .go first (ih hafter)

/-- Where every exchange leads to one state at most, so does every list of exchanges. -/
theorem unique (hstep : ∀ {s x s₁ s₂}, step s x s₁ → step s x s₂ → s₁ = s₂) {s s₁ s₂ : σ}
    {exchanges : List Program.Exchange} (h₁ : Trail step s exchanges s₁)
    (h₂ : Trail step s exchanges s₂) : s₁ = s₂ := by
  refine together (I := Eq) ?_ h₁ h₂ rfl
  rintro s _ x s₁ s₂ rfl hfirst hsecond
  exact hstep hfirst hsecond

theorem snoc {s s' s'' : σ} {x : Program.Exchange} {exchanges : List Program.Exchange}
    (h : Trail step s exchanges s') (last : step s' x s'') :
    Trail step s (exchanges ++ [x]) s'' :=
  append_iff.2 ⟨s', h, .go last (.stay s'')⟩

/-- A trail seen through a map of the states that turns steps into steps. -/
theorem map {f : σ → τ} (hstep : ∀ {s x s'}, step s x s' → other (f s) x (f s'))
    {s s' : σ} {exchanges : List Program.Exchange} (h : Trail step s exchanges s') :
    Trail other (f s) exchanges (f s') := by
  induction h with
  | stay => exact .stay _
  | go first _ ih => exact .go (hstep first) ih

/-- A third system goes along with two systems that have a common trail, through exchanges that are
made from theirs, when it can answer each of their common steps. -/
theorem follow {υ : Type} {third : υ → Program.Exchange → υ → Prop}
    {f : Program.Exchange → Program.Exchange} {I : σ → τ → υ → Prop}
    (keeps : ∀ {s t u x s' t'}, I s t u → step s x s' → other t x t' →
      ∃ u', third u (f x) u' ∧ I s' t' u')
    {s s' : σ} {t t' : τ} {u : υ} {exchanges : List Program.Exchange}
    (h : Trail step s exchanges s') (h' : Trail other t exchanges t') (start : I s t u) :
    ∃ u', Trail third u (exchanges.map f) u' ∧ I s' t' u' := by
  induction h generalizing t u with
  | stay => cases h'; exact ⟨u, .stay u, start⟩
  | go first _ ih =>
    cases h' with
    | go first' rest' =>
      obtain ⟨middle, hstep, hmiddle⟩ := keeps start first first'
      obtain ⟨u', htrail, hlast⟩ := ih rest' hmiddle
      exact ⟨u', .go hstep htrail, hlast⟩

/-- The system whose state is what has been exchanged so far. -/
def remember (before : List Program.Exchange) (x : Program.Exchange)
    (after : List Program.Exchange) : Prop := after = before ++ [x]

theorem remembered (before exchanges : List Program.Exchange) :
    Trail remember before exchanges (before ++ exchanges) := by
  induction exchanges generalizing before with
  | nil => rw [List.append_nil]; exact .stay before
  | cons x rest ih =>
    have hrest := ih (before ++ [x])
    rw [List.append_assoc] at hrest
    exact .go rfl hrest

/-- A relation between the history and the state of a system that holds before the first exchange
and is kept by every step holds along every trail. -/
theorem history {I : List Program.Exchange → σ → Prop}
    (keeps : ∀ {before s x s'}, I before s → step s x s' → I (before ++ [x]) s')
    {s s' : σ} {exchanges : List Program.Exchange}
    (h : Trail step s exchanges s') (start : I [] s) : I exchanges s' := by
  refine together (I := fun s before => I before s) ?_ h (remembered [] exchanges) start
  intro s before x s' after hI hstep hafter
  obtain rfl : after = before ++ [x] := hafter
  exact keeps hI hstep

end Trail

end trail

namespace Program

variable {α β σ τ : Type}

/-! ## Beginnings and executions with a handler -/

/-- `Begins p exchanges`: given the answers in `exchanges`, these are the first requests of the
program. -/
inductive Begins : Program α → List Exchange → Prop where
  | start (p : Program α) : Begins p []
  | ask {r : Request} {next : r.Answer → Program α} {exchanges : List Exchange}
      (answer : r.Answer) (rest : Begins (next answer) exchanges) :
      Begins (ask r next) (⟨r, answer⟩ :: exchanges)

/-- `Yields p exchanges outcome`: given the answers in `exchanges`, the program asks exactly these
requests in this order and then has this outcome. -/
inductive Yields : Program α → List Exchange → Outcome α → Prop where
  | done (a : α) : Yields (done a) [] (.done a)
  | unfinished : Yields unfinished [] .unfinished
  | broken (trouble : Breakdown) : Yields (broken trouble) [] (.broken trouble)
  | ask {r : Request} {next : r.Answer → Program α} {exchanges : List Exchange}
      {outcome : Outcome α} (answer : r.Answer) (rest : Yields (next answer) exchanges outcome) :
      Yields (ask r next) (⟨r, answer⟩ :: exchanges) outcome

theorem Run.yields {p : Program α} {exchanges : List Exchange} {a : α} (h : Run p exchanges a) :
    Yields p exchanges (.done a) := by
  induction h with
  | done a => exact .done a
  | ask answer _ ih => exact .ask answer ih

/-- The exchanges of a program with a handler. -/
def exchanges (handler : Handler σ) : Program α → σ → List Exchange
  | done _, _ => []
  | unfinished, _ => []
  | broken _, _ => []
  | ask r next, s =>
    ⟨r, (handler r s).1⟩ :: exchanges handler (next (handler r s).1) (handler r s).2

theorem begins_exchanges (handler : Handler σ) (p : Program α) (s : σ) :
    Begins p (exchanges handler p s) := by
  induction p generalizing s with
  | done | unfinished | broken => exact .start _
  | ask r next ih => exact .ask _ (ih _ _)

theorem yields_exchanges (handler : Handler σ) (p : Program α) (s : σ) :
    Yields p (exchanges handler p s) (run handler p s).1 := by
  induction p generalizing s with
  | done a => exact .done a
  | unfinished => exact .unfinished
  | broken trouble => exact .broken trouble
  | ask r next ih => exact .ask _ (ih _ _)

/-- Running a program to its end with a handler is a finished run. -/
theorem run_exchanges {handler : Handler σ} {p : Program α} {s : σ} {a : α}
    (h : (run handler p s).1 = .done a) : Run p (exchanges handler p s) a := by
  induction p generalizing s with
  | done b =>
    obtain rfl : b = a := Outcome.done.inj h
    exact .done b
  | unfinished | broken => cases h
  | ask r next ih => exact .ask _ (ih _ h)

/-- A program that comes to its end does not break down, so nothing is added to it. -/
theorem run_onBreakdown_iff {p : Program α} {cleanup : Program Unit} {exchanges : List Exchange}
    {a : α} : Run (p.onBreakdown cleanup) exchanges a ↔ Run p exchanges a := by
  induction p generalizing exchanges with
  | done | unfinished => rfl
  | broken trouble =>
    constructor
    · intro h
      obtain ⟨_, _, _, _, _, hbroken⟩ := run_bind_iff.1 h
      cases hbroken
    · intro h
      cases h
  | ask r next ih =>
    constructor
    · intro h
      cases h with
      | ask answer rest => exact .ask answer ((ih answer).1 rest)
    · intro h
      cases h with
      | ask answer rest => exact .ask answer ((ih answer).2 rest)

/-- A handler as a transition system: its steps answer requests. -/
def Handler.step (handler : Handler σ) (s : σ) (x : Exchange) (s' : σ) : Prop :=
  handler x.request s = (x.answer, s')

theorem trail_exchanges (handler : Handler σ) (p : Program α) (s : σ) :
    Trail handler.step s (exchanges handler p s) (run handler p s).2 := by
  induction p generalizing s with
  | done | unfinished | broken => exact .stay s
  | ask r next ih => exact .go rfl (ih _ _)

/-! ## Programs that come to an end -/

/-- With the handler the program comes to its end from every state with a property, and the state
that is left has it, too. -/
def Ends (handler : Handler σ) (I : σ → Prop) (p : Program α) : Prop :=
  ∀ s, I s → ∃ a s', run handler p s = (.done a, s') ∧ I s'

section ends

variable {handler : Handler σ} {I : σ → Prop}

theorem ends_done (a : α) : (done a).Ends handler I := fun s hs => ⟨a, s, rfl, hs⟩

theorem ends_request {r : Request} (h : ∀ s, I s → I (handler r s).2) :
    (request r).Ends handler I :=
  fun s hs => ⟨_, _, rfl, h s hs⟩

theorem ends_bind {p : Program α} {f : α → Program β} (hp : p.Ends handler I)
    (hf : ∀ a, (f a).Ends handler I) : (p >>= f).Ends handler I := by
  intro s hs
  obtain ⟨a, s₁, hfirst, hs₁⟩ := hp s hs
  obtain ⟨b, s₂, hsecond, hs₂⟩ := hf a s₁ hs₁
  refine ⟨b, s₂, ?_, hs₂⟩
  show run handler (p.bind f) s = (.done b, s₂)
  rw [run_bind, hfirst]
  exact hsecond

end ends

/-! ## What a program can ask -/

/-- Every request that the program can come to is of a kind. -/
def Asks (kind : Request → Prop) : Program α → Prop
  | done _ => True
  | unfinished => True
  | broken _ => True
  | ask r next => kind r ∧ ∀ answer : r.Answer, Asks kind (next answer)

theorem asks_bind {kind : Request → Prop} {p : Program α} {f : α → Program β}
    (hp : p.Asks kind) (hf : ∀ a, (f a).Asks kind) : (p >>= f).Asks kind := by
  show (p.bind f).Asks kind
  induction p with
  | done a => exact hf a
  | unfinished | broken => trivial
  | ask r next ih => exact ⟨hp.1, fun answer => ih answer (hp.2 answer)⟩

theorem asks_request {kind : Request → Prop} {r : Request} (h : kind r) :
    (request r).Asks kind :=
  ⟨h, fun _ => trivial⟩

theorem Asks.mono {kind wider : Request → Prop} {p : Program α} (h : p.Asks kind)
    (himp : ∀ r, kind r → wider r) : p.Asks wider := by
  induction p with
  | done | unfinished | broken => trivial
  | ask r next ih => exact ⟨himp r h.1, fun answer => ih answer (h.2 answer)⟩

theorem Asks.of_run {kind : Request → Prop} {p : Program α} {exchanges : List Exchange} {a : α}
    (h : p.Asks kind) (hrun : Run p exchanges a) : ∀ x ∈ exchanges, kind x.request := by
  induction hrun with
  | done a => exact fun x hx => absurd hx List.not_mem_nil
  | ask answer _ ih =>
    intro x hx
    rcases List.mem_cons.1 hx with rfl | hmem
    · exact h.1
    · exact ih (h.2 answer) x hmem

/-! ## Programs that follow a transition system -/

/-- Whatever is answered, the system can make each step that the program asks for, and `post`
holds of the outcome and the state at the end. -/
def Follows (step : σ → Exchange → σ → Prop) : Program α → σ → (Outcome α → σ → Prop) → Prop
  | done a, s, post => post (.done a) s
  | unfinished, s, post => post .unfinished s
  | broken trouble, s, post => post (.broken trouble) s
  | ask r next, s, post =>
    ∀ answer : r.Answer, ∃ s', step s ⟨r, answer⟩ s' ∧ Follows step (next answer) s' post

variable {step : σ → Exchange → σ → Prop} {p : Program α} {s : σ} {post : Outcome α → σ → Prop}

/-- One program after another follows the system when the second does from wherever the first
ends. -/
theorem follows_bind {f : α → Program β} {post : Outcome β → σ → Prop} :
    (p >>= f).Follows step s post ↔
      p.Follows step s fun outcome s' =>
        match outcome with
        | .done a => (f a).Follows step s' post
        | .unfinished => post .unfinished s'
        | .broken trouble => post (.broken trouble) s' := by
  show (p.bind f).Follows step s post ↔ _
  induction p generalizing s with
  | done | unfinished | broken => rfl
  | ask r next ih =>
    simp only [bind, Follows, ih]

/-- What is still done after a breakdown follows the system from where the program broke down. -/
theorem follows_onBreakdown {cleanup : Program Unit} :
    (p.onBreakdown cleanup).Follows step s post ↔
      p.Follows step s fun outcome s' =>
        match outcome with
        | .broken trouble =>
          (cleanup >>= fun _ => (broken trouble : Program α)).Follows step s' post
        | outcome => post outcome s' := by
  induction p generalizing s with
  | done | unfinished | broken => rfl
  | ask r next ih =>
    simp only [onBreakdown, Follows, ih]

/-- A weaker promise about the end is kept as well. -/
theorem Follows.mono {weaker : Outcome α → σ → Prop} (h : p.Follows step s post)
    (himp : ∀ outcome s', post outcome s' → weaker outcome s') : p.Follows step s weaker := by
  induction p generalizing s with
  | done | unfinished | broken => exact himp _ _ h
  | ask r next ih =>
    intro answer
    obtain ⟨s', hstep, hnext⟩ := h answer
    exact ⟨s', hstep, ih answer hnext⟩

/-- The system has a trail along every beginning of a program that follows it. -/
theorem Follows.of_begins (h : p.Follows step s post) {exchanges : List Exchange}
    (hbegins : Begins p exchanges) : ∃ s', Trail step s exchanges s' := by
  induction hbegins generalizing s with
  | start => exact ⟨s, .stay s⟩
  | ask answer _ ih =>
    obtain ⟨s₁, hstep, hnext⟩ := h answer
    obtain ⟨s', htrail⟩ := ih hnext
    exact ⟨s', .go hstep htrail⟩

/-- The system has a trail along every execution of a program that follows it, and the end is as
promised, also when the program is left unfinished or breaks down. -/
theorem Follows.of_yields (h : p.Follows step s post) {exchanges : List Exchange}
    {outcome : Outcome α} (hyields : Yields p exchanges outcome) :
    ∃ s', Trail step s exchanges s' ∧ post outcome s' := by
  induction hyields generalizing s with
  | done | unfinished | broken => exact ⟨s, .stay s, h⟩
  | ask answer _ ih =>
    obtain ⟨s₁, hstep, hnext⟩ := h answer
    obtain ⟨s', htrail, hpost⟩ := ih hnext
    exact ⟨s', .go hstep htrail, hpost⟩

/-- The same along the execution with a handler. -/
theorem Follows.of_handler (h : p.Follows step s post) (handler : Handler τ) (t : τ) :
    ∃ s', Trail step s (exchanges handler p t) s' ∧ post (run handler p t).1 s' :=
  h.of_yields (yields_exchanges handler p t)

end Program

end StagedCopy
