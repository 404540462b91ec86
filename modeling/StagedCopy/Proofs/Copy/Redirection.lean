import StagedCopy.Proofs.Copy.Requests
import StagedCopy.Proofs.Copy.Target

/-!
# The number of a stream does not matter

The store that opens a stream for writing gives it a number, and an attempt uses this number to
write and to close, and for nothing else. So an attempt can be told another number: it then makes
the same calls on that stream, and all else, its result included, is as it was.

* `Exchange.redirect` — an exchange with another stream in place of the one that was opened.
* `Mirrors` — every run of one program is one of another, with another stream.
* `copyOnce_redirect` — an attempt with another stream.
* `elsewhere` — the exchanges with anyone but the target store, which stay.
-/

namespace StagedCopy

open Program (Exchange Run)

/-! ## Exchanges -/

/-- The exchange with another stream in place of the one that the target store opened. -/
def Program.Exchange.redirect (output : StreamId) : Exchange → Exchange
  | ⟨.storage .target (.createFile path overwrite size layout), .ok (.ok _)⟩ =>
    ⟨.storage .target (.createFile path overwrite size layout), .ok (.ok output)⟩
  | ⟨.storage .target (.write _ data), answer⟩ => ⟨.storage .target (.write output data), answer⟩
  | ⟨.storage .target (.close _), answer⟩ => ⟨.storage .target (.close output), answer⟩
  | x => x

/-- The exchanges with anyone but the target store. -/
def elsewhere (history : List Exchange) : List Exchange :=
  history.filter fun x => !x.request.onTarget

theorem elsewhere_cons_of_onTarget {x : Exchange} {history : List Exchange}
    (h : x.request.onTarget = true) : elsewhere (x :: history) = elsewhere history :=
  List.filter_cons_of_neg (by simp [h])

theorem elsewhere_cons_of_not_onTarget {x : Exchange} {history : List Exchange}
    (h : x.request.onTarget = false) : elsewhere (x :: history) = x :: elsewhere history :=
  List.filter_cons_of_pos (by simp [h])

theorem redirect_of_not_onTarget {output : StreamId} {x : Exchange}
    (h : x.request.onTarget = false) : x.redirect output = x := by
  obtain ⟨r, answer⟩ := x
  cases r with
  | storage side call =>
    cases side with
    | source => rfl
    | target => cases h
  | _ => rfl

theorem redirect_of_plain {output : StreamId} {x : Exchange} (h : x.request.plain = true) :
    x.redirect output = x := by
  obtain ⟨r, answer⟩ := x
  cases r with
  | storage side call =>
    cases side with
    | source => rfl
    | target =>
      cases call with
      | createFile | write | close => cases h
      | _ => rfl
  | _ => rfl

theorem onTarget_redirect (output : StreamId) (x : Exchange) :
    (x.redirect output).request.onTarget = x.request.onTarget := by
  unfold Program.Exchange.redirect
  split <;> rfl

/-- With another stream everyone but the target store sees the same. -/
theorem elsewhere_redirect (output : StreamId) (history : List Exchange) :
    elsewhere (history.map (Program.Exchange.redirect output)) = elsewhere history := by
  induction history with
  | nil => rfl
  | cons x rest ih =>
    rw [List.map_cons]
    cases hx : x.request.onTarget with
    | true =>
      rw [elsewhere_cons_of_onTarget hx, ← ih]
      exact elsewhere_cons_of_onTarget ((onTarget_redirect output x).trans hx)
    | false =>
      rw [redirect_of_not_onTarget hx, elsewhere_cons_of_not_onTarget hx,
        elsewhere_cons_of_not_onTarget hx, ih]

/-! ## Programs -/

section mirrors

variable {α β : Type} {output : StreamId}

/-- Every run of the first program is one of the second, with the given stream. -/
def Mirrors (output : StreamId) (p q : Program α) : Prop :=
  ∀ (exchanges : List Exchange) (a : α), Run p exchanges a →
    Run q (exchanges.map (Program.Exchange.redirect output)) a

theorem mirrors_done (a : α) : Mirrors output (.done a) (.done a) := by
  intro exchanges b h
  cases h
  exact .done a

theorem mirrors_bind {p q : Program α} {f g : α → Program β} (h : Mirrors output p q)
    (hnext : ∀ a, Mirrors output (f a) (g a)) : Mirrors output (p >>= f) (q >>= g) := by
  intro exchanges b hrun
  obtain ⟨first, second, a, rfl, hfirst, hsecond⟩ := Program.run_bind_iff.1 hrun
  rw [List.map_append]
  exact Program.run_bind_iff.2 ⟨_, _, a, rfl, h _ _ hfirst, hnext a _ _ hsecond⟩

/-- Two programs that may fail, one after the other. -/
theorem mirrors_fallible_bind {p q : Fallible α} {f g : α → Fallible β}
    (h : Mirrors output p.run q.run) (hnext : ∀ a, Mirrors output (f a).run (g a).run) :
    Mirrors output (p >>= f).run (q >>= g).run := by
  refine mirrors_bind h fun outcome => ?_
  cases outcome with
  | ok a => exact hnext a
  | error failure => exact mirrors_done _

theorem mirrors_broken (trouble : Breakdown) :
    Mirrors output (.broken trouble : Program α) (.broken trouble) :=
  nofun

theorem mirrors_onBreakdown {p q : Program α} {cleanup : Program Unit} (h : Mirrors output p q) :
    Mirrors output (p.onBreakdown cleanup) (q.onBreakdown cleanup) :=
  fun exchanges a hrun =>
    Program.run_onBreakdown_iff.2 (h exchanges a (Program.run_onBreakdown_iff.1 hrun))

/-- A program whose exchanges stay as they are. -/
theorem mirrors_of_plain {p : Program α} (h : p.Plain) : Mirrors output p p := by
  intro exchanges a hrun
  have hsame : exchanges.map (Program.Exchange.redirect output) = exchanges := by
    refine (List.map_congr_left fun x hx => ?_).trans (List.map_id exchanges)
    exact redirect_of_plain (h.of_run hrun x hx)
  rw [hsame]
  exact hrun

theorem mirrors_request {r : Request} (h : r.onTarget = false) :
    Mirrors output (Program.request r) (Program.request r) := by
  intro exchanges a hrun
  cases hrun with
  | ask answer rest =>
    cases rest
    rw [List.map_singleton, redirect_of_not_onTarget h]
    exact .ask _ (.done _)

theorem mirrors_write {other : StreamId} {data : Bytes} :
    Mirrors output (Program.call .target (.write other data))
      (Program.call .target (.write output data)) := by
  intro exchanges a hrun
  cases hrun with
  | ask answer rest =>
    cases rest
    exact .ask _ (.done _)

theorem mirrors_close (output other : StreamId) :
    Mirrors output (Program.call .target (.close other))
      (Program.call .target (.close output)) := by
  intro exchanges a hrun
  cases hrun with
  | ask answer rest =>
    cases rest
    exact .ask _ (.done _)

end mirrors

/-! ## Staging -/

variable {output other : StreamId}

theorem streamChunks_mirrors {plan : StreamPlan} {input : StreamId} {bound : Nat}
    {throttle : Throttle} {copied : Nat} {refused : Bool} :
    Mirrors output (streamChunks plan input other bound throttle copied refused)
      (streamChunks plan input output bound throttle copied refused) := by
  induction bound generalizing throttle copied refused with
  | zero =>
    intro exchanges a hrun
    cases hrun
  | succ bound ih =>
    refine mirrors_bind (mirrors_of_plain throttledRead_quiet.plain) fun outcome => ?_
    match outcome with
    | (.error message, throttle') => exact mirrors_done _
    | (.ok [], throttle') => exact mirrors_done _
    | (.ok (b :: rest), throttle') =>
      refine mirrors_bind mirrors_write fun answer => ?_
      cases answer with
      | error message => exact mirrors_done _
      | ok => exact mirrors_bind (mirrors_of_plain reportProgress_plain) fun _ => ih

theorem streamSource_mirrors {bound : Nat} {plan : StreamPlan} :
    Mirrors output (streamSource bound plan other) (streamSource bound plan output) := by
  refine mirrors_bind (mirrors_request rfl) fun answer => ?_
  cases answer with
  | error message => exact mirrors_done _
  | ok input =>
    refine mirrors_bind (mirrors_request rfl) fun start => ?_
    cases plan.bufferTrouble? with
    | some trouble => exact mirrors_broken trouble
    | none =>
      refine mirrors_bind streamChunks_mirrors fun ⟨result, throttle⟩ => ?_
      refine mirrors_bind (mirrors_bind (mirrors_request rfl) fun answer => ?_) fun _ => ?_
      · cases answer with
        | ok => exact mirrors_done _
        | error message => exact mirrors_of_plain plain_log
      · refine mirrors_bind (mirrors_request rfl) fun finish => ?_
        exact mirrors_bind (mirrors_of_plain plain_log) fun _ => mirrors_done _

theorem fillTemp_mirrors {bound : Nat} {job : CopyJob} :
    Mirrors output (fillTemp bound job other) (fillTemp bound job output) := by
  refine mirrors_bind streamSource_mirrors fun copied => ?_
  refine mirrors_bind (mirrors_close output other) fun closed => ?_
  match copied, closed with
  | .ok n, .ok () => exact mirrors_done _
  | .ok n, .error message =>
    exact mirrors_bind (mirrors_of_plain plain_log) fun _ => mirrors_done _
  | .error failure, .ok () => exact mirrors_done _
  | .error failure, .error message =>
    exact mirrors_bind (mirrors_of_plain plain_log) fun _ => mirrors_done _

theorem stage_mirrors {bound : Nat} {job : CopyJob} :
    Mirrors output (stage bound job).run (stage bound job).run := by
  intro exchanges a hrun
  cases hrun with
  | @ask _ _ rest _ answer hrest =>
    match answer with
    | .error message =>
      cases hrest
      exact .ask _ (.done _)
    | .ok (.error trouble) => cases hrest
    | .ok (.ok created) =>
      have hfilled : Run (fillTemp bound job created) rest a := hrest
      exact .ask
        (r := .storage .target (.createFile job.temp true job.options.bufferSize job.layout))
        (.ok (.ok output)) (fillTemp_mirrors _ _ hfilled)

/-- An attempt with another stream. -/
theorem copyOnce_redirect {bound : Nat} {job : CopyJob} {exchanges : List Exchange}
    {result : Except CopyError Nat} (hid : isAttemptId job.attemptId)
    (h : Run (copyOnce bound job) exchanges result) :
    Run (copyOnce bound job) (exchanges.map (Program.Exchange.redirect output)) result := by
  refine (?_ : Mirrors output (copyOnce bound job) (copyOnce bound job)) exchanges result h
  unfold copyOnce
  rw [hid, Bool.not_true, if_neg Bool.false_ne_true]
  refine mirrors_bind (mirrors_of_plain plain_log) fun _ => ?_
  refine mirrors_bind (mirrors_of_plain plain_log) fun _ => ?_
  refine mirrors_bind ?_ fun result => mirrors_of_plain conclude_discreet.quiet.plain
  refine mirrors_onBreakdown (mirrors_fallible_bind stage_mirrors fun copied => ?_)
  exact mirrors_of_plain publish_discreet.quiet.plain

end StagedCopy
