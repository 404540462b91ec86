import StagedCopy.Proofs.Copy.Simulation

/-!
# What an attempt has said so far

A history is the list of exchanges of an attempt up to some moment. What matters of it are the
calls on the stores, the chunks that the source gave and those that went to the temporary file.
Each of these is read off one exchange at a time, so a history that grows by one exchange grows
each of them by what this exchange adds.

* `callsOf` — the calls on the stores, with their answers.
* `deliveredChunks`, `passedChunks` — the chunks that came from the source, and those that were
  passed on.
* `CopyJob.Reads`, `CopyPhase.reads_step` — what an attempt asks of the source.
* `CopyPhase.buffered_of_flowing` — where it got with a buffer only.
* `CopyPhase.relay_step` — what is passed on is what was delivered, except for the one chunk that
  is about to be written.
-/

namespace StagedCopy

namespace Program.Exchange

/-- The chunk that an exchange delivers: what a read of the source gave, unless it was nothing. -/
def delivery? : Exchange → Option Bytes
  | ⟨.storage .source (.read _ _), .ok (b :: rest)⟩ => some (b :: rest)
  | _ => none

/-- The chunk that an exchange passes to the target store, whatever was answered. -/
def passage? : Exchange → Option Bytes
  | ⟨.storage .target (.write _ chunk), _⟩ => some chunk
  | _ => none

theorem delivery?_silent {x : Exchange} (h : x.request.isCall = false) : x.delivery? = none := by
  obtain ⟨r, answer⟩ := x
  cases r with
  | storage => cases h
  | _ => rfl

theorem passage?_silent {x : Exchange} (h : x.request.isCall = false) : x.passage? = none := by
  obtain ⟨r, answer⟩ := x
  cases r with
  | storage => cases h
  | _ => rfl

theorem delivery?_read {input : StreamId} {size : Nat} {chunk : Bytes} (h : chunk ≠ []) :
    delivery? ⟨.storage .source (.read input size), .ok chunk⟩ = some chunk := by
  obtain ⟨b, rest, rfl⟩ := List.exists_cons_of_ne_nil h
  rfl

end Program.Exchange

open Program (Exchange)

/-- The calls on the stores in a history. -/
def callsOf (history : List Exchange) : List Exchange :=
  history.filter fun x => x.request.isCall

/-- The chunks that the source gave, in order. -/
def deliveredChunks (history : List Exchange) : List Bytes :=
  history.filterMap Exchange.delivery?

/-- The chunks that were passed to the target store, in order. -/
def passedChunks (history : List Exchange) : List Bytes :=
  history.filterMap Exchange.passage?

theorem filterMap_snoc {α β : Type} (f : α → Option β) (l : List α) (a : α) :
    (l ++ [a]).filterMap f = l.filterMap f ++ (f a).toList := by
  cases h : f a <;> simp [h]

@[simp] theorem callsOf_nil : callsOf [] = [] := rfl

theorem callsOf_append (s t : List Exchange) : callsOf (s ++ t) = callsOf s ++ callsOf t :=
  List.filter_append s t

theorem callsOf_snoc_of_isCall (history : List Exchange) {x : Exchange}
    (h : x.request.isCall = true) : callsOf (history ++ [x]) = callsOf history ++ [x] := by
  rw [callsOf_append, callsOf, callsOf, List.filter_cons_of_pos (by simp [h])]
  rfl

theorem callsOf_snoc_silent (history : List Exchange) {x : Exchange}
    (h : x.request.isCall = false) : callsOf (history ++ [x]) = callsOf history := by
  rw [callsOf_append, callsOf, callsOf, List.filter_cons_of_neg (by simp [h])]
  exact List.append_nil _

/-- For a system that only calls move, the other exchanges can be left out. -/
theorem Trail.callsOf {σ : Type} {step : σ → Exchange → σ → Prop}
    (hsilent : ∀ {s x s'}, step s x s' → x.request.isCall = false → s' = s) {s s' : σ}
    {history : List Exchange} (h : Trail step s history s') :
    Trail step s (StagedCopy.callsOf history) s' := by
  induction h with
  | stay s => exact .stay s
  | @go s middle s' x rest first _ ih =>
    cases hx : x.request.isCall with
    | true =>
      rw [StagedCopy.callsOf, List.filter_cons_of_pos (by simp [hx])]
      exact .go first ih
    | false =>
      rw [hsilent first hx] at ih
      rw [StagedCopy.callsOf, List.filter_cons_of_neg (by simp [hx])]
      exact ih

@[simp] theorem deliveredChunks_nil : deliveredChunks [] = [] := rfl

theorem deliveredChunks_snoc (history : List Exchange) (x : Exchange) :
    deliveredChunks (history ++ [x]) = deliveredChunks history ++ x.delivery?.toList :=
  filterMap_snoc _ history x

@[simp] theorem passedChunks_nil : passedChunks [] = [] := rfl

theorem passedChunks_snoc (history : List Exchange) (x : Exchange) :
    passedChunks (history ++ [x]) = passedChunks history ++ x.passage?.toList :=
  filterMap_snoc _ history x

/-- What an attempt may ask of the source. -/
def CopyJob.Reads (job : CopyJob) : Request → Prop
  | .storage .source (.openFile path) => path = job.source.path
  | .storage .source (.read _ size) => size = job.plan.chunkSize
  | .storage .source (.status path) => path = job.source.path
  | .storage .source (.checksum path) => path = job.source.path
  | .storage .source _ => False
  | _ => True

/-- A small job, for concrete histories. -/
def smallJob : CopyJob where
  source := { path := utf8 "s", length := 3 }
  target := utf8 "d/t"
  attemptId := utf8 "7"
  defaults := ⟨1, 64⟩

/-- The small job with a buffer that nobody can have. -/
def unbufferedJob : CopyJob :=
  { smallJob with options := { bufferSize := Breakdown.sizeLimit } }

/-- Stores that refuse nothing: the source gives the chunks that are left, both lengths are the
given one, checksums agree and nothing stands anywhere. -/
def obliging (length : Nat) : Program.Handler (List Bytes)
  | .storage _ (.openFile _), left => (.ok (0 : Nat), left)
  | .storage _ (.createFile ..), left => (.ok (.ok (0 : Nat)), left)
  | .storage _ (.pathExists _), left => (.ok false, left)
  | .storage _ (.remove ..), left => (.ok (), left)
  | .storage _ (.makeDirs _), left => (.ok (), left)
  | .storage _ (.rename ..), left => (.ok (), left)
  | .storage _ (.status path), left => (.ok { path := path, length := length }, left)
  | .storage _ (.checksum _), left => (.ok (some ⟨utf8 "CRC32", 0, utf8 "00000000"⟩), left)
  | .storage _ (.read ..), [] => (.ok [], [])
  | .storage _ (.read ..), chunk :: left => (.ok chunk, left)
  | .storage _ (.write ..), left => (.ok (), left)
  | .storage _ (.close _), left => (.ok (), left)
  | .setStatus _, left => (.ok (), left)
  | .increment .., left => (.ok (), left)
  | .now, left => ((0 : Nat), left)
  | .sleep _, left => ((), left)
  | .log _, left => ((), left)

namespace CopyPhase

/-! ## The source -/

theorem reads_step {job : CopyJob} {phase after : CopyPhase} {x : Exchange}
    (h : Step job phase x after) : job.Reads x.request := by
  cases h with
  | silent hx =>
    obtain ⟨r, answer⟩ := x
    cases r with
    | storage => cases hx
    | _ => trivial
  | opened | openedUnbuffered | notOpened | delivered | ended | notRead => rfl
  | sourceSized | sourceOff | sourceUnsized | sourceSummed | sourceUnsummed => rfl
  | _ => trivial

/-! ## Chunks on their way -/

/-- The chunk that was read and is not passed on yet. -/
def pending : CopyPhase → List Bytes
  | writing _ _ _ chunk => [chunk]
  | _ => []

/-- At most one chunk is on its way. -/
theorem length_pending_le (phase : CopyPhase) : phase.pending.length ≤ 1 := by
  cases phase with
  | writing => exact Nat.le_refl 1
  | _ => exact Nat.zero_le 1

/-- A step delivers the chunk that is pending after it, or passes on the one that was pending
before it, or does neither. -/
theorem relay_step {job : CopyJob} {phase after : CopyPhase} {x : Exchange}
    (h : Step job phase x after) :
    phase.pending ++ x.delivery?.toList = x.passage?.toList ++ after.pending := by
  cases h with
  | silent hx =>
    rw [Exchange.delivery?_silent hx, Exchange.passage?_silent hx]
    exact List.append_nil _
  | delivered hchunk =>
    rw [Exchange.delivery?_read hchunk]
    rfl
  | tempSized => exact afterLengths_cases (fun _ => rfl) fun _ => rfl
  | targetAbsent | targetCleared => exact afterClearing_cases (fun _ => rfl) fun _ => rfl
  | _ => rfl

/-- What was delivered is what was passed on and, in front of a write, one more chunk. -/
theorem delivered_eq {job : CopyJob} {history : List Exchange} {phase : CopyPhase}
    (h : Trail (Step job) .creating history phase) :
    deliveredChunks history = passedChunks history ++ phase.pending := by
  refine Trail.history (I := fun before phase =>
    deliveredChunks before = passedChunks before ++ phase.pending) ?_ h rfl
  intro before phase x after hI hstep
  rw [deliveredChunks_snoc, hI, passedChunks_snoc, List.append_assoc, relay_step hstep,
    List.append_assoc]

/-- When the source was opened and nothing has failed, there was a buffer. -/
theorem buffered_of_flowing {job : CopyJob} {history : List Exchange} {phase : CopyPhase}
    (h : Trail (Step job) .creating history phase) (hphase : phase.flowing = true) :
    job.plan.bufferTrouble? = none := by
  refine Trail.history (I := fun _ phase => phase.flowing = true →
    job.plan.bufferTrouble? = none) ?_ h nofun hphase
  intro before phase x after hI hstep hafter
  rcases hstep.buffered hafter with hbefore | hbuffer
  · exact hI hbefore
  · exact hbuffer

end CopyPhase

end StagedCopy
