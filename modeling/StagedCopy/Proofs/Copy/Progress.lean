import StagedCopy.Proofs.Copy.Reporting
import StagedCopy.Proofs.Copy.Stores
import StagedCopy.Proofs.Memory.Streams

/-!
# Progress is complete

Whatever the two stores and the task answer, an attempt tells of every chunk that was written, right
after it was written and once, with the number of bytes so far, and complains of the first refused
status only. When the source is a store in memory that answers every call, the numbers are known:
all chunks but the last are as long as the buffer, so the numbers are its multiples up to the length
of the file. Without a buffer there is no loop, and nothing is told.

* `CopyJob.ReportsProgress` — what an attempt tells, for every source and every target.
* `SourceStep` — a source in memory that does not fail; `trail_source_of_serving` — the source of
  two stores that answer every call is such.
* `Paced` — chunks that are as long as the buffer, but for the last one.
* `Meter.AtPace` — what the loop has moved and what is left of the source, kept by every step.
* `CopyJob.ReportsEvenly` — what an attempt tells with such a source; `Meter.told_nil` — without a
  buffer it is nothing.
* `progress_complete` — the theorem.
-/

namespace StagedCopy

open Program (Exchange Outcome Yields)

/-! ## Every source and every target -/

/-- What an attempt tells of its progress. -/
structure CopyJob.ReportsProgress (job : CopyJob) (exchanges : List Exchange) : Prop where
  /-- The written chunks are those that the source delivered, but for one that was refused. -/
  relayed : deliveredChunks exchanges = writtenChunks exchanges ++ failedChunks exchanges ∧
    (failedChunks exchanges).length ≤ 1
  /-- There is one status for each written chunk, in order, with the bytes so far. -/
  totals : reportsOf exchanges = (runningTotals (writtenChunks exchanges)).map job.progressAt
  increasing : (runningTotals (writtenChunks exchanges)).Pairwise (· < ·)
  /-- A status comes right after its chunk was written, and nowhere else. -/
  prompt : ∀ before x after, exchanges = before ++ x :: after →
    x.report? = (before.getLast?.bind Exchange.written?).map fun _ =>
      job.progressAt (byteCount (writtenChunks before))
  /-- After the exchange that ends the loop there is none. -/
  silent : ∀ before x after, exchanges = before ++ x :: after → x.endsLoop = true →
    reportsOf after = []
  /-- The log has one line about refused statuses, about the first, if there is any. -/
  complaints : complaintsOf exchanges = (refusalsOf exchanges).head?.toList.map job.complaint

namespace Meter

variable {job : CopyJob} {m : Meter} {exchanges : List Exchange}

/-- Along the loop every status comes right after its chunk was written. -/
theorem Records.prompt {x : Exchange} {m' : Meter} (h : Records job exchanges m)
    (hstep : Step job m x m') :
    x.report? = (exchanges.getLast?.bind Exchange.written?).map fun _ =>
      job.progressAt (byteCount (writtenChunks exchanges)) := by
  rw [hstep.reports, h.last, h.written]
  cases m.stage.untold <;> simp

/-- An execution that leaves the meter settled has told all. -/
theorem reportsProgress (h : Trail (Step job) {} exchanges m) (hsettled : m.stage.settled = true) :
    job.ReportsProgress exchanges := by
  have hrecords := records h
  have htold := hrecords.told_eq hsettled
  refine ⟨⟨hrecords.relayed hsettled, ?_⟩, ?_, ?_, ?_, ?_, ?_⟩
  · rw [hrecords.failed]
    cases m.stage.lost <;> simp
  · rw [← htold]
    exact hrecords.reports
  · exact runningTotals_increase fun chunk => hrecords.ne_nil_of_written hsettled
  · rintro before x after rfl
    obtain ⟨middle, hbefore, hafter⟩ := Trail.append_iff.1 h
    cases hafter with
    | go first _ => exact (records hbefore).prompt first
  · rintro before x after rfl hends
    obtain ⟨middle, hbefore, hafter⟩ := Trail.append_iff.1 h
    cases hafter with
    | go first rest =>
      obtain ⟨lost, hstopped⟩ := first.stopped_of_endsLoop hends
      exact reportsOf_of_stopped rest hstopped
  · rw [hrecords.complaints, voiced_of_settled hsettled, hrecords.refusal]

end Meter

/-! ## A source in memory -/

/-- A source in memory answers every call, and a file that is opened there has `n` bytes. Whatever
happens to the store while the source is not asked, its readers keep what they have left. -/
inductive SourceStep (n : Nat) : MemoryStore → Exchange → MemoryStore → Prop where
  | elsewhere {store after : MemoryStore} {x : Exchange}
      (hx : ∀ call, x.request ≠ .storage .source call)
      (hkeeps : ∀ input rest, Gives store input rest → Gives after input rest) :
      SourceStep n store x after
  | answered {store after : MemoryStore} {call : StorageCall} {answer : call.Answer}
      (hfile : ∀ path, call = .openFile path →
        ∃ f, store.get? path.key = some (.file f) ∧ f.content.length = n)
      (h : store.perform call = (answer, after)) :
      SourceStep n store ⟨.storage .source call, answer⟩ after

namespace SourceStep

variable {n : Nat} {store after : MemoryStore} {x : Exchange} {input : StreamId} {path : Path}
  {rest : Bytes}

/-- The file is opened, and all of it is left. -/
theorem opens {answer : Except Bytes StreamId}
    (h : SourceStep n store ⟨.storage .source (.openFile path), answer⟩ after) :
    ∃ input content, answer = .ok input ∧ Gives after input content ∧ content.length = n := by
  cases h with
  | elsewhere hx => exact absurd rfl (hx _)
  | answered hfile h =>
    obtain ⟨f, hget, hlength⟩ := hfile path rfl
    have hopen := MemoryStore.openFile_eq_ok.2 ⟨f, hget, rfl⟩
    cases h.symm.trans (MemoryStore.conclude_eq_ok.2 hopen)
    exact ⟨_, _, rfl, Array.getElem?_push_size, hlength⟩

/-- A read gives as much as it was asked for, if there is so much left. -/
theorem reads {size : Nat} {answer : Except Bytes Bytes} (hgives : Gives store input rest)
    (h : SourceStep n store ⟨.storage .source (.read input size), answer⟩ after) :
    answer = .ok (rest.take size) ∧ Gives after input (rest.drop size) := by
  cases h with
  | elsewhere hx => exact absurd rfl (hx _)
  | answered _ h =>
    cases h.symm.trans (MemoryStore.perform_read hgives size)
    exact ⟨rfl, Array.getElem?_setIfInBounds_self_of_lt (Array.getElem?_eq_some_iff.1 hgives).1⟩

/-- All but an opening and a read leaves the readers alone. -/
theorem gives (h : SourceStep n store x after)
    (hx : ∀ call, x.request = .storage .source call → call.draws = false)
    (hgives : Gives store input rest) : Gives after input rest := by
  cases h with
  | elsewhere _ hkeeps => exact hkeeps input rest hgives
  | answered _ h =>
    rw [Gives, MemoryStore.readers_of_perform h (hx _ rfl)]
    exact hgives

theorem draws_of_aside (hx : x.request.aside = true) :
    ∀ call, x.request = .storage .source call → call.draws = false := by
  intro call hcall
  rw [hcall] at hx
  cases call with
  | openFile | read => cases hx
  | _ => rfl

end SourceStep

/-- A source in memory with a file at the path of the source does not fail, whatever the target and
the surroundings are. -/
theorem trail_source_of_serving {ε : Type} {surroundings : Program.Handler ε} {bound : Nat}
    {job : CopyJob} {init : StorePair} {file : MemoryFile} {e : ε}
    (hfile : init.source.get? job.source.path.key = some (.file file)) :
    ∃ after, Trail (SourceStep file.content.length) init.source
      (Program.exchanges (StorePair.serving surroundings) (copyOnce bound job) (init, e))
      after := by
  obtain ⟨phase, hphase⟩ := copyOnce_trail
    (Program.begins_exchanges (StorePair.serving surroundings) (copyOnce bound job) (init, e))
  have hstores := Program.trail_exchanges (StorePair.serving surroundings) (copyOnce bound job)
    (init, e)
  -- the source keeps what stands in it, so the file is there whenever it is opened
  obtain ⟨after, htrail, -⟩ : ∃ after, Trail (SourceStep file.content.length) init.source
      ((Program.exchanges (StorePair.serving surroundings) (copyOnce bound job)
        (init, e)).map id) after ∧ _ := by
    refine Trail.follow (I := fun _ state store =>
      store = state.1.source ∧ state.1.source.tree = init.source.tree) ?_ hphase hstores ⟨rfl, rfl⟩
    rintro phase ⟨pair, e⟩ _ ⟨r, answer⟩ phase' state' ⟨rfl, htree⟩ hstep hserved
    have hreads := CopyPhase.reads_step hstep
    obtain ⟨hanswer, rfl⟩ := Prod.ext_iff.1 hserved
    match r with
    | .storage .source call =>
      refine ⟨_, .answered ?_ (Prod.ext_iff.2 ⟨hanswer, rfl⟩), rfl, ?_⟩
      · rintro path rfl
        obtain rfl : path = job.source.path := hreads
        refine ⟨file, ?_, rfl⟩
        rw [MemoryStore.get?, htree]
        exact hfile
      · exact (MemoryStore.tree_of_looks pair.source hreads.looks).trans htree
    | .storage .target call => exact ⟨_, .elsewhere (by simp) fun _ _ h => h, rfl, htree⟩
    | .setStatus _ | .increment .. | .now | .sleep _ | .log _ =>
      exact ⟨_, .elsewhere (by simp) fun _ _ h => h, rfl, htree⟩
  rw [List.map_id] at htrail
  exact ⟨after, htrail⟩

/-! ## Chunks as long as the buffer -/

/-- All chunks of `n` bytes are `c` long, but for the last one. -/
def Paced (n c : Nat) (chunks : List Bytes) : Prop :=
  ∀ i ≤ chunks.length, byteCount (chunks.take i) = min (i * c) n

section paced

variable {n c : Nat} {chunks : List Bytes} {chunk rest : Bytes}

theorem paced_nil (n c : Nat) : Paced n c [] := by
  intro i hi
  obtain rfl : i = 0 := Nat.le_zero.1 hi
  simp

theorem Paced.byteCount_eq (h : Paced n c chunks) :
    byteCount chunks = min (chunks.length * c) n := by
  have hall := h chunks.length (Nat.le_refl _)
  rwa [List.take_length] at hall

/-- The next chunk is what a buffer takes from what is left. -/
theorem Paced.snoc (h : Paced n c chunks) (hrest : byteCount chunks + rest.length = n)
    (hne : rest.take c ≠ []) : Paced n c (chunks ++ [rest.take c]) := by
  have hpos : 0 < rest.length := by
    rw [List.length_pos_iff]
    rintro rfl
    exact hne List.take_nil
  have hbytes := h.byteCount_eq
  intro i hi
  rw [List.length_append, List.length_singleton] at hi
  rcases Nat.lt_or_ge i (chunks.length + 1) with hlt | hge
  · rw [List.take_append_of_le_length (Nat.le_of_lt_succ hlt)]
    exact h i (Nat.le_of_lt_succ hlt)
  · obtain rfl : i = chunks.length + 1 := Nat.le_antisymm hi hge
    rw [List.take_of_length_le (by simp), byteCount_append, byteCount_singleton, List.length_take,
      Nat.succ_mul]
    omega

theorem Paced.runningTotals_eq (h : Paced n c chunks) :
    runningTotals chunks = (List.range chunks.length).map fun i => min ((i + 1) * c) n :=
  List.map_congr_left fun i hi => h (i + 1) (List.mem_range.1 hi)

/-- When the chunks are all there is, their number is the length in buffers, rounded up. -/
theorem Paced.length_eq (h : Paced n c chunks) (hc : 0 < c) (hne : ∀ chunk ∈ chunks, chunk ≠ [])
    (hall : byteCount chunks = n) : chunks.length = (n + c - 1) / c := by
  have hbytes := h.byteCount_eq
  cases chunks using List.reverseRecOn with
  | nil =>
    obtain rfl : n = 0 := hall.symm
    exact (Nat.div_eq_of_lt (by omega)).symm
  | append_singleton front chunk =>
    have hpos := List.length_pos_iff.2 (hne chunk (by simp))
    have hfront := h front.length (by simp)
    rw [List.take_left] at hfront
    rw [byteCount_append, byteCount_singleton] at hall
    rw [List.length_append, List.length_singleton, Nat.succ_mul] at hbytes
    rw [List.length_append, List.length_singleton]
    symm
    refine Nat.div_eq_of_lt_le ?_ ?_
    · rw [Nat.succ_mul]
      omega
    · rw [Nat.succ_mul, Nat.succ_mul]
      rw [byteCount_append, byteCount_singleton] at hbytes
      omega

end paced

/-! ## The loop with such a source -/

/-- The target store has created the temporary file. -/
def CopyJob.Created (job : CopyJob) (history : List Exchange) : Prop :=
  ∃ output : StreamId,
    ⟨.storage .target (.createFile job.temp true job.options.bufferSize job.layout),
      .ok (.ok output)⟩ ∈ history

namespace Meter

/-- What the loop has moved and what is left of a source of `n` bytes. -/
def AtPace (n c : Nat) (m : Meter) (store : MemoryStore) : Prop :=
  Paced n c m.told ∧
    match m.stage with
    | .resting input | .complaining input =>
      ∃ rest, Gives store input rest ∧ byteCount m.told + rest.length = n
    | .carrying input chunk | .due input chunk =>
      ∃ rest, Gives store input rest ∧ Paced n c (m.told ++ [chunk]) ∧
        byteCount (m.told ++ [chunk]) + rest.length = n
    | .stopped lost => lost = none → byteCount m.told = n
    | .idle | .staged => True

section memory

variable {job : CopyJob} {m m' : Meter} {n : Nat} {store after : MemoryStore} {x : Exchange}

/-- What leaves the readers alone leaves everything as it is. -/
theorem AtPace.keep {c : Nat} (h : AtPace n c m store) (hsource : SourceStep n store x after)
    (hx : ∀ call, x.request = .storage .source call → call.draws = false) :
    AtPace n c m after := by
  obtain ⟨told, refusal, stage⟩ := m
  obtain ⟨hpaced, hstage⟩ := h
  refine ⟨hpaced, ?_⟩
  cases stage with
  | resting | complaining =>
    obtain ⟨rest, hgives, hleft⟩ := hstage
    exact ⟨rest, hsource.gives hx hgives, hleft⟩
  | carrying | due =>
    obtain ⟨rest, hgives, hleft⟩ := hstage
    exact ⟨rest, hsource.gives hx hgives, hleft⟩
  | _ => exact hstage

/-- Every step of the loop keeps its pace with a source that does not fail. -/
theorem AtPace.step (hbuffer : job.plan.bufferTrouble? = none)
    (h : AtPace n job.plan.chunkSize m store) (hstep : Step job m x m')
    (hsource : SourceStep n store x after) : AtPace n job.plan.chunkSize m' after := by
  cases hstep with
  | aside hx => exact h.keep hsource (SourceStep.draws_of_aside hx)
  | created | createdUnbuffered | notCreated => exact ⟨paced_nil _ _, trivial⟩
  | openedUnbuffered input htrouble => exact absurd hbuffer htrouble
  | opened input =>
    obtain ⟨input', content, heq, hgives, hlength⟩ := hsource.opens
    obtain rfl := Except.ok.inj heq
    exact ⟨paced_nil _ _, content, hgives, by rw [byteCount_nil, hlength, Nat.zero_add]⟩
  | notOpened message =>
    obtain ⟨input, content, heq, -⟩ := hsource.opens
    cases heq
  | delivered hchunk =>
    obtain ⟨hpaced, rest, hgives, hleft⟩ := h
    obtain ⟨heq, hgives'⟩ := hsource.reads hgives
    obtain rfl := Except.ok.inj heq
    refine ⟨hpaced, _, hgives', hpaced.snoc hleft hchunk, ?_⟩
    rw [byteCount_append, byteCount_singleton, Nat.add_assoc, ← List.length_append,
      List.take_append_drop]
    exact hleft
  | ended =>
    obtain ⟨hpaced, rest, hgives, hleft⟩ := h
    obtain ⟨heq, -⟩ := hsource.reads hgives
    rcases List.take_eq_nil_iff.1 (Except.ok.inj heq).symm with hzero | rfl
    · exact absurd hzero (Nat.ne_of_gt (chunkSize_pos job))
    · exact ⟨hpaced, fun _ => hleft⟩
  | notRead message =>
    obtain ⟨hpaced, rest, hgives, hleft⟩ := h
    cases (hsource.reads hgives).1
  | written => exact AtPace.keep (m := ⟨_, _, .due _ _⟩) h hsource fun _ hcall => by cases hcall
  | notWritten message => exact ⟨h.1, fun hnone => by cases hnone⟩
  | accepted | refused | refusedAgain =>
    obtain ⟨-, rest, hgives, hpaced, hleft⟩ := h
    exact ⟨hpaced, rest, hsource.gives (fun _ hcall => by cases hcall) hgives, hleft⟩
  | complained =>
    exact AtPace.keep (m := ⟨_, _, .resting _⟩) h hsource fun _ hcall => by cases hcall

/-- Once the temporary file was created, the loop is not where it began. -/
theorem ne_idle_of_created {history : List Exchange} (h : Trail (Step job) {} history m)
    (hcreated : job.Created history) : m.stage ≠ .idle := by
  refine Trail.history (I := fun before m => job.Created before → m.stage ≠ .idle) ?_ h ?_ hcreated
  · rintro before m x m' hbegun hstep ⟨output, hmem⟩
    rcases List.mem_append.1 hmem with hbefore | hnow
    · have hstage := hbegun ⟨output, hbefore⟩
      cases hstep with
      | aside | createdUnbuffered | notCreated => exact hstage
      | _ => exact MeterStage.noConfusion
    · obtain rfl := List.mem_singleton.1 hnow
      cases hstep with
      | aside hx => cases hx
      | created => exact MeterStage.noConfusion
  · rintro ⟨output, hmem⟩
    cases hmem

/-- Without a buffer the loop does not begin, so nothing is told. -/
theorem told_nil {exchanges : List Exchange} (h : Trail (Step job) {} exchanges m)
    (hbuffer : job.plan.bufferTrouble? ≠ none) : m.told = [] := by
  have hunbegun := Trail.history (I := fun _ m => m.told = [] ∧
    (m.stage = .idle ∨ m.stage = .staged ∨ m.stage = .stopped none)) ?_ h ⟨rfl, .inl rfl⟩
  · exact hunbegun.1
  · rintro before m x m' ⟨htold, hstage⟩ hstep
    cases hstep with
    | aside => exact ⟨htold, hstage⟩
    | created => exact ⟨rfl, .inr (.inl rfl)⟩
    | createdUnbuffered | notCreated => exact ⟨rfl, .inl rfl⟩
    | openedUnbuffered | notOpened => exact ⟨rfl, .inr (.inr rfl)⟩
    | opened _ hnone => exact absurd hnone hbuffer
    | _ => simp at hstage

end memory

end Meter

/-- What an attempt tells of its progress when the source is a file of `n` bytes in memory and no
call on it fails. -/
structure CopyJob.ReportsEvenly (job : CopyJob) (n : Nat) (exchanges : List Exchange) : Prop where
  /-- The bytes so far are the multiples of the buffer size up to the length of the file. -/
  even : runningTotals (writtenChunks exchanges) =
    (List.range (reportsOf exchanges).length).map fun i =>
      min ((i + 1) * max job.options.bufferSize 1) n
  /-- If the target store created the temporary file and refused no chunk, there are as many as the
  length in buffers, rounded up. -/
  complete : job.Created exchanges → failedChunks exchanges = [] →
    (reportsOf exchanges).length
      = (n + max job.options.bufferSize 1 - 1) / max job.options.bufferSize 1
  /-- In this case the last one has all of the file, if there is anything in it. -/
  last : job.Created exchanges → failedChunks exchanges = [] →
    (runningTotals (writtenChunks exchanges)).getLast? = if n = 0 then none else some n

namespace Meter

variable {job : CopyJob} {m : Meter} {exchanges : List Exchange} {n : Nat} {store : MemoryStore}

theorem reportsEvenly (h : Trail (Step job) {} exchanges m) (hsettled : m.stage.settled = true)
    (hpace : AtPace n job.plan.chunkSize m store) : job.ReportsEvenly n exchanges := by
  have hrecords := records h
  have htold := hrecords.told_eq hsettled
  have hcount : (reportsOf exchanges).length = m.told.length := by
    rw [hrecords.reports, List.length_map, length_runningTotals]
  have hne : ∀ chunk ∈ m.told, chunk ≠ [] := by
    rw [htold]
    exact fun chunk => hrecords.ne_nil_of_written hsettled
  have hall : job.Created exchanges → failedChunks exchanges = [] → byteCount m.told = n := by
    intro hcreated hfailed
    have hbegun := ne_idle_of_created h hcreated
    have hlost := hrecords.failed.symm.trans hfailed
    obtain ⟨told, refusal, stage⟩ := m
    cases stage with
    | idle => exact absurd rfl hbegun
    | stopped lost => exact hpace.2 (Option.toList_eq_nil_iff.1 hlost)
    | _ => cases hsettled
  refine ⟨?_, fun hcreated hfailed => ?_, fun hcreated hfailed => ?_⟩
  · rw [hcount, ← htold]
    exact hpace.1.runningTotals_eq
  · rw [hcount]
    exact hpace.1.length_eq (chunkSize_pos job) hne (hall hcreated hfailed)
  · rw [← htold, getLast?_runningTotals, ← hall hcreated hfailed]
    simp only [byteCount_eq_zero_iff hne]

end Meter

/-! ## The theorem -/

/-- The small job with a buffer of two bytes. -/
def shortBufferJob : CopyJob := { smallJob with options := { bufferSize := 2 } }

/-- Surroundings that refuse every status and nothing else. -/
def unreachable : Program.Handler (List Bytes)
  | .setStatus _, left => (.error (utf8 "gone"), left)
  | r, left => obliging 0 r left

/-- Whatever the stores and the task answer, an attempt tells of its progress completely, however it
ends. With a source in memory that does not fail the numbers are known, if there is a buffer;
without one nothing is told. -/
theorem progress_complete {bound : Nat} {job : CopyJob} {exchanges : List Exchange}
    {outcome : Outcome (Except CopyError Nat)} (h : Yields (copyOnce bound job) exchanges outcome)
    (hends : outcome ≠ .unfinished) :
    job.ReportsProgress exchanges ∧
      (job.plan.bufferTrouble? = none → ∀ n store after,
        Trail (SourceStep n) store exchanges after → job.ReportsEvenly n exchanges) ∧
      (job.plan.bufferTrouble? ≠ none → reportsOf exchanges = []) := by
  obtain ⟨m, htrail, hsettled⟩ := copyOnce_settles.of_yields h
  have hsettled := hsettled hends
  refine ⟨Meter.reportsProgress htrail hsettled, fun hbuffer n store after hsource => ?_,
    fun hbuffer => ?_⟩
  · have hstart : Meter.AtPace n job.plan.chunkSize {} store := ⟨paced_nil _ _, trivial⟩
    have hpace : Meter.AtPace n job.plan.chunkSize m after :=
      Trail.together (fun hpace hstep hserved => hpace.step hbuffer hstep hserved) htrail hsource
        hstart
    exact Meter.reportsEvenly htrail hsettled hpace
  · rw [(Meter.records htrail).reports, Meter.told_nil htrail hbuffer]
    rfl

/-- Three bytes through a buffer of two are told of twice, and two refusals leave one line in the
log. -/
theorem progress_complete_refused : ∃ exchanges,
    Yields (copyOnce 4 shortBufferJob) exchanges (.done (.ok 3)) ∧
    refusalsOf exchanges = [utf8 "gone", utf8 "gone"] ∧
    reportsOf exchanges = [shortBufferJob.progressAt 2, shortBufferJob.progressAt 3] ∧
    complaintsOf exchanges = [shortBufferJob.complaint (utf8 "gone")] := by
  have hresult : (Program.run (StorePair.serving unreachable) (copyOnce 4 shortBufferJob)
      (smallStores, [])).1 = .done (.ok 3) := by decide +kernel
  have hrun := Program.yields_exchanges (StorePair.serving unreachable) (copyOnce 4 shortBufferJob)
    (smallStores, [])
  rw [hresult] at hrun
  have hfile : smallStores.source.get? shortBufferJob.source.path.key
      = some (.file ⟨utf8 "abc", ⟨1, 64⟩⟩) := by decide +kernel
  obtain ⟨after, hsource⟩ : ∃ after, Trail (SourceStep 3) smallStores.source
      (Program.exchanges (StorePair.serving unreachable) (copyOnce 4 shortBufferJob)
        (smallStores, [])) after := trail_source_of_serving hfile
  have hcreated : shortBufferJob.Created (Program.exchanges (StorePair.serving unreachable)
      (copyOnce 4 shortBufferJob) (smallStores, [])) :=
    ⟨(0 : Nat), List.mem_of_getElem? (i := 2) rfl⟩
  have hfailed : failedChunks (Program.exchanges (StorePair.serving unreachable)
      (copyOnce 4 shortBufferJob) (smallStores, [])) = [] := by decide +kernel
  have hrefusals : refusalsOf (Program.exchanges (StorePair.serving unreachable)
      (copyOnce 4 shortBufferJob) (smallStores, [])) = [utf8 "gone", utf8 "gone"] := by
    decide +kernel
  obtain ⟨htold, heven, -⟩ := progress_complete hrun nofun
  have hevenly := heven rfl _ _ _ hsource
  have hcount := hevenly.complete hcreated hfailed
  have htotals := hevenly.even
  rw [hcount] at htotals
  refine ⟨_, hrun, hrefusals, ?_, ?_⟩
  · rw [htold.totals, htotals]
    rfl
  · rw [htold.complaints, hrefusals]
    rfl

/-- Three bytes through a buffer that cannot be had are not told of at all, although the source does
not fail and the temporary file was created; it should have been once. -/
theorem progress_missing_unbuffered : ∃ exchanges,
    Yields (copyOnce 4 unbufferedJob) exchanges (.broken (.excessiveBuffer .bytes)) ∧
    (∃ after, Trail (SourceStep 3) smallStores.source exchanges after) ∧
    unbufferedJob.Created exchanges ∧ failedChunks exchanges = [] ∧
    (3 + max unbufferedJob.options.bufferSize 1 - 1) / max unbufferedJob.options.bufferSize 1 = 1 ∧
    reportsOf exchanges = [] := by
  have hbroken : (Program.run (StorePair.serving unreachable) (copyOnce 4 unbufferedJob)
      (smallStores, [])).1 = .broken (.excessiveBuffer .bytes) := by decide +kernel
  have hyields := Program.yields_exchanges (StorePair.serving unreachable)
    (copyOnce 4 unbufferedJob) (smallStores, [])
  rw [hbroken] at hyields
  have hfile : smallStores.source.get? unbufferedJob.source.path.key
      = some (.file ⟨utf8 "abc", ⟨1, 64⟩⟩) := by decide +kernel
  refine ⟨_, hyields, trail_source_of_serving hfile,
    ⟨(0 : Nat), List.mem_of_getElem? (i := 2) rfl⟩, ?_, ?_, ?_⟩
  all_goals decide +kernel

end StagedCopy
