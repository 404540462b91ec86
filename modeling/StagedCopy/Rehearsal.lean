import StagedCopy.Breakdown
import StagedCopy.Copy.Outcome
import StagedCopy.Event.Hub
import StagedCopy.Local
import StagedCopy.Memory
import StagedCopy.Rehearsal.Fault
import StagedCopy.VirtualClock

/-!
# Rehearsals

A rehearsal runs copies against named stores, in memory or on one disk that they share, under a
virtual clock. Calls on a store are watched: they are traced, counted, and struck by the faults that
the rules of the store lay down. One hub listens to the tasks that publish events; other tasks are
recorded, and may refuse. A rehearsal that has broken down means nothing from there on.

* `Rehearsal` — the stores and everything they leave behind.
* `Rehearsal.bare` — a call that nobody watches; `Rehearsal.call` — a watched one.
* `Rehearsal.note` — a breakdown.
* `Rehearsal.openReader`, `openWriter`, `readFrom`, `writeTo`, `closeWriter`, `dropWriter` —
  streams under names.
* `Rehearsal.handler` — the answers to the requests of a copy program.
* `Rehearsal.copy`, `copyWithRetries`, `promote`, `compare` — copies and their parts.
-/

namespace StagedCopy

/-! ## Stores and tasks -/

/-- A store of a rehearsal: one in memory, or one on the disk of the rehearsal. -/
inductive RehearsedStore where
  | memory (store : MemoryStore)
  | disk (settings : LocalSettings)

/-- The layout that a store gives to files without one of their own. -/
def RehearsedStore.defaults : RehearsedStore → Layout
  | memory store => store.defaults
  | disk settings => settings.layout

/-- A task that runs a copy: one that records what it is told, and refuses status texts or some
counters, or one that publishes everything as events. -/
inductive RehearsedTask where
  | recording (refusesStatus : Bool) (refused : List Counter)
  | publishing (attempt : Bytes)

/-- An open stream: the store it belongs to, and its number there. -/
structure StreamHandle where
  store : Bytes
  stream : StreamId
  deriving DecidableEq, Repr

/-- A rehearsal: the disk, the stores by their names with their fault plans, the streams by their
names, the clock, the hub, the first breakdown, and what has been logged, traced and recorded since
the last look. -/
structure Rehearsal where
  system : LocalSystem := { disk := Disk.withCurrent [utf8 "runs", utf8 "scratch"] }
  stores : List (Bytes × RehearsedStore) := []
  plans : List (Bytes × FaultPlan) := []
  readers : List (Bytes × StreamHandle) := []
  writers : List (Bytes × StreamHandle) := []
  clock : VirtualClock := {}
  hub : Hub
  tracesBytes : Bool := false
  breakdown : Option Breakdown := none
  log : Array Log.Line := #[]
  trace : Array Bytes := #[]
  statuses : Array Bytes := #[]
  increments : Array (Counter × Nat) := #[]

namespace Rehearsal

/-- An association with another value for a name. -/
def assign {α : Type} (name : Bytes) (value : α) (entries : List (Bytes × α)) :
    List (Bytes × α) :=
  (name, value) :: entries.filter fun entry => entry.1 != name

/-- One more log line. -/
def addLine (line : Log.Line) (r : Rehearsal) : Rehearsal := { r with log := r.log.push line }

/-- One more traced call on a store. -/
def addCall (name text : Bytes) (r : Rehearsal) : Rehearsal :=
  { r with trace := r.trace.push (name ++ utf8 "." ++ text) }

/-- The first breakdown is kept. -/
def note (trouble : Breakdown) (r : Rehearsal) : Rehearsal :=
  { r with breakdown := r.breakdown.or (some trouble) }

/-- What was logged, traced and recorded is taken out. -/
def forget (r : Rehearsal) : Rehearsal :=
  { r with
    clock := r.clock.forgetSleeps, log := #[], trace := #[], statuses := #[], increments := #[] }

/-! ## Calls that nobody watches -/

/-- The answer of a store that is not there. -/
def noSuchStore {α : Type} : Except Bytes α := .error (utf8 "no such store")

/-- The answer of a store to a call. -/
def bare (name : Bytes) (call : StorageCall) (r : Rehearsal) : call.Answer × Rehearsal :=
  match r.stores.lookup name with
  | none => (noSuchStore, r)
  | some (.memory store) =>
    let (answer, after) := store.perform call
    (answer, { r with stores := assign name (.memory after) r.stores })
  | some (.disk settings) =>
    let told := (LocalSettings.announce call).foldl (fun r line => r.addLine line) r
    let (answer, after) := settings.perform call r.system
    (answer, { told with system := after })

/-- A file of a store gets a content, and all that it needs to be there. -/
def put (name : Bytes) (path : Path) (content : Bytes) (layout : Layout) (r : Rehearsal) :
    Except Bytes Unit × Rehearsal :=
  match r.stores.lookup name with
  | none => (noSuchStore, r)
  | some (.memory store) =>
    let (answer, after) := store.conclude (store.put path content layout)
    (answer, { r with stores := assign name (.memory after) r.stores })
  | some (.disk _) =>
    let told := (LocalSettings.announce (.createFile path true 0 layout)).foldl
      (fun r line => r.addLine line) r
    let (answer, after) := r.system.put path content
    let filled := { told with system := after }
    match answer with
    | .ok (.ok ()) => (.ok (), filled)
    | .ok (.error trouble) => (.ok (), filled.note trouble)
    | .error e => (.error e.message, filled)

/-- The content of a file of a store. -/
def get (name : Bytes) (path : Path) (r : Rehearsal) : Except Bytes Bytes :=
  match r.stores.lookup name with
  | none => noSuchStore
  | some (.memory store) => (store.get path).mapError MemoryError.message
  | some (.disk _) => (r.system.get path).mapError LocalError.message

/-- The spellings of all that stands in a store. -/
def list (name : Bytes) (r : Rehearsal) : List Bytes :=
  match r.stores.lookup name with
  | none => []
  | some (.memory store) => store.list
  | some (.disk _) => r.system.list

/-- The layout that a store gives to files without one of their own. -/
def defaults (name : Bytes) (r : Rehearsal) : Layout :=
  ((r.stores.lookup name).map RehearsedStore.defaults).getD ⟨0, 0⟩

/-! ## Watched calls -/

/-- A call in words; what reads and writes say is decided elsewhere. -/
def callText : StorageCall → Bytes
  | .openFile path => utf8 "open " ++ path
  | .createFile path overwrite bufferSize layout =>
    utf8 "create " ++ path ++ (if overwrite then utf8 " overwrite" else []) ++ utf8 " buffer="
      ++ decimal bufferSize ++ utf8 " replication=" ++ signedDecimal layout.replication
      ++ utf8 " block=" ++ decimal layout.blockSize
  | .pathExists path => utf8 "exists " ++ path
  | .remove path recursive =>
    utf8 "remove " ++ path ++ (if recursive then utf8 " recursive" else [])
  | .makeDirs path => utf8 "mkdirs " ++ path
  | .rename source target => utf8 "rename " ++ source ++ utf8 " " ++ target
  | .status path => utf8 "status " ++ path
  | .checksum path => utf8 "checksum " ++ path
  | .read _ size => utf8 "read " ++ decimal size
  | .write _ data => utf8 "write " ++ decimal data.length
  | .close _ => utf8 "close"

/-- The call goes to the trace; a read or a write only when bytes are traced, and a read only with
its outcome. -/
def traceBefore (name : Bytes) (call : StorageCall) (r : Rehearsal) : Rehearsal :=
  match call with
  | .read .. => r
  | .write .. => if r.tracesBytes then r.addCall name (callText call) else r
  | _ => r.addCall name (callText call)

/-- A read goes to the trace with its outcome, when bytes are traced. -/
def traceAfter (name : Bytes) (call : StorageCall) (answer : call.Answer) (r : Rehearsal) :
    Rehearsal :=
  match call, answer with
  | .read stream size, .ok chunk =>
    let chunk : Bytes := chunk
    if r.tracesBytes then
      r.addCall name (callText (.read stream size) ++ utf8 " -> " ++ decimal chunk.length)
    else r
  | .read stream size, .error _ =>
    if r.tracesBytes then r.addCall name (callText (.read stream size) ++ utf8 " failed") else r
  | _, _ => r

/-- What a fault does behind the store's back. -/
def disturb (name : Bytes) (fault : Fault) (r : Rehearsal) : Rehearsal :=
  let r :=
    match fault.removal with
    | some path => (r.bare name (.remove path true)).2
    | none => r
  let r :=
    match fault.placement with
    | some (path, content) => (r.put name path content ⟨0, 0⟩).2
    | none => r
  { r with clock := r.clock.advance fault.delay }

/-- The answer of a store to a watched call. -/
def call (name : Bytes) (c : StorageCall) (r : Rehearsal) : c.Answer × Rehearsal :=
  let r := r.traceBefore name c
  let (fault, plan) := ((r.plans.lookup name).getD {}).next c.kind
  let r := { r with plans := assign name plan r.plans }
  let (answer, r) := fault.strike (bare name) c (r.disturb name fault)
  (answer, r.traceAfter name c answer)

/-- The store gets other rules, and its calls are counted anew. -/
def setRules (name : Bytes) (rules : List FaultRule) (r : Rehearsal) : Rehearsal :=
  { r with plans := assign name { rules := rules } r.plans }

/-! ## Streams under names -/

/-- The answer about a stream that is not there. -/
def noSuchHandle : Bytes := utf8 "no such handle"

/-- The disk after a stream opened for writing ends without being closed. -/
def abandon (handle : StreamHandle) (r : Rehearsal) : Rehearsal :=
  match r.stores.lookup handle.store with
  | some (.disk _) => { r with system := r.system.abandon handle.stream }
  | _ => r

/-- A file is opened for reading, under a name. -/
def openReader (name handle : Bytes) (path : Path) (r : Rehearsal) :
    Except Bytes Unit × Rehearsal :=
  match r.call name (.openFile path) with
  | (.error e, r) => (.error e, r)
  | (.ok stream, r) => (.ok (), { r with readers := assign handle ⟨name, stream⟩ r.readers })

/-- A file is created, under a name; a stream that had the name before ends. -/
def openWriter (name handle : Bytes) (path : Path) (overwrite : Bool) (bufferSize : Nat)
    (layout : Layout) (r : Rehearsal) : Except Bytes Unit × Rehearsal :=
  match r.call name (.createFile path overwrite bufferSize layout) with
  | (.error e, r) => (.error e, r)
  | (.ok (.error trouble), r) => (.ok (), r.note trouble)
  | (.ok (.ok stream), r) =>
    let r :=
      match r.writers.lookup handle with
      | some old => r.abandon old
      | none => r
    (.ok (), { r with writers := assign handle ⟨name, stream⟩ r.writers })

/-- The store to which the stream with a name belongs. -/
def storeOfWriter? (handle : Bytes) (r : Rehearsal) : Option Bytes :=
  (r.writers.lookup handle).map StreamHandle.store

/-- Bytes from the stream with a name, for which there has to be a buffer. -/
def readFrom (handle : Bytes) (size : Nat) (r : Rehearsal) : Except Bytes Bytes × Rehearsal :=
  match r.readers.lookup handle with
  | none => (.error noSuchHandle, r)
  | some h =>
    let r := (Breakdown.ofBuffer? r.system.allocator .bytes size).elim r r.note
    r.call h.store (.read h.stream size)

/-- Bytes for the stream with a name. -/
def writeTo (handle data : Bytes) (r : Rehearsal) : Except Bytes Unit × Rehearsal :=
  match r.writers.lookup handle with
  | none => (.error noSuchHandle, r)
  | some h => r.call h.store (.write h.stream data)

/-- The stream with a name is closed; it keeps the name. -/
def closeWriter (handle : Bytes) (r : Rehearsal) : Except Bytes Unit × Rehearsal :=
  match r.writers.lookup handle with
  | none => (.error noSuchHandle, r)
  | some h => r.call h.store (.close h.stream)

/-- The stream with a name ends without being closed. -/
def dropWriter (handle : Bytes) (r : Rehearsal) : Except Bytes Unit × Rehearsal :=
  match r.writers.lookup handle with
  | none => (.error noSuchHandle, r)
  | some h =>
    let r := r.abandon h
    (.ok (), { r with writers := r.writers.filter fun entry => entry.1 != handle })

/-! ## Tasks -/

/-- What a task heard of the hub, whose log lines are among those of the rehearsal. -/
def afterHearing (heard : Hub.Hearing × Hub) (r : Rehearsal) : Except Bytes Unit × Rehearsal :=
  (heard.1.result, { r with hub := heard.2, log := r.log ++ heard.1.lines.toArray })

/-- A task is told a status text. -/
def tellStatus (task : RehearsedTask) (text : Bytes) (r : Rehearsal) :
    Except Bytes Unit × Rehearsal :=
  match task with
  | .recording true _ => (.error (utf8 "status sink unavailable"), r)
  | .recording false _ => (.ok (), { r with statuses := r.statuses.push text })
  | .publishing attempt => r.afterHearing (r.hub.tellStatus attempt text)

/-- A task is told that a counter grows. -/
def tellIncrement (task : RehearsedTask) (counter : Counter) (value : Nat) (r : Rehearsal) :
    Except Bytes Unit × Rehearsal :=
  match task with
  | .recording _ refused =>
    if refused.contains counter then (.error (utf8 "counter sink unavailable"), r)
    else (.ok (), { r with increments := r.increments.push (counter, value) })
  | .publishing attempt => r.afterHearing (r.hub.tellIncrement attempt counter value)

/-! ## Copies -/

/-- The answers to the requests of a copy between two stores, run by a task. -/
def handler (source target : Bytes) (task : RehearsedTask) : Program.Handler Rehearsal
  | .storage .source c, r => r.call source c
  | .storage .target c, r => r.call target c
  | .setStatus text, r => r.tellStatus task text
  | .increment counter value, r => r.tellIncrement task counter value
  | .now, r => (r.clock.now, r)
  | .sleep nanoseconds, r => ((), { r with clock := r.clock.sleep nanoseconds })
  | .log line, r => ((), r.addLine line)

/-- More reads than any stream of a rehearsal takes. -/
def readBound : Nat := 0x4000000000000000

/-- A publishing task starts without a status. -/
def startTask (task : RehearsedTask) (r : Rehearsal) : Rehearsal :=
  match task with
  | .publishing attempt =>
    { r with hub := { r.hub with
      lastStatus := r.hub.lastStatus.filter fun entry => entry.1 != attempt } }
  | .recording .. => r

/-- The outcome of a program, and the rehearsal after it, in which a breakdown is noted. -/
def rehearse {α : Type} (handler : Program.Handler Rehearsal) (p : Program α) (r : Rehearsal) :
    Program.Outcome α × Rehearsal :=
  match p.run handler r with
  | (.broken trouble, r) => (.broken trouble, r.note trouble)
  | ended => ended

/-- The job with the memory that the rehearsal has. -/
def provide (job : CopyJob) (r : Rehearsal) : CopyJob :=
  { job with allocator := r.system.allocator }

/-- One attempt at a copy. -/
def copy (source target : Bytes) (task : RehearsedTask) (job : CopyJob) (r : Rehearsal) :
    Program.Outcome (Except CopyError Nat) × Rehearsal :=
  (r.startTask task).rehearse (handler source target task) (copyOnce readBound (r.provide job))

/-- A copy with retries. -/
def copyWithRetries (source target : Bytes) (task : RehearsedTask) (job : CopyJob)
    (policy : RetryPolicy) (skipReadFailures : Bool) (r : Rehearsal) :
    Program.Outcome (Except CopyError CopyOutcome) × Rehearsal :=
  (r.startTask task).rehearse (handler source target task)
    (StagedCopy.copyWithRetries readBound (r.provide job) policy skipReadFailures)

/-- A staged file of a store is published. -/
def promote (name : Bytes) (temp target : Path) (r : Rehearsal) :
    Program.Outcome (Except CopyError Unit) × Rehearsal :=
  let (outcome, r) :=
    r.rehearse (handler name name (.recording false [])) (StagedCopy.promote temp target).run
  (outcome.map fun result => result.mapError CopyFailure.report, r)

/-- The checksums of two files are compared. -/
def compare (source target : Bytes) (sourcePath targetPath : Path) (r : Rehearsal) :
    Program.Outcome ChecksumReport × Rehearsal :=
  r.rehearse (handler source target (.recording false [])) (compareChecksums sourcePath targetPath)

end Rehearsal

end StagedCopy
