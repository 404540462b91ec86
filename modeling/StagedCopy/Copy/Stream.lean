import StagedCopy.Copy.Failure
import StagedCopy.CopyOptions
import StagedCopy.Progress
import StagedCopy.Throttle

/-!
# Moving the bytes

The source is read through the throttle in chunks of at most the buffer size, each chunk is
written to the staged file, and after each written chunk the task is told how far the copy is. The
loop ends at the first failure or when the source has no more bytes. There is no loop when no buffer
can be had for the chunks; the stream then breaks down.

* `reportProgress` — one status text; the first refusal of an attempt is logged.
* `streamChunks` — the loop, whose first argument bounds the number of reads.
* `streamSource` — the whole stream, from opening the source to the summary in the log.
-/

namespace StagedCopy

/-- What a stream is told about its copy, and the memory that there is for its buffer. -/
structure StreamPlan where
  source : FileStatus
  description : Bytes
  options : CopyOptions
  allocator : Allocator

namespace StreamPlan

/-- The size of the chunks: the buffer size, or one byte without a buffer. -/
def chunkSize (plan : StreamPlan) : Nat := max plan.options.bufferSize 1

/-- The breakdown over the buffer for the chunks, if there is one. -/
def bufferTrouble? (plan : StreamPlan) : Option Breakdown :=
  Breakdown.ofBuffer? plan.allocator .bytes plan.chunkSize

end StreamPlan

/-- Tells the task how far the copy is. A task that refuses is asked again after the next chunk,
and the refusal is logged unless one was before; the result says whether one was. -/
def reportProgress (plan : StreamPlan) (copied : Nat) (refused : Bool) : Program Bool := do
  let text := progressText plan.description copied plan.source.length
  match ← Program.request (.setStatus text) with
  | .ok () => pure refused
  | .error message =>
    unless refused do
      Program.log .warn (utf8 "Progress update failed for " ++ plan.description ++ utf8 ": "
        ++ message)
    pure true

/-- The chunks from the next one on, when `copied` bytes have been written, counted modulo
`2 ^ 64`. -/
def streamChunks (plan : StreamPlan) (input output : StreamId) :
    Nat → Throttle → Nat → Bool → Program (Except CopyFailure Nat × Throttle)
  | 0, _, _, _ => .unfinished
  | bound + 1, throttle, copied, refused => do
    let (result, throttle) ←
      throttle.read Program.clock (Program.call .source (.read input plan.chunkSize))
    match result with
    | .error message => pure (.error (.readSource message), throttle)
    | .ok [] => pure (.ok copied, throttle)
    | .ok (b :: rest) =>
      let chunk := b :: rest
      match ← Program.call .target (.write output chunk) with
      | .error message => pure (.error (.writeTemp message), throttle)
      | .ok () =>
        let copied := wrap64 (copied + chunk.length)
        let refused ← reportProgress plan copied refused
        streamChunks plan input output bound throttle copied refused

/-- All bytes of the source go to the open output; the number of bytes. The time spent waiting is
booked and the summary logged whichever way the loop ended. The buffer is asked for when the source
is open. -/
def streamSource (bound : Nat) (plan : StreamPlan) (output : StreamId) :
    Program (Except CopyFailure Nat) := do
  match ← Program.call .source (.openFile plan.source.path) with
  | .error message => pure (.error (.openSource message))
  | .ok input =>
    let start ← Program.now
    let throttle : Throttle := { rate := plan.options.maxBytesPerSecond, start := start }
    match plan.bufferTrouble? with
    | some trouble => .broken trouble
    | none =>
      let (result, throttle) ← streamChunks plan input output bound throttle 0 false
      Program.incrementSafely .sleepTime throttle.sleptMilliseconds
      let finish ← Program.now
      Program.log .info (utf8 "STATS: " ++ throttle.text finish)
      pure result

end StagedCopy
