import StagedCopy.Copy.Promotion
import StagedCopy.Copy.Staging
import StagedCopy.Copy.Stream

/-!
# One attempt at a copy

An attempt writes the source to a temporary file, checks the length and, for a file that is not
empty, the checksums, and then publishes the temporary file as the target. Whichever way it ends,
also when it breaks down, the temporary file is removed if it is still there, so the target is
either untouched or holds a verified copy.

* `CopyJob` — what an attempt is told.
* `fillTemp`, `stage`, `checkLengths`, `checkChecksums`, `promote` — the steps.
* `stageAndPublish` — the steps in order.
* `discardTemp` — the removal at the end.
* `copyOnce` — the attempt.
-/

namespace StagedCopy

/-- A copy to be made: the source as it was last seen, the target, and the settings. The defaults
are the layout that the target store gives to a file without one of its own, and the allocator is
the memory that there is for a buffer. -/
structure CopyJob where
  source : FileStatus
  target : Path
  attributes : Attributes := {}
  options : CopyOptions := {}
  attemptId : Bytes
  defaults : Layout
  allocator : Allocator := fun _ _ => true

namespace CopyJob

/-- The path of the temporary file. -/
def temp (job : CopyJob) : Path := tempPath job.target job.options.workPath job.attemptId

/-- The layout of the copy. -/
def layout (job : CopyJob) : Layout := job.attributes.choose job.source.layout job.defaults

/-- The copy in words. -/
def description (job : CopyJob) : Bytes :=
  utf8 "Copying " ++ job.source.path ++ utf8 " to " ++ job.target

/-- What the stream of the copy is told. -/
def plan (job : CopyJob) : StreamPlan :=
  ⟨job.source, job.description, job.options, job.allocator⟩

end CopyJob

/-! ## Steps -/

/-- The source is written to the open temporary file, which is closed whichever way that went; a
failure to close counts only when nothing failed before it. A stream that breaks down leaves the
temporary file open. -/
def fillTemp (bound : Nat) (job : CopyJob) (output : StreamId) :
    Program (Except CopyFailure Nat) := do
  let copied ← streamSource bound job.plan output
  let closed ← Program.call .target (.close output)
  let complaint (message : Bytes) : Bytes :=
    utf8 "Could not close output stream for " ++ job.temp ++ utf8 ": " ++ message
  match copied, closed with
  | .ok n, .ok () => pure (.ok n)
  | .ok _, .error message =>
    Program.log .error (complaint message)
    pure (.error (.closeTemp message))
  | .error failure, .ok () => pure (.error failure)
  | .error failure, .error message =>
    Program.log .warn (complaint message)
    pure (.error failure)

/-- The temporary file is created and filled. -/
def stage (bound : Nat) (job : CopyJob) : Fallible Nat := do
  let created : Except Breakdown StreamId ← Fallible.call .target
    (.createFile job.temp true job.options.bufferSize job.layout) .createTemp
  ExceptT.mk <|
    match created with
    | .ok output => fillTemp bound job output
    | .error trouble => .broken trouble

/-- Both the source and the temporary file have the length that was copied. -/
def checkLengths (job : CopyJob) (copied : Nat) : Fallible Unit := do
  let source ← Fallible.call .source (.status job.source.path) .sourceStatus
  unless source.length = copied do
    throw (.sourceLength job.source.path source.length copied)
  let temp ← Fallible.call .target (.status job.temp) .tempStatus
  unless temp.length = copied do
    throw (.tempLength job.source.path job.temp temp.length copied)

/-- Source and temporary file have equal checksums. -/
def checkChecksums (job : CopyJob) : Fallible Unit := do
  let report ← (compareChecksums job.source.path job.temp : Program ChecksumReport)
  unless report.verdict = .equal do
    throw (.checksums job.source.path job.temp report)

/-- The steps of an attempt in order; the number of bytes. -/
def stageAndPublish (bound : Nat) (job : CopyJob) : Fallible Nat := do
  let copied ← stage bound job
  checkLengths job copied
  if 0 < copied ∧ job.options.verification = .verify then
    checkChecksums job
  promote job.temp job.target
  pure copied

/-- The temporary file is removed if it is there; what goes wrong is only logged. -/
def discardTemp (temp : Path) : Program Unit := do
  match ← Program.call .target (.pathExists temp) with
  | .error message =>
    Program.log .warn (utf8 "Could not check temp file " ++ temp ++ utf8 ": " ++ message)
  | .ok false => pure ()
  | .ok true =>
    match ← Program.call .target (.remove temp false) with
    | .error message =>
      Program.log .warn (utf8 "Could not delete temp file " ++ temp ++ utf8 ": " ++ message)
    | .ok () => Program.log .debug (utf8 "Deleted temp file " ++ temp)

/-! ## The attempt -/

/-- The report of a failed attempt with the paths of the copy. -/
def CopyJob.report (job : CopyJob) (failure : CopyFailure) : CopyError :=
  { failure.report with source := job.source.path, target := job.target, temp := job.temp }

/-- One attempt: the number of bytes copied and verified, or a report. The first argument bounds
the number of reads. The temporary file is removed at the end, whichever way the attempt went. -/
def copyOnce (bound : Nat) (job : CopyJob) : Program (Except CopyError Nat) := do
  if !isAttemptId job.attemptId then
    pure (.error { (CopyFailure.attemptId job.attemptId).report with
      source := job.source.path, target := job.target })
  else
    Program.log .debug job.description
    Program.log .info (utf8 "Creating temp file: " ++ job.temp)
    let result ← (stageAndPublish bound job).run.onBreakdown (discardTemp job.temp)
    match result with
    | .ok copied =>
      Program.log .debug (utf8 "Copied " ++ decimal copied ++ utf8 " bytes from "
        ++ job.source.path ++ utf8 " to " ++ job.target)
      discardTemp job.temp
      pure (.ok copied)
    | .error failure =>
      let error := job.report failure
      Program.log .error (utf8 "Copy failed: " ++ error.describe)
      discardTemp job.temp
      pure (.error error)

end StagedCopy
