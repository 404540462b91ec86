import StagedCopy.Copy.Attempt
import StagedCopy.Retry

/-!
# A copy with retries

Attempts are made under a retry policy, and only a failure to read is retried. The outcome is
booked in the counters of the task exactly once: as copied, as skipped when reading failed to the
end and that is allowed, or as failed.

* `CopyOutcome` — what became of the copy.
* `settle` — the booking of the last attempt's result.
* `copyWithRetries` — attempts and booking.
-/

namespace StagedCopy

/-- Whether a file was copied, or given up after its source could not be read. -/
inductive CopyAction where
  | copied | skipped
  deriving DecidableEq, Repr

/-- The name of an action. -/
def CopyAction.name : CopyAction → Bytes
  | copied => utf8 "Copied"
  | skipped => utf8 "Skipped"

/-- What became of a copy that did not fail. -/
structure CopyOutcome where
  action : CopyAction
  bytes : Nat
  attempts : Nat
  deriving DecidableEq, Repr

/-- The support that attempts at a copy get: log lines, waits in milliseconds, and the judgement
that only reading is worth another attempt. -/
def copyRetrySupport : RetrySupport Program CopyError where
  log line := Program.request (.log line)
  isRetriable error := pure error.isRetriable
  sleep milliseconds := Program.sleep (milliseconds * 1000000)

/-- Books the result of the last attempt. -/
def settle (job : CopyJob) (skipReadFailures : Bool) (attempts : Nat) :
    Except CopyError Nat → Program (Except CopyError CopyOutcome)
  | .ok bytes => do
    Program.incrementSafely .copy 1
    Program.incrementSafely .bytesCopied bytes
    Program.incrementSafely .bytesExpected job.source.length
    pure (.ok ⟨.copied, bytes, attempts⟩)
  | .error error => do
    if skipReadFailures && error.kind == .readFailure then
      Program.log .warn (utf8 "Skipping " ++ job.source.path ++ utf8 " after " ++ decimal attempts
        ++ utf8 " attempt(s): " ++ error.describe)
      Program.incrementSafely .skip 1
      Program.incrementSafely .bytesSkipped job.source.length
      pure (.ok ⟨.skipped, 0, attempts⟩)
    else
      Program.log .error (utf8 "Failure in copying " ++ job.source.path ++ utf8 " to "
        ++ job.target ++ utf8 ": " ++ error.describe)
      Program.incrementSafely .fail 1
      Program.incrementSafely .bytesFailed job.source.length
      pure (.error error)

/-- Attempts under a policy, and the booking of the outcome. -/
def copyWithRetries (bound : Nat) (job : CopyJob) (policy : RetryPolicy)
    (skipReadFailures : Bool) : Program (Except CopyError CopyOutcome) := do
  let (result, attempts) ← retry policy copyRetrySupport (copyOnce bound job)
  settle job skipReadFailures attempts result

end StagedCopy
