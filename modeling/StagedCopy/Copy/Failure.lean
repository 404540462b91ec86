import StagedCopy.CopyError
import StagedCopy.Copy.Verification

/-!
# How a copy fails

Every way in which a copy can fail, by its cause. The kind, the step and the wording of the report
are functions of the cause, so each is decided in one place.

* `CopyFailure` — the causes; `PromotionStep` — where publishing can fail.
* `CopyFailure.kind`, `CopyFailure.step`, `CopyFailure.cause` — the parts of the report.
* `CopyFailure.report` — the report, without the paths of the copy.
-/

namespace StagedCopy

/-- A step of publishing a staged file. -/
inductive PromotionStep where
  | deleteExisting | createParent | rename
  deriving DecidableEq, Repr

/-- The name of a step of publishing. -/
def PromotionStep.name : PromotionStep → Bytes
  | deleteExisting => utf8 "delete-existing"
  | createParent => utf8 "create-parent"
  | rename => utf8 "rename"

/-- The cause of a failed copy. A message is what a store answered. -/
inductive CopyFailure where
  /-- The attempt id cannot be part of a file name. -/
  | attemptId (id : Bytes)
  /-- The temporary file could not be created. -/
  | createTemp (message : Bytes)
  /-- The source could not be opened. -/
  | openSource (message : Bytes)
  /-- The source could not be read to its end. -/
  | readSource (message : Bytes)
  /-- The temporary file refused bytes. -/
  | writeTemp (message : Bytes)
  /-- The temporary file could not be closed. -/
  | closeTemp (message : Bytes)
  /-- The length of the source could not be asked for. -/
  | sourceStatus (message : Bytes)
  /-- The length of the temporary file could not be asked for. -/
  | tempStatus (message : Bytes)
  /-- The source has another length than what was copied. -/
  | sourceLength (source : Path) (length copied : Nat)
  /-- The temporary file has another length than what was copied. -/
  | tempLength (source temp : Path) (length copied : Nat)
  /-- The checksums differ or cannot be compared. -/
  | checksums (source temp : Path) (report : ChecksumReport)
  /-- A step of publishing failed. -/
  | promotion (step : PromotionStep) (temp target : Path) (message : Bytes)
  deriving DecidableEq, Repr

namespace CopyFailure

/-- The kind of the failure. -/
def kind : CopyFailure → CopyErrorKind
  | attemptId _ => .writeFailure
  | createTemp _ => .writeFailure
  | openSource _ => .readFailure
  | readSource _ => .readFailure
  | writeTemp _ => .writeFailure
  | closeTemp _ => .writeFailure
  | sourceStatus _ => .writeFailure
  | tempStatus _ => .writeFailure
  | sourceLength .. => .lengthMismatch
  | tempLength .. => .lengthMismatch
  | checksums .. => .checksumMismatch
  | promotion .. => .promotionFailure

/-- The step that failed. -/
def step : CopyFailure → Bytes
  | attemptId _ => utf8 "temp-path"
  | createTemp _ => utf8 "create-temp"
  | openSource _ => utf8 "open-source"
  | readSource _ => utf8 "read-source"
  | writeTemp _ => utf8 "write-temp"
  | closeTemp _ => utf8 "close-temp"
  | sourceStatus _ => utf8 "verify-length"
  | tempStatus _ => utf8 "verify-length"
  | sourceLength .. => utf8 "verify-length"
  | tempLength .. => utf8 "verify-length"
  | checksums .. => utf8 "verify-checksum"
  | promotion step .. => step.name

/-- What a checksum report means for a copy, in words. -/
def checksumCause (source temp : Path) (report : ChecksumReport) : Bytes :=
  let detail := report.detail
  utf8 "Check-sum mismatch between " ++ source ++ utf8 " and " ++ temp
    ++ (if detail.isEmpty then [] else utf8 " (" ++ detail ++ utf8 ")")
    ++ (if report.verdict = .unverifiable then
        utf8 "; preserve block size or skip checksum verification to copy between these backends"
      else [])

/-- The cause in words. -/
def cause : CopyFailure → Bytes
  | attemptId id =>
    utf8 "attempt id must be non-empty and free of '/': '" ++ id ++ utf8 "'"
  | createTemp message => message
  | openSource message => message
  | readSource message => message
  | writeTemp message => message
  | closeTemp message => message
  | sourceStatus message => utf8 "cannot stat source: " ++ message
  | tempStatus message => utf8 "cannot stat temp file: " ++ message
  | sourceLength source length copied =>
    utf8 "Mismatch in length of source:" ++ source ++ utf8 " (" ++ decimal length
      ++ utf8 " bytes) and bytes copied (" ++ decimal copied ++ utf8 ")"
  | tempLength source temp length copied =>
    utf8 "Mismatch in length of source:" ++ source ++ utf8 " (" ++ decimal copied
      ++ utf8 " bytes) and target:" ++ temp ++ utf8 " (" ++ decimal length ++ utf8 " bytes)"
  | checksums source temp report => checksumCause source temp report
  | promotion _ temp target message =>
    utf8 "Failed to promote tmp-file:" ++ temp ++ utf8 " to: " ++ target ++ utf8 ": " ++ message

/-- The report of the failure, without the paths of the copy. -/
def report (failure : CopyFailure) : CopyError where
  kind := failure.kind
  step := failure.step
  cause := failure.cause

end CopyFailure

end StagedCopy
