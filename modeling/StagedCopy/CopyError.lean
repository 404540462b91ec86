import StagedCopy.Path

/-!
# Copy errors

A failed copy is reported with its kind, the step that failed, the cause in words, and the paths
involved. Only a failure to read the source may be cured by another attempt.

* `CopyError.describe` — the report in one line.
* `CopyError.isRetriable` — another attempt may help.
-/

namespace StagedCopy

/-- The kind of a failure. A code that names no kind is kept as `unknown`. -/
inductive CopyErrorKind where
  | readFailure | writeFailure | lengthMismatch | checksumMismatch | promotionFailure | unknown
  deriving DecidableEq, Repr

namespace CopyErrorKind

/-- The name of a kind. -/
def name : CopyErrorKind → Bytes
  | readFailure => utf8 "ReadFailure"
  | writeFailure => utf8 "WriteFailure"
  | lengthMismatch => utf8 "LengthMismatch"
  | checksumMismatch => utf8 "ChecksumMismatch"
  | promotionFailure => utf8 "PromotionFailure"
  | unknown => utf8 "Unknown"

/-- The kind with a given code. -/
def ofCode : Int → CopyErrorKind
  | 0 => readFailure
  | 1 => writeFailure
  | 2 => lengthMismatch
  | 3 => checksumMismatch
  | 4 => promotionFailure
  | _ => unknown

end CopyErrorKind

/-- The report of a failed copy. -/
structure CopyError where
  kind : CopyErrorKind
  step : Bytes
  cause : Bytes
  source : Path := []
  target : Path := []
  temp : Path := []
  deriving DecidableEq, Repr

namespace CopyError

/-- A part of a report with its label, when there is anything to say. -/
def labelled (label : String) (text : Bytes) : Bytes :=
  if text.isEmpty then [] else utf8 label ++ text

/-- The report in one line; empty paths and an empty cause are left out. -/
def describe (error : CopyError) : Bytes :=
  error.kind.name ++ utf8 " during " ++ error.step ++ labelled " source=" error.source
    ++ labelled " target=" error.target ++ labelled " temp=" error.temp
    ++ labelled ": " error.cause

/-- Another attempt may cure the failure: only when it was one of reading. -/
def isRetriable (error : CopyError) : Bool := error.kind == .readFailure

end CopyError

end StagedCopy
