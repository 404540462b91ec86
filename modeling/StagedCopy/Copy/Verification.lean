import StagedCopy.Program

/-!
# Comparing checksums

Each store is asked for its own checksum. Two checksums are equal or differ only when both stores
produced the same algorithm over the same blocks; whatever else happens, the files cannot be
verified.

* `ChecksumReport` — the verdict with the checksums and the reason.
* `compareChecksums` — the program that asks both stores.
-/

namespace StagedCopy

/-- The verdict on two checksums. -/
inductive ChecksumVerdict where
  | equal | mismatch | unverifiable
  deriving DecidableEq, Repr

namespace ChecksumVerdict

/-- The name of a verdict. -/
def name : ChecksumVerdict → Bytes
  | equal => utf8 "Equal"
  | mismatch => utf8 "Mismatch"
  | unverifiable => utf8 "Unverifiable"

/-- The verdict with a given code. -/
def ofCode? : Int → Option ChecksumVerdict
  | 0 => some equal
  | 1 => some mismatch
  | 2 => some unverifiable
  | _ => none

end ChecksumVerdict

/-- What two stores said about two files. -/
inductive ChecksumReport where
  | sourceUnreadable (message : Bytes)
  | targetUnreadable (message : Bytes)
  | noSourceChecksum (target : Option FileChecksum)
  | noTargetChecksum (source : FileChecksum)
  | incomparable (source target : FileChecksum)
  | compared (source target : FileChecksum)
  deriving DecidableEq, Repr

namespace ChecksumReport

/-- The report on two checksums, either of which may be missing. -/
def ofChecksums : Option FileChecksum → Option FileChecksum → ChecksumReport
  | none, target => noSourceChecksum target
  | some source, none => noTargetChecksum source
  | some source, some target =>
    if source.comparableWith target then compared source target else incomparable source target

/-- The verdict: only comparable checksums are equal or differ. -/
def verdict : ChecksumReport → ChecksumVerdict
  | compared source target => if source.value = target.value then .equal else .mismatch
  | _ => .unverifiable

/-- The checksum of the source, when both stores answered and it has one. -/
def source? : ChecksumReport → Option FileChecksum
  | noTargetChecksum source => some source
  | incomparable source _ => some source
  | compared source _ => some source
  | _ => none

/-- The checksum of the target, when both stores answered and it has one. -/
def target? : ChecksumReport → Option FileChecksum
  | noSourceChecksum target => target
  | incomparable _ target => some target
  | compared _ target => some target
  | _ => none

/-- Why the verdict is not that they are equal; nothing when it is. -/
def detail : ChecksumReport → Bytes
  | sourceUnreadable message => utf8 "cannot read source checksum: " ++ message
  | targetUnreadable message => utf8 "cannot read target checksum: " ++ message
  | noSourceChecksum _ => utf8 "source backend exposes no checksum"
  | noTargetChecksum _ => utf8 "target backend exposes no checksum"
  | incomparable source target =>
    utf8 "incomparable checksums " ++ source.text ++ utf8 " vs " ++ target.text
  | compared source target =>
    if source.value = target.value then [] else source.text ++ utf8 " != " ++ target.text

end ChecksumReport

/-- Asks the source store, then the target store; when the checksums are comparable, the verdict
is logged. -/
def compareChecksums (source target : Path) : Program ChecksumReport := do
  match ← Program.call .source (.checksum source) with
  | .error message => pure (.sourceUnreadable message)
  | .ok sourceSum =>
    match ← Program.call .target (.checksum target) with
    | .error message => pure (.targetUnreadable message)
    | .ok targetSum =>
      let report := ChecksumReport.ofChecksums sourceSum targetSum
      match report with
      | .compared .. =>
        Program.log .debug (utf8 "Checksum " ++ source ++ utf8 " vs " ++ target ++ utf8 ": "
          ++ report.verdict.name)
        pure report
      | _ => pure report

end StagedCopy
