import StagedCopy.Path

/-!
# Where a copy stages

A copy writes to a temporary file first. Its name is made from the attempt id of the task, so two
tasks never stage in one file; its directory is the work path, or the directory of the target when
there is no work path or when the target is the work path itself.
-/

namespace StagedCopy

/-- What the name of every temporary file begins with. -/
def tempMark : Bytes := utf8 ".dcp.tmp."

/-- The name of the temporary file of an attempt. -/
def tempName (attemptId : Bytes) : Bytes := tempMark ++ attemptId

/-- The directory of the temporary file. Both paths are compared in normal spelling and without a
separator at the end. -/
def stagingDirectory (target workPath : Path) : Path :=
  let target := target.withoutTrailingSeparator
  let work := workPath.withoutTrailingSeparator
  if work.isEmpty then target.parent
  else if target = work then work.parent
  else work

/-- The path of the temporary file. -/
def tempPath (target workPath : Path) (attemptId : Bytes) : Path :=
  (stagingDirectory target workPath).join (tempName attemptId)

/-- An attempt id that can be part of a file name: not empty and without separators. -/
def isAttemptId (attemptId : Bytes) : Bool := !attemptId.isEmpty && !attemptId.contains slash

end StagedCopy
