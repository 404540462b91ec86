import StagedCopy.Disk.Error
import StagedCopy.Path

/-!
# What a store on disk refuses

Every refusal of a store on disk: the operation, the path it is about, the cause that the disk
gave, if any, and a remark, if any; and the failures of open streams.

* `LocalError.message` — the wording.
-/

namespace StagedCopy

/-- The operations of a store on disk that refuse with a path and a cause. -/
inductive LocalOperation where
  | openFile | create | exist | remove | makeDirs | rename | status | checksum
  deriving DecidableEq, Repr

/-- The name of an operation. -/
def LocalOperation.name : LocalOperation → Bytes
  | openFile => utf8 "open"
  | create => utf8 "create"
  | exist => utf8 "exists"
  | remove => utf8 "remove"
  | makeDirs => utf8 "mkdirs"
  | rename => utf8 "rename"
  | status => utf8 "status"
  | checksum => utf8 "checksum"

/-- What the store adds to the cause. -/
inductive LocalRemark where
  | notRegular | alreadyThere | notThere | notDirectory | targetExists | parentMissing | readError
  deriving DecidableEq, Repr

/-- The text of a remark. -/
def LocalRemark.text : LocalRemark → Bytes
  | notRegular => utf8 "not a regular file"
  | alreadyThere => utf8 "already exists"
  | notThere => utf8 "no such file"
  | notDirectory => utf8 "not a directory"
  | targetExists => utf8 "destination exists"
  | parentMissing => utf8 "parent directory missing"
  | readError => utf8 "read error"

/-- Why a store on disk refuses a call. -/
inductive LocalError where
  | refused (operation : LocalOperation) (path : Path) (cause : Option SystemError)
      (remark : Option LocalRemark)
  | writeFailed (path : Path)
  | closeFailed (path : Path)
  | writeAfterClose (path : Path)
  | noSuchStream (stream : Nat)
  deriving DecidableEq, Repr

/-- A part of a refusal after a colon, when there is one. -/
def afterColon : Option Bytes → Bytes
  | some text => utf8 ": " ++ text
  | none => []

/-- The wording of a refusal. -/
def LocalError.message : LocalError → Bytes
  | refused operation path cause remark =>
    operation.name ++ utf8 " failed for " ++ path ++ afterColon (cause.map SystemError.message)
      ++ afterColon (remark.map LocalRemark.text)
  | writeFailed path => utf8 "Write error on " ++ path
  | closeFailed path => utf8 "Close failed for " ++ path
  | writeAfterClose path => utf8 "Write after close on " ++ path
  | noSuchStream stream => utf8 "No such stream: " ++ decimal stream

end StagedCopy
