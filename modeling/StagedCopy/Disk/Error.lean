import StagedCopy.Bytes

/-!
# What a disk refuses

The causes for which the calls of a file system fail, and the text of each.
-/

namespace StagedCopy

/-- Why a call of the file system fails. -/
inductive SystemError where
  | noEntry | notDirectory | isDirectory | nameTooLong | invalid | notEmpty | busy | alreadyThere
  | crossDevice | notSupported
  deriving DecidableEq, Repr

/-- The text of a cause. -/
def SystemError.message : SystemError → Bytes
  | noEntry => utf8 "No such file or directory"
  | notDirectory => utf8 "Not a directory"
  | isDirectory => utf8 "Is a directory"
  | nameTooLong => utf8 "File name too long"
  | invalid => utf8 "Invalid argument"
  | notEmpty => utf8 "Directory not empty"
  | busy => utf8 "Device or resource busy"
  | alreadyThere => utf8 "File exists"
  | crossDevice => utf8 "Invalid cross-device link"
  | notSupported => utf8 "Operation not supported"

/-- Nothing is there, as far as the question whether something is there goes. -/
def SystemError.meansAbsent (e : SystemError) : Bool := e = noEntry || e = notDirectory

end StagedCopy
