import StagedCopy.Path.Key

/-!
# What a store in memory refuses

Every refusal of a store in memory, by its cause, with the keys that it is about.

* `MemoryError.message` — the wording.
-/

namespace StagedCopy

/-- Why a store in memory refuses a call. -/
inductive MemoryError where
  | noSuchFile (k : Key)
  | isDirectory (k : Key)
  | fileExists (k : Key)
  | fileAbove (ancestor : Key)
  | notEmpty (k : Key)
  | rootRemoval
  | notDirectory (k : Key)
  | renameSourceMissing (k : Key)
  | renameOfDirectory (k : Key)
  | renameTargetExists (k : Key)
  | renameTargetParentMissing (k : Key)
  | vanished (k : Key)
  | writeAfterClose (k : Key)
  | noSuchStream (stream : Nat)
  deriving DecidableEq, Repr

/-- The wording of a refusal. -/
def MemoryError.message : MemoryError → Bytes
  | noSuchFile k => utf8 "No such file: " ++ k.text
  | isDirectory k => utf8 "Is a directory: " ++ k.text
  | fileExists k => utf8 "File exists: " ++ k.text
  | fileAbove ancestor => utf8 "Parent is a file: " ++ ancestor.text
  | notEmpty k => utf8 "Directory not empty: " ++ k.text
  | rootRemoval => utf8 "Cannot remove root"
  | notDirectory k => utf8 "Not a directory: " ++ k.text
  | renameSourceMissing k => utf8 "Rename source missing: " ++ k.text
  | renameOfDirectory k => utf8 "Rename of directories not supported: " ++ k.text
  | renameTargetExists k => utf8 "Rename destination exists: " ++ k.text
  | renameTargetParentMissing k => utf8 "Rename destination parent missing: " ++ k.text
  | vanished k => utf8 "File vanished before close: " ++ k.text
  | writeAfterClose k => utf8 "Write after close on " ++ k.text
  | noSuchStream stream => utf8 "No such stream: " ++ decimal stream

end StagedCopy
