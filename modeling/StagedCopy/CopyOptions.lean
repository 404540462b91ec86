import StagedCopy.Path

/-!
# Options of a copy

How fast a copy may read, where it stages, how much it moves at a time, and whether it compares
checksums before it publishes.
-/

namespace StagedCopy

/-- Whether the checksums of source and staged file are compared. -/
inductive Verification where
  | verify | skip
  deriving DecidableEq, Repr

/-- The settings of one copy. A ceiling of zero or less is no ceiling, and an empty work path
stages beside the target. -/
structure CopyOptions where
  maxBytesPerSecond : Int := 104857600
  workPath : Path := []
  bufferSize : Nat := 8192
  verification : Verification := .verify

end StagedCopy
