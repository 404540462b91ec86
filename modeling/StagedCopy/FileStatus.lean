import StagedCopy.Attributes
import StagedCopy.Path

/-!
# File status

What a store reports about a path: its length and layout, or that it is a directory.
-/

namespace StagedCopy

/-- The state of a stored object at the time of asking; the stores count its length modulo
`2 ^ 64`. -/
structure FileStatus where
  path : Path := []
  length : Nat := 0
  replication : Int := 1
  blockSize : Nat := 0
  isDirectory : Bool := false
  deriving DecidableEq, Repr

/-- The layout of the object. -/
def FileStatus.layout (status : FileStatus) : Layout := ⟨status.replication, status.blockSize⟩

end StagedCopy
