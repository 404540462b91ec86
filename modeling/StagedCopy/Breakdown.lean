import StagedCopy.Disk.Error

/-!
# Breakdowns

A run breaks down when it meets what it cannot go on after and cannot report as a refusal either: a
path without an absolute spelling, a file that opens but cannot be read, or a buffer that no memory
can hold. It then has no result of its own, only the words of the breakdown.

* `Breakdown`, `Breakdown.message` — the causes and their wording.
* `Allocator` — the memory that there is for buffers.
* `Breakdown.ofBuffer?` — whether a buffer can be had.
-/

namespace StagedCopy

/-- What a buffer is for: a file opened for writing, or bytes that were read. -/
inductive BufferUse where
  | file | bytes
  deriving DecidableEq, Repr

/-- The memory that there is for buffers: the sizes for which there is enough, for each use. -/
abbrev Allocator : Type := BufferUse → Nat → Bool

/-- Why a run breaks down. -/
inductive Breakdown where
  | emptyPath
  | unreadable (cause : SystemError)
  | excessiveBuffer (use : BufferUse)
  | outOfMemory
  deriving DecidableEq, Repr

namespace Breakdown

/-- The wording of a breakdown. -/
def message : Breakdown → Bytes
  | emptyPath =>
    utf8 "filesystem error: cannot make absolute path: " ++ SystemError.invalid.message
      ++ utf8 " []"
  | unreadable cause =>
    utf8 "basic_filebuf::underflow error reading the file: " ++ cause.message
  | excessiveBuffer .file => utf8 "vector::reserve"
  | excessiveBuffer .bytes => utf8 "cannot create std::vector larger than max_size()"
  | outOfMemory => utf8 "std::bad_alloc"

/-- The sizes from which on no buffer can even be asked for. -/
def sizeLimit : Nat := 0x8000000000000000

/-- The breakdown over a buffer of the given size, if there is one. -/
def ofBuffer? (allocator : Allocator) (use : BufferUse) (size : Nat) : Option Breakdown :=
  if sizeLimit ≤ size then some (excessiveBuffer use)
  else if allocator use size then none
  else some outOfMemory

end Breakdown

end StagedCopy
