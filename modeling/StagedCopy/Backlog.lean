import StagedCopy.Bytes

/-!
# Bytes that wait

A backlog holds chunks of bytes that were accepted and not yet passed on. It knows its size, so
that a chunk is accepted without looking at the others.

* `Backlog.empty`, `Backlog.push` — no chunks, and one more chunk.
* `Backlog.bytes` — all of them, in the order in which they came.
-/

namespace StagedCopy

/-- Chunks with the newest first, and their size in all. -/
structure Backlog where
  chunks : List Bytes := []
  size : Nat := 0
  size_eq : size = chunks.flatten.length := by rfl

namespace Backlog

/-- No chunks. -/
def empty : Backlog := {}

/-- One more chunk. -/
def push (backlog : Backlog) (chunk : Bytes) : Backlog where
  chunks := chunk :: backlog.chunks
  size := chunk.length + backlog.size
  size_eq := by simp [backlog.size_eq]

/-- The bytes in the order in which they came. -/
def bytes (backlog : Backlog) : Bytes := backlog.chunks.reverse.flatten

@[simp] theorem bytes_empty : empty.bytes = [] := rfl

@[simp] theorem bytes_push (backlog : Backlog) (chunk : Bytes) :
    (backlog.push chunk).bytes = backlog.bytes ++ chunk := by
  simp [bytes, push]

theorem length_bytes (backlog : Backlog) : backlog.bytes.length = backlog.size := by
  rw [bytes, List.length_flatten, List.map_reverse, List.sum_reverse, ← List.length_flatten,
    backlog.size_eq]

end Backlog

end StagedCopy
