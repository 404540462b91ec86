import StagedCopy.Backlog
import StagedCopy.Disk
import StagedCopy.Local.Error

/-!
# Streams on files of a disk

A file opened for reading is read in pieces of one size, and what a read leaves of a piece waits
for the next; a read larger than a piece goes to the file itself. A read that comes out short has
found the end, and every later read gets nothing.

A file opened for writing has two buffers. The outer one has the capacity asked for: a write that
does not fit empties it first, and a write as large as the capacity goes past it. The inner one
holds what the outer one gave away until it is full or flushed, or until so many bytes come at once
that holding them does not pay. Once the file has refused bytes, nothing more is passed on to it. A
file that has taken all of them may still fail to be closed. Writing is stated over any outlet, of
which a file of a disk is one.

* `LocalReader.read` — a read.
* `Outlet`, `Disk.outlet` — where the bytes of a stream go.
* `LocalWriter.write`, `LocalWriter.close` — a write, and the end of the file.
* `LocalWriter.abandon` — the end of a stream that was not closed: the outer buffer is lost.
-/

namespace StagedCopy

/-- The bytes that a piece of a file and the inner buffer hold. -/
def pieceSize : Nat := 8191

/-- As many bytes given to the inner buffer at once do not wait in it. -/
def promptSize : Nat := 1024

/-! ## Reading -/

/-- A file opened for reading: how far it was read, what waits of the last piece, and whether the
end was found. -/
structure LocalReader where
  inode : Inode
  offset : Nat := 0
  waiting : Bytes := []
  ended : Bool := false
  deriving DecidableEq, Repr

namespace LocalReader

/-- The next bytes, at most `size`, and the stream after the read. -/
def read (disk : Disk) (reader : LocalReader) (size : Nat) : Bytes × LocalReader :=
  if size = 0 ∨ reader.ended then ([], reader)
  else if size ≤ reader.waiting.length then
    (reader.waiting.take size, { reader with waiting := reader.waiting.drop size })
  else
    let missing := size - reader.waiting.length
    let wanted := if pieceSize < size then missing else pieceSize
    let piece := ((disk.contentOf reader.inode).drop reader.offset).take wanted
    let chunk := reader.waiting ++ piece.take missing
    (chunk, { reader with
      offset := reader.offset + piece.length
      waiting := piece.drop missing
      ended := chunk.length < size })

end LocalReader

/-! ## Writing -/

/-- Where the bytes of a stream go: bytes are put from an offset on, and either all are taken or
the outlet refuses; a refusing outlet may have taken some. In the end the outlet is closed, or fails
to be. -/
structure Outlet (σ : Type) where
  put : σ → Nat → Bytes → Bool × σ
  finish : σ → Bool

/-- A file of a disk as an outlet; it can always be closed. -/
def Disk.outlet (inode : Inode) : Outlet Disk where
  put disk offset data :=
    match disk.writeAt inode offset data with
    | some written => (true, written)
    | none => (false, disk)
  finish _ := true

/-- A file opened for writing: how far it was written, the outer buffer with its capacity, the
inner buffer, whether the file refused bytes, and whether the stream was closed. -/
structure LocalWriter where
  path : Path
  inode : Inode
  capacity : Nat
  offset : Nat := 0
  outer : Backlog := .empty
  inner : Backlog := .empty
  broken : Bool := false
  closed : Bool := false

namespace LocalWriter

/-- What an operation of a stream gives: the answer, the stream and the outlet after it. -/
structure Step (σ : Type) where
  answer : Except LocalError Unit
  writer : LocalWriter
  outlet : σ

section outlet

variable {σ : Type} (outlet : Outlet σ)

/-- The inner buffer goes to the outlet. -/
def empty (s : σ) (writer : LocalWriter) : LocalWriter × σ :=
  if writer.broken || writer.inner.size == 0 then (writer, s)
  else
    match outlet.put s writer.offset writer.inner.bytes with
    | (true, s) =>
      ({ writer with inner := .empty, offset := writer.offset + writer.inner.size }, s)
    | (false, s) => ({ writer with broken := true }, s)

/-- Bytes go to the inner buffer, and all of it goes on to the outlet when it is full or when the
bytes are as many as do not wait. -/
def pass (s : σ) (writer : LocalWriter) (data : Bytes) : LocalWriter × σ :=
  if writer.broken then (writer, s)
  else
    let longer := { writer with inner := writer.inner.push data }
    if promptSize ≤ data.length ∨ pieceSize ≤ longer.inner.size then longer.empty outlet s
    else (longer, s)

/-- Both buffers go to the outlet. -/
def flush (s : σ) (writer : LocalWriter) : LocalWriter × σ :=
  if writer.outer.size = 0 then writer.empty outlet s
  else
    let (passed, s) := { writer with outer := .empty }.pass outlet s writer.outer.bytes
    passed.empty outlet s

/-- The answer of a stream whose outlet may have refused bytes. -/
def verdict (writer : LocalWriter) : Except LocalError Unit :=
  if writer.broken then .error (.writeFailed writer.path) else .ok ()

/-- The answer to the close of a stream whose buffers went to the outlet. -/
def ending (s : σ) (writer : LocalWriter) : Except LocalError Unit :=
  match writer.verdict with
  | .error e => .error e
  | .ok () => if outlet.finish s then .ok () else .error (.closeFailed writer.path)

/-- Bytes that fit go to the outer buffer, and as many as it can hold go past it. -/
def accept (s : σ) (writer : LocalWriter) (data : Bytes) : Step σ :=
  if writer.capacity ≤ data.length then
    let (passed, s) := writer.pass outlet s data
    ⟨passed.verdict, passed, s⟩
  else ⟨.ok (), { writer with outer := writer.outer.push data }, s⟩

/-- A write. -/
def write (s : σ) (writer : LocalWriter) (data : Bytes) : Step σ :=
  if writer.closed then ⟨.error (.writeAfterClose writer.path), writer, s⟩
  else if writer.capacity < writer.outer.size + data.length then
    let (flushed, s) := writer.flush outlet s
    match flushed.verdict with
    | .error e => ⟨.error e, flushed, s⟩
    | .ok () => flushed.accept outlet s data
  else writer.accept outlet s data

/-- The first close brings all bytes to the outlet; further closes do nothing. -/
def close (s : σ) (writer : LocalWriter) : Step σ :=
  if writer.closed then ⟨.ok (), writer, s⟩
  else
    let (flushed, s) := { writer with closed := true }.flush outlet s
    ⟨flushed.ending outlet s, flushed, s⟩

/-- The outlet after a stream ends without being closed. -/
def abandon (s : σ) (writer : LocalWriter) : σ := (writer.empty outlet s).2

end outlet

end LocalWriter

end StagedCopy
