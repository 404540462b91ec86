import StagedCopy.Breakdown
import StagedCopy.Checksum
import StagedCopy.FileStatus

/-!
# Calls on a store

What can be asked of a store, as data: opening and creating files, asking about paths and changing
them, and moving bytes through the streams that were opened. A call says nothing about how it is
answered; a store answers it with a value of the right type, or with a message.

Replacing a file by renaming is not among the promises: a store refuses to rename onto something
that exists. A store that gives the streams of its files a buffer may break down over it; the file
is created by then, but there is no stream.

* `StorageCall` and `StorageCall.Value` — the calls, and the type of what each returns.
* `StorageCall.Answer` — that value or a message.
-/

namespace StagedCopy

/-- The number of an open stream, given out by the store when the stream is opened. -/
abbrev StreamId := Nat

/-- A call on a store. -/
inductive StorageCall where
  /-- Open a file for reading. -/
  | openFile (path : Path)
  /-- Create a file for writing. -/
  | createFile (path : Path) (overwrite : Bool) (bufferSize : Nat) (layout : Layout)
  /-- Is there something at the path? -/
  | pathExists (path : Path)
  /-- Remove a file, an empty directory, or with `recursive` a directory and all below it. -/
  | remove (path : Path) (recursive : Bool)
  /-- Create a directory and all above it that are missing. -/
  | makeDirs (path : Path)
  /-- Give a file another path. -/
  | rename (source target : Path)
  /-- What is at the path? -/
  | status (path : Path)
  /-- The checksum of a file, when the store exposes one. -/
  | checksum (path : Path)
  /-- Up to `size` bytes from an open file; none at its end. -/
  | read (stream : StreamId) (size : Nat)
  /-- More bytes for a file under creation. -/
  | write (stream : StreamId) (data : Bytes)
  /-- The end of a file under creation. -/
  | close (stream : StreamId)
  deriving DecidableEq, Repr

namespace StorageCall

/-- The type of what a successful call returns. -/
def Value : StorageCall → Type
  | openFile _ => StreamId
  | createFile .. => Except Breakdown StreamId
  | pathExists _ => Bool
  | remove .. => Unit
  | makeDirs _ => Unit
  | rename .. => Unit
  | status _ => FileStatus
  | checksum _ => Option FileChecksum
  | read .. => Bytes
  | write .. => Unit
  | close _ => Unit

/-- The answer to a call: a message when it failed. -/
abbrev Answer (call : StorageCall) : Type := Except Bytes call.Value

end StorageCall

end StagedCopy
