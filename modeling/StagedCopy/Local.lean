import StagedCopy.Disk.Files
import StagedCopy.Local.Stream
import StagedCopy.Log
import StagedCopy.Storage

/-!
# A store on disk

A store over the files of a disk. Every file has one replica, and its block size is a setting that
matters for checksums only. Creating a file makes the directories above it; what was made stays
when the file itself cannot be created. A file that was created gets a buffer, and creating it
breaks down when there is none to be had.

* `LocalSystem` — the disk with the streams ever opened.
* `LocalSystem.create`, `remove`, `makeDirs`, `rename` and so on — the operations.
* `LocalSettings.perform` — the answer to a call.
-/

namespace StagedCopy

/-- What stores on one disk may differ in: the kind of checksum, and the block size. -/
structure LocalSettings where
  checksumKind : ChecksumKind := .crc32
  blockSize : Nat := 33554432
  deriving DecidableEq, Repr

/-- The layout of every file. -/
def LocalSettings.layout (settings : LocalSettings) : Layout := ⟨1, settings.blockSize⟩

/-- A disk, the memory for the buffers of its streams, and the streams ever opened on it, each under
its number. -/
structure LocalSystem where
  disk : Disk
  allocator : Allocator := fun _ _ => true
  readers : Array LocalReader := #[]
  writers : Array LocalWriter := #[]

namespace LocalSystem

/-- What an operation gives: a refusal or a value, and the system after it. -/
abbrev Outcome (α : Type) : Type := Except LocalError α × LocalSystem

/-- A refusal with a cause of the disk, a remark, or both. -/
def refuse {α : Type} (operation : LocalOperation) (path : Path) (cause : Option SystemError)
    (remark : Option LocalRemark) : Except LocalError α :=
  .error (.refused operation path cause remark)

/-! ## Files and directories -/

/-- A regular file is opened for reading. -/
def openFile (system : LocalSystem) (path : Path) : Outcome StreamId :=
  match system.disk.stat path with
  | .error e => (refuse .openFile path e LocalRemark.notRegular, system)
  | .ok (_, .file (.regular number)) =>
    (.ok system.readers.size,
      { system with readers := system.readers.push { inode := .regular number } })
  | .ok _ => (refuse .openFile path none LocalRemark.notRegular, system)

/-- A file is opened for writing, and its stream gets a buffer. -/
def startFile (system : LocalSystem) (path : Path) (bufferSize : Nat) :
    Outcome (Except Breakdown StreamId) :=
  match system.disk.openForWriting path with
  | .error _ => (refuse .create path none none, system)
  | .ok (inode, disk) =>
    match Breakdown.ofBuffer? system.allocator .file bufferSize with
    | some trouble => (.ok (.error trouble), { system with disk := disk })
    | none =>
      (.ok (.ok system.writers.size), { system with
        disk := disk
        writers := system.writers.push { path := path, inode := inode, capacity := bufferSize } })

/-- A file is created, in place of another only with `overwrite`. -/
def create (system : LocalSystem) (path : Path) (overwrite : Bool) (bufferSize : Nat) :
    Outcome (Except Breakdown StreamId) :=
  if !overwrite && (system.disk.pathExists path).toOption == some true then
    (refuse .create path none LocalRemark.alreadyThere, system)
  else
    let parent := path.parent
    if parent.isEmpty then system.startFile path bufferSize
    else
      let (failure, disk) := system.disk.makeDirectories parent
      let housed := { system with disk := disk }
      match failure with
      | none => housed.startFile path bufferSize
      | some e =>
        if (disk.isDirectory parent).toOption = some true then housed.startFile path bufferSize
        else (refuse .create parent e none, housed)

/-- Something stands at the path. -/
def pathExists (system : LocalSystem) (path : Path) : Except LocalError Bool :=
  match system.disk.pathExists path with
  | .ok found => .ok found
  | .error e => refuse .exist path e none

/-- What stands at the path goes: a file, an empty directory, or with `recursive` a directory and
all below it. -/
def remove (system : LocalSystem) (path : Path) (recursive : Bool) : Outcome Unit :=
  match system.disk.pathExists path with
  | .error e => (refuse .remove path e LocalRemark.notThere, system)
  | .ok false => (refuse .remove path none LocalRemark.notThere, system)
  | .ok true =>
    let (failure, disk) :=
      if recursive then system.disk.removeAll path else system.disk.removeOne path
    let after := { system with disk := disk }
    match failure with
    | none => (.ok (), after)
    | some e => (refuse .remove path e none, after)

/-- The path becomes a directory, with all above it. -/
def makeDirs (system : LocalSystem) (path : Path) : Outcome Unit :=
  let (failure, disk) := system.disk.makeDirectories path
  let after := { system with disk := disk }
  match failure with
  | some e => (refuse .makeDirs path e none, after)
  | none =>
    match disk.isDirectory path with
    | .ok true => (.ok (), after)
    | .ok false => (refuse .makeDirs path none LocalRemark.notDirectory, after)
    | .error e => (refuse .makeDirs path e LocalRemark.notDirectory, after)

/-- The path that a file is to get has no directory to be in; the cause, when the disk gives
one. -/
def parentTrouble (disk : Disk) (target : Path) : Option (Option SystemError) :=
  let parent := target.parent
  if parent.isEmpty then none
  else
    match disk.isDirectory parent with
    | .ok true => none
    | .ok false => some none
    | .error e => some e

/-- A file or a directory gets another path, at which nothing may stand. -/
def rename (system : LocalSystem) (source target : Path) : Outcome Unit :=
  if (system.disk.pathExists target).toOption = some true then
    (refuse .rename target none LocalRemark.targetExists, system)
  else
    match parentTrouble system.disk target with
    | some cause => (refuse .rename target cause LocalRemark.parentMissing, system)
    | none =>
      match system.disk.rename source target with
      | .error e => (refuse .rename source e none, system)
      | .ok disk => (.ok (), { system with disk := disk })

/-- What is known of the path. -/
def status (settings : LocalSettings) (system : LocalSystem) (path : Path) :
    Except LocalError FileStatus :=
  let layout := settings.layout
  match system.disk.stat path with
  | .error e => refuse .status path e none
  | .ok (_, .directory) =>
    .ok {
      path := path, replication := layout.replication, blockSize := layout.blockSize
      isDirectory := true }
  | .ok (_, .file _) =>
    match system.disk.fileSize path with
    | .error e => refuse .status path e none
    | .ok length =>
      .ok {
        path := path, length := wrap64 length, replication := layout.replication
        blockSize := layout.blockSize }

/-- The size of the pieces in which a file is read for its checksum. -/
def checksumPiece : Nat := 4096

/-- The checksum of a file, read in pieces; only a regular file has one. -/
def checksum (settings : LocalSettings) (system : LocalSystem) (path : Path) :
    Except LocalError (Option FileChecksum) :=
  if settings.checksumKind = .none then .ok none
  else
    match system.disk.stat path with
    | .error _ => refuse .checksum path none none
    | .ok (_, .file (.regular number)) =>
      .ok (checksumInPieces settings.checksumKind settings.blockSize checksumPiece
        (system.disk.contentOf (.regular number)))
    | .ok _ => refuse .checksum path none LocalRemark.readError

/-! ## Streams -/

/-- The next bytes of a stream opened for reading. -/
def read (system : LocalSystem) (stream : StreamId) (size : Nat) : Outcome Bytes :=
  match system.readers[stream]? with
  | none => (.error (.noSuchStream stream), system)
  | some reader =>
    let (chunk, after) := reader.read system.disk size
    (.ok chunk, { system with readers := system.readers.setIfInBounds stream after })

/-- What a stream opened for writing does with its file. -/
def onWriter (system : LocalSystem) (stream : StreamId)
    (act : LocalWriter → Outlet Disk → Disk → LocalWriter.Step Disk) : Outcome Unit :=
  match system.writers[stream]? with
  | none => (.error (.noSuchStream stream), system)
  | some writer =>
    let step := act writer (Disk.outlet writer.inode) system.disk
    (step.answer, { system with
      disk := step.outlet, writers := system.writers.setIfInBounds stream step.writer })

/-- More bytes for a file under creation. -/
def write (system : LocalSystem) (stream : StreamId) (data : Bytes) : Outcome Unit :=
  system.onWriter stream fun writer outlet disk => writer.write outlet disk data

/-- The end of a file under creation. -/
def close (system : LocalSystem) (stream : StreamId) : Outcome Unit :=
  system.onWriter stream fun writer outlet disk => writer.close outlet disk

/-- A stream opened for writing ends without being closed. -/
def abandon (system : LocalSystem) (stream : StreamId) : LocalSystem :=
  match system.writers[stream]? with
  | none => system
  | some writer =>
    { system with disk := writer.abandon (Disk.outlet writer.inode) system.disk }

/-! ## Whole files -/

/-- The size of the buffer with which whole files are written. -/
def wholeFileBuffer : Nat := 8192

/-- A file is created in place of another, and gets its content. -/
def put (system : LocalSystem) (path : Path) (content : Bytes) : Outcome (Except Breakdown Unit) :=
  match system.create path true wholeFileBuffer with
  | (.error e, after) => (.error e, after)
  | (.ok (.error trouble), created) => (.ok (.error trouble), created)
  | (.ok (.ok stream), created) =>
    match created.write stream content with
    | (.error e, after) => (.error e, after.abandon stream)
    | (.ok (), written) =>
      let (closed, after) := written.close stream
      (closed.map .ok, after)

/-- The content of a regular file. -/
def get (system : LocalSystem) (path : Path) : Except LocalError Bytes :=
  match system.disk.stat path with
  | .error e => refuse .openFile path e LocalRemark.notRegular
  | .ok (_, .file (.regular number)) => .ok (system.disk.contentOf (.regular number))
  | .ok _ => refuse .openFile path none LocalRemark.notRegular

/-! ## Listing -/

/-- The spelling of a key below a directory: names with single separators, and one at the end for
a directory. -/
def entryName (directory : Key) (entry : Key × Node Inode) : Path :=
  Path.joinNames (entry.1.drop directory.length) ++ (if entry.2.isFile then [] else [slash])

/-- What stands below the current directory, each with its spelling, in byte order. -/
def listing (system : LocalSystem) : List (Path × Node Inode) :=
  let directory := system.disk.current
  let below := system.disk.tree.entries.filter fun entry => directory.isAbove entry.1
  sortBy (fun a b => bytesLe a.1 b.1)
    (below.map fun entry => (entryName directory entry, entry.2))

/-- The spellings of all that stands below the current directory, in byte order. -/
def list (system : LocalSystem) : List Bytes := system.listing.map (·.1)

end LocalSystem

/-! ## Calls -/

namespace LocalSettings

/-- What a call writes to the log before it is answered. -/
def announce : StorageCall → List Log.Line
  | .createFile path _ _ layout =>
    [⟨.debug, utf8 "Local create " ++ path ++ utf8 " (replication="
      ++ signedDecimal layout.replication ++ utf8 " block_size=" ++ decimal layout.blockSize
      ++ utf8 " ignored)"⟩]
  | _ => []

/-- An answer in words. -/
def word {α : Type} (outcome : LocalSystem.Outcome α) : Except Bytes α × LocalSystem :=
  (outcome.1.mapError LocalError.message, outcome.2)

/-- The answer to a call, and the system after it. The layout of a new file has no meaning
here. -/
def perform (settings : LocalSettings) :
    (call : StorageCall) → LocalSystem → call.Answer × LocalSystem
  | .openFile path, system => word (system.openFile path)
  | .createFile path overwrite bufferSize _, system =>
    word (system.create path overwrite bufferSize)
  | .pathExists path, system => word (system.pathExists path, system)
  | .remove path recursive, system => word (system.remove path recursive)
  | .makeDirs path, system => word (system.makeDirs path)
  | .rename source target, system => word (system.rename source target)
  | .status path, system => word (system.status settings path, system)
  | .checksum path, system => word (system.checksum settings path, system)
  | .read stream size, system => word (system.read stream size)
  | .write stream data, system => word (system.write stream data)
  | .close stream, system => word (system.close stream)

end LocalSettings

end StagedCopy
