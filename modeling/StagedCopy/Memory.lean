import StagedCopy.Memory.Error
import StagedCopy.Storage
import StagedCopy.Tree

/-!
# A store in memory

A store that keeps a tree of directories and files, each file with its content and layout. Paths
are read from the root. Creating a file makes the directories above it, as a distributed file
system does; the file is visible and empty at once, and it gets its content when its stream is
closed. A stream opened for reading keeps the content that its file had then.

An operation either fails and changes nothing, or gives the store after it.

* `MemoryFile`, `MemoryStore` — the tree, the settings, and the open streams.
* `MemoryStore.create`, `remove`, `makeDirs`, `rename` and so on — the operations.
* `MemoryStore.put`, `MemoryStore.get`, `MemoryStore.list` — whole files, and all paths.
* `MemoryStore.perform` — the answer to a call.
-/

namespace StagedCopy

/-- A file in memory. -/
structure MemoryFile where
  content : Bytes
  layout : Layout
  deriving DecidableEq, Repr

/-- A stream opened for reading: what is left of the content. -/
structure MemoryReader where
  rest : Bytes
  deriving DecidableEq, Repr

/-- A stream opened for writing: the file it writes, the chunks accepted so far with the newest
first, and whether it was closed. -/
structure MemoryWriter where
  key : Key
  chunks : List Bytes := []
  closed : Bool := false
  deriving DecidableEq, Repr

/-- The chunks in the order in which they were accepted, in one. -/
def MemoryWriter.content (writer : MemoryWriter) : Bytes := writer.chunks.reverse.flatten

/-- A store in memory: the kind of checksum it exposes, the layout of files that come without one,
the tree, and the streams ever opened, each under its number. -/
structure MemoryStore where
  checksumKind : ChecksumKind := .blockCrc32
  defaults : Layout := ⟨3, 134217728⟩
  tree : Tree MemoryFile := {}
  readers : Array MemoryReader := #[]
  writers : Array MemoryWriter := #[]

namespace MemoryStore

/-- What an operation gives: a refusal, or a value and the store after it. -/
abbrev Outcome (α : Type) : Type := Except MemoryError (α × MemoryStore)

/-- What stands at a key. -/
def get? (store : MemoryStore) (k : Key) : Option (Node MemoryFile) := store.tree.get? k

/-- The file at a key; a directory is no file. -/
def file? (store : MemoryStore) (k : Key) : Option MemoryFile :=
  match store.get? k with
  | some (.file f) => some f
  | _ => none

/-! ## Files and directories -/

/-- The layout that a file is created with: a replication or a block size that is not positive
stands for the default. -/
def layoutFor (store : MemoryStore) (wanted : Layout) : Layout where
  replication := if 0 < wanted.replication then wanted.replication else store.defaults.replication
  blockSize := if 0 < wanted.blockSize then wanted.blockSize else store.defaults.blockSize

/-- The directories above a key that are missing are made. -/
def addParents (store : MemoryStore) (k : Key) : Tree MemoryFile :=
  store.tree.addDirectories k.properAncestors

/-- A new empty file takes the place of what stood at a key; its stream. -/
def startFile (store : MemoryStore) (k : Key) (wanted : Layout) : StreamId × MemoryStore :=
  (store.writers.size, { store with
    tree := (store.addParents k).insert k (.file ⟨[], store.layoutFor wanted⟩)
    writers := store.writers.push { key := k } })

/-- A file is created, in place of another only with `overwrite`. -/
def create (store : MemoryStore) (path : Path) (overwrite : Bool) (wanted : Layout) :
    Outcome StreamId :=
  let k := path.key
  match store.get? k with
  | some .directory => .error (.isDirectory k)
  | found =>
    if found.isSome && !overwrite then .error (.fileExists k)
    else
      match store.tree.fileAbove? k with
      | some ancestor => .error (.fileAbove ancestor)
      | none => .ok (store.startFile k wanted)

/-- Streams of a store in memory have no buffers of their own, so no creation breaks down. -/
def unbuffered (created : Outcome StreamId) : Outcome (Except Breakdown StreamId) :=
  created.map fun (stream, after) => (.ok stream, after)

/-- A file is opened for reading. -/
def openFile (store : MemoryStore) (path : Path) : Outcome StreamId :=
  let k := path.key
  match store.get? k with
  | none => .error (.noSuchFile k)
  | some .directory => .error (.isDirectory k)
  | some (.file f) =>
    .ok (store.readers.size, { store with readers := store.readers.push ⟨f.content⟩ })

/-- Something stands at the path. -/
def pathExists (store : MemoryStore) (path : Path) : Bool := (store.get? path.key).isSome

/-- What stands at the path goes: a file, an empty directory, or with `recursive` a directory and
all below it; the root never does. -/
def remove (store : MemoryStore) (path : Path) (recursive : Bool) : Outcome Unit :=
  let k := path.key
  match store.get? k with
  | none => .error (.noSuchFile k)
  | some node =>
    if k = [] then .error .rootRemoval
    else if !node.isFile && store.tree.hasBelow k then
      if recursive then .ok ((), { store with tree := (store.tree.eraseBelow k).erase k })
      else .error (.notEmpty k)
    else .ok ((), { store with tree := store.tree.erase k })

/-- The path becomes a directory, with all above it, unless it is one already. -/
def makeDirs (store : MemoryStore) (path : Path) : Outcome Unit :=
  let k := path.key
  match (k :: k.properAncestors).find? fun place => (store.get? place).any Node.isFile with
  | some place => .error (.notDirectory place)
  | none => .ok ((), { store with tree := (store.addParents k).addDirectories [k] })

/-- A file gets another path, at which nothing may stand. -/
def rename (store : MemoryStore) (source target : Path) : Outcome Unit :=
  let src := source.key
  let dst := target.key
  match store.get? src with
  | none => .error (.renameSourceMissing src)
  | some .directory => .error (.renameOfDirectory src)
  | some (.file f) =>
    match store.get? dst with
    | some _ => .error (.renameTargetExists dst)
    | none =>
      match store.get? dst.parent with
      | some .directory =>
        .ok ((), { store with tree := (store.tree.erase src).insert dst (.file f) })
      | _ => .error (.renameTargetParentMissing dst)

/-- What is known of the path; a directory has neither length nor layout. -/
def status (store : MemoryStore) (path : Path) : Except MemoryError FileStatus :=
  let k := path.key
  match store.get? k with
  | none => .error (.noSuchFile k)
  | some .directory => .ok { path := k.text, isDirectory := true }
  | some (.file f) =>
    .ok {
      path := k.text, length := wrap64 f.content.length
      replication := f.layout.replication, blockSize := f.layout.blockSize }

/-- The checksum of a file, cut into the blocks of its layout. -/
def checksum (store : MemoryStore) (path : Path) : Except MemoryError (Option FileChecksum) :=
  let k := path.key
  match store.file? k with
  | none => .error (.noSuchFile k)
  | some f => .ok (checksumOf store.checksumKind f.layout.blockSize f.content)

/-! ## Streams -/

/-- The next bytes of a stream opened for reading. -/
def read (store : MemoryStore) (stream : StreamId) (size : Nat) : Outcome Bytes :=
  match store.readers[stream]? with
  | none => .error (.noSuchStream stream)
  | some reader =>
    .ok (reader.rest.take size,
      { store with readers := store.readers.setIfInBounds stream ⟨reader.rest.drop size⟩ })

/-- More bytes for a stream that was not closed. -/
def write (store : MemoryStore) (stream : StreamId) (data : Bytes) : Outcome Unit :=
  match store.writers[stream]? with
  | none => .error (.noSuchStream stream)
  | some writer =>
    if writer.closed then .error (.writeAfterClose writer.key)
    else
      let longer := { writer with chunks := data :: writer.chunks }
      .ok ((), { store with writers := store.writers.setIfInBounds stream longer })

/-- The file at a key gets its content. -/
def commit (store : MemoryStore) (k : Key) (content : Bytes) : Outcome Unit :=
  match store.file? k with
  | none => .error (.vanished k)
  | some f =>
    .ok ((), { store with tree := store.tree.insert k (.file { f with content := content }) })

/-- The first close of a stream gives the file its content, if the file is still there; the stream
is closed whichever way that goes, and further closes do nothing. -/
def close (store : MemoryStore) (stream : StreamId) : Except MemoryError Unit × MemoryStore :=
  match store.writers[stream]? with
  | none => (.error (.noSuchStream stream), store)
  | some writer =>
    if writer.closed then (.ok (), store)
    else
      let closed := { store with
        writers := store.writers.setIfInBounds stream { writer with closed := true } }
      match closed.commit writer.key writer.content with
      | .error e => (.error e, closed)
      | .ok ((), committed) => (.ok (), committed)

/-! ## Whole files -/

/-- A file is created and gets its content in one step. -/
def put (store : MemoryStore) (path : Path) (content : Bytes) (wanted : Layout) :
    Outcome Unit :=
  match store.create path true wanted with
  | .error e => .error e
  | .ok (stream, created) =>
    match created.write stream content with
    | .error e => .error e
    | .ok ((), written) =>
      match written.close stream with
      | (.ok (), closed) => .ok ((), closed)
      | (.error e, _) => .error e

/-- The content of a file. -/
def get (store : MemoryStore) (path : Path) : Except MemoryError Bytes :=
  match store.file? path.key with
  | none => .error (.noSuchFile path.key)
  | some f => .ok f.content

/-- The spellings of all keys at which something stands, in byte order. -/
def list (store : MemoryStore) : List Bytes := sortBytes (store.tree.keys.map Key.text)

/-! ## Calls -/

/-- The answer of an operation, and the store after it: the old one when the operation failed. -/
def conclude {α : Type} (store : MemoryStore) : Outcome α → Except Bytes α × MemoryStore
  | .ok (value, after) => (.ok value, after)
  | .error e => (.error e.message, store)

/-- The answer of an operation that only looks. -/
def look {α : Type} (store : MemoryStore) :
    Except MemoryError α → Except Bytes α × MemoryStore
  | .ok value => (.ok value, store)
  | .error e => (.error e.message, store)

/-- The answer to a call, and the store after it. The size of a buffer has no meaning here. -/
def perform : (call : StorageCall) → MemoryStore → call.Answer × MemoryStore
  | .openFile path, store => store.conclude (store.openFile path)
  | .createFile path overwrite _ layout, store =>
    store.conclude (unbuffered (store.create path overwrite layout))
  | .pathExists path, store => (.ok (store.pathExists path), store)
  | .remove path recursive, store => store.conclude (store.remove path recursive)
  | .makeDirs path, store => store.conclude (store.makeDirs path)
  | .rename source target, store => store.conclude (store.rename source target)
  | .status path, store => store.look (store.status path)
  | .checksum path, store => store.look (store.checksum path)
  | .read stream size, store => store.conclude (store.read stream size)
  | .write stream data, store => store.conclude (store.write stream data)
  | .close stream, store =>
    let (result, after) := store.close stream
    (result.mapError MemoryError.message, after)

end MemoryStore

end StagedCopy
