import StagedCopy.Disk.Error
import StagedCopy.Tree

/-!
# A disk

A disk is a tree of directories and files, seen from a current directory. A name stands for a
file, and the content belongs to the file and not to the name: a file that was opened keeps its
content when it is renamed or removed. One file is a device that takes no bytes. There are neither
links nor permissions.

A path is followed name by name through existing directories; it ends at the first NUL byte, no
name may have more than 255 bytes, and no path more than 4095. The current directory can be removed
like any other: it is still the current one, but nothing is found or made in it.

* `Disk`, `Inode` — the disk and its files.
* `Disk.locate`, `Disk.stat` — where a path leads, and what stands there.
* `Disk.makeDirectory`, `unlink`, `removeDirectory`, `rename`, `openForWriting` — the calls that
  change the tree.
* `Disk.contentOf`, `Disk.writeAt` — the bytes of a file.
-/

namespace StagedCopy

/-- A file: one with a content, kept under a number, or the device that is always full. -/
inductive Inode where
  | regular (number : Nat)
  | full
  deriving DecidableEq, Repr

/-- A disk: what stands where, the contents of the files by their numbers, and the directory from
which paths that are not rooted are read. -/
structure Disk where
  tree : Tree Inode := {}
  contents : Array Bytes := #[]
  current : Key := []

namespace Disk

/-! ## Names and limits -/

/-- The name of the directory of devices. -/
def deviceDirectory : Bytes := utf8 "dev"

/-- The longest name. -/
def maxName : Nat := 255

/-- The length that a path must stay below. -/
def pathLimit : Nat := 4096

/-- A disk with an empty current directory, those above it, and the device that is always full. -/
def withCurrent (current : Key) : Disk where
  tree :=
    (({} : Tree Inode).addDirectories
      ([deviceDirectory] :: current :: current.properAncestors)).insert
        [deviceDirectory, utf8 "full"] (.file .full)
  current := current

/-- What stands at a key. -/
def get? (disk : Disk) (k : Key) : Option (Node Inode) := disk.tree.get? k

/-! ## Following a path -/

/-- The place a path leads to, by the directory it is in: the last name, none at the root, and
whether a separator follows it. -/
structure Site where
  directory : Key
  last : Option Bytes
  slashed : Bool
  deriving DecidableEq, Repr

namespace Site

/-- The last name, when it names something in the directory rather than the directory itself or
the one above. -/
def name? (site : Site) : Option Bytes :=
  site.last.filter fun name => name != dot && name != dotDot

/-- The directory that the site stands for when it has no name of its own. -/
def itself (site : Site) : Key :=
  if site.last = some dotDot then site.directory.parent else site.directory

end Site

/-- The directory has been removed. -/
def isGone (disk : Disk) (directory : Key) : Bool :=
  !directory.isEmpty && disk.get? directory != some .directory

/-- What stands under a name of a directory; nothing may stand there yet. -/
def lookup (disk : Disk) (directory : Key) (name : Bytes) :
    Except SystemError (Option (Node Inode)) :=
  if disk.isGone directory then .error .noEntry
  else if maxName < name.length then .error .nameTooLong
  else .ok (disk.get? (directory ++ [name]))

/-- One name on the way: into a directory, the directory itself, or the one above. -/
def enter (disk : Disk) (directory : Key) (name : Bytes) : Except SystemError Key :=
  if name = dot then .ok directory
  else if name = dotDot then .ok directory.parent
  else do
    match ← disk.lookup directory name with
    | none => .error .noEntry
    | some (.file _) => .error .notDirectory
    | some .directory => .ok (directory ++ [name])

/-- The place a path leads to; all names but the last are followed. -/
def locate (disk : Disk) (path : Path) : Except SystemError Site :=
  let seen := path.takeWhile (· != 0)
  if seen.isEmpty then .error .noEntry
  else if pathLimit ≤ seen.length then .error .nameTooLong
  else do
    let start := if Path.isRooted seen then [] else disk.current
    let names := Path.names seen
    let directory ← names.dropLast.foldlM disk.enter start
    .ok ⟨directory, names.getLast?, Path.endsInSlash seen⟩

/-- What stands at a path, and its key. -/
def stat (disk : Disk) (path : Path) : Except SystemError (Key × Node Inode) := do
  let site ← disk.locate path
  match site.name? with
  | none => .ok (site.itself, .directory)
  | some name =>
    match ← disk.lookup site.directory name with
    | none => .error .noEntry
    | some .directory => .ok (site.directory ++ [name], .directory)
    | some (.file inode) =>
      if site.slashed then .error .notDirectory else .ok (site.directory ++ [name], .file inode)

/-! ## Changing the tree -/

/-- A directory is made in an existing one. -/
def makeDirectory (disk : Disk) (path : Path) : Except SystemError Disk := do
  let site ← disk.locate path
  match site.name? with
  | none => .error .alreadyThere
  | some name =>
    match ← disk.lookup site.directory name with
    | some _ => .error .alreadyThere
    | none => .ok { disk with tree := disk.tree.insert (site.directory ++ [name]) .directory }

/-- A file goes. -/
def unlink (disk : Disk) (path : Path) : Except SystemError Disk := do
  let site ← disk.locate path
  match site.name? with
  | none => .error .isDirectory
  | some name =>
    match ← disk.lookup site.directory name with
    | none => .error .noEntry
    | some .directory => .error .isDirectory
    | some (.file _) =>
      if site.slashed then .error .notDirectory
      else .ok { disk with tree := disk.tree.erase (site.directory ++ [name]) }

/-- An empty directory goes, when the path names it. -/
def removeDirectory (disk : Disk) (path : Path) : Except SystemError Disk := do
  let site ← disk.locate path
  match site.name? with
  | none =>
    if site.last = some dot then .error .invalid
    else if site.last = some dotDot then .error .notEmpty
    else .error .busy
  | some name =>
    let k := site.directory ++ [name]
    match ← disk.lookup site.directory name with
    | none => .error .noEntry
    | some (.file _) => .error .notDirectory
    | some .directory =>
      if disk.tree.hasBelow k then .error .notEmpty
      else .ok { disk with tree := disk.tree.erase k }

/-- The key is on the file system of the devices. -/
def isOnDevices (k : Key) : Bool := k.head? == some deviceDirectory

/-- What stood at or below one key stands at or below another. -/
def moveKey (source target k : Key) : Key :=
  if source.isPrefixOf k then target ++ k.drop source.length else k

/-- A file or a directory with all below it gets another key. -/
def move (disk : Disk) (source target : Key) : Disk :=
  { disk with
    tree := ⟨disk.tree.entries.map fun entry => (moveKey source target entry.1, entry.2)⟩
    current := moveKey source target disk.current }

/-- A file or a directory gets another path, at which nothing may stand. -/
def rename (disk : Disk) (source target : Path) : Except SystemError Disk := do
  let old ← disk.locate source
  let new ← disk.locate target
  if isOnDevices old.directory != isOnDevices new.directory then .error .crossDevice
  else
    match old.name?, new.name? with
    | some oldName, some newName =>
      let src := old.directory ++ [oldName]
      let dst := new.directory ++ [newName]
      match ← disk.lookup old.directory oldName with
      | none => .error .noEntry
      | some node =>
        match ← disk.lookup new.directory newName with
        | some _ => .error .alreadyThere
        | none =>
          if node.isFile && (old.slashed || new.slashed) then .error .notDirectory
          else if src.isPrefixOf new.directory then .error .invalid
          else .ok (disk.move src dst)
    | _, _ => .error .busy

/-! ## Contents -/

/-- The content of a file; the full device has none. -/
def contentOf (disk : Disk) : Inode → Bytes
  | .regular number => (disk.contents[number]?).getD []
  | .full => []

/-- The file is emptied, unless it is the device. -/
def truncate (disk : Disk) : Inode → Disk
  | .regular number => { disk with contents := disk.contents.setIfInBounds number [] }
  | .full => disk

/-- Bytes written over a content from an offset on; a gap is filled with zeros. -/
def overwrite (content : Bytes) (offset : Nat) (data : Bytes) : Bytes :=
  content.take offset ++ List.replicate (offset - content.length) 0 ++ data
    ++ content.drop (offset + data.length)

/-- Bytes go to a file from an offset on; the full device takes none. -/
def writeAt (disk : Disk) (inode : Inode) (offset : Nat) (data : Bytes) : Option Disk :=
  match inode with
  | .regular number =>
    some { disk with contents :=
      disk.contents.setIfInBounds number (overwrite (disk.contentOf inode) offset data) }
  | .full => none

/-- A file is opened for writing: it is created when nothing stands there, and emptied
otherwise. -/
def openForWriting (disk : Disk) (path : Path) : Except SystemError (Inode × Disk) := do
  let site ← disk.locate path
  match site.name? with
  | none => .error .isDirectory
  | some name =>
    if site.slashed then .error .isDirectory
    else
      match ← disk.lookup site.directory name with
      | some .directory => .error .isDirectory
      | some (.file inode) => .ok (inode, disk.truncate inode)
      | none =>
        let inode := .regular disk.contents.size
        .ok (inode, { disk with
          tree := disk.tree.insert (site.directory ++ [name]) (.file inode)
          contents := disk.contents.push [] })

end Disk

end StagedCopy
