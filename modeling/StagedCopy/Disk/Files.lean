import StagedCopy.Disk

/-!
# Questions and errands on a disk

What programs ask of a disk in terms of its calls: whether something stands at a path, whole
chains of directories, and the removal of whole directories.

* `Disk.pathExists`, `Disk.isDirectory`, `Disk.fileSize` — questions.
* `Disk.makeDirectories` — a directory with all above it; what was made before a failure stays.
* `Disk.removeOne`, `Disk.removeAll` — a single thing, and a directory with all below it.
-/

namespace StagedCopy

namespace Disk

/-! ## Questions -/

/-- Something stands at the path; a missing directory on the way means that nothing does. -/
def pathExists (disk : Disk) (path : Path) : Except SystemError Bool :=
  match disk.stat path with
  | .ok _ => .ok true
  | .error e => if e.meansAbsent then .ok false else .error e

/-- A directory stands at the path. -/
def isDirectory (disk : Disk) (path : Path) : Except SystemError Bool :=
  (disk.stat path).map fun found => found.2 = .directory

/-- The number of bytes of a file. -/
def fileSize (disk : Disk) (path : Path) : Except SystemError Nat := do
  match (← disk.stat path).2 with
  | .directory => .error .isDirectory
  | .file .full => .error .notSupported
  | .file inode => .ok (disk.contentOf inode).length

/-! ## Directories -/

/-- The most directories that are made at once. -/
def maxMissing : Nat := 1000

/-- The paths of the directories to make, outermost first, from a path up to a directory that is
there: `missing` are those found so far below it. The first argument bounds the number of names.
Something other than a directory on the way is an error. -/
def missingDirectories (disk : Disk) :
    Nat → Path → List Path → Except SystemError (List Path)
  | 0, _, missing => .ok missing
  | bound + 1, path, missing => do
    let name := path.filename
    let missing := if name = dot ∨ name = dotDot then missing else path :: missing
    if maxMissing < missing.length then .error .nameTooLong
    else
      let above := path.parent
      if above.isEmpty then .ok missing
      else
        match disk.stat above with
        | .ok (_, .directory) => .ok missing
        | .ok (_, .file _) => .error .notDirectory
        | .error e =>
          if e.meansAbsent then disk.missingDirectories bound above missing else .error e

/-- A directory is made; that it is there already is no failure. -/
def ensureDirectory (disk : Disk) (path : Path) : Except SystemError Disk :=
  match disk.makeDirectory path with
  | .error .alreadyThere =>
    match disk.isDirectory path with
    | .ok true => .ok disk
    | _ => .error .alreadyThere
  | result => result

/-- Directories are made one after another until one fails; the disk after the last one made. -/
def ensureDirectories (disk : Disk) : List Path → Option SystemError × Disk
  | [] => (none, disk)
  | path :: more =>
    match disk.ensureDirectory path with
    | .error e => (some e, disk)
    | .ok made => made.ensureDirectories more

/-- A path becomes a directory, with all above it. -/
def makeDirectories (disk : Disk) (path : Path) : Option SystemError × Disk :=
  if path.isEmpty then (some .invalid, disk)
  else
    match disk.stat path with
    | .ok (_, .directory) => (none, disk)
    | .ok (_, .file _) => (some .notDirectory, disk)
    | .error e =>
      if e.meansAbsent then
        let start := if path.hasNames && !path.hasFilename then path.parent else path
        match disk.missingDirectories (path.length + 1) start [] with
        | .error e => (some e, disk)
        | .ok missing => disk.ensureDirectories missing
      else (some e, disk)

/-! ## Removal -/

/-- A file or an empty directory goes; that nothing is there is no failure. -/
def removeOne (disk : Disk) (path : Path) : Option SystemError × Disk :=
  let result :=
    match disk.unlink path with
    | .error .isDirectory => disk.removeDirectory path
    | result => result
  match result with
  | .ok removed => (none, removed)
  | .error .noEntry => (none, disk)
  | .error e => (some e, disk)

/-- A directory loses all below it, and then goes itself. -/
def removeAll (disk : Disk) (path : Path) : Option SystemError × Disk :=
  match disk.stat path with
  | .ok (k, .directory) => { disk with tree := disk.tree.eraseBelow k }.removeOne path
  | _ => disk.removeOne path

end Disk

end StagedCopy
