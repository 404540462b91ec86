import StagedCopy.Breakdown
import StagedCopy.Config
import StagedCopy.Disk.Files

/-!
# Configuration files

A configuration is read from a file of a disk. A path where nothing can be opened is refused; a
directory can be opened but not read, and the run breaks down over it.

* `Config.fileText?` — the text that stands at a path.
* `Config.load` — the configuration in it.
-/

namespace StagedCopy

namespace Config

/-- The text of what can be opened for reading at a path; none when nothing can. -/
def fileText? (disk : Disk) (path : Path) : Except Breakdown (Option Bytes) :=
  match disk.stat path with
  | .ok (_, .file inode) => .ok (some (disk.contentOf inode))
  | .ok (_, .directory) => .error (.unreadable .isDirectory)
  | .error _ => .ok none

/-- The configuration in a file. -/
def load (library : JsonLibrary) (disk : Disk) (path : Path) :
    Except Breakdown (Except ConfigError Config) :=
  (fileText? disk path).map fun
    | some text => ofText library path text
    | none => .error (.cannotOpen path)

/-- What reading a configuration writes to the log. -/
def loadLine (path : Path) : Log.Line := ⟨.info, utf8 "Loading configuration from " ++ path⟩

end Config

end StagedCopy
