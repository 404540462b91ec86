import StagedCopy.Disk

/-!
# What changed on a disk

The difference between a disk and the same disk later, as changes that can be made elsewhere one
after another: what is gone goes first, the deepest before the directories that hold it; then new
directories are made, outermost first; then files are written.

* `Disk.Change` — a single change.
* `Disk.changes` — the changes from one disk to another.
-/

namespace StagedCopy

namespace Disk

/-- A single change of a disk. -/
inductive Change where
  | removeFile (k : Key)
  | removeDirectory (k : Key)
  | makeDirectory (k : Key)
  | writeFile (k : Key) (content : Bytes)
  deriving DecidableEq, Repr

/-- What stands at a key, a file with its content. -/
def view (disk : Disk) (k : Key) : Option (Node Bytes) :=
  (disk.get? k).map fun
    | .directory => .directory
    | .file inode => .file (disk.contentOf inode)

/-- Keys with the outermost first. -/
def outermostFirst (ks : List Key) : List Key :=
  sortBy (fun a b => decide (a.length ≤ b.length)) ks

/-- What has to go from a key: what is not there later, or is of another kind. -/
def removal? (before after : Disk) (k : Key) : Option Change :=
  match before.view k, after.view k with
  | some .directory, some .directory => none
  | some .directory, _ => some (.removeDirectory k)
  | some (.file _), some (.file _) => none
  | some (.file _), _ => some (.removeFile k)
  | none, _ => none

/-- What has to come to a key, when what had to go is gone. -/
def addition? (before after : Disk) (k : Key) : Option Change :=
  match before.view k, after.view k with
  | some .directory, some .directory => none
  | _, some .directory => some (.makeDirectory k)
  | some (.file old), some (.file new) => if old = new then none else some (.writeFile k new)
  | _, some (.file new) => some (.writeFile k new)
  | _, none => none

/-- The changes that make the second disk of the first. -/
def changes (before after : Disk) : List Change :=
  ((outermostFirst before.tree.keys).reverse.filterMap (removal? before after))
    ++ (outermostFirst after.tree.keys).filterMap (addition? before after)

end Disk

end StagedCopy
