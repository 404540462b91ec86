import StagedCopy.Bytes

/-!
# Paths

A path is a byte string. The operations here are lexical: they look at the spelling alone and
never at what a store holds. A path is read as a sequence of names separated by slashes; it is
rooted when it begins with a slash, and several slashes in a row count as one.

* `Path.lexicallyNormal` — the normal spelling: no `.`, no doubled separator, and `..` only where
  there is no name before it to remove.
* `Path.parent`, `Path.join`, `Path.hasFilename` — the parts that staging needs.
* `Path.withoutTrailingSeparator` — one spelling for `dir` and `dir/`.
-/

namespace StagedCopy

/-- The spelling of a place in a store. -/
abbrev Path := Bytes

/-- The separator of names. -/
def slash : UInt8 := 47

/-- The name `.`, the directory itself. -/
def dot : Bytes := [46]

/-- The name `..`, the directory above. -/
def dotDot : Bytes := [46, 46]

namespace Path

/-! ## Spelling -/

/-- The pieces between slashes, empty ones included; there is always at least one. -/
def pieces : Path → List Bytes
  | [] => [[]]
  | b :: rest =>
    match pieces rest with
    | [] => [[b]]
    | piece :: more => if b = slash then [] :: piece :: more else (b :: piece) :: more

/-- The names of a path: its non-empty pieces. -/
def names (p : Path) : List Bytes := p.pieces.filter fun piece => !piece.isEmpty

/-- The path begins with a separator. -/
def isRooted (p : Path) : Bool := p.head? == some slash

/-- The path ends in a separator. -/
def endsInSlash (p : Path) : Bool := p.getLast? == some slash

/-- The path goes on after the separators it begins with. -/
def hasNames (p : Path) : Bool := p.any (· != slash)

/-- The path ends in a name rather than in a separator. -/
def hasFilename (p : Path) : Bool := !p.isEmpty && !p.endsInSlash

/-- Names with single separators between them. -/
def joinNames : List Bytes → Path
  | [] => []
  | [name] => name
  | name :: more => name ++ slash :: joinNames more

/-- The path without the separators it ends in. -/
def dropTrailingSlashes (p : Path) : Path := (p.reverse.dropWhile (· == slash)).reverse

/-! ## Parts -/

/-- The path without its last name: a path that ends in separators loses just these, and nothing
is above a path without names. -/
def parent (p : Path) : Path :=
  if p.hasNames then
    let before : Path := (p.reverse.dropWhile (· != slash)).reverse
    let above := before.dropTrailingSlashes
    if above.isEmpty && before.isRooted then [slash] else above
  else p

/-- The last name, or nothing when the path ends in a separator. -/
def filename (p : Path) : Bytes := (p.reverse.takeWhile (· != slash)).reverse

/-- A relative path read inside a directory. -/
def join (directory : Path) (relative : Path) : Path :=
  if directory.isEmpty || directory.endsInSlash then directory ++ relative
  else directory ++ slash :: relative

/-- A path read inside a directory: a rooted one stands for itself. -/
def resolveIn (directory : Path) (p : Path) : Path :=
  if p.isRooted then p else directory.join p

/-! ## Normal spelling -/

/-- One name read after the names kept so far, which stand in reverse: `.` is dropped, and `..`
removes the name before it, is dropped at the root, and stays otherwise. -/
def pushName (rooted : Bool) (kept : List Bytes) (name : Bytes) : List Bytes :=
  if name = dot then kept
  else if name = dotDot then
    match kept with
    | [] => if rooted then [] else [dotDot]
    | last :: before => if last = dotDot then dotDot :: last :: before else before
  else name :: kept

/-- The names that are left after `.` and `..` are read, in order. -/
def normalNames (p : Path) : List Bytes :=
  (p.names.foldl (pushName p.isRooted) []).reverse

/-- The path names a directory by its spelling alone: it ends in a separator, in `.` or in
`..`. -/
def endsAsDirectory (p : Path) : Bool :=
  p.endsInSlash || p.filename == dot || p.filename == dotDot

/-- The lexically normal spelling of a path. A path without names is its own; a path whose names
cancel out is `.` or the root; a separator at the end stays after a name other than `..`. -/
def lexicallyNormal (p : Path) : Path :=
  if p.hasNames then
    let kept := p.normalNames
    let root : Path := if p.isRooted then [slash] else []
    match kept.getLast? with
    | none => if p.isRooted then [slash] else dot
    | some last =>
      root ++ joinNames kept ++ (if p.endsAsDirectory && last != dotDot then [slash] else [])
  else p

/-- The normal spelling without a separator at the end, so that a directory has one spelling. -/
def withoutTrailingSeparator (p : Path) : Path :=
  let normal := p.lexicallyNormal
  if !normal.hasFilename && normal.hasNames then normal.parent else normal

end Path

end StagedCopy
