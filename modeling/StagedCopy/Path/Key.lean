import StagedCopy.Path

/-!
# Keys

A key names a place in a tree: the names on the way from the root to it. Every path read from the
root has a key, and paths that lead to the same place have the same key: `.` and empty names count
for nothing, and `..` takes back the name before it, if there is one.

* `Path.key`, `Path.waypoints` — the key of a path, and the keys on the way to it.
* `Key.text` — the one spelling of a key, which begins with a slash.
* `Key.parent`, `Key.properAncestors`, `Key.isAbove` — the places above a place.
* `Key.Canonical` — keys that paths lead to.
-/

namespace StagedCopy

/-- The names on the way from the root to a place. -/
abbrev Key := List Bytes

namespace Key

/-- The spelling of a key: every name after a slash, and a single slash for the root. -/
def text (k : Key) : Path := if k = [] then [slash] else k.flatMap fun name => slash :: name

/-- The place right above; the root is above itself. -/
def parent (k : Key) : Key := k.dropLast

/-- The places above a place, the nearest first, without the root and without the place itself. -/
def properAncestors (k : Key) : List Key :=
  ((List.range k.length).drop 1).reverse.map fun n => k.take n

/-- The second place lies somewhere below the first. -/
def isAbove (k below : Key) : Bool := k.isPrefixOf below && k != below

/-- A name that can stand in a key. -/
def isName (name : Bytes) : Bool :=
  !name.isEmpty && name != dot && name != dotDot && !name.contains slash

/-- All names of the key can stand in a key. -/
def Canonical (k : Key) : Prop := ∀ name ∈ k, isName name

instance (k : Key) : Decidable (Canonical k) := inferInstanceAs (Decidable (∀ name ∈ k, _))

theorem isAbove_iff {k below : Key} : k.isAbove below = true ↔ k <+: below ∧ k ≠ below := by
  simp [isAbove]

end Key

namespace Path

/-- The place that names lead to from the root. -/
def keyOfNames (names : List Bytes) : Key := (names.foldl (pushName true) []).reverse

/-- The place that a path leads to from the root. -/
def key (p : Path) : Key := keyOfNames p.names

/-- The places that a path leads through, up to the one it leads to. -/
def waypoints (p : Path) : List Key :=
  (List.range p.names.length).map fun n => keyOfNames (p.names.take (n + 1))

end Path

end StagedCopy
