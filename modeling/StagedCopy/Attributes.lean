import StagedCopy.Bytes

/-!
# Attributes to preserve

A file has a replication and a block size besides its content. A copy takes each of them from the
source when it is in the set of preserved attributes, and from the defaults of the target store
otherwise.

* `Layout` — a replication and a block size.
* `Attributes` — which of the two are preserved; `Attributes.parse` and `Attributes.letters` are
  its written form.
-/

namespace StagedCopy

/-- The number of replicas of a file and the size of the blocks that it is cut into. -/
structure Layout where
  replication : Int
  blockSize : Nat
  deriving DecidableEq, Repr

/-- An attribute that a copy can carry over from its source. -/
inductive Attribute where
  | replication | blockSize
  deriving DecidableEq, Repr

/-- A set of attributes. -/
structure Attributes where
  replication : Bool := false
  blockSize : Bool := false
  deriving DecidableEq, Repr

namespace Attributes

/-- The set without attributes. -/
def none : Attributes := {}

/-- The set with one more attribute. -/
def add (set : Attributes) : Attribute → Attributes
  | .replication => { set with replication := true }
  | .blockSize => { set with blockSize := true }

/-- The set of the listed attributes. -/
def ofList (attributes : List Attribute) : Attributes := attributes.foldl add none

/-- The attribute is in the set. -/
def contains (set : Attributes) : Attribute → Bool
  | .replication => set.replication
  | .blockSize => set.blockSize

/-- No attribute is in the set. -/
def isEmpty (set : Attributes) : Bool := !set.replication && !set.blockSize

/-- The attribute that a letter of either case stands for. -/
def ofLetter? (letter : UInt8) : Option Attribute :=
  if lowerByte letter = ascii 'r' then some .replication
  else if lowerByte letter = ascii 'b' then some .blockSize
  else Option.none

/-- The set that a row of letters stands for, in any order and with repetitions; the first byte
that is no such letter is the error. -/
def parse (letters : Bytes) : Except UInt8 Attributes :=
  letters.foldlM (fun set letter =>
    match ofLetter? letter with
    | some wanted => .ok (set.add wanted)
    | Option.none => .error letter) none

/-- Why a row of letters is no set of attributes. -/
def unknownLetter (letter : UInt8) : Bytes :=
  utf8 "Unknown preserve attribute '" ++ [letter] ++ utf8 "'"

/-- The letters of the set, replication first. -/
def letters (set : Attributes) : Bytes :=
  (if set.replication then [ascii 'r'] else []) ++ (if set.blockSize then [ascii 'b'] else [])

/-- The layout of a copy: preserved attributes come from the source, the others from the defaults
of the target store. -/
def choose (set : Attributes) (source defaults : Layout) : Layout where
  replication := if set.contains .replication then source.replication else defaults.replication
  blockSize := if set.contains .blockSize then source.blockSize else defaults.blockSize

end Attributes

end StagedCopy
