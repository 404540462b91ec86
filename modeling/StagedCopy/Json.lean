import StagedCopy.Binary64

/-!
# JSON values

A JSON value keeps the kind of number that its text had: a natural number below `2 ^ 64`, a
negative or signed integer from `-2 ^ 63` on, or a double. The readings below say which kinds
count as an integer, a double, a truth value or a string.

* `Json` — the values, with their readings.
* `JsonLibrary` — what is left to a library: the syntax, and the words for a value of another kind
  than the one that is wanted.
-/

namespace StagedCopy

/-- A JSON value. Strings and member names are byte strings; members keep their order. -/
inductive Json where
  | null
  | bool (value : Bool)
  | unsigned (value : Nat)
  | signed (value : Int)
  | float (value : Rat)
  | string (value : Bytes)
  | array (elements : List Json)
  | object (members : List (Bytes × Json))

namespace Json

/-- The members of an object. -/
def members? : Json → Option (List (Bytes × Json))
  | object members => some members
  | _ => none

/-- The value of a member: of several with one name, the last. -/
def member? (members : List (Bytes × Json)) (name : Bytes) : Option Json :=
  (members.reverse.find? fun member => member.1 = name).map (·.2)

/-- Any number as a signed 64-bit integer: a natural number too large for it wraps around, a
double loses its fraction. -/
def toInt64? : Json → Option Int
  | unsigned n => some (wrapSigned64 n)
  | signed n => some n
  | float q => some (Binary64.toInt64 q)
  | _ => none

/-- Any number as a double. -/
def toDouble? : Json → Option Rat
  | unsigned n => some (Binary64.ofNat n)
  | signed n => some (Binary64.ofInt n)
  | float q => some q
  | _ => none

/-- A truth value. -/
def toBool? : Json → Option Bool
  | bool b => some b
  | _ => none

/-- The bytes of a string. -/
def toBytes? : Json → Option Bytes
  | string s => some s
  | _ => none

/-- The kinds of values that can be wanted. -/
inductive Kind where
  | boolean | number | string
  deriving DecidableEq, Repr

end Json

/-- A library for JSON: the value that a text spells, unless it spells none, and the words with
which a value is refused where one of another kind is wanted. -/
structure JsonLibrary where
  parse : Bytes → Option Json
  mismatch : Json.Kind → Json → Bytes

end StagedCopy
