import StagedCopy.Storage

/-!
# Faults

A fault is what a rehearsal does to a call on a store: things happen behind the store's back, time
passes, the call fails, or its data or answer is altered. Rules say which calls a fault strikes, by
the kind of the call and its number among the calls of that kind.

* `CallKind` — the kinds of calls.
* `Fault` — what happens to a call.
* `FaultRule.covers` — which calls a rule strikes.
* `Fault.corrupt`, `Fault.alter` — the alterations, over any way of answering calls.
* `FaultPlan` — the rules of a store and the calls counted so far.
-/

namespace StagedCopy

/-- A kind of call. -/
inductive CallKind where
  | openFile | create | exist | remove | makeDirs | rename | status | checksum | read | write
  | close
  deriving DecidableEq, Repr

namespace CallKind

/-- The name of a kind of call. -/
def name : CallKind → Bytes
  | openFile => utf8 "open"
  | create => utf8 "create"
  | exist => utf8 "exists"
  | remove => utf8 "remove"
  | makeDirs => utf8 "mkdirs"
  | rename => utf8 "rename"
  | status => utf8 "status"
  | checksum => utf8 "checksum"
  | read => utf8 "read"
  | write => utf8 "write"
  | close => utf8 "close"

/-- All kinds of calls. -/
def all : List CallKind :=
  [openFile, create, exist, remove, makeDirs, rename, status, checksum, read, write, close]

/-- The kind of call with a given name. -/
def ofName? (name : Bytes) : Option CallKind := all.find? fun kind => kind.name = name

end CallKind

/-- The kind of a call. -/
def StorageCall.kind : StorageCall → CallKind
  | openFile _ => .openFile
  | createFile .. => .create
  | pathExists _ => .exist
  | remove .. => .remove
  | makeDirs _ => .makeDirs
  | rename .. => .rename
  | status _ => .status
  | checksum _ => .checksum
  | read .. => .read
  | write .. => .write
  | close _ => .close

/-! ## Faults -/

/-- What happens to a call. First a path of the store is removed, then a file is put there, then
time passes; then the call may fail with a message. Otherwise a read delivers at most `limit`
bytes; a write loses its last `loss` bytes and then has the lowest bit of its first byte flipped;
and the answer about presence, about a length or about a checksum is another. -/
structure Fault where
  removal : Option Path := none
  placement : Option (Path × Bytes) := none
  delay : Nat := 0
  failure : Option Bytes := none
  limit : Option Nat := none
  loss : Nat := 0
  flips : Bool := false
  presence : Option Bool := none
  length : Option Nat := none
  sum : Option (Option FileChecksum) := none
  deriving Repr

namespace Fault

/-- The bytes that a write passes on. -/
def corrupt (fault : Fault) (data : Bytes) : Bytes :=
  let kept := data.take (data.length - fault.loss)
  match kept with
  | [] => []
  | b :: rest => if fault.flips then (b ^^^ 1) :: rest else b :: rest

section answering

variable {σ : Type}

/-- The answer to a call that does not fail, where `base` answers without faults. -/
def alter (fault : Fault) (base : (call : StorageCall) → σ → call.Answer × σ) :
    (call : StorageCall) → σ → call.Answer × σ
  | .read stream size, s =>
    base (.read stream (match fault.limit with | some n => min size n | none => size)) s
  | .write stream data, s => base (.write stream (fault.corrupt data)) s
  | .pathExists path, s =>
    match fault.presence with
    | some answer => (.ok answer, s)
    | none => base (.pathExists path) s
  | .status path, s =>
    let (answer, s) := base (.status path) s
    match answer, fault.length with
    | .ok found, some n => (.ok { found with length := n }, s)
    | answer, _ => (answer, s)
  | .checksum path, s =>
    match fault.sum with
    | some sum => (.ok sum, s)
    | none => base (.checksum path) s
  | call, s => base call s

/-- The answer to a call that a fault strikes, after the effects behind the store's back. A close
that fails still closes. -/
def strike (fault : Fault) (base : (call : StorageCall) → σ → call.Answer × σ) :
    (call : StorageCall) → σ → call.Answer × σ :=
  match fault.failure with
  | none => fault.alter base
  | some message => fun call s =>
    match call with
    | .close stream => (.error message, (base (.close stream) s).2)
    | _ => (.error message, s)

end answering

end Fault

/-! ## Rules -/

/-- A fault with the calls that it strikes: those of a kind, from a number on, and only so many of
them when there is a count. -/
structure FaultRule where
  kind : CallKind
  first : Nat := 1
  count : Option Nat := none
  fault : Fault

/-- The rule strikes the call of the given kind and number. -/
def FaultRule.covers (rule : FaultRule) (kind : CallKind) (number : Nat) : Bool :=
  rule.kind == kind && decide (rule.first ≤ number) &&
    match rule.count with
    | none => true
    | some n => decide (number < rule.first + n)

/-- The rules of a store, and how many calls of each kind there were under them. -/
structure FaultPlan where
  rules : List FaultRule := []
  counts : List (CallKind × Nat) := []

namespace FaultPlan

/-- The fault that strikes the next call of a kind, which is that of the first rule that covers
it, and the plan after that call. -/
def next (plan : FaultPlan) (kind : CallKind) : Fault × FaultPlan :=
  let number := (plan.counts.lookup kind).getD 0 + 1
  let rule := plan.rules.find? fun rule => rule.covers kind number
  ((rule.map FaultRule.fault).getD {}, { plan with
    counts := (kind, number) :: plan.counts.filter fun entry => entry.1 != kind })

end FaultPlan

end StagedCopy
