import SolutionWatch.Solution

/-!
# The snapshot registry

A registry keeps a bounded number of values under keys. Using a key, by registering a value under
it or by looking it up, makes it the most recent one; when a new key does not fit, the least
recent one is forgotten. A key that is registered again keeps its first value.

Snapshots are kept under their fingerprint, so a request can name a snapshot without carrying it. Of
several snapshots of one fingerprint the one that was registered first stays, although their contents
may differ.
-/

namespace SolutionWatch

/-- A bounded map that forgets the least recently used key. -/
structure Registry (κ ν : Type) where
  /-- The greatest number of entries. -/
  capacity : Nat
  /-- The entries, the most recently used first. -/
  entries : List (κ × ν) := []
  /-- There is room for an entry. -/
  room : 0 < capacity

namespace Registry

variable {κ ν : Type} [DecidableEq κ]

/-- A registry without entries. A capacity of zero counts as one. -/
def withCapacity (capacity : Nat) : Registry κ ν := { capacity := max capacity 1, room := by omega }

/-- The number of entries that a registry keeps unless told otherwise. -/
def defaultCapacity : Nat := 64

/-- The value kept under a key, if there is one. -/
def find? (registry : Registry κ ν) (key : κ) : Option ν :=
  (registry.entries.find? fun e => e.1 = key).map Prod.snd

/-- Whether a value is kept under a key. Asking is not a use. -/
def contains (registry : Registry κ ν) (key : κ) : Bool := (registry.find? key).isSome

/-- The number of entries. Asking is not a use. -/
def size (registry : Registry κ ν) : Nat := registry.entries.length

/-- Makes an entry the most recent one, forgetting the least recent entry if there are too many. -/
def touch (registry : Registry κ ν) (key : κ) (value : ν) : Registry κ ν :=
  { registry with
    entries := ((key, value) :: registry.entries.filter fun e => e.1 ≠ key).take registry.capacity }

/-- Uses a key: keeps its value, or files `value` under it. -/
def register (registry : Registry κ ν) (key : κ) (value : ν) : Registry κ ν :=
  registry.touch key ((registry.find? key).getD value)

/-- Looks a key up. Only a key that is found is used. -/
def resolve (registry : Registry κ ν) (key : κ) : Option ν × Registry κ ν :=
  match registry.find? key with
  | some value => (some value, registry.touch key value)
  | none => (none, registry)

end Registry

/-- A registry of snapshots, which are kept under their fingerprint. -/
abbrev SnapshotRegistry := Registry Fingerprint Solution

namespace SnapshotRegistry

/-- Files a snapshot under its fingerprint. -/
def file (registry : SnapshotRegistry) (solution : Solution) : SnapshotRegistry :=
  registry.register solution.fingerprint solution

/-- The snapshot that an address names. Nothing is ever kept under a bare checksum. -/
def lookup (registry : SnapshotRegistry) (address : Address) :
    Except Failure Solution × SnapshotRegistry :=
  match address with
  | .fingerprint print =>
    match registry.resolve print with
    | (some solution, registry) => (.ok solution, registry)
    | (none, registry) => (.error (.snapshotNotFound address), registry)
  | .checksum _ => (.error (.snapshotNotFound address), registry)

/-- Whether the snapshot that an address names is kept. Asking is not a use. -/
def holds (registry : SnapshotRegistry) (address : Address) : Bool :=
  match address with
  | .fingerprint print => registry.contains print
  | .checksum _ => false

end SnapshotRegistry

end SolutionWatch
