/-!
# Identities

Workspaces, projects, documents and symbols are named by 64-bit numbers. A document never moves
between projects, so the owning project is part of its identity, and documents are ordered by
project first and by index second. Each identity has one written form, used in messages.

`IdSource` hands out fresh numbers to every kind of identity from one counter.
-/

namespace SolutionWatch

/-- The identity shared by every snapshot that one workspace produces. -/
structure WorkspaceId where
  /-- The number behind the identity. -/
  raw : UInt64
  deriving DecidableEq, Repr, Hashable, Inhabited

/-- The identity of a project. -/
structure ProjectId where
  /-- The number behind the identity. -/
  raw : UInt64
  deriving DecidableEq, Repr, Hashable, Inhabited

/-- The identity of a document: its project and its number within it. -/
structure DocumentId where
  /-- The project that owns the document. -/
  project : ProjectId
  /-- The document's number within its project. -/
  index : UInt64
  deriving DecidableEq, Repr, Hashable, Inhabited

/-- The identity of a symbol. -/
structure SymbolId where
  /-- The number behind the identity. -/
  raw : UInt64
  deriving DecidableEq, Repr, Hashable, Inhabited

/-- A 64-bit digest that names the content of a snapshot on the wire. -/
structure Checksum where
  /-- The number behind the digest. -/
  raw : UInt64
  deriving DecidableEq, Repr, Hashable, Inhabited

/-- The decimal digits of a number, written with none too many. -/
def decimal (n : Nat) : String := String.ofList (Nat.toDigits 10 n)

namespace WorkspaceId

/-- The written form of a workspace identity. -/
def text (id : WorkspaceId) : String := "workspace#" ++ decimal id.raw.toNat

end WorkspaceId

namespace ProjectId

/-- The written form of a project identity. -/
def text (id : ProjectId) : String := "project#" ++ decimal id.raw.toNat

end ProjectId

namespace DocumentId

/-- The written form of a document identity: project number and index. -/
def text (id : DocumentId) : String :=
  "document#" ++ decimal id.project.raw.toNat ++ "/" ++ decimal id.index.toNat

/-- Documents are ordered by project, and within a project by index. -/
def order (a b : DocumentId) : Ordering :=
  (compare a.project.raw.toNat b.project.raw.toNat).then (compare a.index.toNat b.index.toNat)

/-- `a` does not come after `b`. -/
def notAfter (a b : DocumentId) : Bool := order a b != .gt

end DocumentId

namespace SymbolId

/-- The written form of a symbol identity. -/
def text (id : SymbolId) : String := "symbol#" ++ decimal id.raw.toNat

end SymbolId

namespace Checksum

/-- The written form of a checksum: sixteen lower-case hexadecimal digits. -/
def text (checksum : Checksum) : String :=
  let digits := Nat.toDigits 16 checksum.raw.toNat
  String.ofList (List.replicate (16 - digits.length) '0' ++ digits)

end Checksum

/-- The counter that fresh identities are drawn from. Identities of all kinds share it, so no two
fresh ones have the same number. -/
structure IdSource where
  /-- The number that the next fresh identity gets. -/
  next : UInt64 := 1
  deriving DecidableEq, Repr

namespace IdSource

/-- Draws a number and moves the counter past it. -/
def draw (source : IdSource) : UInt64 × IdSource := (source.next, ⟨source.next + 1⟩)

/-- A fresh workspace identity. -/
def workspace (source : IdSource) : WorkspaceId × IdSource := (⟨source.draw.1⟩, source.draw.2)

/-- A fresh project identity. -/
def project (source : IdSource) : ProjectId × IdSource := (⟨source.draw.1⟩, source.draw.2)

/-- A document identity fresh within `owner`. -/
def document (source : IdSource) (owner : ProjectId) : DocumentId × IdSource :=
  (⟨owner, source.draw.1⟩, source.draw.2)

end IdSource

end SolutionWatch
