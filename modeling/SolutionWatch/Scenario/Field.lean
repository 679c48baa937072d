import SolutionWatch.TextSpan
import SolutionWatch.Wire.Record

/-!
# Fields of a scenario

A scenario describes a session in JSON, for people to write: a field that is not needed may be left
out or be `null`, identities are plain numbers, and documents and ranges are short arrays. These
are the readers that everything else in a scenario is read with.
-/

namespace SolutionWatch.Scenario

/-- The value of a field; `null` counts as left out. -/
def present? (json : Json) (name : String) : Option Json :=
  match json.field? name with
  | some (.scalar .null) => none
  | value => value

/-- A field that has to be there. -/
def need {α : Type} (json : Json) (name : String) (read : Json → Option α) : Option α :=
  (present? json name).bind read

/-- A field that may be left out. -/
def given {α : Type} (json : Json) (name : String) (read : Json → Option α) :
    Option (Option α) :=
  match present? json name with
  | some value => (read value).map some
  | none => some none

/-- A field that may be left out and for which `null` is a value. -/
def settable {α : Type} (json : Json) (name : String) (read : Json → Option α) :
    Option (Option (Option α)) :=
  match json.field? name with
  | none => some none
  | some (.scalar .null) => some (some none)
  | some value => (read value).map fun a => some (some a)

/-- A number of at most 64 bits. -/
def count (json : Json) : Option Nat := (Wire.word64 json).map UInt64.toNat

/-- An object. -/
def object (json : Json) : Option Json := if json.isObject then some json else none

/-- The identity of a project. -/
def projectId (json : Json) : Option ProjectId := (Wire.word64 json).map .mk

/-- The identity of a symbol. -/
def symbolId (json : Json) : Option SymbolId := (Wire.word64 json).map .mk

/-- The identity of a document: project and index. -/
def documentId : Json → Option DocumentId
  | .array [project, index] => do return ⟨← projectId project, ← Wire.word64 index⟩
  | _ => none

/-- A span: start and end. -/
def span : Json → Option TextSpan
  | .array [start, stop] => do return ⟨← Wire.word32 start, ← Wire.word32 stop⟩
  | _ => none

/-- A range in a document: project, index, start and end. -/
def documentSpan : Json → Option DocumentSpan
  | .array [project, index, start, stop] => do
    return ⟨← documentId (.array [project, index]), ← span (.array [start, stop])⟩
  | _ => none

/-- An array of two. -/
def pair {α β : Type} (first : Json → Option α) (second : Json → Option β) :
    Json → Option (α × β)
  | .array [a, b] => do return (← first a, ← second b)
  | _ => none

end SolutionWatch.Scenario
