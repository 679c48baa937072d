import SolutionWatch.Request
import SolutionWatch.Wire.Record

/-!
# The wire forms of requests and messages

Every type that crosses to a worker has a function `toJson`, and a function `ofJson?` that reads
what `toJson` writes and the liberties of records besides. Identities and sets of reasons are
numbers, enumerations are names, and operations and messages are tagged records.

The parameter `held` of a reader says whether its value was held back while a tag was looked for.
-/

namespace SolutionWatch

open Wire

namespace WorkspaceId

/-- The wire form of a workspace identity. -/
def toJson (id : WorkspaceId) : Json := .nat id.raw.toNat

/-- Reads a workspace identity. -/
def ofJson? (json : Json) : Option WorkspaceId := (word64 json).map .mk

end WorkspaceId

namespace ProjectId

/-- The wire form of a project identity. -/
def toJson (id : ProjectId) : Json := .nat id.raw.toNat

/-- Reads a project identity. -/
def ofJson? (json : Json) : Option ProjectId := (word64 json).map .mk

end ProjectId

namespace SymbolId

/-- The wire form of a symbol identity. -/
def toJson (id : SymbolId) : Json := .nat id.raw.toNat

/-- Reads a symbol identity. -/
def ofJson? (json : Json) : Option SymbolId := (word64 json).map .mk

end SymbolId

namespace Checksum

/-- The wire form of a checksum. -/
def toJson (checksum : Checksum) : Json := .nat checksum.raw.toNat

/-- Reads a checksum. -/
def ofJson? (json : Json) : Option Checksum := (word64 json).map .mk

end Checksum

namespace Reasons

/-- The wire form of a set of reasons. -/
def toJson (reasons : Reasons) : Json := .nat reasons.bits.toNat

/-- Reads a set of reasons. -/
def ofJson? (json : Json) : Option Reasons := (word32 json).map fun word => ⟨word.toBitVec⟩

end Reasons

namespace DocumentId

/-- The wire form of a document identity. -/
def toJson (id : DocumentId) : Json :=
  .object [("project", id.project.toJson), ("index", .nat id.index.toNat)]

/-- Reads a document identity. -/
def ofJson? (json : Json) : Option DocumentId := do
  let [project, index] ← fields? ["project", "index"] json | none
  return ⟨← required ProjectId.ofJson? project, ← required word64 index⟩

end DocumentId

namespace TextSpan

/-- The wire form of a span. -/
def toJson (span : TextSpan) : Json :=
  .object [("start", .nat span.start.toNat), ("end", .nat span.stop.toNat)]

/-- Reads a span. -/
def ofJson? (json : Json) : Option TextSpan := do
  let [start, stop] ← fields? ["start", "end"] json | none
  return ⟨← required word32 start, ← required word32 stop⟩

end TextSpan

namespace DocumentSpan

/-- The wire form of a range in a document. -/
def toJson (range : DocumentSpan) : Json :=
  .object [("document", range.document.toJson), ("span", range.span.toJson)]

/-- Reads a range in a document. -/
def ofJson? (json : Json) : Option DocumentSpan := do
  let [document, span] ← fields? ["document", "span"] json | none
  return ⟨← required DocumentId.ofJson? document, ← required TextSpan.ofJson? span⟩

end DocumentSpan

namespace ChangeKind

/-- The wire form of a kind of change. -/
def toJson (kind : ChangeKind) : Json := .text kind.text

/-- Reads a kind of change. -/
def ofJson? (held : Bool) (json : Json) : Option ChangeKind := oneOf all text held json

end ChangeKind

namespace SymbolKind

/-- The wire form of a kind of symbol. -/
def toJson (kind : SymbolKind) : Json := .text kind.text

/-- Reads a kind of symbol. -/
def ofJson? (held : Bool) (json : Json) : Option SymbolKind := oneOf all text held json

end SymbolKind

namespace CascadeDirection

/-- The wire form of a direction. -/
def toJson (direction : CascadeDirection) : Json := .text direction.text

/-- Reads a direction. -/
def ofJson? (held : Bool) (json : Json) : Option CascadeDirection := oneOf all text held json

end CascadeDirection

namespace Completion

/-- The wire form of a completion. -/
def toJson (completion : Completion) : Json := .text completion.text

/-- Reads a completion. -/
def ofJson? (held : Bool) (json : Json) : Option Completion := oneOf all text held json

end Completion

namespace SearchOptions

/-- The wire form of search options. -/
def toJson (options : SearchOptions) : Json :=
  .object [("cascade", .bool options.cascade), ("direction", options.direction.toJson)]

/-- Reads search options. -/
def ofJson? (held : Bool) (json : Json) : Option SearchOptions := do
  let [cascade, direction] ← fields? ["cascade", "direction"] json | none
  return ⟨← required Json.asBool? cascade, ← required (CascadeDirection.ofJson? held) direction⟩

end SearchOptions

namespace SymbolInfo

/-- The wire form of a symbol. -/
def toJson (symbol : SymbolInfo) : Json :=
  .object [("id", symbol.id.toJson), ("name", .text symbol.name), ("kind", symbol.kind.toJson),
    ("declaration", symbol.declaration.toJson), ("span", symbol.span.toJson)]

/-- Reads a symbol. -/
def ofJson? (held : Bool) (json : Json) : Option SymbolInfo := do
  let [id, name, kind, declaration, span] ←
    fields? ["id", "name", "kind", "declaration", "span"] json | none
  return ⟨← required SymbolId.ofJson? id, ← required Json.asText? name,
    ← required (SymbolKind.ofJson? held) kind, ← required DocumentId.ofJson? declaration,
    ← required TextSpan.ofJson? span⟩

end SymbolInfo

namespace ReferenceLocation

/-- The wire form of an occurrence. -/
def toJson (location : ReferenceLocation) : Json :=
  .object [("document", location.document.toJson), ("span", location.span.toJson),
    ("is_definition", .bool location.isDefinition)]

/-- Reads an occurrence. -/
def ofJson? (json : Json) : Option ReferenceLocation := do
  let [document, span, isDefinition] ← fields? ["document", "span", "is_definition"] json | none
  return ⟨← required DocumentId.ofJson? document, ← required TextSpan.ofJson? span,
    ← required Json.asBool? isDefinition⟩

end ReferenceLocation

namespace SymbolAddress

/-- The wire form of a symbol address. -/
def toJson (symbol : SymbolAddress) : Json :=
  .object [("id", symbol.id.toJson), ("project", symbol.project.toJson),
    ("name", .text symbol.name)]

/-- Reads a symbol address. -/
def ofJson? (json : Json) : Option SymbolAddress := do
  let [id, project, name] ← fields? ["id", "project", "name"] json | none
  return ⟨← required SymbolId.ofJson? id, ← required ProjectId.ofJson? project,
    ← required Json.asText? name⟩

end SymbolAddress

namespace Scope

/-- The wire form of a scope. -/
def toJson : Scope → Json
  | .solution => .text "WholeSolution"
  | .project id => .object [("Project", id.toJson)]
  | .document id => .object [("Document", id.toJson)]

/-- Reads a scope. -/
def ofJson? : Json → Option Scope
  | .scalar (.text "WholeSolution") => some .solution
  | .object [("WholeSolution", .scalar .null)] => some .solution
  | .object [("Project", id)] => (ProjectId.ofJson? id).map .project
  | .object [("Document", id)] => (DocumentId.ofJson? id).map .document
  | _ => none

end Scope

namespace Operation

/-- The wire form of an operation. -/
def toJson : Operation → Json
  | .solutionEvent reasons =>
    .object [("op", .text "solutionEvent"), ("reasons", reasons.toJson)]
  | .projectEvent project reasons =>
    .object [("op", .text "projectEvent"), ("project", project.toJson),
      ("reasons", reasons.toJson)]
  | .documentEvent document reasons =>
    .object [("op", .text "documentEvent"), ("document", document.toJson),
      ("reasons", reasons.toJson)]
  | .findReferences symbol documents options =>
    .object [("op", .text "findReferences"), ("symbol", symbol.toJson),
      ("documents", (documents.map fun ids => .array (ids.map DocumentId.toJson)).getD .null),
      ("options", options.toJson)]
  | .findReferencesInDocuments symbol ranges options =>
    .object [("op", .text "findReferencesInDocuments"), ("symbol", symbol.toJson),
      ("documents", .array (ranges.map DocumentSpan.toJson)), ("options", options.toJson)]

/-- Reads the fields of an operation of the named kind. -/
def ofFields? (name : String) (json : Json) : Option Operation :=
  match name with
  | "solutionEvent" => do
    let [reasons] ← fields? ["reasons"] json | none
    return .solutionEvent (← required Reasons.ofJson? reasons)
  | "projectEvent" => do
    let [project, reasons] ← fields? ["project", "reasons"] json | none
    return .projectEvent (← required ProjectId.ofJson? project)
      (← required Reasons.ofJson? reasons)
  | "documentEvent" => do
    let [document, reasons] ← fields? ["document", "reasons"] json | none
    return .documentEvent (← required DocumentId.ofJson? document)
      (← required Reasons.ofJson? reasons)
  | "findReferences" => do
    let [symbol, documents, options] ← fields? ["symbol", "documents", "options"] json | none
    return .findReferences (← required SymbolAddress.ofJson? symbol)
      (← optional (list DocumentId.ofJson?) documents)
      (← required (SearchOptions.ofJson? true) options)
  | "findReferencesInDocuments" => do
    let [symbol, documents, options] ← fields? ["symbol", "documents", "options"] json | none
    return .findReferencesInDocuments (← required SymbolAddress.ofJson? symbol)
      (← required (list DocumentSpan.ofJson?) documents)
      (← required (SearchOptions.ofJson? true) options)
  | _ => none

/-- Reads an operation at a place with `depth` levels of nesting left. -/
def ofJsonWithin? (depth : Nat) (json : Json) : Option Operation :=
  if json.readableWithin depth then
    (untag? "op" json).bind fun tagged => ofFields? tagged.1 tagged.2
  else none

/-- Reads an operation. -/
def ofJson? (json : Json) : Option Operation := ofJsonWithin? Json.maxDepth json

end Operation

namespace Request

/-- The wire form of a request. -/
def toJson (request : Request Checksum) : Json :=
  .object [("checksum", request.address.toJson), ("operation", request.operation.toJson)]

/-- Reads a request. -/
def ofJson? (json : Json) : Option (Request Checksum) := do
  let [checksum, operation] ← fields? ["checksum", "operation"] json | none
  return ⟨← required Checksum.ofJson? checksum,
    ← required (Operation.ofJsonWithin? (Json.maxDepth - 1)) operation⟩

/-- The text of a request. -/
def toText (request : Request Checksum) : String := request.toJson.print

/-- Reads the text of a request. -/
def ofText? (text : String) : Except Failure (Request Checksum) :=
  match (Json.ofText? text).bind ofJson? with
  | some request => .ok request
  | none => .error (.serialization "not a request")

end Request

namespace ReferenceMessage

/-- The wire form of a message. -/
def toJson : ReferenceMessage → Json
  | .definitionFound symbol =>
    .object [("type", .text "definitionFound"), ("symbol", symbol.toJson)]
  | .referenceFound definition location =>
    .object [("type", .text "referenceFound"), ("definition", definition.toJson),
      ("location", location.toJson)]
  | .completed completion =>
    .object [("type", .text "completed"), ("completion", completion.toJson)]

/-- Reads the fields of a message of the named kind. -/
def ofFields? (name : String) (json : Json) : Option ReferenceMessage :=
  match name with
  | "definitionFound" => do
    let [symbol] ← fields? ["symbol"] json | none
    return .definitionFound (← required (SymbolInfo.ofJson? true) symbol)
  | "referenceFound" => do
    let [definition, location] ← fields? ["definition", "location"] json | none
    return .referenceFound (← required SymbolId.ofJson? definition)
      (← required ReferenceLocation.ofJson? location)
  | "completed" => do
    let [completion] ← fields? ["completion"] json | none
    return .completed (← required (Completion.ofJson? true) completion)
  | _ => none

/-- Reads a message. -/
def ofJson? (json : Json) : Option ReferenceMessage :=
  if json.readableWithin Json.maxDepth then
    (untag? "type" json).bind fun tagged => ofFields? tagged.1 tagged.2
  else none

end ReferenceMessage

end SolutionWatch
