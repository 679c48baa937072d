import SolutionWatch.Derivation
import SolutionWatch.Fixture
import SolutionWatch.Patch
import SolutionWatch.Scenario.Field
import SolutionWatch.Session.State
import SolutionWatch.Wire.Codec

/-!
# Parts of a scenario

Readers for what the steps of a scenario are about: documents, projects and patches, symbols,
searches, derivations, and the scripts of collaborators.
-/

namespace SolutionWatch.Scenario

open Wire (list)

/-- A kind of document. -/
def documentKind (json : Json) : Option DocumentKind := do
  match ← json.asText? with
  | "source" => return .source
  | "additional" => return .additional
  | "analyzer_config" => return .analyzerConfig
  | _ => none

/-- A version stamp. -/
def version (json : Json) : Option Version := (Wire.word64 json).map .mk

/-- A document. It is a source document of version zero unless the scenario says otherwise. -/
def document (json : Json) : Option Document := do
  return { id := ← need json "id" documentId
           name := ← need json "name" Json.asText?
           kind := (← given json "kind" documentKind).getD .source
           version := (← given json "version" version).getD 0 }

/-- A set of options. -/
def optionSet (json : Json) : Option OptionSet :=
  (list (pair Json.asText? Json.asText?) json).map OptionSet.ofList

/-- A path. -/
def path (json : Json) : Option Path := json.asText?.map .mk

/-- The change of a configuration. -/
def configPatch (json : Json) : Option ConfigPatch := do
  let json ← object json
  return { name := ← given json "name" Json.asText?
           assemblyName := ← given json "assembly_name" Json.asText?
           parseOptions := ← given json "parse_options" optionSet
           compilationOptions := ← given json "compilation_options" optionSet
           analyzerOptions := ← given json "analyzer_options" optionSet
           defaultNamespace := ← settable json "default_namespace" Json.asText?
           outputPath := ← settable json "output_path" path
           outputRefPath := ← settable json "output_ref_path" path
           assemblyPath := ← settable json "assembly_path" path
           generatedDir := ← settable json "generated_dir" path }

/-- The change of references. -/
def referencesPatch (json : Json) : Option ReferencesPatch := do
  let json ← object json
  return { metadata := ← given json "metadata" (list Json.asText?)
           projects := ← given json "projects" (list projectId)
           analyzers := ← given json "analyzers" (list Json.asText?) }

/-- A patch without a replacement, whose added documents are in the named field. -/
def plainPatch (json : Json) (added : String) : Option Patch := do
  let json ← object json
  return { config := (← given json "config" configPatch).getD {}
           references := (← given json "references" referencesPatch).getD {}
           runAnalyzers := ← given json "run_analyzers" Json.asBool?
           removed := (← given json "drop" (list documentId)).getD []
           added := (← given json added (list document)).getD [] }

/-- A project. -/
def project (json : Json) : Option Project := do
  let json ← object json
  let start := Project.named (← need json "id" projectId) (← need json "name" Json.asText?)
  return (← plainPatch json "documents").apply start

/-- A patch. -/
def patch (json : Json) : Option Patch := do
  let json ← object json
  return { ← plainPatch json "put" with replacement := ← given json "replace" project }

/-- A derivation, by the name of its step. -/
def derivation (name : String) (json : Json) : Option Derivation :=
  match name with
  | "touch" => some .touch
  | "cleared" => some .clear
  | "with_project" => (need json "project" project).map .withProject
  | "without_project" => (need json "id" projectId).map .withoutProject
  | "update_project" => do
    return .updateProject (← need json "id" projectId) (← need json "patch" patch).apply
  | "with_document" => (need json "document" document).map .withDocument
  | "without_document" => (need json "id" documentId).map .withoutDocument
  | "with_version" => do
    return .withVersion (← need json "id" documentId) (← need json "version" version)
  | "edit" => (need json "id" documentId).map .edit
  | _ => none

/-- The derivation in the field `mutate`; by default nothing but the version moves on. -/
def mutation (json : Json) : Option Derivation := do
  match ← given json "mutate" object with
  | none => return .touch
  | some mutate => derivation (← need mutate "do" Json.asText?) mutate

/-- The shape of a generated solution. -/
def fixture : Json → Option Fixture
  | .scalar (.text "small") => some .small
  | .scalar (.text "medium") => some .medium
  | .scalar (.text "large") => some .large
  | json => do
    return { projects := ← need json "projects" count
             documents := ← need json "documents" count
             additional := ← need json "additional" count
             chain := ← need json "chain" count }

/-- A symbol. It is a method unless the scenario says otherwise. -/
def symbol (json : Json) : Option SymbolInfo := do
  let json ← object json
  return { id := ← need json "id" symbolId
           name := ← need json "name" Json.asText?
           kind := (← given json "kind" (Wire.oneOf SymbolKind.all SymbolKind.text false)).getD
             .method
           declaration := ← need json "doc" documentId
           span := ← need json "span" span }

/-- The references to a symbol in a document. -/
def references (json : Json) : Option (SymbolId × DocumentId × List TextSpan) := do
  let json ← object json
  return (← need json "symbol" symbolId, ← need json "doc" documentId,
    ← need json "spans" (list span))

/-- The options of a search. -/
def searchOptions (json : Json) : Option SearchOptions := do
  let json ← object json
  let options : SearchOptions := { cascade := (← given json "cascade" Json.asBool?).getD true }
  return if (← given json "unidirectional" Json.asBool?).getD false then options.unidirectional
    else options

/-- Where a search looks: in documents, else in ranges, else everywhere. -/
def searchScope (json : Json) : Option SearchScope := do
  match ← given json "documents" (list documentId), ← given json "spans" (list documentSpan) with
  | some ids, _ => return .documents ids
  | none, some ranges => return .spans ranges
  | none, none => return .everything

/-- The search that a step starts; `options` are those of a search that does not give any. -/
def query (json : Json) (defaults : SearchOptions) : Option Query := do
  let symbol ← need json "symbol" symbolId
  let options := (← given json "options" searchOptions).getD {}
  let documents ← given json "documents" (list documentId)
  let ranges := (← given json "spans" (list documentSpan)).getD []
  match ← need json "method" Json.asText? with
  | "all" => return Query.everywhere symbol defaults
  | "references" => return Query.references symbol documents options
  | "in_documents" => return Query.inDocuments symbol ranges options
  | "references_here" => return Query.referencesHere symbol documents options
  | "in_documents_here" => return Query.inDocumentsHere symbol ranges options
  | _ => none

/-- The scope of a work item. -/
def scope : Json → Option Scope
  | .scalar (.text "solution") => some .solution
  | .object [("project", id)] => (projectId id).map .project
  | .object [("document", id)] => (documentId id).map .document
  | _ => none

/-- How a scripted call ends; `token` is what it may cancel. -/
def reply (token : Option Token) (json : Json) : Option Reply := do
  match ← json.asText? with
  | "ok" => return .succeed
  | "remote" => return .fail (.remote "scripted")
  | "disconnect" => return .fail .workerDisconnected
  | "cancelled" => return .fail .cancelled
  | "panic" => return .crash
  | "plain_error" => return .refuse
  | "cancel_token" => return .cancel token
  | "wait_cancel" => return .awaitCancel
  | _ => none

/-- A response of a script. -/
def response (token : Option Token) (json : Json) : Option Response := do
  let json ← object json
  return { delay := (← given json "sleep" count).getD 0
           reply := (← given json "result" (reply token)).getD .succeed
           messages := ((← given json "messages" Json.asArray?).getD []).map fun message =>
             ReferenceMessage.ofJson? message.withoutRepeats }

/-- The script of a collaborator. -/
def script (json : Json) (token : Option Token) : Option Script := do
  return (← given json "script" (list (response token))).getD []

/-- The failure that a scenario describes. -/
def failure (json : Json) : Option Failure := do
  match ← need json "kind" Json.asText? with
  | "WorkspaceMismatch" =>
    return .workspaceMismatch (← need json "old" WorkspaceId.ofJson?)
      (← need json "new" WorkspaceId.ofJson?)
  | "MissingProjectId" =>
    return .missingProjectId (← need json "change" (ChangeKind.ofJson? false))
  | "MissingDocumentId" =>
    return .missingDocumentId (← need json "change" (ChangeKind.ofJson? false))
  | "ProjectNotFound" => return .projectNotFound (← need json "project" projectId)
  | "DocumentNotFound" => return .documentNotFound (← need json "document" documentId)
  | "ProjectAlreadyExists" => return .projectAlreadyExists (← need json "project" projectId)
  | "ReentrantMutation" => return .reentrantMutation
  | "SnapshotNotFound" =>
    return .snapshotNotFound (.checksum (← need json "checksum" Checksum.ofJson?))
  | "WorkerDisconnected" => return .workerDisconnected
  | "Remote" => return .remote (← need json "text" Json.asText?)
  | "TaskFailed" => return .taskFailed (← need json "text" Json.asText?)
  | "Serialization" => return .serialization (← need json "text" Json.asText?)
  | "Cancelled" => return .cancelled
  | _ => none

end SolutionWatch.Scenario
