import SolutionWatch.Session.Asking
import SolutionWatch.Session.Observing
import SolutionWatch.Wire.Codec

/-!
# Reports

The JSON forms in which a scenario shows what happened: snapshots and projects, work items, what
observers recorded, the log of a queue, and the reports of a search. A report never shows the
checksum of a snapshot; the snapshot is named by whoever holds one with its fingerprint.
-/

namespace SolutionWatch.Report

/-- The object with the given fields. -/
def object (fields : List (String × Json)) : Json := .object fields

/-- The array of what the items are shown as. -/
def list {α : Type} (encode : α → Json) (items : List α) : Json := .array (items.map encode)

/-- What a value is shown as, or `null`. -/
def optional {α : Type} (encode : α → Json) (value : Option α) : Json :=
  (value.map encode).getD .null

/-- The name of a kind of failure. -/
def failureName : Failure → String
  | .workspaceMismatch _ _ => "WorkspaceMismatch"
  | .missingProjectId _ => "MissingProjectId"
  | .missingDocumentId _ => "MissingDocumentId"
  | .projectNotFound _ => "ProjectNotFound"
  | .documentNotFound _ => "DocumentNotFound"
  | .projectAlreadyExists _ => "ProjectAlreadyExists"
  | .reentrantMutation => "ReentrantMutation"
  | .snapshotNotFound _ => "SnapshotNotFound"
  | .workerDisconnected => "WorkerDisconnected"
  | .remote _ => "Remote"
  | .taskFailed _ => "TaskFailed"
  | .serialization _ => "Serialization"
  | .cancelled => "Cancelled"

/-- Something that went wrong, by name only. -/
def error (name : String) : Json := object [("error", .text name)]

/-- A failure. The message is left out where its wording is not fixed, or where it would show the
checksum of a snapshot. -/
def failure (failure : Failure) : Json :=
  match failure with
  | .serialization _ | .taskFailed _ | .snapshotNotFound (.fingerprint _) =>
    error (failureName failure)
  | _ => object [("error", .text (failureName failure)), ("message", .text failure.message)]

/-- What is shown of something that has no result of its own. -/
def done : Json := object [("done", .bool true)]

/-- A comparison, as -1, 0 or 1. -/
def order : Ordering → Json
  | .lt => .scalar (.number ['-', '1'])
  | .eq => .nat 0
  | .gt => .nat 1

/-- A span: start and end. -/
def span (span : TextSpan) : Json := .array [.nat span.start.toNat, .nat span.stop.toNat]

/-- The identity of a document, in its written form. -/
def documentId (id : DocumentId) : Json := .text id.text

/-- A kind of document. -/
def documentKind : DocumentKind → Json
  | .source => .text "source"
  | .additional => .text "additional"
  | .analyzerConfig => .text "analyzer_config"

/-- A document. -/
def document (document : Document) : Json :=
  object [("id", documentId document.id), ("name", .text document.name),
    ("kind", documentKind document.kind), ("version", .nat document.version)]

/-- A path, as it was given. -/
def path (path : Path) : Json := .text path.text

/-- A project. -/
def project (project : Project) : Json :=
  let config := project.config
  object [("id", project.id.toJson), ("name", .text config.name),
    ("assembly_name", .text config.assemblyName),
    ("options_empty", list (fun options => .bool options.isEmpty)
      [config.parseOptions, config.compilationOptions, config.analyzerOptions]),
    ("default_namespace", optional .text config.defaultNamespace),
    ("output_path", optional path config.outputPath),
    ("output_ref_path", optional path config.outputRefPath),
    ("assembly_path", optional path config.assemblyPath),
    ("generated_dir", optional path config.generatedDir),
    ("references", object [("metadata", list .text project.references.metadata),
      ("projects", list ProjectId.toJson project.references.projects),
      ("analyzers", list .text project.references.analyzers)]),
    ("run_analyzers", .bool project.runAnalyzers),
    ("documents", list document project.allDocuments),
    ("counts", list (fun kind => .nat (project.documentsOf kind).length)
      [.source, .additional, .analyzerConfig])]

/-- What is always shown of a snapshot. -/
def briefFields (solution : Solution) : List (String × Json) :=
  [("workspace", solution.workspace.toJson), ("version", .nat solution.version),
    ("projects", list ProjectId.toJson solution.projectIds)]

/-- A snapshot, briefly. -/
def brief (solution : Solution) : Json := object (briefFields solution)

/-- A snapshot with everything that is in it. -/
def solution (solution : Solution) : Json :=
  object (briefFields solution ++
    [("count", .nat solution.projects.size), ("content", list project solution.allProjects)])

/-- What was found under an identity, and the failure to find it if it was required. -/
def lookup {α : Type} (encode : α → Json) (found : Except Failure α) : Json :=
  match found with
  | .ok value => object [("contains", .bool true), ("found", encode value)]
  | .error e => object [("contains", .bool false), ("found", .null), ("required", failure e)]

/-- A configuration. -/
def config (config : Config) : Json :=
  object [("enabled", .bool config.enabled), ("debounce_ms", .nat config.debounce),
    ("debounce", .array [.nat (config.debounce / 1000), .nat (config.debounce % 1000)]),
    ("max_batch_size", .nat config.batchLimit), ("prefer_remote", .bool config.preferWorker),
    ("search_cascade", config.cascade.toJson), ("search_options", config.searchOptions.toJson)]

/-- The counters, each with its name. -/
def counters (counters : Counters) : List (String × Json) :=
  [("batches_flushed", .nat counters.batchesFlushed),
    ("batches_failed", .nat counters.batchesFailed),
    ("work_items_sent", .nat counters.workItemsSent),
    ("batches_not_delegated", .nat counters.batchesNotDelegated),
    ("remote_searches", .nat counters.remoteSearches),
    ("local_searches", .nat counters.localSearches)]

/-- A set of reasons. -/
def reasons (reasons : Reasons) : Json :=
  object [("bits", reasons.toJson), ("text", .text reasons.text),
    ("names", list .text reasons.names), ("empty", .bool reasons.isEmpty)]

/-- A work item; `on` says what its snapshot is. -/
def item (on : Json) (item : WorkItem) : Json :=
  object [("scope", .text item.scope.text), ("reasons", .text item.reasons.text),
    ("version", .nat item.solution.version), ("on", on)]

/-- Which of two snapshots an item is bound to. The versions tell unless they are the same. -/
def side (old new : Solution) (alike : Bool) (item : WorkItem) : String :=
  let isOld :=
    if old.version = new.version then decide (item.solution.fingerprint = old.fingerprint)
    else decide (item.solution.version = old.version)
  if alike then "both" else if isOld then "old" else "new"

/-- The work items that tell one snapshot from another. -/
def items (old new : Solution) (items : List WorkItem) : Json :=
  let alike := decide (old.fingerprint = new.fingerprint)
  list (fun i => item (.text (side old new alike i)) i) items

/-- An event with its work items, which all lie between two snapshots. -/
def event (event : Event) (old new : Solution) : Json :=
  let about :=
    match event with
    | .changed change =>
      [("project", optional ProjectId.toJson change.project),
        ("document", optional documentId change.document)]
    | _ => []
  let outcome :=
    match event.diff with
    | .ok found => [("items", items old new found), ("agrees", .bool true)]
    | .error e => [("items", failure e)]
  object ([("workspace", event.workspace.toJson), ("version", .nat event.solution.version)] ++
    about ++ outcome)

/-- What came of an action. -/
def outcome : Outcome → Json
  | .moved solution => object [("solution", brief solution)]
  | .done => done
  | .forgotten existed => object [("done", .bool existed)]
  | .observers count => object [("observers", .nat count)]
  | .ended wasActive => object [("was_active", .bool wasActive)]
  | .active isActive => object [("active", .bool isActive)]
  | .view view =>
    object [("id", view.id.toJson), ("solution", brief view.solution),
      ("observers", .nat view.observers), ("open", list .bool view.isOpen)]
  | .failed e => failure e
  | .missing => error "NoRegister"
  | .senseless => error "BadInput"

/-- What came of an action, if nothing broke down. -/
def answer : Option Outcome → Json
  | some result => outcome result
  | none => error "ObserverPanic"

/-- What an observer recorded. -/
def sighting (entry : String × Sighting) : Json :=
  let about :=
    match entry.2 with
    | .event (.changed change) =>
      [("kind", change.kind.toJson), ("old", .nat change.old.version),
        ("new", .nat change.new.version), ("project", optional ProjectId.toJson change.project),
        ("document", optional documentId change.document)]
    | .event (.opened event) =>
      [("opened", documentId event.document), ("version", .nat event.solution.version)]
    | .event (.closed event) =>
      [("closed", documentId event.document), ("version", .nat event.solution.version)]
    | .inside result => [("inside", outcome result)]
  object (("by", .text entry.1) :: about)

/-- An entry in the log of a queue. -/
def queueEntry : QueueEntry → Json
  | .started time batch => object [("start", .nat time), ("batch", list .nat batch)]
  | .ended time (.ok _) => object [("end", .nat time), ("result", .text "ok")]
  | .ended time (.error e) => object [("end", .nat time), ("result", .text (failureName e))]

/-- A report on a queue. -/
def queue (report : QueueReport) : Json :=
  object [("now", .nat report.now), ("at_once", .nat report.atOnce),
    ("pending", .nat report.pending), ("cancelled", .bool report.cancelled),
    ("log", list queueEntry report.log)]

/-- An occurrence. -/
def location (location : ReferenceLocation) : List Json :=
  [documentId location.document, span location.span, .bool location.isDefinition]

/-- One report of a search. -/
def searchEvent : SearchEvent → Json
  | .started => .array [.text "started"]
  | .definition symbol =>
    .array [.text "definition", symbol.id.toJson, .text symbol.name, symbol.kind.toJson,
      documentId symbol.declaration, span symbol.span]
  | .reference symbol place =>
    .array ([.text "reference", symbol.id.toJson, .text symbol.name] ++ location place)
  | .completed completion => .array [.text "completed", completion.toJson]

/-- What a search returned. -/
def searchResult : Except Failure Completion → Json
  | .ok completion => completion.toJson
  | .error e => failure e

/-- The reports of a search, with what can be counted in them and with the result. -/
def searchEvents (events : List SearchEvent) (result : Json) : Json :=
  let completions := SearchLog.completions events
  object [("events", list searchEvent events),
    ("located", list (fun symbol => .array [symbol.id.toJson,
      .nat (SearchLog.locationsOf events symbol.id).length]) (SearchLog.definitions events)),
    ("references", .nat (SearchLog.references events).length),
    ("started", .nat (SearchLog.startCount events)),
    ("completions", list Completion.toJson completions),
    ("last", optional Completion.toJson completions.getLast?),
    ("result", result)]

/-- The log of a search. -/
def search (log : SearchLog) : Json := searchEvents log.events (searchResult log.result)

/-- The findings of a search in this process and how it ended. -/
def engineSearch (events : List SearchEvent) (result : EngineResult) : Json :=
  searchEvents events
    (match result with
    | .crashed => error "Panic"
    | result => searchResult result.toExcept)

/-- What each way of finding occurrences finds of a symbol in a document. -/
def finders (source : SymbolSource) (symbol : SymbolInfo) (document : DocumentId) : Json :=
  list (fun finder : Finder =>
    .array [.text finder.name,
      list (fun place => .array (location place)) (finder.find source symbol document)])
    Finder.standard

/-- What is known about a symbol. -/
def symbol (source : SymbolSource) (id : SymbolId) : Json :=
  object [("symbol", optional SymbolInfo.toJson (source.symbol? id)),
    ("overrides", list SymbolId.toJson (source.overrides id)),
    ("implements", list SymbolId.toJson (source.implements id)),
    ("overridden_by", list SymbolId.toJson (source.overriddenBy id)),
    ("implemented_by", list SymbolId.toJson (source.implementedBy id))]

end SolutionWatch.Report
