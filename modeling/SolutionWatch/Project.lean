import SolutionWatch.Catalog
import SolutionWatch.Id
import SolutionWatch.OptionSet
import SolutionWatch.Path

/-!
# Project snapshots

A project snapshot holds the project's configuration, its references and its documents of every
kind, in the order in which they were first added. A document's content is known by a version
number only. Documents of another project are never taken in, so every document of a project is
filed under its own identity and names that project as its owner.

Two projects have the same content if they agree on all of this, a path compared by its components.
`Project.fingerprint` is what the checksum of a snapshot sees of a project: the project with the
imprints of its paths.
-/

namespace SolutionWatch

/-- Which document collection of its project a document lives in. -/
inductive DocumentKind where
  /-- A compiled source file. -/
  | source
  /-- A file that is not compiled but read by analyzers. -/
  | additional
  /-- A configuration file for analyzers. -/
  | analyzerConfig
  deriving DecidableEq, Repr, Inhabited

/-- A version stamp: a 64-bit counter that every change moves on by one. -/
structure Version where
  /-- The number behind the stamp. -/
  raw : UInt64
  deriving DecidableEq, Repr, Inhabited

namespace Version

instance (n : Nat) : OfNat Version n := ⟨⟨.ofNat n⟩⟩

instance : Coe Version Nat := ⟨fun version => version.raw.toNat⟩

/-- The stamp after one more change. The last stamp is followed by the first one; a program that was
built to check for overflow stops there instead. -/
def next (version : Version) : Version := ⟨version.raw + 1⟩

/-- A change gives another stamp. -/
theorem next_ne (version : Version) : version.next ≠ version := by
  intro h
  have hraw : version.raw + 1 = version.raw := congrArg raw h
  rw [UInt64.add_eq_left] at hraw
  exact absurd hraw (by decide)

/-- As long as stamps are left, a change adds one to the number. -/
theorem toNat_next {version : Version} (h : version.raw.toNat + 1 < Nat.pow 2 64) :
    version.next.raw.toNat = version.raw.toNat + 1 := by
  rw [next, UInt64.toNat_add]
  exact Nat.mod_eq_of_lt h

end Version

/-- A document of a project at one point in time. -/
structure Document where
  /-- The identity of the document. -/
  id : DocumentId
  /-- The name of the document. -/
  name : String
  /-- The collection that the document lives in. -/
  kind : DocumentKind := .source
  /-- The content version: it grows with every edit. -/
  version : Version := 0
  deriving DecidableEq, Repr, Inhabited

namespace Document

/-- Whether a document is a source document. -/
def isSource (document : Document) : Bool := document.kind == .source

end Document

/-- The tracked configuration of a project. Every field is compared when snapshots are. -/
structure ProjectConfig where
  /-- The display name. -/
  name : String := ""
  /-- The name of the produced assembly. -/
  assemblyName : String := ""
  /-- The options of the parser. -/
  parseOptions : OptionSet := {}
  /-- The options of the compilation. -/
  compilationOptions : OptionSet := {}
  /-- The options of the analyzers. -/
  analyzerOptions : OptionSet := {}
  /-- The namespace that new files get. -/
  defaultNamespace : Option String := none
  /-- Where the assembly is written. -/
  outputPath : Option Path := none
  /-- Where the reference assembly is written. -/
  outputRefPath : Option Path := none
  /-- Where the compilation puts its assembly. -/
  assemblyPath : Option Path := none
  /-- Where the compilation puts generated files. -/
  generatedDir : Option Path := none
  deriving DecidableEq, Repr, Inhabited

namespace ProjectConfig

/-- The configuration of a project of which only the name is known. -/
def named (name : String) : ProjectConfig := { name := name, assemblyName := name }

/-- The configuration with a change made to every path. -/
def mapPaths (change : Path → Path) (config : ProjectConfig) : ProjectConfig :=
  { config with
    outputPath := config.outputPath.map change
    outputRefPath := config.outputRefPath.map change
    assemblyPath := config.assemblyPath.map change
    generatedDir := config.generatedDir.map change }

/-- The configuration with every path in its shortest spelling. -/
def normal (config : ProjectConfig) : ProjectConfig := config.mapPaths Path.normal

/-- What the checksum of a snapshot sees of the configuration: of a path the imprint only. -/
def fingerprint (config : ProjectConfig) : ProjectConfig := config.mapPaths Path.imprint

end ProjectConfig

/-- The references of a project. Their order carries no meaning when snapshots are compared. -/
structure References where
  /-- The referenced libraries. -/
  metadata : List String := []
  /-- The referenced projects. -/
  projects : List ProjectId := []
  /-- The referenced analyzers. -/
  analyzers : List String := []
  deriving DecidableEq, Repr, Inhabited

/-- A project at one point in time. -/
structure Project where
  /-- The project's own identity. -/
  id : ProjectId
  /-- The configuration. -/
  config : ProjectConfig
  /-- The references. -/
  references : References := {}
  /-- Whether analysis is on for the project. -/
  runAnalyzers : Bool := true
  /-- The documents of every kind. -/
  documents : Catalog DocumentId Document := {}
  /-- Every document is filed under its own identity and is owned by the project. -/
  owned : ∀ e ∈ documents.entries, e.2.id = e.1 ∧ e.1.project = id := by simp
  deriving DecidableEq, Repr

namespace Project

/-- A project without references and documents. -/
def named (id : ProjectId) (name : String) : Project := { id := id, config := .named name }

instance : Inhabited Project := ⟨named default ""⟩

/-- The name of a project. -/
def name (project : Project) : String := project.config.name

/-- Adds a document or replaces it in place. A document of another project is left out. -/
def withDocument (project : Project) (document : Document) : Project :=
  if h : document.id.project = project.id then
    { project with
      documents := project.documents.insert document.id document
      owned := fun e he => by
        rcases Catalog.mem_insert he with rfl | he
        · exact ⟨rfl, h⟩
        · exact project.owned e he }
  else project

/-- Removes a document, keeping the order of the others. -/
def withoutDocument (project : Project) (id : DocumentId) : Project :=
  { project with
    documents := project.documents.erase id
    owned := fun e he => project.owned e (Catalog.mem_erase he) }

/-- The document of any kind with the given identity. -/
def document? (project : Project) (id : DocumentId) : Option Document := project.documents.get? id

/-- Whether a document of any kind has the given identity. -/
def containsDocument (project : Project) (id : DocumentId) : Bool := project.documents.contains id

/-- All documents, in order. -/
def allDocuments (project : Project) : List Document := project.documents.values

/-- The documents of one kind, in order. -/
def documentsOf (project : Project) (kind : DocumentKind) : List Document :=
  project.allDocuments.filter fun document => document.kind = kind

/-- The source documents, in order. -/
def sources (project : Project) : List Document := project.documentsOf .source

/-- The project with every path in its shortest spelling. -/
def content (project : Project) : Project := { project with config := project.config.normal }

/-- What the checksum of a snapshot sees of the project. -/
def fingerprint (project : Project) : Project :=
  { project with config := project.config.fingerprint }

/-- A document found in a project has the identity it was looked up by. -/
theorem id_of_document? {project : Project} {id : DocumentId} {document : Document}
    (h : project.document? id = some document) : document.id = id :=
  (project.owned _ (Catalog.mem_of_get? h)).1

/-- Every document found in a project is owned by it. -/
theorem project_of_document? {project : Project} {id : DocumentId} {document : Document}
    (h : project.document? id = some document) : id.project = project.id :=
  (project.owned _ (Catalog.mem_of_get? h)).2

end Project

end SolutionWatch
