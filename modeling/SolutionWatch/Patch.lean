import SolutionWatch.Project

/-!
# Patches

A patch says how a project is to be changed: which fields of its configuration and references get
new values, and which documents go and come. What a patch does not mention stays as it is.

A patch may also put another project in place of the one it is applied to; the rest of the patch
is then applied to that project, which keeps its own identity.
-/

namespace SolutionWatch

/-- New values for some fields of a configuration. -/
structure ConfigPatch where
  /-- The display name. -/
  name : Option String := none
  /-- The name of the produced assembly. -/
  assemblyName : Option String := none
  /-- The options of the parser, all of them. -/
  parseOptions : Option OptionSet := none
  /-- The options of the compilation, all of them. -/
  compilationOptions : Option OptionSet := none
  /-- The options of the analyzers, all of them. -/
  analyzerOptions : Option OptionSet := none
  /-- The namespace that new files get, or that they get none. -/
  defaultNamespace : Option (Option String) := none
  /-- Where the assembly is written, or that this is not known. -/
  outputPath : Option (Option Path) := none
  /-- Where the reference assembly is written, or that this is not known. -/
  outputRefPath : Option (Option Path) := none
  /-- Where the compilation puts its assembly, or that this is not known. -/
  assemblyPath : Option (Option Path) := none
  /-- Where the compilation puts generated files, or that this is not known. -/
  generatedDir : Option (Option Path) := none

/-- The configuration with the new values. -/
def ConfigPatch.apply (patch : ConfigPatch) (config : ProjectConfig) : ProjectConfig where
  name := patch.name.getD config.name
  assemblyName := patch.assemblyName.getD config.assemblyName
  parseOptions := patch.parseOptions.getD config.parseOptions
  compilationOptions := patch.compilationOptions.getD config.compilationOptions
  analyzerOptions := patch.analyzerOptions.getD config.analyzerOptions
  defaultNamespace := patch.defaultNamespace.getD config.defaultNamespace
  outputPath := patch.outputPath.getD config.outputPath
  outputRefPath := patch.outputRefPath.getD config.outputRefPath
  assemblyPath := patch.assemblyPath.getD config.assemblyPath
  generatedDir := patch.generatedDir.getD config.generatedDir

/-- New values for some lists of references. -/
structure ReferencesPatch where
  /-- The referenced libraries. -/
  metadata : Option (List String) := none
  /-- The referenced projects. -/
  projects : Option (List ProjectId) := none
  /-- The referenced analyzers. -/
  analyzers : Option (List String) := none

/-- The references with the new values. -/
def ReferencesPatch.apply (patch : ReferencesPatch) (references : References) : References where
  metadata := patch.metadata.getD references.metadata
  projects := patch.projects.getD references.projects
  analyzers := patch.analyzers.getD references.analyzers

/-- How a project is to be changed. -/
structure Patch where
  /-- A project that takes the place of the patched one. -/
  replacement : Option Project := none
  /-- What changes in the configuration. -/
  config : ConfigPatch := {}
  /-- What changes in the references. -/
  references : ReferencesPatch := {}
  /-- Whether analysis is on from now on. -/
  runAnalyzers : Option Bool := none
  /-- The documents that go. -/
  removed : List DocumentId := []
  /-- The documents that come or take the place of others, after that. -/
  added : List Document := []

/-- The changed project. -/
def Patch.apply (patch : Patch) (project : Project) : Project :=
  let start := patch.replacement.getD project
  let changed : Project :=
    { start with
      config := patch.config.apply start.config
      references := patch.references.apply start.references
      runAnalyzers := patch.runAnalyzers.getD start.runAnalyzers }
  patch.added.foldl Project.withDocument (patch.removed.foldl Project.withoutDocument changed)

end SolutionWatch
