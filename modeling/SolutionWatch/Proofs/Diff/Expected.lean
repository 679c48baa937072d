import Mathlib.Data.List.Basic
import SolutionWatch.Diff
import SolutionWatch.Proofs.Snapshot.Lookup
import SolutionWatch.Proofs.Snapshot.Path

/-!
# What a difference has to say

`Solution.Expects` says which items tell one snapshot from another. It speaks of look-ups by
identity only, so it knows neither the lists that the comparison walks nor its shortcuts for what
two snapshots share. `Project.ReasonsFor` says which reasons a project gives, one condition for each
of the three reasons; `reasonsFor_iff` says that `Project.changeReasons` is the one set that meets
it.
-/

namespace SolutionWatch

namespace Reasons

/-- A set contains one reason exactly when the bits of that reason are what the two have in
common. -/
theorem contains_eq_true_iff {a b : Reasons} : a.contains b = true ↔ a.bits &&& b.bits = b.bits :=
  beq_iff_eq

/-- A set is empty exactly when it has no bits. -/
theorem isEmpty_eq_false_iff {a : Reasons} : a.isEmpty = false ↔ a ≠ .empty := by
  obtain ⟨bits⟩ := a
  simp [isEmpty, empty]

/-- The common bits of a word and a single bit are that bit or nothing. -/
theorem and_twoPow_eq {x : BitVec 32} (i : ℕ) (hi : i < 32) :
    x &&& BitVec.twoPow 32 i = if x &&& BitVec.twoPow 32 i = BitVec.twoPow 32 i
      then BitVec.twoPow 32 i else 0#32 := by
  rw [BitVec.and_twoPow]
  split
  · simp
  · have hne : (0#32 : BitVec 32) ≠ BitVec.twoPow 32 i := by
      intro h
      have hbit := congrArg (fun w => w.getLsbD i) h
      simp [hi] at hbit
    rw [if_neg hne]

/-- The three reasons that a project as such can give. -/
def ofProject : Reasons :=
  union .parseOptionsChanged (union .configurationChanged .additionalDocumentChanged)

/-- The reasons that a project as such gives under three conditions. -/
def select (parse configuration additional : Bool) : Reasons :=
  union (onlyIf parse .parseOptionsChanged)
    (union (onlyIf configuration .configurationChanged)
      (onlyIf additional .additionalDocumentChanged))

/-- A selection contains what it was told to, and nothing that a project does not give. -/
theorem contains_select (parse configuration additional : Bool) :
    (select parse configuration additional).contains .parseOptionsChanged = parse ∧
      (select parse configuration additional).contains .configurationChanged = configuration ∧
      (select parse configuration additional).contains .additionalDocumentChanged = additional ∧
      ofProject.contains (select parse configuration additional) = true := by
  cases parse <;> cases configuration <;> cases additional <;> decide

/-- A set without reasons that a project does not give is the selection of those that it
contains. -/
theorem eq_select {reasons : Reasons} (h : ofProject.contains reasons = true) :
    reasons = select (reasons.contains .parseOptionsChanged)
      (reasons.contains .configurationChanged) (reasons.contains .additionalDocumentChanged) := by
  obtain ⟨x⟩ := reasons
  rw [contains_eq_true_iff] at h
  -- The word is the union of its common bits with each of the three reasons.
  have hsplit : x = (x &&& BitVec.twoPow 32 6) |||
      ((x &&& BitVec.twoPow 32 7) ||| (x &&& BitVec.twoPow 32 8)) := by
    rw [← BitVec.and_or_distrib_left, ← BitVec.and_or_distrib_left, BitVec.and_comm]
    exact h.symm
  rw [and_twoPow_eq 6 (by decide), and_twoPow_eq 7 (by decide), and_twoPow_eq 8 (by decide)]
    at hsplit
  have hbit : ∀ a : Reasons, (⟨x⟩ : Reasons).contains a = decide (x &&& a.bits = a.bits) :=
    fun a => by rw [Bool.eq_iff_iff, contains_eq_true_iff, decide_eq_true_iff]
  rw [hbit, hbit, hbit, Reasons.mk.injEq]
  refine hsplit.trans ?_
  simp only [select, union, onlyIf, decide_eq_true_eq, apply_ite Reasons.bits]
  rfl

end Reasons

/-- One list has a member that the other lacks. -/
def DifferAsSets {α : Type} (old new : List α) : Prop := ∃ a, ¬(a ∈ old ↔ a ∈ new)

/-- The comparison of lists as sets finds a member that one of them lacks. -/
theorem differAsSets_eq_true_iff {α : Type} [DecidableEq α] {old new : List α} :
    differAsSets old new = true ↔ DifferAsSets old new := by
  rw [differAsSets, Bool.not_eq_true', ← Bool.not_eq_true, Bool.and_eq_true, List.all_eq_true,
    List.all_eq_true, DifferAsSets, ← not_forall]
  refine not_congr ⟨fun h a => ?_, fun h => ⟨fun a ha => ?_, fun a ha => ?_⟩⟩
  · exact ⟨fun ha => of_decide_eq_true (h.1 a ha), fun ha => of_decide_eq_true (h.2 a ha)⟩
  · exact decide_eq_true ((h a).mp ha)
  · exact decide_eq_true ((h a).mpr ha)

/-- A list does not differ from itself. -/
theorem differAsSets_self {α : Type} [DecidableEq α] (l : List α) : differAsSets l l = false := by
  rw [← Bool.not_eq_true, differAsSets_eq_true_iff]
  rintro ⟨a, ha⟩
  exact ha Iff.rfl

/-- Some field of the configuration differs. Paths differ when their components do. -/
def ProjectConfig.Differs (old new : ProjectConfig) : Prop :=
  old.name ≠ new.name ∨ old.assemblyName ≠ new.assemblyName ∨
    old.parseOptions ≠ new.parseOptions ∨ old.compilationOptions ≠ new.compilationOptions ∨
    old.analyzerOptions ≠ new.analyzerOptions ∨ old.defaultNamespace ≠ new.defaultNamespace ∨
    old.outputPath.map Path.components ≠ new.outputPath.map Path.components ∨
    old.outputRefPath.map Path.components ≠ new.outputRefPath.map Path.components ∨
    old.assemblyPath.map Path.components ≠ new.assemblyPath.map Path.components ∨
    old.generatedDir.map Path.components ≠ new.generatedDir.map Path.components

/-- Optional paths have one shortest spelling exactly when they have the same components. -/
theorem Path.map_normal_eq_iff {a b : Option Path} :
    a.map Path.normal = b.map Path.normal ↔ a.map Path.components = b.map Path.components := by
  cases a <;> cases b <;> simp [Path.normal_eq_iff]

/-- Configurations with every path in its shortest spelling are equal when no field differs. -/
theorem ProjectConfig.normal_ne_iff {old new : ProjectConfig} :
    old.normal ≠ new.normal ↔ old.Differs new := by
  unfold Differs
  rw [← not_iff_not]
  push Not
  simp only [← Path.map_normal_eq_iff, normal, mapPaths, ProjectConfig.mk.injEq]

namespace Project

/-- The project has a document of this identity, kind and version. -/
def Holds (project : Project) (id : DocumentId) (kind : DocumentKind) (version : Version) : Prop :=
  ∃ d, project.document? id = some d ∧ d.kind = kind ∧ d.version = version

/-- The configuration, the references as sets, or the analysis switch differ. -/
def ConfigurationDiffers (old new : Project) : Prop :=
  old.config.Differs new.config ∨
    DifferAsSets old.references.metadata new.references.metadata ∨
    DifferAsSets old.references.projects new.references.projects ∨
    DifferAsSets old.references.analyzers new.references.analyzers ∨
    old.runAnalyzers ≠ new.runAnalyzers

/-- The sets of identity, kind and version of the documents that are not source documents
differ. -/
def NonSourcesDiffer (old new : Project) : Prop :=
  ∃ id kind version, kind ≠ .source ∧ ¬(old.Holds id kind version ↔ new.Holds id kind version)

/-- The reasons that a project as such gives: each of three under its condition, and no other. -/
structure ReasonsFor (old new : Project) (reasons : Reasons) : Prop where
  /-- The parse options are a reason when they differ. -/
  parse : reasons.contains .parseOptionsChanged = true ↔
    old.config.parseOptions ≠ new.config.parseOptions
  /-- The configuration is a reason when it, the references or the analysis switch differ. -/
  configuration : reasons.contains .configurationChanged = true ↔ ConfigurationDiffers old new
  /-- The documents that are not source documents are a reason when they differ. -/
  additional : reasons.contains .additionalDocumentChanged = true ↔ NonSourcesDiffer old new
  /-- There is no other reason. -/
  nothingElse : Reasons.ofProject.contains reasons = true

/-- What is listed of the documents that are not source documents. -/
theorem mem_nonSources_iff {project : Project} {id : DocumentId} {kind : DocumentKind}
    {version : Version} : (id, kind, version) ∈ project.nonSources ↔
      kind ≠ .source ∧ project.Holds id kind version := by
  simp only [nonSources, List.mem_map, List.mem_filter, mem_allDocuments_iff, Prod.mk.injEq]
  constructor
  · rintro ⟨d, ⟨hd, hs⟩, rfl, rfl, rfl⟩
    exact ⟨by simpa [Document.isSource] using hs, d, hd, rfl, rfl⟩
  · rintro ⟨hk, d, hd, rfl, rfl⟩
    have hid : d.id = id := id_of_document? hd
    exact ⟨d, ⟨hid ▸ hd, by simpa [Document.isSource] using hk⟩, hid, rfl, rfl⟩

/-- The comparison of configurations finds a difference exactly when there is one. -/
theorem configurationDiffers_eq_true_iff {old new : Project} :
    configurationDiffers old new = true ↔ ConfigurationDiffers old new := by
  simp only [configurationDiffers, Bool.or_eq_true, decide_eq_true_eq, bne_iff_ne,
    differAsSets_eq_true_iff, ProjectConfig.normal_ne_iff, ConfigurationDiffers, or_assoc]

/-- The comparison of the documents that are not source documents finds a difference exactly when
there is one. -/
theorem differAsSets_nonSources_iff {old new : Project} :
    differAsSets old.nonSources new.nonSources = true ↔ NonSourcesDiffer old new := by
  rw [differAsSets_eq_true_iff]
  constructor
  · rintro ⟨⟨id, kind, version⟩, h⟩
    rw [mem_nonSources_iff, mem_nonSources_iff, and_congr_right_iff, Classical.not_imp] at h
    exact ⟨id, kind, version, h⟩
  · rintro ⟨id, kind, version, hk, h⟩
    refine ⟨(id, kind, version), ?_⟩
    rw [mem_nonSources_iff, mem_nonSources_iff, and_congr_right_iff]
    exact fun hiff => h (hiff hk)

/-- The reasons of a project are a selection. -/
theorem changeReasons_eq_select (old new : Project) :
    changeReasons old new = Reasons.select
      (decide (old.config.parseOptions ≠ new.config.parseOptions))
      (configurationDiffers old new) (differAsSets old.nonSources new.nonSources) := rfl

/-- The reasons that are given for a project are those that it gives. -/
theorem reasonsFor_iff {old new : Project} {reasons : Reasons} :
    ReasonsFor old new reasons ↔ reasons = changeReasons old new := by
  constructor
  · intro h
    have hparse : reasons.contains .parseOptionsChanged =
        decide (old.config.parseOptions ≠ new.config.parseOptions) := by
      rw [Bool.eq_iff_iff, h.parse, decide_eq_true_iff]
    have hconfiguration : reasons.contains .configurationChanged =
        configurationDiffers old new := by
      rw [Bool.eq_iff_iff, h.configuration, configurationDiffers_eq_true_iff]
    have hadditional : reasons.contains .additionalDocumentChanged =
        differAsSets old.nonSources new.nonSources := by
      rw [Bool.eq_iff_iff, h.additional, differAsSets_nonSources_iff]
    rw [Reasons.eq_select h.nothingElse, hparse, hconfiguration, hadditional,
      changeReasons_eq_select]
  · rintro rfl
    rw [changeReasons_eq_select]
    obtain ⟨h1, h2, h3, h4⟩ := Reasons.contains_select
      (decide (old.config.parseOptions ≠ new.config.parseOptions))
      (configurationDiffers old new) (differAsSets old.nonSources new.nonSources)
    exact ⟨by rw [h1, decide_eq_true_iff], by rw [h2, configurationDiffers_eq_true_iff],
      by rw [h3, differAsSets_nonSources_iff], h4⟩

end Project

/-- The items that tell `new` from `old`. A removed entity is looked for in the old snapshot, and
anything else in the new one. -/
inductive Solution.Expects (old new : Solution) : WorkItem → Prop
  /-- A project that only `new` has. -/
  | projectAdded {id : ProjectId} {after : Project} :
      old.project? id = none → new.project? id = some after →
        Expects old new ⟨.project id, .documentAdded, new⟩
  /-- A project that only `old` has. -/
  | projectRemoved {id : ProjectId} {before : Project} :
      old.project? id = some before → new.project? id = none →
        Expects old new ⟨.project id, .documentRemoved, old⟩
  /-- A project that both have and that gives reasons as such. -/
  | projectChanged {id : ProjectId} {before after : Project} {reasons : Reasons} :
      old.project? id = some before → new.project? id = some after →
        Project.ReasonsFor before after reasons → reasons ≠ .empty →
        Expects old new ⟨.project id, reasons, new⟩
  /-- A source document that only `new` has, in a project that both have. -/
  | documentAdded {id : DocumentId} {before after : Project} {d : Document} :
      old.project? id.project = some before → new.project? id.project = some after →
        before.document? id = none → after.document? id = some d → d.kind = .source →
        Expects old new ⟨.document id, .documentAdded, new⟩
  /-- A source document of `new` that `old` has in another version, in a project that both have. -/
  | documentChanged {id : DocumentId} {before after : Project} {c d : Document} :
      old.project? id.project = some before → new.project? id.project = some after →
        before.document? id = some c → after.document? id = some d → d.kind = .source →
        c.version ≠ d.version → Expects old new ⟨.document id, .documentChanged, new⟩
  /-- A source document that only `old` has, in a project that both have. -/
  | documentRemoved {id : DocumentId} {before after : Project} {c : Document} :
      old.project? id.project = some before → new.project? id.project = some after →
        before.document? id = some c → c.kind = .source → after.document? id = none →
        Expects old new ⟨.document id, .documentRemoved, old⟩

end SolutionWatch
