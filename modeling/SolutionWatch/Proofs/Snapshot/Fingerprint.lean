import SolutionWatch.Proofs.Snapshot.Path
import SolutionWatch.Solution

/-!
# What a fingerprint tells of a content

The imprint of a path is a matter of the components of the path, so a fingerprint can be computed from
the content alone (`Solution.fingerprint_content`), and snapshots of one content have one fingerprint.

The converse fails: `bin` and `/bin` are different paths with one imprint, so snapshots that differ in
nothing but such a path have one fingerprint and two contents (`Solution.fingerprint_collides`).
Whatever is to be said about the content of a snapshot that was found by its fingerprint needs to know
of the snapshots in play that their fingerprints tell their contents apart (`Solution.TellApart`).
-/

namespace SolutionWatch

/-- Paths with the same components leave the same imprint. -/
theorem Path.imprint_congr {a b : Path} (h : a.components = b.components) : a.imprint = b.imprint := by
  rw [imprint, imprint, names, names, h]

/-- The shortest spelling of a path leaves the imprint of the path. -/
@[simp] theorem Path.imprint_normal (path : Path) : path.normal.imprint = path.imprint :=
  imprint_congr path.components_normal

/-- The spelling of its paths leaves no trace in the fingerprint of a configuration. -/
@[simp] theorem ProjectConfig.fingerprint_normal (config : ProjectConfig) :
    config.normal.fingerprint = config.fingerprint := by
  simp [ProjectConfig.fingerprint, ProjectConfig.normal, ProjectConfig.mapPaths, Option.map_map,
    Function.comp_def]

/-- The spelling of its paths leaves no trace in the fingerprint of a project. -/
@[simp] theorem Project.fingerprint_content (project : Project) :
    project.content.fingerprint = project.fingerprint := by
  simp [Project.fingerprint, Project.content]

namespace Solution

/-- The fingerprint of a snapshot is the one of its content. -/
theorem fingerprint_content (solution : Solution) :
    solution.content.fingerprint = solution.fingerprint := by
  simp [Content.fingerprint, content, fingerprint, Function.comp_def]

/-- Snapshots of one content have one fingerprint. -/
theorem fingerprint_congr {a b : Solution} (h : a.content = b.content) :
    a.fingerprint = b.fingerprint := by
  rw [← fingerprint_content, h, fingerprint_content]

/-- Among these snapshots the fingerprint tells the contents apart. -/
def TellApart (known : List Solution) : Prop :=
  ∀ a ∈ known, ∀ b ∈ known, a.fingerprint = b.fingerprint → a.content = b.content

instance (known : List Solution) : Decidable (TellApart known) :=
  inferInstanceAs (Decidable (∀ a ∈ known, ∀ b ∈ known,
    a.fingerprint = b.fingerprint → a.content = b.content))

/-- The fingerprint tells the contents of some of these snapshots apart. -/
theorem TellApart.mono {known some : List Solution} (h : TellApart known) (hsome : some ⊆ known) :
    TellApart some := fun a ha b hb => h a (hsome ha) b (hsome hb)

/-- The snapshot of a workspace with one project, which writes its assembly to a given path. -/
def writingTo (path : String) : Solution :=
  (initial ⟨7⟩).withProject
    { id := ⟨1⟩, config := { ProjectConfig.named "P1" with outputPath := some ⟨path⟩ } }

/-- A fingerprint does not tell an absolute path from a relative one. -/
theorem fingerprint_collides : ¬TellApart [writingTo "bin", writingTo "/bin"] := by
  decide +kernel

end Solution

end SolutionWatch
