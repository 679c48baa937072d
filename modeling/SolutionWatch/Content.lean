import SolutionWatch.Project

/-!
# Contents and fingerprints

Two snapshots have the same content when they belong to one workspace and hold the same projects in
the same order, where the spelling of a path does not matter. Neither the version counter nor the
identity that a project is filed under counts.

A request does not carry its snapshot but a checksum of it. What goes into the checksum is the
`Fingerprint`: the content, but of every path the imprint only. Snapshots of one content have one
fingerprint; the converse fails, since the imprint of a path does not tell whether the path is
absolute, nor always where one of its names ends. Whoever looks a snapshot up goes by the
fingerprint.

A request names its snapshot by an `Address`. Inside one process that is the fingerprint itself; a
bare checksum stands for a fingerprint that nobody here has seen.
-/

namespace SolutionWatch

/-- All that is tracked of a workspace at one point in time. -/
structure Content where
  /-- The workspace. -/
  workspace : WorkspaceId
  /-- The content of the projects, in order. -/
  projects : List Project
  deriving DecidableEq, Repr

/-- What the checksum of a snapshot is computed from: a content in which every path has been reduced to
its imprint. -/
abbrev Fingerprint := Content

/-- The fingerprint of every snapshot with this content. -/
def Content.fingerprint (content : Content) : Fingerprint :=
  ⟨content.workspace, content.projects.map Project.fingerprint⟩

/-- How a request names the snapshot it is about. -/
inductive Address where
  /-- By the fingerprint that the snapshot has. -/
  | fingerprint (print : Fingerprint)
  /-- By a checksum that belongs to no fingerprint at hand. -/
  | checksum (checksum : Checksum)
  deriving DecidableEq, Repr

/-- The address of every snapshot with this content. -/
def Address.content (content : Content) : Address := .fingerprint content.fingerprint

end SolutionWatch
