import Mathlib.Data.List.Induction
import SolutionWatch.Delivery
import SolutionWatch.Proofs.Snapshot.Fingerprint
import SolutionWatch.Proofs.Snapshot.Registry
import SolutionWatch.Worker

/-!
# What a service is handed for a row of items

The snapshot of an item is filed just before the item is asked for, and the worker takes what it finds
under the snapshot's fingerprint. Where nobody else uses the registry, a row of items therefore comes to
a row of calls that depends on the items and on the registry only (`SnapshotRegistry.calls`).

A call has the scope and the reasons of its item, and a snapshot of the item's fingerprint
(`map_label_calls`). Whether the snapshot has the content of the item's is another matter: a fingerprint
keeps the first snapshot that was filed under it until it is forgotten. The calls have the contents of the
items exactly if no item meets a snapshot of another content under its fingerprint
(`map_reading_calls_iff`), and so they do if fingerprints tell the contents of the items apart
(`tells_of_tellApart`).
-/

namespace SolutionWatch

/-- What a call is for: what to look at, why, and the fingerprint of the snapshot. -/
def ServiceCall.label (call : ServiceCall) : Scope × Reasons × Fingerprint :=
  (call.scope, call.reasons, call.solution.fingerprint)

/-- What an item is for: what to look at, why, and the fingerprint of the snapshot. -/
def WorkItem.label (item : WorkItem) : Scope × Reasons × Fingerprint :=
  (item.scope, item.reasons, item.solution.fingerprint)

/-- What a call tells the service: what to look at, why, and the content of the snapshot. -/
def ServiceCall.reading (call : ServiceCall) : Scope × Reasons × Content :=
  (call.scope, call.reasons, call.solution.content)

/-- What an item asks for: what to look at, why, and the content of the snapshot. -/
def WorkItem.reading (item : WorkItem) : Scope × Reasons × Content :=
  (item.scope, item.reasons, item.solution.content)

/-- A call that a service gets for an item, where only these snapshots are known: it is for what the item
is for, with a snapshot of the item's fingerprint that is one of these. So it has the content of the
item's snapshot, as long as fingerprints tell the contents of these snapshots apart. -/
structure ServiceCall.Answers (call : ServiceCall) (known : List Solution) (item : WorkItem) : Prop where
  /-- The call is for what the item is for. -/
  label : call.label = item.label
  /-- The snapshot is a known one. -/
  found : call.solution ∈ known
  /-- The call asks for what the item asks for if fingerprints tell contents apart. -/
  apart : Solution.TellApart known → call.reading = item.reading

/-- A call for what a known item is for, with a known snapshot, answers the item. -/
theorem ServiceCall.Answers.of_label {call : ServiceCall} {known : List Solution} {item : WorkItem}
    (hlabel : call.label = item.label) (hcall : call.solution ∈ known) (hitem : item.solution ∈ known) :
    call.Answers known item where
  label := hlabel
  found := hcall
  apart happart := by
    obtain ⟨hscope, hreasons, hprint⟩ : call.scope = item.scope ∧ call.reasons = item.reasons ∧
        call.solution.fingerprint = item.solution.fingerprint := by
      simpa [ServiceCall.label, WorkItem.label] using hlabel
    rw [ServiceCall.reading, WorkItem.reading, hscope, hreasons, happart _ hcall _ hitem hprint]

/-- More snapshots may be known. -/
theorem ServiceCall.Answers.mono {call : ServiceCall} {known more : List Solution} {item : WorkItem}
    (h : call.Answers known item) (hmore : known ⊆ more) : call.Answers more item where
  label := h.label
  found := hmore h.found
  apart happart := h.apart (happart.mono hmore)

namespace SnapshotRegistry

variable {registry : SnapshotRegistry} {solution found : Solution} {items : List WorkItem}
  {item : WorkItem}

/-- The snapshot that a snapshot's fingerprint finds right after the snapshot was filed. -/
def standIn (registry : SnapshotRegistry) (solution : Solution) : Solution :=
  (registry.find? solution.fingerprint).getD solution

/-- The registry after the snapshots of some items were filed. -/
def fileAll (registry : SnapshotRegistry) (items : List WorkItem) : SnapshotRegistry :=
  items.foldl (fun registry item => registry.file item.solution) registry

/-- The call for an item whose snapshot was just filed. -/
def callFor (registry : SnapshotRegistry) (item : WorkItem) : ServiceCall :=
  ⟨item.scope, item.reasons, registry.standIn item.solution⟩

/-- The calls for some items, each of which has its snapshot filed just before. -/
def calls (registry : SnapshotRegistry) : List WorkItem → List ServiceCall
  | [] => []
  | item :: items => registry.callFor item :: (registry.file item.solution).calls items

/-- No item meets a snapshot of another content under its fingerprint when its turn comes. -/
def Tells (registry : SnapshotRegistry) (items : List WorkItem) : Prop :=
  ∀ before item, before ++ [item] <+: items →
    ((registry.fileAll before).standIn item.solution).content = item.solution.content

/-- What was just filed is found. -/
theorem find?_file (registry : SnapshotRegistry) (solution : Solution) :
    (registry.file solution).find? solution.fingerprint = some (registry.standIn solution) :=
  Registry.find?_register

/-- To look up what was just filed changes nothing. -/
theorem touch_file (registry : SnapshotRegistry) (solution : Solution) :
    (registry.file solution).touch solution.fingerprint (registry.standIn solution) =
      registry.file solution :=
  Registry.touch_touch _ _ _

/-- One more item has its snapshot filed last. -/
theorem fileAll_concat (registry : SnapshotRegistry) (items : List WorkItem) (item : WorkItem) :
    registry.fileAll (items ++ [item]) = (registry.fileAll items).file item.solution := by
  rw [fileAll, List.foldl_concat]
  rfl

/-- The calls for the later items depend on what was filed for the earlier ones. -/
theorem calls_append (registry : SnapshotRegistry) (items more : List WorkItem) :
    registry.calls (items ++ more) = registry.calls items ++ (registry.fileAll items).calls more := by
  induction items generalizing registry with
  | nil => rfl
  | cons item items ih =>
    rw [List.cons_append, calls, calls, ih, List.cons_append]
    rfl

/-- One more item is called for last. -/
theorem calls_concat (registry : SnapshotRegistry) (items : List WorkItem) (item : WorkItem) :
    registry.calls (items ++ [item]) =
      registry.calls items ++ [(registry.fileAll items).callFor item] :=
  registry.calls_append items [item]

/-- There is one call for each item. -/
@[simp] theorem length_calls (registry : SnapshotRegistry) (items : List WorkItem) :
    (registry.calls items).length = items.length := by
  induction items generalizing registry with
  | nil => rfl
  | cons item items ih => rw [calls, List.length_cons, List.length_cons, ih]

/-- What stands in for a snapshot has its fingerprint. -/
theorem Sound.fingerprint_standIn (h : registry.Sound) (solution : Solution) :
    (registry.standIn solution).fingerprint = solution.fingerprint := by
  rw [standIn]
  cases hfind : registry.find? solution.fingerprint with
  | none => rfl
  | some found => exact (h.of_find? hfind).1

/-- Filing the filed snapshots of some items keeps a registry sound. -/
theorem Sound.fileAll (h : registry.Sound) (hfiled : ∀ item ∈ items, item.solution.Filed) :
    Sound (registry.fileAll items) :=
  List.foldlRecOn (motive := Sound) items _ h fun _ hs item hitem => hs.file (hfiled item hitem)

/-- A call has the scope and the reasons of its item, and a snapshot of the item's fingerprint. -/
theorem Sound.label_callFor (h : registry.Sound) (item : WorkItem) :
    (registry.callFor item).label = item.label := by
  rw [ServiceCall.label, callFor, h.fingerprint_standIn]
  rfl

/-- The calls have the scopes and the reasons of the items, and snapshots of the items' fingerprints. -/
theorem Sound.map_label_calls (h : registry.Sound) (hfiled : ∀ item ∈ items, item.solution.Filed) :
    (registry.calls items).map ServiceCall.label = items.map WorkItem.label := by
  induction items generalizing registry with
  | nil => rfl
  | cons item items ih =>
    have hitem : item.solution.Filed := hfiled item List.mem_cons_self
    have hitems : ∀ i ∈ items, i.solution.Filed := fun i hi => hfiled i (List.mem_cons_of_mem _ hi)
    rw [calls, List.map_cons, List.map_cons, h.label_callFor, ih (h.file hitem) hitems]

/-- A call asks for what its item asks for exactly if the item meets no other content. -/
theorem reading_callFor_iff (registry : SnapshotRegistry) (item : WorkItem) :
    (registry.callFor item).reading = item.reading ↔
      (registry.standIn item.solution).content = item.solution.content := by
  simp [ServiceCall.reading, WorkItem.reading, callFor]

/-- Without items there is nothing to meet. -/
theorem tells_nil (registry : SnapshotRegistry) : registry.Tells [] := by
  intro before item hprefix
  simp at hprefix

/-- One more item meets no other content. -/
theorem tells_concat_iff : registry.Tells (items ++ [item]) ↔ registry.Tells items ∧
    ((registry.fileAll items).standIn item.solution).content = item.solution.content := by
  constructor
  · intro h
    exact ⟨fun before other hbefore => h before other (hbefore.trans (List.prefix_append _ _)),
      h items item (List.prefix_refl _)⟩
  · rintro ⟨h, hlast⟩ before other hprefix
    rcases List.prefix_concat_iff.mp hprefix with heq | hprefix
    · obtain ⟨rfl, hsame⟩ := List.append_inj' heq rfl
      rw [List.singleton_inj.mp hsame]
      exact hlast
    · exact h before other hprefix

/-- The calls ask for what the items ask for exactly if no item meets another content. -/
theorem map_reading_calls_iff (registry : SnapshotRegistry) (items : List WorkItem) :
    (registry.calls items).map ServiceCall.reading = items.map WorkItem.reading ↔
      registry.Tells items := by
  induction items using List.reverseRecOn with
  | nil => exact iff_of_true rfl (tells_nil registry)
  | append_singleton items item ih =>
    rw [calls_concat, List.map_append, List.map_append, List.map_singleton, List.map_singleton,
      tells_concat_iff, ← ih, ← reading_callFor_iff]
    constructor
    · intro h
      obtain ⟨hitems, hitem⟩ := List.append_inj' h rfl
      exact ⟨hitems, List.singleton_inj.mp hitem⟩
    · rintro ⟨hitems, hitem⟩
      rw [hitems, hitem]

/-- The calls for the first items ask for what these ask for exactly if none of them meets another
content. -/
theorem prefix_reading_iff (registry : SnapshotRegistry) (items more : List WorkItem) :
    (registry.calls items).map ServiceCall.reading <+: (items ++ more).map WorkItem.reading ↔
      registry.Tells items := by
  have hlength : ((registry.calls items).map ServiceCall.reading).length =
      (items.map WorkItem.reading).length := by simp
  rw [← map_reading_calls_iff, List.prefix_iff_eq_take, hlength, List.map_append, List.take_left]

/-- What stands in for a snapshot is the snapshot or an entry. -/
theorem standIn_mem {known : List Solution} (hentries : ∀ e ∈ registry.entries, e.2 ∈ known)
    (hsolution : solution ∈ known) : registry.standIn solution ∈ known := by
  rw [standIn]
  cases hfind : registry.find? solution.fingerprint with
  | none => exact hsolution
  | some found => exact hentries _ (Registry.mem_of_find? hfind)

/-- A registry of known snapshots in which a known one is filed keeps known ones. -/
theorem entries_file {known : List Solution} (hentries : ∀ e ∈ registry.entries, e.2 ∈ known)
    (hsolution : solution ∈ known) : ∀ e ∈ (registry.file solution).entries, e.2 ∈ known := by
  intro e he
  rcases Registry.mem_touch he with rfl | he
  · exact standIn_mem hentries hsolution
  · exact hentries e he

/-- A registry in which known snapshots were filed keeps known ones. -/
theorem entries_fileAll {known : List Solution} (hentries : ∀ e ∈ registry.entries, e.2 ∈ known)
    (hitems : ∀ item ∈ items, item.solution ∈ known) :
    ∀ e ∈ (registry.fileAll items).entries, e.2 ∈ known :=
  List.foldlRecOn (motive := fun registry : SnapshotRegistry => ∀ e ∈ registry.entries, e.2 ∈ known)
    items _ hentries fun _ hkept item hitem => entries_file hkept (hitems item hitem)

/-- As long as fingerprints tell the contents of the items and of what the registry began with apart, no
item meets another content. -/
theorem Sound.tells_of_tellApart (h : registry.Sound) (hfiled : ∀ item ∈ items, item.solution.Filed)
    {known : List Solution} (hentries : ∀ e ∈ registry.entries, e.2 ∈ known)
    (hitems : ∀ item ∈ items, item.solution ∈ known) (happart : Solution.TellApart known) :
    registry.Tells items := by
  intro before item hprefix
  have hsubset : ∀ i ∈ before, i ∈ items := fun i hi =>
    hprefix.subset (List.mem_append_left _ hi)
  have hitem : item ∈ items := hprefix.subset (List.mem_append_right _ (List.mem_singleton_self item))
  have hsound : (registry.fileAll before).Sound := h.fileAll fun i hi => hfiled i (hsubset i hi)
  have hstand : (registry.fileAll before).standIn item.solution ∈ known :=
    standIn_mem (entries_fileAll hentries fun i hi => hitems i (hsubset i hi)) (hitems item hitem)
  exact happart _ hstand _ (hitems item hitem) (hsound.fingerprint_standIn item.solution)

end SnapshotRegistry

end SolutionWatch
