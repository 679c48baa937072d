import Mathlib.Data.List.Basic
import SolutionWatch.Proofs.Snapshot.Lookup
import SolutionWatch.Registry

/-!
# What a registry of snapshots keeps

Whatever was filed in a registry and however often it was asked, each of its entries is a filed
snapshot under its own fingerprint (`SnapshotRegistry.Used.sound`), so what a fingerprint finds has that
fingerprint. It need not be the snapshot that was filed last, nor have its content: a fingerprint keeps the
first snapshot that was filed under it.

A registry has room for at least one entry. So the snapshot that was filed last is found
(`SnapshotRegistry.Sound.find?_file`), however small the registry is.
-/

namespace SolutionWatch

namespace Registry

variable {κ ν : Type} [DecidableEq κ] {registry : Registry κ ν} {key : κ} {value : ν}

/-- What a registry finds is one of its entries. -/
theorem mem_of_find? (h : registry.find? key = some value) : (key, value) ∈ registry.entries := by
  rw [find?, Option.map_eq_some_iff] at h
  obtain ⟨⟨k, v⟩, hfind, rfl⟩ := h
  have hk : k = key := by simpa using List.find?_some hfind
  subst hk
  exact List.mem_of_find?_eq_some hfind

/-- Using a key leaves no other entries than those that there were and its own. -/
theorem mem_touch {e : κ × ν} (h : e ∈ (registry.touch key value).entries) :
    e = (key, value) ∨ e ∈ registry.entries := by
  rcases List.mem_cons.mp (List.mem_of_mem_take h) with rfl | h
  · exact .inl rfl
  · exact .inr (List.mem_filter.mp h).1

/-- A key that was just used finds its value, because there is room for one entry. -/
theorem find?_touch : (registry.touch key value).find? key = some value := by
  obtain ⟨n, hn⟩ := Nat.exists_eq_succ_of_ne_zero (Nat.ne_of_gt registry.room)
  simp [touch, find?, hn]

/-- A key under which a value was just registered finds its first value. -/
theorem find?_register :
    (registry.register key value).find? key = some ((registry.find? key).getD value) :=
  find?_touch

/-- Using a key cuts the entries, with the key in front, to what there is room for. -/
theorem entries_touch (registry : Registry κ ν) (key : κ) (value : ν) :
    (registry.touch key value).entries =
      ((key, value) :: registry.entries.filter fun e => e.1 ≠ key).take registry.capacity := rfl

/-- To use the key that was used last changes nothing. -/
theorem touch_touch (registry : Registry κ ν) (key : κ) (value : ν) :
    (registry.touch key value).touch key value = registry.touch key value := by
  obtain ⟨n, hn⟩ := Nat.exists_eq_succ_of_ne_zero (Nat.ne_of_gt registry.room)
  have hfirst : (registry.touch key value).entries =
      (key, value) :: (registry.entries.filter fun e => e.1 ≠ key).take n := by
    rw [entries_touch, hn, List.take_succ_cons]
  -- The key stands in front, and no other entry has it.
  have hothers : ((registry.entries.filter fun e => e.1 ≠ key).take n).filter (fun e => e.1 ≠ key) =
      (registry.entries.filter fun e => e.1 ≠ key).take n := by
    rw [List.filter_eq_self]
    intro e he
    exact (List.mem_filter.mp (List.mem_of_mem_take he)).2
  have hagain : ((registry.touch key value).touch key value).entries =
      (registry.touch key value).entries := by
    have hroom : (registry.touch key value).capacity = n + 1 := hn
    rw [entries_touch, hfirst, List.filter_cons_of_neg (by simp), hothers, hroom,
      List.take_succ_cons, List.take_take, Nat.min_self]
  exact congrArg (fun entries => ({ registry with entries := entries } : Registry κ ν)) hagain

end Registry

namespace SnapshotRegistry

/-- A registry in which each entry is a filed snapshot under its own fingerprint. -/
structure Sound (registry : SnapshotRegistry) : Prop where
  /-- Each entry is a filed snapshot under its own fingerprint. -/
  kept : ∀ e ∈ registry.entries, e.2.fingerprint = e.1 ∧ e.2.Filed

variable {registry : SnapshotRegistry} {solution found : Solution} {print : Fingerprint}

/-- What a fingerprint finds is a filed snapshot with this fingerprint. -/
theorem Sound.of_find? (h : registry.Sound) (hf : registry.find? print = some found) :
    found.fingerprint = print ∧ found.Filed :=
  h.kept _ (Registry.mem_of_find? hf)

/-- Using a fingerprint keeps a registry sound. -/
theorem Sound.touch (h : registry.Sound) (hc : solution.fingerprint = print)
    (hs : solution.Filed) : Sound (registry.touch print solution) where
  kept e he := by
    rcases Registry.mem_touch he with rfl | he
    · exact ⟨hc, hs⟩
    · exact h.kept e he

/-- A registry without entries is sound. -/
theorem sound_withCapacity (capacity : ℕ) : Sound (.withCapacity capacity) where
  kept e he := by simp [Registry.withCapacity] at he

/-- Filing a filed snapshot keeps a registry sound. -/
theorem Sound.file (h : registry.Sound) (hs : solution.Filed) : Sound (registry.file solution) := by
  rw [SnapshotRegistry.file, Registry.register]
  cases hfind : registry.find? solution.fingerprint with
  | none => exact h.touch rfl hs
  -- The snapshot that came first stays, and counts as used.
  | some kept =>
    obtain ⟨hc, hk⟩ := h.of_find? hfind
    exact h.touch hc hk

/-- Asking for an address keeps a registry sound. -/
theorem Sound.lookup (h : registry.Sound) (address : Address) :
    Sound (registry.lookup address).2 := by
  cases address with
  | checksum checksum => exact h
  | fingerprint print =>
    rw [SnapshotRegistry.lookup, Registry.resolve]
    cases hfind : registry.find? print with
    | none => exact h
    | some kept =>
      obtain ⟨hc, hk⟩ := h.of_find? hfind
      exact h.touch hc hk

/-- A fingerprint that the registry finds a snapshot for is looked up with success. -/
theorem lookup_of_find? (h : registry.find? print = some found) :
    registry.lookup (.fingerprint print) = (.ok found, registry.touch print found) := by
  rw [SnapshotRegistry.lookup, Registry.resolve, h]

/-- What a filed snapshot's fingerprint finds, right after the snapshot was filed, is filed and has that
fingerprint. -/
theorem Sound.find?_file (h : registry.Sound) (hs : solution.Filed) :
    ∃ found, (registry.file solution).find? solution.fingerprint = some found ∧
      found.fingerprint = solution.fingerprint ∧ found.Filed := by
  have hfind : (registry.file solution).find? solution.fingerprint =
      some ((registry.find? solution.fingerprint).getD solution) := Registry.find?_register
  exact ⟨_, hfind, (h.file hs).of_find? hfind⟩

/-- The registries that come from a new one by filing filed snapshots and looking up addresses. -/
inductive Used : SnapshotRegistry → Prop
  /-- A new registry. -/
  | new (capacity : ℕ) : Used (.withCapacity capacity)
  /-- A filed snapshot is filed. -/
  | file {registry : SnapshotRegistry} {solution : Solution} :
      Used registry → solution.Filed → Used (registry.file solution)
  /-- An address is looked up. -/
  | lookup {registry : SnapshotRegistry} (address : Address) :
      Used registry → Used (registry.lookup address).2

/-- However a registry was used, it is sound. -/
theorem Used.sound (h : registry.Used) : registry.Sound := by
  induction h with
  | new capacity => exact sound_withCapacity capacity
  | file _ hs ih => exact ih.file hs
  | lookup address _ ih => exact ih.lookup address

end SnapshotRegistry

end SolutionWatch
