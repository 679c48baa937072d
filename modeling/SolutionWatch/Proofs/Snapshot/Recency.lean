import Mathlib.Data.List.Induction
import Mathlib.Data.List.Perm.Subperm
import SolutionWatch.Proofs.Snapshot.Registry

/-!
# Which snapshots a registry remembers

A registry is asked to file snapshots, to look addresses up, whether it holds an address, and how many
entries it has. What it remembers can be read off its history: filing a snapshot uses its fingerprint,
and so does looking up a fingerprint that is among the most recent ones at that moment; nothing else uses a
fingerprint (`SnapshotRegistry.uses`). A registry with room for `room` entries finds exactly the first `room`
of the fingerprints that were used, ordered by their last use, and each of them finds the snapshot that was
filed first since the fingerprint was last forgotten (`SnapshotRegistry.remembers_most_recent`).

Entries and fingerprints are kept in step by one fact about lists: to move a fingerprint to the front of the
most recent ones and to cut the list is to cut what comes of moving it to the front of all fingerprints
(`List.take_cons_filter_ne`).
-/

namespace List

variable {α : Type*} [DecidableEq α]

/-- Two ways to say that an element is left out. -/
theorem filter_not_beq (a : α) (l : List α) :
    (l.filter fun b => !b == a) = l.filter fun b => b ≠ a :=
  filter_congr fun _ _ => decide_not.symm

/-- Leaving out an element and leaving out repetitions can be done in either order. -/
theorem eraseDups_filter_ne (a : α) :
    ∀ l : List α, (l.filter fun b => b ≠ a).eraseDups = l.eraseDups.filter fun b => b ≠ a
  | [] => rfl
  | b :: l => by
    have hrest := eraseDups_filter_ne a (l.filter fun c => !c == b)
    by_cases hb : b = a
    · subst hb
      rw [eraseDups_cons, filter_cons_of_neg (by simp), filter_cons_of_neg (by simp), ← hrest,
        filter_not_beq, filter_filter]
      simp only [Bool.and_self]
    · rw [filter_cons_of_pos (by simpa using hb), eraseDups_cons, eraseDups_cons,
        filter_cons_of_pos (by simpa using hb), ← hrest, filter_comm]
termination_by l => l.length
decreasing_by all_goals exact Nat.lt_succ_of_le (length_filter_le _ _)

/-- Nothing comes twice once repetitions are left out. -/
theorem nodup_eraseDups : ∀ l : List α, l.eraseDups.Nodup
  | [] => nodup_nil
  | b :: l => by
    rw [eraseDups_cons, nodup_cons, mem_eraseDups]
    exact ⟨by simp, nodup_eraseDups _⟩
termination_by l => l.length
decreasing_by all_goals exact Nat.lt_succ_of_le (length_filter_le _ _)

/-- An element that comes first comes before the others, without repetitions. -/
theorem eraseDups_cons_ne (a : α) (l : List α) :
    (a :: l).eraseDups = a :: l.eraseDups.filter fun b => b ≠ a := by
  rw [eraseDups_cons, filter_not_beq, eraseDups_filter_ne]

/-- Lists with the same members have the same number of distinct ones. -/
theorem length_eraseDups_congr {l m : List α} (h : ∀ a, a ∈ l ↔ a ∈ m) :
    l.eraseDups.length = m.eraseDups.length := by
  refine Perm.length_eq ((perm_ext_iff_of_nodup l.nodup_eraseDups m.nodup_eraseDups).mpr fun a => ?_)
  rw [mem_eraseDups, mem_eraseDups]
  exact h a

/-- Without one element, as many of a list's first elements are left as there are without it in one
element more. -/
theorem take_filter_ne_take_succ {l : List α} (h : l.Nodup) (a : α) (n : ℕ) :
    ((l.take (n + 1)).filter fun b => b ≠ a).take n = (l.filter fun b => b ≠ a).take n := by
  induction l generalizing n with
  | nil => rfl
  | cons b l ih =>
    obtain ⟨hb, hl⟩ := nodup_cons.mp h
    by_cases hba : b = a
    · -- The element that is left out comes first, and does not come again.
      subst hba
      have hnot : ∀ m : List α, m ⊆ l → (m.filter fun c => c ≠ b) = m := fun m hm =>
        filter_eq_self.mpr fun c hc => by simpa using fun heq : c = b => hb (heq ▸ hm hc)
      rw [take_succ_cons, filter_cons_of_neg (by simp), filter_cons_of_neg (by simp),
        hnot _ (take_subset n l), hnot l (Subset.refl l), take_take, Nat.min_self]
    · cases n with
      | zero => rfl
      | succ n =>
        rw [take_succ_cons, filter_cons_of_pos (by simpa using hba),
          filter_cons_of_pos (by simpa using hba), take_succ_cons, take_succ_cons, ih hl]

/-- Moving an element to the front of the first `n` of a list without repetitions, and keeping the first
`n`, gives the first `n` after moving the element to the front of the whole list. -/
theorem take_cons_filter_ne {l : List α} (h : l.Nodup) (a : α) (n : ℕ) :
    (a :: (l.take n).filter fun b => b ≠ a).take n = (a :: l.filter fun b => b ≠ a).take n := by
  cases n with
  | zero => rfl
  | succ n => rw [take_succ_cons, take_succ_cons, take_filter_ne_take_succ h]

end List

namespace SolutionWatch

namespace Registry

variable {κ ν : Type} [DecidableEq κ] {registry : Registry κ ν} {key : κ}

/-- The keys of a registry, the most recently used first. -/
def keys (registry : Registry κ ν) : List κ := registry.entries.map Prod.fst

/-- A key finds something exactly if it is one of the keys. -/
theorem exists_find?_iff : (∃ value, registry.find? key = some value) ↔ key ∈ registry.keys := by
  constructor
  · rintro ⟨value, h⟩
    exact List.mem_map.mpr ⟨_, mem_of_find? h, rfl⟩
  · intro h
    obtain ⟨entry, hentry, rfl⟩ := List.mem_map.mp h
    have hsome : (registry.entries.find? fun e => e.1 = entry.1).isSome = true :=
      List.find?_isSome.mpr ⟨entry, hentry, by simp⟩
    obtain ⟨found, hfound⟩ := Option.isSome_iff_exists.mp hsome
    exact ⟨found.2, by rw [find?, hfound]; rfl⟩

/-- A key finds nothing exactly if it is not one of the keys. -/
theorem find?_eq_none_iff : registry.find? key = none ↔ key ∉ registry.keys := by
  rw [← exists_find?_iff, not_exists, Option.eq_none_iff_forall_ne_some]

/-- A registry contains its keys. -/
theorem contains_eq_true_iff : registry.contains key = true ↔ key ∈ registry.keys := by
  rw [contains, Option.isSome_iff_exists, exists_find?_iff]

/-- Using a key moves it to the front, and the last keys are forgotten. -/
theorem keys_touch (registry : Registry κ ν) (key : κ) (value : ν) :
    (registry.touch key value).keys =
      (key :: registry.keys.filter fun k => k ≠ key).take registry.capacity := by
  have hfilter : (registry.entries.filter fun e => e.1 ≠ key).map Prod.fst =
      registry.keys.filter fun k => k ≠ key := by
    rw [keys, List.filter_map]
    rfl
  rw [keys, touch, List.map_take, List.map_cons, hfilter]

end Registry

namespace SnapshotRegistry

/-- What a registry of snapshots is asked. -/
inductive Call where
  /-- To file a snapshot. -/
  | file (solution : Solution)
  /-- To look an address up. -/
  | lookup (address : Address)
  /-- Whether it holds an address. -/
  | holds (address : Address)
  /-- How many entries it has. -/
  | size

/-- The registry after a call. -/
def serve (registry : SnapshotRegistry) : Call → SnapshotRegistry
  | .file solution => registry.file solution
  | .lookup address => (registry.lookup address).2
  | .holds _ | .size => registry

/-- The registry after some calls. -/
def after (registry : SnapshotRegistry) (calls : List Call) : SnapshotRegistry :=
  calls.foldl serve registry

/-- The fingerprints that were used, the last use first, after a call to a registry that remembers the
`room` most recent ones. Filing a snapshot uses its fingerprint, and looking up a fingerprint uses it if it
is one of these. -/
def use (room : ℕ) (used : List Fingerprint) : Call → List Fingerprint
  | .file solution => solution.fingerprint :: used
  | .lookup (.fingerprint print) =>
    if print ∈ used.eraseDups.take room then print :: used else used
  | .lookup (.checksum _) | .holds _ | .size => used

/-- The fingerprints that some calls used, the last use first. -/
def uses (room : ℕ) (calls : List Call) : List Fingerprint := calls.foldl (use room) []

/-- The `room` fingerprints that were used most recently, the last one first. -/
def recent (room : ℕ) (calls : List Call) : List Fingerprint := (uses room calls).eraseDups.take room

/-- The fingerprints of the snapshots that were filed, in order. -/
def filed (calls : List Call) : List Fingerprint :=
  calls.filterMap fun
    | .file solution => some solution.fingerprint
    | _ => none

/-- The snapshot was filed when its fingerprint was not among the most recent ones, and the fingerprint has
been among them ever since. -/
def FirstFiled (room : ℕ) (calls : List Call) (solution : Solution) : Prop :=
  ∃ before later, calls = before ++ .file solution :: later ∧
    solution.fingerprint ∉ recent room before ∧
    ∀ some, some <+: later → solution.fingerprint ∈ recent room (before ++ .file solution :: some)

variable {room : ℕ} {calls : List Call} {call : Call} {registry : SnapshotRegistry}
  {solution : Solution} {print : Fingerprint}

/-- One more call may use one more fingerprint. -/
theorem uses_concat (room : ℕ) (calls : List Call) (call : Call) :
    uses room (calls ++ [call]) = use room (uses room calls) call := List.foldl_concat _ _ _ _

/-- A fingerprint that is used moves to the front of the most recent ones. -/
theorem recent_of_use (h : uses room (calls ++ [call]) = print :: uses room calls) :
    recent room (calls ++ [call]) =
      (print :: (recent room calls).filter fun c => c ≠ print).take room := by
  rw [recent, h, List.eraseDups_cons_ne, recent,
    List.take_cons_filter_ne (List.nodup_eraseDups _)]

/-- What was used is what was filed. -/
theorem mem_uses_iff (room : ℕ) (calls : List Call) (print : Fingerprint) :
    print ∈ uses room calls ↔ print ∈ filed calls := by
  induction calls using List.reverseRecOn with
  | nil => exact Iff.rfl
  | append_singleton calls call ih =>
    rw [uses_concat, filed, List.filterMap_append, List.mem_append, ← filed, ← ih]
    cases call with
    | file solution => simp [use, or_comm]
    | lookup address =>
      cases address with
      | checksum => simp [use]
      | fingerprint other =>
        -- A fingerprint that is looked up counts as used only if it was used before.
        simp only [use]
        split
        · next hmem =>
          have hother : other ∈ uses room calls := List.mem_eraseDups.mp (List.mem_of_mem_take hmem)
          simp only [List.mem_cons, List.filterMap_cons, List.filterMap_nil, List.not_mem_nil, or_false]
          exact or_iff_right_of_imp fun heq => heq ▸ hother
        · simp
    | holds | size => simp [use]

/-- A fingerprint that was used and after it `later` ones is among the most recent ones exactly if the later
ones are fewer than there is room for. -/
theorem mem_recent_iff {later earlier : List Fingerprint}
    (huses : uses room calls = later ++ print :: earlier) (hlater : print ∉ later) :
    print ∈ recent room calls ↔ later.eraseDups.length < room := by
  have hfirst : ((print :: earlier).removeAll later).eraseDups =
      print :: ((earlier.removeAll later).filter fun c => !c == print).eraseDups := by
    rw [List.removeAll, List.filter_cons_of_pos (by simpa using hlater), List.eraseDups_cons]
    rfl
  have hnot : print ∉ later.eraseDups := fun h => hlater (List.mem_eraseDups.mp h)
  rw [recent, huses, List.eraseDups_append, hfirst, List.take_append, List.mem_append]
  have hno : print ∉ later.eraseDups.take room := fun h => hnot (List.mem_of_mem_take h)
  constructor
  · intro h
    by_contra hfull
    rw [Nat.sub_eq_zero_of_le (Nat.le_of_not_lt hfull), List.take_zero] at h
    exact h.elim hno List.not_mem_nil
  · intro h
    obtain ⟨n, hn⟩ := Nat.exists_eq_succ_of_ne_zero (Nat.sub_ne_zero_of_lt h)
    rw [hn, List.take_succ_cons]
    exact .inr List.mem_cons_self

/-- A snapshot stays the one that was filed first as long as its fingerprint is among the most recent
ones. -/
theorem FirstFiled.concat (h : FirstFiled room calls solution)
    (hrecent : solution.fingerprint ∈ recent room (calls ++ [call])) :
    FirstFiled room (calls ++ [call]) solution := by
  obtain ⟨before, later, rfl, hforgotten, hsince⟩ := h
  refine ⟨before, later ++ [call], by simp, hforgotten, fun some hsome => ?_⟩
  rcases List.prefix_concat_iff.mp hsome with rfl | hsome
  · simpa using hrecent
  · exact hsince some hsome

/-- A registry keeps the most recent fingerprints, each with the snapshot that was filed first. -/
structure Keeps (room : ℕ) (calls : List Call) (registry : SnapshotRegistry) : Prop where
  /-- There is room for so many entries. -/
  capacity : registry.capacity = room
  /-- The fingerprints are the most recent ones. -/
  keys : registry.keys = recent room calls
  /-- Each fingerprint has the snapshot that was filed first. -/
  first : ∀ entry ∈ registry.entries, entry.2.fingerprint = entry.1 ∧ FirstFiled room calls entry.2

namespace Keeps

/-- A registry without entries keeps what was used before the first call. -/
theorem withCapacity (capacity : ℕ) : Keeps (max capacity 1) [] (.withCapacity capacity) where
  capacity := rfl
  keys := by simp [Registry.keys, Registry.withCapacity, recent, uses]
  first entry hentry := by simp [Registry.withCapacity] at hentry

/-- What a fingerprint finds was filed first. -/
theorem of_find? (h : Keeps room calls registry) (hfind : registry.find? print = some solution) :
    solution.fingerprint = print ∧ FirstFiled room calls solution :=
  h.first _ (Registry.mem_of_find? hfind)

/-- A call that uses nothing and leaves the registry as it is. -/
theorem rest (h : Keeps room calls registry) (huses : uses room (calls ++ [call]) = uses room calls) :
    Keeps room (calls ++ [call]) registry := by
  have hrecent : recent room (calls ++ [call]) = recent room calls := by rw [recent, huses, recent]
  refine ⟨h.capacity, h.keys.trans hrecent.symm, fun entry hentry => ?_⟩
  obtain ⟨hprint, hfirst⟩ := h.first entry hentry
  refine ⟨hprint, hfirst.concat ?_⟩
  rw [hrecent, hprint, ← h.keys]
  exact List.mem_map_of_mem hentry

/-- A call that uses a fingerprint and finds the snapshot that was filed first. -/
theorem touch (h : Keeps room calls registry)
    (huses : uses room (calls ++ [call]) = solution.fingerprint :: uses room calls)
    (hfirst : solution.fingerprint ∈ recent room (calls ++ [call]) →
      FirstFiled room (calls ++ [call]) solution) :
    Keeps room (calls ++ [call]) (registry.touch solution.fingerprint solution) := by
  have hkeys : (registry.touch solution.fingerprint solution).keys = recent room (calls ++ [call]) := by
    rw [Registry.keys_touch, h.keys, h.capacity, recent_of_use huses]
  refine ⟨h.capacity, hkeys, fun entry hentry => ?_⟩
  have hrecent : entry.1 ∈ recent room (calls ++ [call]) := hkeys ▸ List.mem_map_of_mem hentry
  rcases Registry.mem_touch hentry with rfl | hold
  · exact ⟨rfl, hfirst hrecent⟩
  · obtain ⟨hprint, hold⟩ := h.first entry hold
    exact ⟨hprint, hold.concat (hprint.symm ▸ hrecent)⟩

/-- A snapshot is filed. -/
theorem file (h : Keeps room calls registry) (solution : Solution) :
    Keeps room (calls ++ [.file solution]) (registry.file solution) := by
  have huses : uses room (calls ++ [.file solution]) = solution.fingerprint :: uses room calls :=
    uses_concat _ _ _
  rw [SnapshotRegistry.file, Registry.register]
  cases hfind : registry.find? solution.fingerprint with
  | some found =>
    -- The snapshot that came first stays.
    obtain ⟨hprint, hfirst⟩ := h.of_find? hfind
    rw [← hprint] at huses ⊢
    exact h.touch huses hfirst.concat
  | none =>
    have hforgotten : solution.fingerprint ∉ recent room calls := by
      rw [← h.keys]
      exact Registry.find?_eq_none_iff.mp hfind
    refine h.touch huses fun hrecent => ⟨calls, [], rfl, hforgotten, fun some hsome => ?_⟩
    rwa [List.prefix_nil.mp hsome]

/-- An address is looked up. -/
theorem lookup (h : Keeps room calls registry) (address : Address) :
    Keeps room (calls ++ [.lookup address]) (registry.lookup address).2 := by
  cases address with
  | checksum checksum => exact h.rest (uses_concat _ _ _)
  | fingerprint print =>
    have huses := uses_concat room calls (.lookup (.fingerprint print))
    rw [use, ← recent, ← h.keys] at huses
    rw [SnapshotRegistry.lookup, Registry.resolve]
    cases hfind : registry.find? print with
    | none => exact h.rest (huses.trans (if_neg (Registry.find?_eq_none_iff.mp hfind)))
    | some found =>
      obtain ⟨rfl, hfirst⟩ := h.of_find? hfind
      exact h.touch (huses.trans (if_pos (Registry.exists_find?_iff.mp ⟨found, hfind⟩))) hfirst.concat

/-- Whatever is called, the registry goes on keeping the most recent fingerprints. -/
theorem serve (h : Keeps room calls registry) (call : Call) :
    Keeps room (calls ++ [call]) (registry.serve call) := by
  cases call with
  | file solution => exact h.file solution
  | lookup address => exact h.lookup address
  | holds | size => exact h.rest (uses_concat _ _ _)

end Keeps

/-- After any calls a new registry keeps the most recent fingerprints. -/
theorem keeps_after (capacity : ℕ) (calls : List Call) :
    Keeps (max capacity 1) calls (after (.withCapacity capacity) calls) := by
  induction calls using List.reverseRecOn with
  | nil => exact .withCapacity capacity
  | append_singleton calls call ih =>
    rw [after, List.foldl_concat]
    exact ih.serve call

/-- A registry of snapshots remembers what was used most recently. -/
structure Remembers (room : ℕ) (calls : List Call) (registry : SnapshotRegistry) : Prop where
  /-- A fingerprint is found exactly if it is one of the `room` fingerprints that were used most
  recently. -/
  found : ∀ print, (∃ solution, (registry.lookup (.fingerprint print)).1 = .ok solution) ↔
    print ∈ recent room calls
  /-- A fingerprint that is not found is said to be unknown. -/
  unknown : ∀ print, print ∉ recent room calls →
    (registry.lookup (.fingerprint print)).1 = .error (.snapshotNotFound (.fingerprint print))
  /-- The registry holds what it finds. -/
  holds : ∀ print, registry.holds (.fingerprint print) = true ↔ print ∈ recent room calls
  /-- Looking a fingerprint up uses it exactly if it is found. -/
  used : ∀ print, uses room (calls ++ [.lookup (.fingerprint print)]) =
    if registry.holds (.fingerprint print) then print :: uses room calls else uses room calls
  /-- A fingerprint finds a snapshot that has it: the one that was filed first since the fingerprint was
  last forgotten. -/
  first : ∀ print solution, (registry.lookup (.fingerprint print)).1 = .ok solution →
    solution.fingerprint = print ∧ FirstFiled room calls solution
  /-- There are as many entries as distinct fingerprints were filed, if there is room for them. -/
  size : registry.size = min room (filed calls).eraseDups.length
  /-- A fingerprint that was filed was used, and is found until `room` others were used after its last
  use. -/
  lasts : ∀ print ∈ filed calls, ∃ later earlier, uses room calls = later ++ print :: earlier ∧
    print ∉ later ∧ (registry.holds (.fingerprint print) = true ↔ later.eraseDups.length < room)
  /-- Nothing is found under a bare checksum. -/
  checksum : ∀ checksum, registry.holds (.checksum checksum) = false ∧
    (registry.lookup (.checksum checksum)).1 = .error (.snapshotNotFound (.checksum checksum))

/-- What a registry answers when it keeps the most recent fingerprints. -/
theorem Keeps.remembers (h : Keeps room calls registry) : Remembers room calls registry := by
  have hholds : ∀ print, registry.holds (.fingerprint print) = true ↔ print ∈ recent room calls := by
    intro print
    rw [SnapshotRegistry.holds, Registry.contains_eq_true_iff, h.keys]
  have hknown : ∀ print ∈ recent room calls, ∃ solution, registry.find? print = some solution :=
    fun print hprint => Registry.exists_find?_iff.mpr (h.keys ▸ hprint)
  have hunknown : ∀ print, print ∉ recent room calls →
      (registry.lookup (.fingerprint print)).1 = .error (.snapshotNotFound (.fingerprint print)) := by
    intro print hprint
    rw [← h.keys, ← Registry.find?_eq_none_iff] at hprint
    rw [SnapshotRegistry.lookup, Registry.resolve, hprint]
  constructor
  case holds => exact hholds
  case unknown => exact hunknown
  case checksum => exact fun _ => ⟨rfl, rfl⟩
  case used =>
    intro print
    rw [uses_concat, use, ← recent]
    simp only [hholds]
  case found =>
    refine fun print => ⟨fun hfound => ?_, fun hprint => ?_⟩
    · obtain ⟨solution, hfound⟩ := hfound
      by_contra hprint
      rw [hunknown print hprint] at hfound
      contradiction
    · obtain ⟨solution, hfind⟩ := hknown print hprint
      exact ⟨solution, congrArg Prod.fst (lookup_of_find? hfind)⟩
  case first =>
    intro print solution hfound
    have hprint : print ∈ recent room calls := by
      by_contra hprint
      rw [hunknown print hprint] at hfound
      contradiction
    obtain ⟨found, hfind⟩ := hknown print hprint
    rw [lookup_of_find? hfind] at hfound
    exact Except.ok.inj hfound ▸ h.of_find? hfind
  case size =>
    have hlength : registry.size = (recent room calls).length := by
      rw [← h.keys, Registry.keys, List.length_map, Registry.size]
    rw [hlength, recent, List.length_take, List.length_eraseDups_congr (mem_uses_iff room calls)]
  case lasts =>
    intro print hprint
    obtain ⟨later, earlier, huses, hlater⟩ :=
      List.eq_append_cons_of_mem ((mem_uses_iff room calls print).mpr hprint)
    exact ⟨later, earlier, huses, hlater, (hholds print).trans (mem_recent_iff huses hlater)⟩

/-- A new registry, whatever it is asked to file, to look up and to tell, finds exactly the fingerprints that
were used most recently, as many as it has room for; each finds the snapshot that was filed first since
the fingerprint was last forgotten. A capacity of zero counts as one. -/
theorem remembers_most_recent (capacity : ℕ) (calls : List Call) :
    Remembers (max capacity 1) calls (after (.withCapacity capacity) calls) :=
  (keeps_after capacity calls).remembers

end SnapshotRegistry

end SolutionWatch
