/-!
# Insertion-ordered catalogues

A `Catalog` is a finite map that remembers the order in which its keys first arrived. Replacing
the value of a key keeps the key's place, a new key goes to the end, and removing a key closes the
gap without disturbing the others. Snapshots keep their projects and documents in catalogues, so
this order is the order in which differences are reported.

The view of a catalogue is its list of entries; keys never repeat in it.
-/

namespace SolutionWatch

universe u v

/-- A finite map whose keys are listed in the order of their arrival. -/
structure Catalog (κ : Type u) (ν : Type v) where
  /-- The entries, in order. -/
  entries : List (κ × ν) := []
  /-- No key is listed twice. -/
  nodup : (entries.map Prod.fst).Nodup := by exact List.nodup_nil
  deriving DecidableEq, Repr

namespace Catalog

variable {κ : Type u} {ν : Type v}

/-- The catalogue without entries. -/
def empty : Catalog κ ν := {}

instance : Inhabited (Catalog κ ν) := ⟨empty⟩

@[simp] theorem entries_empty : (empty : Catalog κ ν).entries = [] := rfl

/-- The keys, in order. -/
def keys (c : Catalog κ ν) : List κ := c.entries.map Prod.fst

/-- The values, in the order of their keys. -/
def values (c : Catalog κ ν) : List ν := c.entries.map Prod.snd

/-- The values are those of the entries. -/
theorem mem_values {c : Catalog κ ν} {v : ν} : v ∈ c.values ↔ ∃ k, (k, v) ∈ c.entries := by
  simp [values]

/-- The number of entries. -/
def size (c : Catalog κ ν) : Nat := c.entries.length

/-- Changes every value and leaves the keys alone. -/
def mapValues (c : Catalog κ ν) (f : ν → ν) : Catalog κ ν where
  entries := c.entries.map fun e => (e.1, f e.2)
  nodup := by
    have h : (c.entries.map fun e => (e.1, f e.2)).map Prod.fst = c.entries.map Prod.fst := by
      simp [List.map_map, Function.comp_def]
    rw [h]
    exact c.nodup

variable [DecidableEq κ]

/-- The value filed under `k` in a list of entries, if there is one. -/
def lookup (k : κ) : List (κ × ν) → Option ν
  | [] => none
  | e :: rest => if e.1 = k then some e.2 else lookup k rest

/-- The value filed under `k`, if there is one. -/
def get? (c : Catalog κ ν) (k : κ) : Option ν := lookup k c.entries

/-- Whether some value is filed under `k`. -/
def contains (c : Catalog κ ν) (k : κ) : Bool := (c.get? k).isSome

/-- Files `v` under `k`: in the place of `k`'s old value if it has one, else at the end. -/
def place (k : κ) (v : ν) : List (κ × ν) → List (κ × ν)
  | [] => [(k, v)]
  | e :: rest => if e.1 = k then (k, v) :: rest else e :: place k v rest

/-- Filing a value adds its key at most once, at the end. -/
theorem map_fst_place (k : κ) (v : ν) (l : List (κ × ν)) :
    (place k v l).map Prod.fst =
      if k ∈ l.map Prod.fst then l.map Prod.fst else l.map Prod.fst ++ [k] := by
  induction l with
  | nil => simp [place]
  | cons e rest ih =>
    by_cases h : e.1 = k
    · simp [place, h]
    · have h' : ¬ k = e.1 := fun hk => h hk.symm
      by_cases hm : k ∈ rest.map Prod.fst <;> simp_all [place]

/-- Files `v` under `k`, keeping the place of a value that it replaces. -/
def insert (c : Catalog κ ν) (k : κ) (v : ν) : Catalog κ ν where
  entries := place k v c.entries
  nodup := by
    rw [map_fst_place]
    split
    · exact c.nodup
    · rename_i h
      exact List.nodup_append.mpr ⟨c.nodup, by simp, by
        intro a ha b hb hab
        simp only [List.mem_singleton] at hb
        exact h (hb ▸ hab ▸ ha)⟩

/-- Removes the entry of `k`, keeping the order of the others. -/
def erase (c : Catalog κ ν) (k : κ) : Catalog κ ν where
  entries := c.entries.filter (fun e => e.1 ≠ k)
  nodup := c.nodup.sublist (List.Sublist.map _ List.filter_sublist)

/-- Changes the value of `k`, if it has one. -/
def modify (c : Catalog κ ν) (k : κ) (f : ν → ν) : Catalog κ ν :=
  match c.get? k with
  | some v => c.insert k (f v)
  | none => c

/-- A lookup in a list of entries after filing a value. -/
theorem lookup_place (k k' : κ) (v : ν) (l : List (κ × ν)) :
    lookup k' (place k v l) = if k = k' then some v else lookup k' l := by
  induction l with
  | nil => simp [place, lookup]
  | cons e rest ih =>
    by_cases h : e.1 = k
    · by_cases hk : k = k' <;> simp_all [place, lookup]
    · by_cases hk : k = k'
      · have : ¬ e.1 = k' := fun he => h (he.trans hk.symm)
        simp_all [place, lookup]
      · by_cases he : e.1 = k' <;> simp_all [place, lookup]

@[simp] theorem get?_insert (c : Catalog κ ν) (k k' : κ) (v : ν) :
    (c.insert k v).get? k' = if k = k' then some v else c.get? k' :=
  lookup_place k k' v c.entries

/-- A lookup in a list of entries finds a listed value. -/
theorem mem_of_lookup {k : κ} {v : ν} {l : List (κ × ν)} (h : lookup k l = some v) :
    (k, v) ∈ l := by
  induction l with
  | nil => simp [lookup] at h
  | cons e rest ih =>
    by_cases he : e.1 = k
    · simp only [lookup, he, if_true, Option.some.injEq] at h
      subst h
      subst he
      exact List.mem_cons_self
    · simp only [lookup, he, if_false] at h
      exact List.mem_cons_of_mem _ (ih h)

/-- What a catalogue finds is one of its entries. -/
theorem mem_of_get? {c : Catalog κ ν} {k : κ} {v : ν} (h : c.get? k = some v) :
    (k, v) ∈ c.entries := mem_of_lookup h

/-- Every entry filed by `place` is the new one or an old one. -/
theorem mem_place {k : κ} {v : ν} {l : List (κ × ν)} {e : κ × ν} (h : e ∈ place k v l) :
    e = (k, v) ∨ e ∈ l := by
  induction l with
  | nil => simpa [place] using h
  | cons a rest ih =>
    by_cases ha : a.1 = k
    · simp only [place, ha, if_true, List.mem_cons] at h
      rcases h with h | h
      · exact .inl h
      · exact .inr (List.mem_cons_of_mem _ h)
    · simp only [place, ha, if_false, List.mem_cons] at h
      rcases h with h | h
      · exact .inr (h ▸ List.mem_cons_self)
      · rcases ih h with h | h
        · exact .inl h
        · exact .inr (List.mem_cons_of_mem _ h)

/-- Every entry after `insert` is the new one or an old one. -/
theorem mem_insert {c : Catalog κ ν} {k : κ} {v : ν} {e : κ × ν}
    (h : e ∈ (c.insert k v).entries) : e = (k, v) ∨ e ∈ c.entries := mem_place h

/-- Every entry after `erase` was there before. -/
theorem mem_erase {c : Catalog κ ν} {k : κ} {e : κ × ν} (h : e ∈ (c.erase k).entries) :
    e ∈ c.entries := (List.mem_filter.mp h).1

/-- A lookup in a list of entries without a repeated key finds exactly the listed values. -/
theorem lookup_eq_some_iff {k : κ} {v : ν} {l : List (κ × ν)} (h : (l.map Prod.fst).Nodup) :
    lookup k l = some v ↔ (k, v) ∈ l := by
  refine ⟨mem_of_lookup, fun hm => ?_⟩
  induction l with
  | nil => simp at hm
  | cons e rest ih =>
    simp only [List.map_cons, List.nodup_cons] at h
    rcases List.mem_cons.mp hm with rfl | hm
    · simp [lookup]
    · have hne : e.1 ≠ k := by
        rintro rfl
        exact h.1 (List.mem_map.mpr ⟨_, hm, rfl⟩)
      rw [lookup, if_neg hne]
      exact ih h.2 hm

/-- A catalogue finds exactly its entries. -/
theorem get?_eq_some_iff {c : Catalog κ ν} {k : κ} {v : ν} :
    c.get? k = some v ↔ (k, v) ∈ c.entries := lookup_eq_some_iff c.nodup

/-- A key is missing exactly when no entry has it. -/
theorem get?_eq_none_iff {c : Catalog κ ν} {k : κ} :
    c.get? k = none ↔ ∀ v, (k, v) ∉ c.entries := by
  rw [Option.eq_none_iff_forall_ne_some]
  exact forall_congr' fun v => not_congr get?_eq_some_iff

/-- A catalogue contains what it finds something for. -/
theorem contains_eq_true_iff {c : Catalog κ ν} {k : κ} :
    c.contains k = true ↔ ∃ v, c.get? k = some v := Option.isSome_iff_exists

/-- A catalogue does not contain what it finds nothing for. -/
theorem contains_eq_false_iff {c : Catalog κ ν} {k : κ} :
    c.contains k = false ↔ c.get? k = none := by
  rw [contains, Option.isSome_eq_false_iff, Option.isNone_iff_eq_none]

@[simp] theorem get?_empty (k : κ) : (empty : Catalog κ ν).get? k = none := rfl

/-- A lookup after every value was changed. -/
theorem get?_mapValues (c : Catalog κ ν) (f : ν → ν) (k : κ) :
    (c.mapValues f).get? k = (c.get? k).map f := by
  have hlookup : ∀ l : List (κ × ν),
      lookup k (l.map fun e => (e.1, f e.2)) = (lookup k l).map f := by
    intro l
    induction l with
    | nil => rfl
    | cons e rest ih =>
      by_cases h : e.1 = k
      · simp [lookup, h]
      · simp [lookup, h, ih]
  exact hlookup c.entries

/-- A lookup of the key whose value was changed. -/
theorem get?_modify (c : Catalog κ ν) (k : κ) (f : ν → ν) :
    (c.modify k f).get? k = (c.get? k).map f := by
  unfold modify
  split
  · next v h => rw [get?_insert, if_pos rfl, h, Option.map_some]
  · next h => rw [h, Option.map_none]

/-- Filing what is filed already changes nothing. -/
theorem insert_of_get? {c : Catalog κ ν} {k : κ} {v : ν} (h : c.get? k = some v) :
    c.insert k v = c := by
  have hplace : ∀ l : List (κ × ν), lookup k l = some v → place k v l = l := by
    intro l hl
    induction l with
    | nil => contradiction
    | cons e rest ih =>
      rw [lookup] at hl
      rw [place]
      split
      · next hk =>
        rw [if_pos hk] at hl
        rw [← hk, ← Option.some.inj hl]
      · next hk =>
        rw [if_neg hk] at hl
        rw [ih hl]
  simp only [insert, hplace c.entries h]

/-- A lookup after removing a key. -/
theorem get?_erase (c : Catalog κ ν) (k k' : κ) :
    (c.erase k).get? k' = if k = k' then none else c.get? k' := by
  split
  · next h =>
    subst h
    rw [get?_eq_none_iff]
    intro v hv
    simpa using (List.mem_filter.mp hv).2
  · next h =>
    ext v
    rw [get?_eq_some_iff, get?_eq_some_iff, erase, List.mem_filter]
    have hne : k' ≠ k := fun hk => h hk.symm
    simp [hne]

/-- A lookup of another key than the one whose value was changed. -/
theorem get?_modify_of_ne (c : Catalog κ ν) {k k' : κ} (h : k ≠ k') (f : ν → ν) :
    (c.modify k f).get? k' = c.get? k' := by
  unfold modify
  split
  · rw [get?_insert, if_neg h]
  · rfl

/-- What is found after a value was changed was there before, or it is what became of that value. -/
theorem of_get?_modify {c : Catalog κ ν} {k k' : κ} {f : ν → ν} {v : ν}
    (h : (c.modify k f).get? k' = some v) : ∃ u, c.get? k' = some u ∧ (v = u ∨ v = f u) := by
  by_cases hk : k = k'
  · subst hk
    rw [get?_modify, Option.map_eq_some_iff] at h
    obtain ⟨u, hu, rfl⟩ := h
    exact ⟨u, hu, .inr rfl⟩
  · rw [get?_modify_of_ne c hk] at h
    exact ⟨v, h, .inl rfl⟩

/-- What is found after a value was filed is that value, or it was there before. -/
theorem of_get?_insert {c : Catalog κ ν} {k k' : κ} {v w : ν}
    (h : (c.insert k v).get? k' = some w) : (k = k' ∧ w = v) ∨ (k ≠ k' ∧ c.get? k' = some w) := by
  rw [get?_insert] at h
  split at h
  · next hk => exact .inl ⟨hk, (Option.some.inj h).symm⟩
  · next hk => exact .inr ⟨hk, h⟩

/-- What is found after a key was removed was there before, under another key. -/
theorem of_get?_erase {c : Catalog κ ν} {k k' : κ} {v : ν} (h : (c.erase k).get? k' = some v) :
    k ≠ k' ∧ c.get? k' = some v := by
  rw [get?_erase] at h
  split at h
  · contradiction
  · next hk => exact ⟨hk, h⟩

/-- A key is listed when something is found for it. -/
theorem mem_keys_iff {c : Catalog κ ν} {k : κ} : k ∈ c.keys ↔ ∃ v, c.get? k = some v := by
  simp [keys, get?_eq_some_iff]

/-- Filing a value adds its key at the end, unless it is listed. -/
theorem keys_insert (c : Catalog κ ν) (k : κ) (v : ν) :
    (c.insert k v).keys = if k ∈ c.keys then c.keys else c.keys ++ [k] :=
  map_fst_place k v c.entries

/-- Changing a value leaves the keys alone. -/
theorem keys_modify (c : Catalog κ ν) (k : κ) (f : ν → ν) : (c.modify k f).keys = c.keys := by
  unfold modify
  split
  · next v h => rw [keys_insert, if_pos (mem_keys_iff.mpr ⟨v, h⟩)]
  · rfl

/-- A lookup after removing several keys. -/
theorem get?_foldl_erase (c : Catalog κ ν) (gone : List κ) (k : κ) :
    (gone.foldl erase c).get? k = if k ∈ gone then none else c.get? k := by
  induction gone generalizing c with
  | nil => simp
  | cons first gone ih =>
    rw [List.foldl_cons, ih, get?_erase]
    by_cases h : first = k
    · simp [h]
    · simp [h, Ne.symm h]

/-- Filing a value changes nothing but what is filed under its key. -/
theorem erase_insert (c : Catalog κ ν) (k : κ) (v : ν) : (c.insert k v).erase k = c.erase k := by
  have hplace : ∀ l : List (κ × ν),
      (place k v l).filter (fun e => e.1 ≠ k) = l.filter (fun e => e.1 ≠ k) := by
    intro l
    induction l with
    | nil => simp [place]
    | cons e rest ih =>
      by_cases h : e.1 = k
      · simp [place, h]
      · rw [place, if_neg h, List.filter_cons, List.filter_cons, ih]
  simp only [erase, insert, hplace c.entries]

/-- Removing a key changes nothing but what is filed under it. -/
theorem erase_erase (c : Catalog κ ν) (k : κ) : (c.erase k).erase k = c.erase k := by
  simp only [erase, List.filter_filter, Bool.and_self]

/-- Removing a key takes it from the keys. -/
theorem keys_erase (c : Catalog κ ν) (k : κ) : (c.erase k).keys = c.keys.filter (· ≠ k) := by
  rw [keys, keys, List.filter_map]
  rfl

end Catalog

end SolutionWatch
