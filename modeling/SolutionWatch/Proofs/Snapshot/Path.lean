import SolutionWatch.Path

/-!
# The shortest spelling of a path

`Path.normal` spells the components of a path with single slashes. Reading that spelling gives the
components back (`components_normal`), so two paths have one shortest spelling exactly when they
have the same components (`normal_eq_iff`). The proof goes over the pieces between slashes: names
joined by slashes fall apart into the same names, because no name has a slash in it.
-/

namespace SolutionWatch.Path

/-- A name as it stands in a path: not empty, not a lone dot, and without a slash. -/
def IsName (chars : List Char) : Prop := chars ≠ [] ∧ chars ≠ ['.'] ∧ '/' ∉ chars

/-- Components that are names. -/
def AreNames (components : List Component) : Prop :=
  ∀ c ∈ components, ∃ chars, c = .name chars ∧ IsName chars

/-- There is always a piece. -/
theorem segments_ne_nil (chars : List Char) : segments chars ≠ [] := by
  unfold segments
  split
  · simp
  · simp
  · split <;> simp

/-- No piece has a slash in it. -/
theorem slash_notMem_of_mem_segments {chars piece : List Char} (h : piece ∈ segments chars) :
    '/' ∉ piece := by
  fun_induction segments chars generalizing piece with
  | case1 => simp_all
  | case2 rest ih =>
    rcases List.mem_cons.mp h with rfl | h
    · exact List.not_mem_nil
    · exact ih h
  | case3 c rest hc hnil => exact absurd hnil (segments_ne_nil rest)
  | case4 c rest hc first others hsplit ih =>
    have hne : '/' ≠ c := fun hs => hc hs.symm
    rcases List.mem_cons.mp h with rfl | h
    · have hfirst : '/' ∉ first := ih (hsplit ▸ List.mem_cons_self)
      simp [hne, hfirst]
    · exact ih (hsplit ▸ List.mem_cons_of_mem _ h)

/-- A piece in front of a slash is split off. -/
theorem segments_append_slash {piece : List Char} (h : '/' ∉ piece) (rest : List Char) :
    segments (piece ++ '/' :: rest) = piece :: segments rest := by
  induction piece with
  | nil => rfl
  | cons c cs ih =>
    simp only [List.mem_cons, not_or] at h
    rw [List.cons_append, segments.eq_3 _ _ (fun heq => h.1 heq.symm), ih h.2]

/-- What has no slash is one piece. -/
theorem segments_of_notMem {piece : List Char} (h : '/' ∉ piece) : segments piece = [piece] := by
  induction piece with
  | nil => rfl
  | cons c cs ih =>
    simp only [List.mem_cons, not_or] at h
    rw [segments.eq_3 _ _ (fun heq => h.1 heq.symm), ih h.2]

/-- The components of names are those names. -/
theorem namesOf_map_chars {names : List Component}
    (h : AreNames names) :
    namesOf (names.map Component.chars) = names := by
  unfold namesOf
  rw [List.filter_eq_self.mpr, List.map_map]
  · refine (List.map_congr_left fun c hc => ?_).trans (List.map_id names)
    obtain ⟨chars, rfl, -⟩ := h c hc
    rfl
  · intro piece hpiece
    obtain ⟨c, hc, rfl⟩ := List.mem_map.mp hpiece
    obtain ⟨chars, rfl, hnil, hdot, -⟩ := h c hc
    exact decide_eq_true ⟨hnil, hdot⟩

/-- Names joined by slashes fall apart into the same names. -/
theorem segments_spell {names : List Component} (hne : names ≠ [])
    (h : AreNames names) :
    segments (spell names) = names.map Component.chars := by
  induction names with
  | nil => exact absurd rfl hne
  | cons c rest ih =>
    obtain ⟨chars, rfl, -, -, hslash⟩ := h c List.mem_cons_self
    cases rest with
    | nil => exact segments_of_notMem hslash
    | cons d more =>
      have hrest : AreNames (d :: more) := fun e he => h e (List.mem_cons_of_mem _ he)
      have hspell : spell (.name chars :: d :: more) = chars ++ '/' :: spell (d :: more) := rfl
      rw [hspell, segments_append_slash hslash, ih (List.cons_ne_nil d more) hrest]
      rfl

/-- Reading the names of pieces back from their spelling gives the names. -/
theorem namesOf_segments_spell {names : List Component}
    (h : AreNames names) :
    namesOf (segments (spell names)) = names := by
  by_cases hne : names = []
  · subst hne
    rfl
  · rw [segments_spell hne h, namesOf_map_chars h]

/-- The names of pieces without slashes are names. -/
theorem areNames_namesOf {pieces : List (List Char)} (h : ∀ p ∈ pieces, '/' ∉ p) :
    AreNames (namesOf pieces) := by
  intro c hc
  obtain ⟨piece, hpiece, rfl⟩ := List.mem_map.mp hc
  obtain ⟨hm, hp⟩ := List.mem_filter.mp hpiece
  exact ⟨piece, rfl, (of_decide_eq_true hp).1, (of_decide_eq_true hp).2, h piece hm⟩

/-- The spelling of names starts with no slash, and its first piece is no dot. -/
theorem componentsOf_spell_names {names : List Component}
    (h : AreNames names) :
    componentsOf (spell names) = names := by
  cases names with
  | nil => rfl
  | cons c rest =>
    have hsplit := segments_spell (List.cons_ne_nil c rest) h
    obtain ⟨chars, rfl, hnil, hdot, hslash⟩ := h c List.mem_cons_self
    unfold componentsOf
    split
    · next tail heq =>
      -- A spelling that starts with a slash would start with an empty piece.
      rw [heq, segments] at hsplit
      exact absurd (List.cons.inj hsplit).1.symm hnil
    · rw [hsplit]
      split
      · next heq => exact absurd (List.cons.inj heq).1 hdot
      · exact namesOf_map_chars h

/-- A text has names, which may stand behind a root or a dot. -/
theorem componentsOf_shape (chars : List Char) :
    ∃ names, AreNames names ∧ (componentsOf chars = names ∨
      componentsOf chars = .root :: names ∨ componentsOf chars = .here :: names) := by
  have hsegments : ∀ l : List Char, ∀ p ∈ segments l, '/' ∉ p := fun l p hp =>
    slash_notMem_of_mem_segments hp
  unfold componentsOf
  split
  · next rest => exact ⟨_, areNames_namesOf (hsegments rest), .inr (.inl rfl)⟩
  · split
    · next pieces heq =>
      have hpieces : ∀ p ∈ pieces, '/' ∉ p := fun p hp =>
        hsegments chars p (heq ▸ List.mem_cons_of_mem _ hp)
      exact ⟨_, areNames_namesOf hpieces, .inr (.inr rfl)⟩
    · exact ⟨_, areNames_namesOf (hsegments chars), .inl rfl⟩

/-- Reading a root and names back from their spelling gives them. -/
theorem componentsOf_spell_root {names : List Component} (h : AreNames names) :
    componentsOf (spell (.root :: names)) = .root :: names := by
  cases names with
  | nil => rfl
  | cons c rest =>
    have hspell : spell (.root :: c :: rest) = '/' :: spell (c :: rest) := rfl
    rw [hspell, componentsOf, namesOf_segments_spell h]

/-- Reading a dot and names back from their spelling gives them. -/
theorem componentsOf_spell_here {names : List Component} (h : AreNames names) :
    componentsOf (spell (.here :: names)) = .here :: names := by
  cases names with
  | nil => rfl
  | cons c rest =>
    have hspell : spell (.here :: c :: rest) = ['.'] ++ '/' :: spell (c :: rest) := rfl
    have hsplit : segments (spell (.here :: c :: rest)) = ['.'] :: segments (spell (c :: rest)) := by
      rw [hspell]
      exact segments_append_slash (by decide) _
    unfold componentsOf
    split
    · next heq =>
      rw [hspell] at heq
      simp at heq
    · rw [hsplit]
      simp only
      rw [namesOf_segments_spell h]

/-- Reading the shortest spelling of the components of a text gives them back. -/
theorem componentsOf_spell_componentsOf (chars : List Char) :
    componentsOf (spell (componentsOf chars)) = componentsOf chars := by
  obtain ⟨names, hnames, h | h | h⟩ := componentsOf_shape chars
  · rw [h]
    exact componentsOf_spell_names hnames
  · rw [h]
    exact componentsOf_spell_root hnames
  · rw [h]
    exact componentsOf_spell_here hnames

/-- The shortest spelling of a path has the components of the path. -/
theorem components_normal (path : Path) : path.normal.components = path.components := by
  rw [components, normal, String.toList_ofList]
  exact componentsOf_spell_componentsOf _

/-- Paths have one shortest spelling exactly when they have the same components. -/
theorem normal_eq_iff {a b : Path} : a.normal = b.normal ↔ a.components = b.components := by
  constructor
  · intro h
    rw [← components_normal a, h, components_normal b]
  · intro h
    rw [normal, normal, h]

end SolutionWatch.Path
