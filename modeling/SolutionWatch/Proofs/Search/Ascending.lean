import Mathlib.Data.List.Basic
import SolutionWatch.TextSpan

/-!
# Spans in ascending order

Spans are ordered by where they start and end, so spans in ascending order are determined by which spans
they are (`TextSpan.Ascending.eq_of_mem_iff`).

To add a span to others the part that is left to look at is halved until the span is found, or nothing is
left. This only works because the others are in order: the span in the middle then says on which side of it
the slot is (`TextSpan.suits_slotBetween`). So the span comes after everything before its slot and before
everything behind it, and adding it there keeps the order (`TextSpan.Ascending.insertSorted`).
-/

namespace SolutionWatch

namespace TextSpan

variable {a b c span : TextSpan} {spans : List TextSpan}

/-- A span comes before another one if it starts earlier, or if it starts with it and ends earlier. -/
theorem order_eq_lt_iff : a.order b = .lt ↔ a.start.toNat < b.start.toNat ∨
    a.start.toNat = b.start.toNat ∧ a.stop.toNat < b.stop.toNat := by
  unfold order
  rw [Ordering.then_eq_lt, Nat.compare_eq_lt, Nat.compare_eq_eq, Nat.compare_eq_lt]

/-- A span is determined by where it starts and where it ends. -/
theorem eq_of_toNat (hstart : a.start.toNat = b.start.toNat) (hstop : a.stop.toNat = b.stop.toNat) :
    a = b := by
  cases a
  cases b
  exact congrArg₂ mk (UInt32.toNat_inj.mp hstart) (UInt32.toNat_inj.mp hstop)

/-- Only a span itself has its place in the order. -/
theorem order_eq_eq_iff : a.order b = .eq ↔ a = b := by
  unfold order
  rw [Ordering.then_eq_eq, Nat.compare_eq_eq, Nat.compare_eq_eq]
  constructor
  · rintro ⟨hstart, hstop⟩
    exact eq_of_toNat hstart hstop
  · rintro rfl
    exact ⟨rfl, rfl⟩

/-- If a span comes neither before another one nor in its place, the other one comes before it. -/
theorem order_eq_lt_of_gt (h : a.order b = .gt) : b.order a = .lt := by
  have hlt : a.order b ≠ .lt := by rw [h]; decide
  have heq : a.order b ≠ .eq := by rw [h]; decide
  rw [ne_eq, order_eq_lt_iff] at hlt
  rw [ne_eq, order_eq_eq_iff] at heq
  rw [order_eq_lt_iff]
  by_contra hnot
  have hstart : a.start.toNat = b.start.toNat := by omega
  have hstop : a.stop.toNat = b.stop.toNat := by omega
  exact heq (eq_of_toNat hstart hstop)

/-- What comes before a span comes before whatever comes after the span. -/
theorem order_trans (hab : a.order b = .lt) (hbc : b.order c = .lt) : a.order c = .lt := by
  rw [order_eq_lt_iff] at *
  omega

/-- The spans are listed in order, and none of them twice. -/
def Ascending (spans : List TextSpan) : Prop := spans.Pairwise fun a b => a.order b = .lt

/-- No span comes before itself. -/
theorem order_irrefl (span : TextSpan) : span.order span ≠ .lt := by
  rw [order_eq_eq_iff.mpr rfl]
  decide

/-- Spans in order are determined by which spans they are. -/
theorem Ascending.eq_of_mem_iff {others : List TextSpan} (h : Ascending spans) (hothers : Ascending others)
    (hmem : ∀ span, span ∈ others ↔ span ∈ spans) : others = spans := by
  have hne : ∀ {a b : TextSpan}, a.order b = .lt → a ≠ b := by
    rintro a b hlt rfl
    exact order_irrefl a hlt
  have hperm : others.Perm spans := (List.perm_ext_iff_of_nodup (hothers.imp hne) (h.imp hne)).mpr hmem
  exact hperm.eq_of_pairwise (fun a _ _ _ hlt hback => absurd (order_trans hlt hback) (order_irrefl a))
    hothers h

/-! ## The search for a slot -/

/-- Everything listed before an index comes before the span. -/
def Above (span : TextSpan) (spans : List TextSpan) (index : ℕ) : Prop :=
  ∀ other ∈ spans.take index, other.order span = .lt

/-- The span comes before everything listed from an index on. -/
def Below (span : TextSpan) (spans : List TextSpan) (index : ℕ) : Prop :=
  ∀ other ∈ spans.drop index, span.order other = .lt

/-- A slot suits a span if it is listed there, or if it comes after what is listed before the slot and before
what is listed behind it. -/
inductive Slot.Suits (span : TextSpan) (spans : List TextSpan) : Slot → Prop
  /-- The span is listed there. -/
  | taken {index : ℕ} : spans[index]? = some span → Suits span spans (.taken index)
  /-- The span belongs there. -/
  | free {index : ℕ} : span.Above spans index → span.Below spans index → Suits span spans (.free index)

/-- A span that comes after the one at an index comes after everything up to that one. -/
theorem Ascending.above (h : Ascending spans) {index : ℕ} (hindex : index < spans.length)
    (hlt : spans[index].order span = .lt) : span.Above spans (index + 1) := by
  intro other hother
  have hrow : (spans.take index ++ [spans[index]]).Pairwise fun a b => a.order b = .lt := by
    rw [List.take_append_getElem hindex]
    exact h.take
  rw [← List.take_append_getElem hindex, List.mem_append, List.mem_singleton] at hother
  rcases hother with hbefore | rfl
  · exact order_trans ((List.pairwise_append.mp hrow).2.2 other hbefore _ (List.mem_singleton_self _)) hlt
  · exact hlt

/-- A span that comes before the one at an index comes before everything from that one on. -/
theorem Ascending.below (h : Ascending spans) {index : ℕ} (hindex : index < spans.length)
    (hlt : span.order spans[index] = .lt) : span.Below spans index := by
  intro other hother
  have hrow : (spans[index] :: spans.drop (index + 1)).Pairwise fun a b => a.order b = .lt := by
    rw [← List.drop_eq_getElem_cons hindex]
    exact h.drop
  rw [List.drop_eq_getElem_cons hindex, List.mem_cons] at hother
  rcases hother with rfl | hbehind
  · exact hlt
  · exact order_trans hlt (List.rel_of_pairwise_cons hrow hbehind)

/-- The search between two indices finds a slot that suits, if the span belongs between them. -/
theorem suits_slotBetween (h : Ascending spans) {low high : ℕ} (inside : high ≤ spans.length)
    (hle : low ≤ high) (habove : span.Above spans low) (hbelow : span.Below spans high) :
    (slotBetween span spans low high inside).Suits span spans := by
  fun_induction slotBetween span spans low high inside with
  -- What is left shrinks from one end at a time, and the span in the middle speaks for all beyond it.
  | case1 low high inside hlow horder ih =>
    exact ih (by omega) habove (h.below _ horder)
  | case2 low high inside hlow horder =>
    refine .taken ?_
    rw [order_eq_eq_iff.mp horder]
    exact List.getElem?_eq_getElem _
  | case3 low high inside hlow horder ih =>
    exact ih (by omega) (h.above _ (order_eq_lt_of_gt horder)) hbelow
  | case4 low high inside hlow =>
    -- Nothing is left, so the two sides meet.
    obtain rfl : low = high := by omega
    exact .free habove hbelow

/-- The slot of a span suits it. -/
theorem suits_slot (h : Ascending spans) (span : TextSpan) : (span.slot spans).Suits span spans := by
  refine suits_slotBetween h _ (Nat.zero_le _) (fun other hother => ?_) (fun other hother => ?_)
  · rw [List.take_zero] at hother
    exact absurd hother List.not_mem_nil
  · rw [List.drop_length] at hother
    exact absurd hother List.not_mem_nil

/-- Where spans are out of order the search can miss a span that is listed. -/
example : slot ⟨1, 1⟩ [⟨9, 9⟩, ⟨5, 5⟩, ⟨1, 1⟩] = .free 0 := by decide +kernel

/-! ## Adding a span -/

/-- What is listed after a span was added is the span and what was listed before. -/
theorem Ascending.mem_insertSorted (h : Ascending spans) {other : TextSpan} :
    other ∈ span.insertSorted spans ↔ other = span ∨ other ∈ spans := by
  have hsuits := suits_slot h span
  unfold TextSpan.insertSorted
  cases hslot : span.slot spans with
  | taken index =>
    rw [hslot] at hsuits
    cases hsuits with
    | taken hlisted =>
      refine ⟨.inr, ?_⟩
      rintro (rfl | hother)
      · exact List.mem_of_getElem? hlisted
      · exact hother
  | free index =>
    have hparts : other ∈ spans ↔ other ∈ spans.take index ∨ other ∈ spans.drop index := by
      rw [← List.mem_append, List.take_append_drop]
    rw [List.mem_append, List.mem_cons, hparts]
    exact or_left_comm

/-- A span that is added to spans in order is put in its place. -/
theorem Ascending.insertSorted (h : Ascending spans) (span : TextSpan) :
    Ascending (span.insertSorted spans) := by
  have hsuits := suits_slot h span
  unfold TextSpan.insertSorted
  cases hslot : span.slot spans with
  | taken index => exact h
  | free index =>
    rw [hslot] at hsuits
    cases hsuits with
    | free habove hbelow =>
      refine List.pairwise_append.mpr ⟨h.take, List.pairwise_cons.mpr ⟨hbelow, h.drop⟩, ?_⟩
      intro before hbefore other hother
      rcases List.mem_cons.mp hother with rfl | hbehind
      · exact habove before hbefore
      · exact order_trans (habove before hbefore) (hbelow other hbehind)

end TextSpan

end SolutionWatch
