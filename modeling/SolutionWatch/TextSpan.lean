import SolutionWatch.Id

/-!
# Text ranges

A `TextSpan` is a half-open range of positions in a document. Spans are ordered by start and then
by end. Two spans intersect when neither ends before the other starts, so an empty span intersects
every span that contains or touches its position.

Spans are kept in ascending order. Where another one belongs among them is found by halving
(`TextSpan.slot`).
-/

namespace SolutionWatch

/-- The range of positions from `start` up to, but not including, `stop`. -/
structure TextSpan where
  /-- The first position of the range. -/
  start : UInt32
  /-- The position after the last one of the range. -/
  stop : UInt32
  deriving DecidableEq, Repr, Hashable, Inhabited

namespace TextSpan

/-- The number of positions in a span; a span that ends before it starts has none. -/
def length (span : TextSpan) : Nat := span.stop.toNat - span.start.toNat

/-- Whether a span has no positions. -/
def isEmpty (span : TextSpan) : Bool := span.length == 0

/-- Whether neither span ends before the other starts. -/
def intersects (a b : TextSpan) : Bool :=
  a.start.toNat ≤ b.stop.toNat && b.start.toNat ≤ a.stop.toNat

/-- Spans are ordered by start, and from one start by end. -/
def order (a b : TextSpan) : Ordering :=
  (compare a.start.toNat b.start.toNat).then (compare a.stop.toNat b.stop.toNat)

/-- Intersection is symmetric. -/
theorem intersects_comm (a b : TextSpan) : a.intersects b = b.intersects a := by
  simp [intersects, Bool.and_comm]

/-- Where a span stands among spans in ascending order: at the index where it is listed, or else at the
index where it belongs. -/
inductive Slot where
  /-- The span is listed at an index. -/
  | taken (index : Nat)
  /-- The span is not listed, and belongs at an index. -/
  | free (index : Nat)
  deriving DecidableEq, Repr

/-- Looks for the slot of a span from one index up to another, halving the part that is left. -/
def slotBetween (span : TextSpan) (spans : List TextSpan) (low high : Nat)
    (inside : high ≤ spans.length) : Slot :=
  if hlow : low < high then
    match span.order spans[(low + high) / 2] with
    | .lt => slotBetween span spans low ((low + high) / 2) (by omega)
    | .eq => .taken ((low + high) / 2)
    | .gt => slotBetween span spans ((low + high) / 2 + 1) high inside
  else .free low
termination_by high - low

/-- The slot of a span among spans in ascending order. -/
def slot (span : TextSpan) (spans : List TextSpan) : Slot :=
  slotBetween span spans 0 spans.length (Nat.le_refl _)

/-- Adds a span to spans in ascending order, in its slot, unless it is listed already. -/
def insertSorted (span : TextSpan) (spans : List TextSpan) : List TextSpan :=
  match span.slot spans with
  | .taken _ => spans
  | .free index => spans.take index ++ span :: spans.drop index

end TextSpan

/-- A range of positions in a given document. -/
structure DocumentSpan where
  /-- The document. -/
  document : DocumentId
  /-- The range within the document. -/
  span : TextSpan
  deriving DecidableEq, Repr, Inhabited

end SolutionWatch
