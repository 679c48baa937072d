/-!
# Cancellation tokens

A token is a request to stop that can be made once and is never taken back. A token may have a
parent: cancelling a token cancels its descendants, and never its ancestors. A token carries the
numbers of its line of ancestors, so whether it is cancelled depends only on which tokens were
cancelled directly.
-/

namespace SolutionWatch

/-- A request to stop that someone may make. -/
structure Token where
  /-- The number of the token, then those of its ancestors from the parent on. -/
  lineage : List Nat
  deriving DecidableEq, Repr, Inhabited

/-- The tokens that there are, and which of them were cancelled. -/
structure TokenPool where
  /-- The number that the next token gets. -/
  next : Nat := 0
  /-- The numbers of the tokens that were cancelled directly. -/
  cancelled : List Nat := []
  deriving Repr

namespace TokenPool

/-- Makes a token without ancestors. -/
def root (pool : TokenPool) : Token × TokenPool :=
  (⟨[pool.next]⟩, { pool with next := pool.next + 1 })

/-- Makes a child of a token. -/
def child (pool : TokenPool) (parent : Token) : Token × TokenPool :=
  (⟨pool.next :: parent.lineage⟩, { pool with next := pool.next + 1 })

/-- Cancels a token and with it its descendants. -/
def cancel (pool : TokenPool) (token : Token) : TokenPool :=
  { pool with cancelled := token.lineage.head?.toList ++ pool.cancelled }

/-- Whether a token or one of its ancestors was cancelled. -/
def isCancelled (pool : TokenPool) (token : Token) : Bool :=
  token.lineage.any fun n => pool.cancelled.contains n

/-- A cancelled token stays cancelled. -/
theorem isCancelled_cancel {pool : TokenPool} {token : Token} (other : Token)
    (h : pool.isCancelled token = true) : (pool.cancel other).isCancelled token = true := by
  simp only [isCancelled, cancel, List.any_eq_true, List.contains_eq_mem, List.mem_append,
    decide_eq_true_eq] at h ⊢
  obtain ⟨n, hn, hc⟩ := h
  exact ⟨n, hn, .inr hc⟩

end TokenPool

end SolutionWatch
