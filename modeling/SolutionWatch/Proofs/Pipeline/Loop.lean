import SolutionWatch.Proofs.Queue.Effects
import SolutionWatch.Session.Clock

/-!
# What outlasts the loop of a session

The loop gives turns, lets go of what nobody holds, and moves the clock. A property that lasts through
each of these (`Session.Lasting`) lasts through any number of them, and so through every wait, as long as
it lasts through the looks of whoever waits.
-/

namespace SolutionWatch.Session

/-- A property that holds whatever time it is, whoever is awake and whatever alarms are set, after every
turn, and after what nobody holds was let go of. -/
structure Lasting (P : Session → Prop) : Prop where
  /-- It lasts while time goes by. -/
  elapse : ∀ session now agenda alarms, P session →
    P { session with now := now, agenda := agenda, alarms := alarms }
  /-- It lasts through turns. -/
  turn : ∀ session task, P session → P (session.giveTurn task).letGo
  /-- It lasts when things are let go of. -/
  letGo : ∀ session, P session → P session.letGo

namespace Lasting

variable {P : Session → Prop} {session : Session} {α : Type} {look : Session → Option α × Session}

/-- The first task on the agenda may have its turn. -/
theorem takeTurn (h : Lasting P) (hsession : P session) : P session.takeTurn := by
  unfold Session.takeTurn
  split
  · exact hsession
  · next task rest _ => exact h.turn _ task (h.elapse session session.now rest session.alarms hsession)

/-- The clock may move to the next alarms. -/
theorem moveClock (h : Lasting P) (hsession : P session) (time : ℕ) :
    P (session.moveClock time) := by
  obtain ⟨woken, hmoved, -⟩ := session.moveClock_eq time
  rw [hmoved]
  exact h.elapse session _ _ _ hsession

/-- The loop may go on until a deadline. -/
theorem run (h : Lasting P) (hlook : ∀ session, P session → P (look session).2)
    (deadline limit turns : ℕ) (hsession : P session) :
    P (Session.run deadline look limit turns session).2 := by
  -- Without turns and alarms left, the clock moves to the deadline.
  have hlate : ∀ session, P session → P { session with now := max session.now deadline } :=
    fun session hsession => h.elapse session _ _ _ hsession
  induction limit generalizing turns session with
  | zero => exact hlate session hsession
  | succ limit ih =>
    have hlooked := hlook session hsession
    rw [Session.run]
    split
    · exact ih _ (h.takeTurn hsession)
    · split
      · next hfound =>
        rw [hfound] at hlooked
        exact hlooked
      · next after hnone =>
        rw [hnone] at hlooked
        split
        · exact ih _ hlooked
        · split
          · split
            · exact ih _ (h.moveClock hlooked _)
            · exact hlate after hlooked
          · exact hlate after hlooked

/-- What the loop finds it finds in a session that still has the property. -/
theorem run_found (h : Lasting P) (hlook : ∀ session, P session → P (look session).2)
    (deadline limit turns : ℕ) (hsession : P session) {found : α} {last : Session}
    (hfound : Session.run deadline look limit turns session = (some found, last)) :
    ∃ before, P before ∧ look before = (some found, last) := by
  induction limit generalizing turns session with
  | zero =>
    rw [Session.run] at hfound
    cases hfound
  | succ limit ih =>
    have hlooked := hlook session hsession
    rw [Session.run] at hfound
    split at hfound
    · exact ih _ (h.takeTurn hsession) hfound
    · split at hfound
      · next heq => exact ⟨session, hsession, heq.trans hfound⟩
      · next after hnone =>
        rw [hnone] at hlooked
        split at hfound
        · exact ih _ hlooked hfound
        · split at hfound
          · split at hfound
            · exact ih _ (h.moveClock hlooked _) hfound
            · cases hfound
          · cases hfound

/-- Somebody may wait. -/
theorem waitFor (h : Lasting P) (hlook : ∀ session, P session → P (look session).2)
    (hsession : P session) (time : ℕ) : P (session.waitFor time look).2 :=
  h.run hlook _ _ _ (h.letGo session hsession)

/-- Everything that is due may happen. -/
theorem settle (h : Lasting P) (hsession : P session) : P session.settle := by
  rw [Session.settle]
  split
  · exact h.run (fun _ hlooked => hlooked) _ _ _ (h.letGo session hsession)
  · exact h.letGo session hsession

/-- Some time may pass. -/
theorem advance (h : Lasting P) (hsession : P session) (time : ℕ) : P (session.advance time) :=
  h.settle (h.waitFor (fun _ hlooked => hlooked) hsession time)

end Lasting

end SolutionWatch.Session
