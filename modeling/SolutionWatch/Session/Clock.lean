import SolutionWatch.Session.Holding
import SolutionWatch.Session.Turn

/-!
# The clock of a session

While the foreground waits, tasks take their turns, and when none has anything to do the clock moves
to the next alarm. `Session.run` goes on like that until the foreground has what it waits for or
until a deadline. The foreground looks before the first turn, each time the agenda is empty, each
time the clock has moved, and after every `Session.stretch` turns.

Each turn uses up some of the work at hand, so `Session.load` bounds how many there can be.
-/

namespace SolutionWatch

/-- How many items an event can turn into. -/
def Event.load (event : Event) : Nat :=
  match event.diff with
  | .ok items => items.length
  | .error _ => 0

/-- How many requests an errand can still send. -/
def Errand.load (errand : Errand) : Nat :=
  match errand.stage with
  | .events _ events => (events.map Event.load).foldr (· + ·) 0
  | .request _ => 0
  | .delivery _ _ delivery _ => delivery.remaining.length

namespace Session

/-- The first task on the agenda has its turn. -/
def takeTurn (session : Session) : Session :=
  match session.agenda with
  | [] => session
  | task :: rest => (({ session with agenda := rest }).giveTurn task).letGo

/-- How many turns are taken before the foreground looks again. -/
def stretch : Nat := 61

/-- The tasks that there are and that can still come, roughly. -/
def tasksToCome (session : Session) : Nat :=
  session.agenda.length + session.alarms.length + session.queues.size + session.listeners.size +
    session.errands.size + session.calls.size + session.workers.size + session.departures.size +
    (session.queues.values.map fun q => q.keeper.queue.pending.length).foldr (· + ·) 0 +
    (session.errands.values.map Errand.load).foldr (· + ·) 0 +
    (session.listeners.values.map fun listener =>
      (listener.keeper.queue.pending.map fun event => 1 + event.load).foldr (· + ·) 0).foldr (· + ·) 0

/-- A bound on how many turns and looks there can be until no work is left. No task has more than a
few turns: one to begin, one for an alarm, one for a reply, and one for a token. -/
def load (session : Session) : Nat := 32 * (session.tasksToCome + 1)

/-- Lets tasks take their turns, and the clock move to the deadline and no further, until `look`
finds something. The foreground looks after `turns` more turns; there are at most `limit` turns and
looks. -/
def run {α : Type} (deadline : Nat) (look : Session → Option α × Session) :
    Nat → Nat → Session → Option α × Session
  | 0, _, session => (none, { session with now := max session.now deadline })
  | limit + 1, turns, session =>
    if turns ≠ 0 ∧ session.agenda ≠ [] then run deadline look limit (turns - 1) session.takeTurn
    else
      match look session with
      | (some found, session) => (some found, session)
      | (none, session) =>
        if session.agenda ≠ [] then run deadline look limit stretch session
        else
          match session.nextAlarm? with
          | some time =>
            if time ≤ deadline then run deadline look limit 0 (session.moveClock time)
            else (none, { session with now := max session.now deadline })
          | none => (none, { session with now := max session.now deadline })

/-- Whether some task has something to do now. -/
def isBusy (session : Session) : Bool :=
  !session.agenda.isEmpty || session.nextAlarm?.any fun time => time ≤ session.now

/-- Lets everything happen that is due now. -/
def settle (session : Session) : Session :=
  let session := session.letGo
  if session.isBusy then
    (run session.now (fun session => ((none : Option Unit), session)) session.load 0 session).2
  else session

/-- Waits until `look` finds something, but no longer than some milliseconds. -/
def waitFor {α : Type} (session : Session) (time : Nat) (look : Session → Option α × Session) :
    Option α × Session :=
  let session := session.letGo
  run (session.now + time) look session.load 0 session

/-- Moves the clock on by some milliseconds. -/
def advance (session : Session) (time : Nat) : Session :=
  (session.waitFor time fun session => ((none : Option Unit), session)).2.settle

/-- How long anybody waits for something that may never end: a day. -/
def patience : Nat := 86400000

end Session

end SolutionWatch
