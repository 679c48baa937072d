import SolutionWatch.Cancellation
import SolutionWatch.Request

/-!
# Scripted collaborators

In a session the parts that the pipeline works with, the processor of a queue, the service behind a
worker and the client of a host, follow a script: each call takes the next response, and a call
after the end of the script takes the response that succeeds at once.
-/

namespace SolutionWatch

/-- How a scripted call ends. -/
inductive Reply where
  /-- It succeeds. -/
  | succeed
  /-- It fails. -/
  | fail (failure : Failure)
  /-- It breaks down without a result. -/
  | crash
  /-- It fails at once, with an error that is not a failure of the pipeline. -/
  | refuse
  /-- It cancels a token, if there is one to cancel, and succeeds. -/
  | cancel (token : Option Token)
  /-- It waits for its own token to be cancelled, and is cancelled then. -/
  | awaitCancel
  deriving DecidableEq, Repr

/-- What a scripted call does. -/
structure Response where
  /-- How long it takes before it ends, in milliseconds. -/
  delay : Nat := 0
  /-- How it ends. -/
  reply : Reply := .succeed
  /-- The messages that it sends first, if it is a search; one that cannot be read is `none`. -/
  messages : List (Option ReferenceMessage) := []
  deriving Repr

/-- The responses that are left to a collaborator. -/
abbrev Script := List Response

namespace Script

/-- The response for the next call, and the script after it. -/
def take (script : Script) : Response × Script := (script.headD {}, script.drop 1)

end Script

/-- A scripted call that goes on. -/
structure Act where
  /-- When it is over with its delay. -/
  due : Nat
  /-- How it ends then. -/
  reply : Reply
  deriving DecidableEq, Repr

namespace Act

/-- Whether nothing but the cancellation of its token can end a call. -/
def awaitsCancel (act : Act) (now : Nat) : Bool := act.reply = .awaitCancel && act.due ≤ now

end Act

/-- The call that starts with a response. -/
def Response.act (response : Response) (now : Nat) : Act := ⟨now + response.delay, response.reply⟩

/-- Whether a call breaks down at once. Nobody gets to read the messages that it sent. -/
def Response.isLost (response : Response) : Bool :=
  response.delay = 0 && response.reply = .crash

/-- How a call ended. -/
inductive Ending where
  /-- It succeeded. -/
  | succeeded
  /-- It failed. -/
  | failed (failure : Failure)
  /-- It broke down without a result. -/
  | crashed
  /-- It failed with an error that is not a failure of the pipeline. -/
  | refused
  deriving DecidableEq, Repr

namespace Ending

/-- The ending of a computation. -/
def ofExcept : Except Failure Unit → Ending
  | .ok _ => .succeeded
  | .error failure => .failed failure

end Ending

end SolutionWatch
