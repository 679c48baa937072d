import SolutionWatch.Proofs.Queue.Effects
import SolutionWatch.Proofs.Snapshot.Registry
import SolutionWatch.Session.Setup

/-!
# What a batch leaves behind

A batch files snapshots, sends requests, and counts the requests that succeed. What it does is written down
entry by entry (`BatchEntry`). The entries are accounts of a step (`Session.Accounts`) if what the step left
behind agrees with them to the last item: the counter of delivered items has grown by as many as succeeded,
the registry is what it was with these snapshots filed in it, in order, and no other registry has changed, and
every client has got the requests that went to it, in order, and no other. Accounts of one step followed by
accounts of the next are accounts of both (`Session.Accounts.trans`).
-/

namespace SolutionWatch

/-- Something that a batch does, or that happens to it. -/
inductive BatchEntry where
  /-- It files a snapshot. -/
  | filed (solution : Solution)
  /-- It sends a request to a client. At this moment the registry holds the snapshot of the request or not,
  and the token is cancelled or not. -/
  | invoked (client : Client) (request : Request Fingerprint) (held cancelled : Bool)
  /-- The request that was sent last ends. -/
  | returned (ending : Ending)
  /-- It ends. At this moment the token is cancelled or not. -/
  | ended (ending : Ending) (cancelled : Bool)

namespace BatchEntry

/-- The snapshot that is filed. -/
def snapshot? : BatchEntry → Option Solution
  | .filed solution => some solution
  | _ => none

/-- The request that is sent to a client. -/
def requestTo? (client : Client) : BatchEntry → Option (Request Fingerprint)
  | .invoked other request _ _ => if other = client then some request else none
  | _ => none

/-- Whoever a request is sent to gets that request. -/
theorem filterMap_requestTo?_self (client : Client) (request : Request Fingerprint)
    (held cancelled : Bool) :
    [invoked client request held cancelled].filterMap (requestTo? client) = [request] := by
  simp [requestTo?]

/-- No other client gets a request. -/
theorem filterMap_requestTo?_of_ne {client other : Client} (h : client ≠ other)
    (request : Request Fingerprint) (held cancelled : Bool) :
    [invoked client request held cancelled].filterMap (requestTo? other) = [] := by
  simp [requestTo?, h]

/-- Whether a request succeeds. -/
def isSuccess : BatchEntry → Bool
  | .returned .succeeded => true
  | _ => false

end BatchEntry

/-- Between two moments no number was given away twice: the calls of the earlier moment are as they were. -/
structure Session.KeepsCalls (before after : Session) : Prop where
  /-- Numbers are given away in order. -/
  next : before.next ≤ after.next
  /-- The calls that had a number have it still. -/
  calls : ∀ call < before.next, after.calls.get? call = before.calls.get? call

/-- Calls that are kept twice are kept. -/
theorem Session.KeepsCalls.trans {before middle after : Session} (h : before.KeepsCalls middle)
    (h' : middle.KeepsCalls after) : before.KeepsCalls after where
  next := Nat.le_trans h.next h'.next
  calls call hlt := (h'.calls call (Nat.lt_of_lt_of_le hlt h.next)).trans (h.calls call hlt)

namespace Client

/-- The requests that a client has got since an earlier moment are these. A scripted host keeps them, a worker
finds calls in its inbox. A worker that has stopped gets nothing. -/
def Got (requests : List (Request Fingerprint)) (before after : Session) : Client → Prop
  | .scripted host => ∀ script kept, before.hosts.get? host = some (.scripted script kept) →
      ∃ rest, after.hosts.get? host = some (.scripted rest (kept ++ requests))
  | .worker handle => ∀ state, before.workers.get? handle = some state → state.running = true →
      ∃ calls, after.workers.get? handle = some { state with inbox := state.inbox ++ calls } ∧
        (∀ call ∈ calls, call < after.next) ∧
        calls.map (fun call => (after.calls.get? call).map Call.request) =
          requests.map fun request => some ⟨.fingerprint request.address, request.operation⟩

variable {client : Client} {first second : List (Request Fingerprint)} {before middle after : Session}

/-- What a client gets in one step and then in another one it gets in both. -/
theorem Got.trans (h : client.Got first before middle) (h' : client.Got second middle after)
    (hkeeps : middle.KeepsCalls after) : client.Got (first ++ second) before after := by
  cases client with
  | scripted host =>
    intro script kept hbefore
    obtain ⟨rest, hmiddle⟩ := h script kept hbefore
    obtain ⟨last, hafter⟩ := h' rest _ hmiddle
    exact ⟨last, by rw [hafter, List.append_assoc]⟩
  | worker handle =>
    intro state hbefore hrunning
    obtain ⟨calls, hmiddle, hold, hrequests⟩ := h state hbefore hrunning
    obtain ⟨new, hafter, hnew, hmore⟩ := h' _ hmiddle hrunning
    refine ⟨calls ++ new, by rw [hafter, List.append_assoc], ?_, ?_⟩
    · intro call hcall
      rcases List.mem_append.mp hcall with hcall | hcall
      · exact Nat.lt_of_lt_of_le (hold call hcall) hkeeps.next
      · exact hnew call hcall
    · have hkept : calls.map (fun call => (after.calls.get? call).map Call.request) =
          calls.map fun call => (middle.calls.get? call).map Call.request :=
        List.map_congr_left fun call hcall => by rw [hkeeps.calls call (hold call hcall)]
      rw [List.map_append, List.map_append, hkept, hrequests, hmore]

end Client

namespace Session

variable {session before middle after : Session} {registry : Handle} {token : Token}
  {entries more : List BatchEntry}

/-- The entries tell what a step left behind. -/
structure Accounts (registry : Handle) (entries : List BatchEntry) (before after : Session) : Prop where
  /-- Each request that succeeds is counted. -/
  sent : after.counters.workItemsSent =
    before.counters.workItemsSent + entries.countP BatchEntry.isSuccess
  /-- The snapshots are filed in order, and in one registry only. -/
  store : ∀ handle, after.registry handle =
    if handle = registry then
      (entries.filterMap BatchEntry.snapshot?).foldl SnapshotRegistry.file (before.registry handle)
    else before.registry handle
  /-- Each client has got the requests that were sent to it. -/
  got : ∀ client : Client, client.Got (entries.filterMap (BatchEntry.requestTo? client)) before after
  /-- Calls that were made earlier are as they were. -/
  keeps : KeepsCalls before after

/-- Accounts of one step and then of the next one are accounts of both. -/
theorem Accounts.trans (h : Accounts registry entries before middle)
    (h' : Accounts registry more middle after) : Accounts registry (entries ++ more) before after where
  sent := by rw [h'.sent, h.sent, List.countP_append, Nat.add_assoc]
  store handle := by
    rw [h'.store, h.store, List.filterMap_append, List.foldl_append]
    split <;> rfl
  got client := by
    rw [List.filterMap_append]
    exact (h.got client).trans (h'.got client) h'.keeps
  keeps := h.keeps.trans h'.keeps

/-! ## What leaves nothing behind -/

/-- What accounts are about. -/
structure Books where
  /-- The number of items that were delivered. -/
  sent : ℕ
  /-- The registries. -/
  registries : Catalog Handle SnapshotRegistry
  /-- The hosts. -/
  hosts : Catalog Handle HostState
  /-- The workers. -/
  workers : Catalog Handle WorkerState
  /-- The calls. -/
  calls : Catalog Handle Call
  /-- The number that the next object gets. -/
  next : Handle

/-- The books of a session. -/
def books (session : Session) : Books :=
  ⟨session.counters.workItemsSent, session.registries, session.hosts, session.workers, session.calls,
    session.next⟩

/-- If the books are as before, nothing has happened. -/
theorem Accounts.of_books (h : after.books = before.books) : Accounts registry [] before after where
  sent := congrArg Books.sent h
  store handle := by
    have hregistries : after.registries = before.registries := congrArg Books.registries h
    rw [Session.registry, Session.registry, hregistries]
    exact (ite_self _).symm
  got client := by
    cases client with
    | scripted host =>
      intro script kept hbefore
      have hhosts : after.hosts = before.hosts := congrArg Books.hosts h
      refine ⟨script, ?_⟩
      rw [hhosts, hbefore]
      exact congrArg (fun kept => some (HostState.scripted script kept)) (List.append_nil kept).symm
    | worker worker =>
      intro state hbefore _
      have hworkers : after.workers = before.workers := congrArg Books.workers h
      refine ⟨[], ?_, nofun, rfl⟩
      rw [hworkers, hbefore, List.append_nil]
  keeps :=
    { next := Nat.le_of_eq (congrArg Books.next h).symm
      calls := fun call _ => congrArg (fun books => books.calls.get? call) h }

/-- What leaves the books as they are may come after a step. -/
theorem Accounts.books (h : Accounts registry entries before middle)
    (hafter : after.books = middle.books) : Accounts registry entries before after := by
  have h' := h.trans (Accounts.of_books hafter)
  rw [List.append_nil] at h'
  exact h'

/-- That something ends leaves nothing behind. -/
theorem Accounts.ended (h : Accounts registry entries before after) (ending : Ending) (cancelled : Bool) :
    Accounts registry (entries ++ [.ended ending cancelled]) before after :=
  have hended : Accounts registry [.ended ending cancelled] after after :=
    have hkept : Accounts registry [] after after := .of_books rfl
    ⟨rfl, hkept.store, hkept.got, hkept.keeps⟩
  h.trans hended

/-- That a request fails, and with it the delivery, leaves nothing behind. -/
theorem Accounts.failed (h : Accounts registry entries before after) {ending : Ending}
    (hfailed : ending ≠ .succeeded) (cancelled : Bool) :
    Accounts registry (entries ++ [.returned ending, .ended ending cancelled]) before after := by
  have hkept : Accounts registry [] after after := .of_books rfl
  have hreturned : Accounts registry [.returned ending] after after := by
    refine ⟨?_, hkept.store, hkept.got, hkept.keeps⟩
    cases ending with
    | succeeded => contradiction
    | failed | crashed | refused => rfl
  exact h.trans (hreturned.ended ending cancelled)

/-- Waking a task leaves the books as they are. -/
theorem books_wake (session : Session) (task : Task) : (session.wake task).books = session.books := by
  obtain ⟨woken, heq, -⟩ := session.wake_eq task
  rw [heq]
  rfl

/-- Cancelling a token leaves the books as they are. -/
theorem books_cancelToken (session : Session) (token : Token) :
    (session.cancelToken token).books = session.books := by
  obtain ⟨base, woken, rfl | ⟨other, rfl⟩, heq, -⟩ := session.cancelToken_eq token <;>
    · rw [heq]
      rfl

/-- Looking at a request leaves the books as they are. -/
theorem books_lookAt (session : Session) (pending : Pending) (token : Token) :
    (session.lookAt pending token).2.books = session.books := by
  cases pending with
  | act act =>
    rcases session.lookAtAct_cases act token with ⟨ending, hlook⟩ | ⟨other, hlook⟩
    · rw [lookAt, hlook]
    · rw [lookAt, hlook]
      exact session.books_cancelToken other
  | call call | ended ending => rfl

/-- The end of an errand leaves the books as they are. -/
theorem books_endErrand (session : Session) (handle : Handle) (owner : ErrandOwner) (ending : Ending) :
    (session.endErrand handle owner ending).books = session.books := by
  cases owner with
  | asker => rfl
  | listener listener => exact books_wake _ _

/-! ## What is written down -/

/-- A snapshot that is filed is accounted for. -/
theorem accounts_fileSnapshot (session : Session) (registry : Handle) (solution : Solution) :
    Accounts registry [.filed solution] session (session.fileSnapshot registry solution).2 := by
  have hkept : Accounts registry [] session session := .of_books rfl
  refine ⟨rfl, fun handle => ?_, hkept.got, ⟨hkept.keeps.next, hkept.keeps.calls⟩⟩
  rw [Session.registry, fileSnapshot, Catalog.get?_insert]
  by_cases hhandle : handle = registry
  · rw [if_pos hhandle, if_pos hhandle.symm, hhandle]
    rfl
  · rw [if_neg hhandle, if_neg (Ne.symm hhandle)]
    rfl

/-- A request that has succeeded is accounted for. -/
theorem accounts_countSent (session : Session) (registry : Handle) :
    Accounts registry [.returned .succeeded] session session.countSent := by
  have hkept : Accounts registry [] session session := .of_books rfl
  exact ⟨rfl, hkept.store, hkept.got, ⟨hkept.keeps.next, hkept.keeps.calls⟩⟩

/-- The session with a new call in the inbox of a worker. -/
def withCall (session : Session) (worker : Handle) (state : WorkerState) (call : Call) : Session :=
  { session with
    next := session.next + 1
    calls := session.calls.insert session.next call
    workers := session.workers.insert worker { state with inbox := state.inbox ++ [session.next] } }

/-- A request that is sent to a worker is in its inbox, as a call with a new number; or the worker has
stopped. -/
theorem post_cases (session : Session) (worker : Handle) (request : Request Address) (token : Token)
    (errand : Handle) :
    ((session.post worker request token errand).2 = session ∧
        ∀ state, session.workers.get? worker = some state → state.running = false) ∨
      ∃ state, session.workers.get? worker = some state ∧
        (session.post worker request token errand).2.books =
          (session.withCall worker state ⟨worker, request, token, errand, none⟩).books := by
  unfold post
  split
  · next state hstate =>
    split
    · exact .inr ⟨state, hstate, books_wake _ _⟩
    · next hstopped =>
      refine .inl ⟨rfl, fun other hother => ?_⟩
      obtain rfl : state = other := Option.some.inj (hstate.symm.trans hother)
      exact Bool.eq_false_iff.mpr hstopped
  · next hnone =>
    refine .inl ⟨rfl, fun other hother => ?_⟩
    rw [hnone] at hother
    contradiction

/-- A request that is sent to a worker is accounted for. -/
theorem accounts_post (session : Session) (registry worker : Handle) (request : Request Fingerprint)
    (token : Token) (errand : Handle) (held cancelled : Bool) :
    Accounts registry [.invoked (.worker worker) request held cancelled] session
      (session.post worker ⟨.fingerprint request.address, request.operation⟩ token errand).2 := by
  have hkept : Accounts registry [] session session := .of_books rfl
  obtain ⟨heq, hstopped⟩ | ⟨state, hstate, hbooks⟩ :=
    session.post_cases worker ⟨.fingerprint request.address, request.operation⟩ token errand
  · rw [heq]
    refine ⟨rfl, hkept.store, fun client => ?_, hkept.keeps⟩
    by_cases hclient : .worker worker = client
    · subst hclient
      intro state hstate hrunning
      rw [hstopped state hstate] at hrunning
      contradiction
    · rw [BatchEntry.filterMap_requestTo?_of_ne hclient]
      exact hkept.got client
  · have hposted : Accounts registry [.invoked (.worker worker) request held cancelled] session
        (session.withCall worker state
          ⟨worker, ⟨.fingerprint request.address, request.operation⟩, token, errand, none⟩) := by
      refine ⟨rfl, hkept.store, fun client => ?_, Nat.le_succ _, fun call hlt => ?_⟩
      · by_cases hclient : .worker worker = client
        · subst hclient
          rw [BatchEntry.filterMap_requestTo?_self]
          intro state' hstate' _
          obtain rfl : state = state' := Option.some.inj (hstate.symm.trans hstate')
          refine ⟨[session.next], (Catalog.get?_insert _ _ _ _).trans (if_pos rfl), ?_, ?_⟩
          · simp [withCall]
          · simp [withCall, Catalog.get?_insert]
        · rw [BatchEntry.filterMap_requestTo?_of_ne hclient]
          cases client with
          | scripted host => exact hkept.got (.scripted host)
          | worker other =>
            intro state' hstate' _
            have hne : worker ≠ other := fun h => hclient (congrArg Client.worker h)
            refine ⟨[], ?_, List.forall_mem_nil _, rfl⟩
            rw [List.append_nil]
            exact ((Catalog.get?_insert _ _ _ _).trans (if_neg hne)).trans hstate'
      · exact (Catalog.get?_insert _ _ _ _).trans (if_neg (Nat.ne_of_gt hlt))
    exact hposted.books hbooks

/-- A request that is sent to the client of a scripted host is accounted for. -/
theorem accounts_takeResponse (session : Session) (registry host : Handle) (request : Request Fingerprint)
    (held cancelled : Bool) :
    Accounts registry [.invoked (.scripted host) request held cancelled] session
      (session.takeResponse host request).2 := by
  have hkept : Accounts registry [] session session := .of_books rfl
  unfold takeResponse
  split
  · next script kept hhost =>
    refine ⟨rfl, hkept.store, fun client => ?_, ⟨hkept.keeps.next, hkept.keeps.calls⟩⟩
    by_cases hclient : .scripted host = client
    · subst hclient
      rw [BatchEntry.filterMap_requestTo?_self]
      intro script' kept' hhost'
      obtain ⟨rfl, rfl⟩ := HostState.scripted.inj (Option.some.inj (hhost.symm.trans hhost'))
      exact ⟨_, (Catalog.get?_insert _ _ _ _).trans (if_pos rfl)⟩
    · rw [BatchEntry.filterMap_requestTo?_of_ne hclient]
      cases client with
      | worker worker => exact hkept.got (.worker worker)
      | scripted other =>
        intro script' kept' hhost'
        have hne : host ≠ other := fun h => hclient (congrArg Client.scripted h)
        refine ⟨script', ?_⟩
        rw [List.append_nil]
        exact ((Catalog.get?_insert _ _ _ _).trans (if_neg hne)).trans hhost'
  · next hhost =>
    refine ⟨rfl, hkept.store, fun client => ?_, hkept.keeps⟩
    by_cases hclient : .scripted host = client
    · subst hclient
      intro script' kept' hhost'
      exact absurd hhost' (hhost script' kept')
    · rw [BatchEntry.filterMap_requestTo?_of_ne hclient]
      exact hkept.got client

/-- A request that is sent is accounted for. -/
theorem accounts_invoke (session : Session) (registry : Handle) (client : Client)
    (request : Request Fingerprint) (token : Token) (errand : Handle) (held cancelled : Bool) :
    Accounts registry [.invoked client request held cancelled] session
      (session.invoke client request token errand).2 := by
  cases client with
  | worker worker => exact session.accounts_post registry worker request token errand held cancelled
  | scripted host =>
    obtain ⟨alarms, heq, -⟩ := (session.takeResponse host request).2.wakeAfter_eq
      ((session.takeResponse host request).1.act (session.takeResponse host request).2.now) (.errand errand)
    refine (session.accounts_takeResponse registry host request held cancelled).books ?_
    simp only [invoke, heq]
    rfl

end Session

end SolutionWatch
