import SolutionWatch.Proofs.Queue.Schedule
import SolutionWatch.Proofs.Snapshot.Registry
import SolutionWatch.Proofs.Worker.Course
import SolutionWatch.Session.Asking

/-!
# What happens to a session because of a call

A call is lost or refused, or its worker's service gets it; then it goes on or ends, and when it ends the
one errand that waits for it learns how (`Session.finishCall_cases`). Whatever becomes of a call in its
turn, nothing changes for the other calls and for those who wait for them (`Session.Apart`). The service
may cancel a token, and that too changes nothing for them but the token.

A worker resolves requests in a registry that it shares with its callers. Resolving makes an entry the most
recent one and forgets none, so no request finds anything else because of the requests before it
(`SnapshotRegistry.Like.accept`).
-/

namespace SolutionWatch

namespace Registry

variable {κ ν : Type} [DecidableEq κ] {registry : Registry κ ν} {key : κ} {value : ν}

/-- The registry keeps no more entries than it has room for. -/
def Fits (registry : Registry κ ν) : Prop := registry.entries.length ≤ registry.capacity

/-- A registry fits after a key was used. -/
theorem fits_touch (registry : Registry κ ν) (key : κ) (value : ν) :
    (registry.touch key value).Fits := List.length_take_le _ _

/-- Using a key that is found leaves everything to be found as it was. -/
theorem find?_touch_of_find? (hfits : registry.Fits) (h : registry.find? key = some value)
    (other : κ) : (registry.touch key value).find? other = registry.find? other := by
  -- The entry that is found makes room for itself.
  have hroom : (registry.entries.filter fun e => e.1 ≠ key).length < registry.entries.length := by
    obtain ⟨e, he, -⟩ := Option.map_eq_some_iff.mp h
    refine List.length_filter_lt_length_iff_exists.mpr ⟨e, List.mem_of_find?_eq_some he, ?_⟩
    simpa using List.find?_some he
  have htake : (registry.touch key value).entries =
      (key, value) :: registry.entries.filter fun e => e.1 ≠ key :=
    List.take_of_length_le (Nat.le_trans (Nat.succ_le_of_lt hroom) hfits)
  unfold find? at h ⊢
  rw [htake]
  by_cases hkey : key = other
  · subst hkey
    simp [h]
  · -- The entries that went are not those of the other key.
    have hother : ∀ e : κ × ν, decide (decide (e.1 ≠ key) = true ∧ decide (e.1 = other) = true) =
        decide (e.1 = other) := by
      intro e
      by_cases he : e.1 = other
      · simp [he, Ne.symm hkey]
      · simp [he]
    rw [List.find?_cons_of_neg (by simpa using hkey), List.find?_filter]
    simp only [hother]

end Registry

namespace SnapshotRegistry

/-- The registry fits, and every fingerprint finds in it what it finds in the other one. -/
structure Like (other registry : SnapshotRegistry) : Prop where
  /-- There are not too many entries. -/
  fits : registry.Fits
  /-- Every fingerprint finds the same. -/
  find? : ∀ print, registry.find? print = other.find? print

variable {registry other : SnapshotRegistry}

/-- A registry that was used fits. -/
theorem Used.fits (h : registry.Used) : registry.Fits := by
  induction h with
  | new capacity => exact Nat.zero_le _
  | file _ _ _ => exact Registry.fits_touch _ _ _
  | @lookup registry address _ ih =>
    cases address with
    | checksum checksum => exact ih
    | fingerprint print =>
      unfold SnapshotRegistry.lookup Registry.resolve
      dsimp only
      cases hfind : registry.find? print with
      | none => exact ih
      | some _ => exact Registry.fits_touch _ _ _

/-- In a registry that was used every fingerprint finds what it finds. -/
theorem Used.like (h : registry.Used) : registry.Like registry := ⟨h.fits, fun _ => rfl⟩

/-- What becomes of a request is the same in both. -/
theorem Like.accept (h : other.Like registry) (request : Request Address) :
    (Worker.accept registry request).1 = (Worker.accept other request).1 := by
  obtain ⟨address, operation⟩ := request
  cases address with
  | checksum checksum => rfl
  | fingerprint print =>
    unfold Worker.accept lookup Registry.resolve
    simp only [h.find? print]
    cases other.find? print <;> rfl

/-- A registry in which a request was resolved finds what it found before. -/
theorem Like.after_accept (h : other.Like registry) (request : Request Address) :
    other.Like (Worker.accept registry request).2 := by
  obtain ⟨address, operation⟩ := request
  cases address with
  | checksum checksum => exact h
  | fingerprint print =>
    unfold Worker.accept lookup Registry.resolve
    dsimp only
    cases hfind : registry.find? print with
    | none => exact h
    | some found =>
      exact ⟨Registry.fits_touch _ _ _, fun print' =>
        (Registry.find?_touch_of_find? h.fits hfind print').trans (h.find? print')⟩

end SnapshotRegistry

/-- An errand after a call has ended. -/
def Errand.learns (call : Handle) (ending : Ending) (errand : Errand) : Errand :=
  { errand with stage := errand.stage.learn call ending }

/-- What the service of a worker gets in the turn of a call. -/
def Call.service (call : Call) (known : SnapshotRegistry) (running : Bool) : List ServiceCall :=
  if running && call.act.isNone then (Worker.accept known call.request).1.toOption.toList else []

namespace Session

variable {session before middle after : Session} {worker handle errand : Handle} {call : Call}
  {token : Token} {act : Act}

/-! ## How a call ends -/

/-- How a scripted call has ended, as far as one can see by looking at it. -/
theorem lookAtAct_fst (session : Session) (act : Act) (token : Token) :
    (session.lookAtAct act token).1 =
      if session.now < act.due then none else act.reply.ending? (session.isCancelled token) := by
  unfold lookAtAct
  split
  · rfl
  · split <;> simp_all [Reply.ending?]

/-- A call that has ended is gone, and the errand that waits for it learns how it ended. -/
theorem endCall_eq (session : Session) (handle : Handle) (call : Call) (ending : Ending) :
    ∃ woken, session.endCall handle call ending =
      { session with
        calls := session.calls.erase handle
        errands := session.errands.modify call.errand (Errand.learns handle ending)
        agenda := session.agenda ++ woken } := by
  unfold endCall Catalog.modify
  cases herrand : session.errands.get? call.errand with
  | none => exact ⟨[], by simp [herrand]⟩
  | some errand =>
    obtain ⟨woken, heq, -, -⟩ := wake_eq
      { session with
        calls := session.calls.erase handle
        errands := session.errands.insert call.errand (errand.learns handle ending) }
      (.errand call.errand)
    refine ⟨woken, ?_⟩
    simp only [herrand]
    exact heq

/-- What the caller is told when the service is done. -/
theorem finishCall_eq (session : Session) (handle : Handle) (call : Call) (act : Act) :
    session.finishCall handle call act =
      match session.lookAtAct act call.token with
      | (none, session) => session
      | (some ending, session) => session.endCall handle call ending.told := by
  unfold finishCall
  rcases session.lookAtAct act call.token with ⟨ending, next⟩
  cases ending with
  | none => rfl
  | some ending => cases ending <;> rfl

/-- A call goes on, or it ends; before it does, its service may have cancelled a token. -/
theorem finishCall_cases (session : Session) (handle : Handle) (call : Call) (act : Act) :
    ((session.lookAtAct act call.token).1 = none ∧ session.finishCall handle call act = session) ∨
      ∃ ending next, (session.lookAtAct act call.token).1 = some ending ∧
        (next = session ∨ ∃ other, next = session.cancelToken other) ∧
        session.finishCall handle call act = next.endCall handle call ending.told := by
  rw [finishCall_eq]
  rcases session.lookAtAct_cases act call.token with ⟨ending, heq⟩ | ⟨other, heq⟩ <;> rw [heq]
  · cases ending with
    | none => exact .inl ⟨rfl, rfl⟩
    | some ending => exact .inr ⟨ending, session, rfl, .inl rfl, rfl⟩
  · exact .inr ⟨.succeeded, session.cancelToken other, rfl, .inr ⟨other, rfl⟩, rfl⟩

/-- Ending a call changes no worker and no registry. -/
theorem endCall_same (session : Session) (handle : Handle) (call : Call) (ending : Ending) :
    (session.endCall handle call ending).workers = session.workers ∧
      (session.endCall handle call ending).registries = session.registries := by
  obtain ⟨woken, heq⟩ := session.endCall_eq handle call ending
  rw [heq]
  exact ⟨rfl, rfl⟩

/-- Cancelling a token changes no call, no errand, no worker and no registry. -/
theorem cancelToken_same (session : Session) (token : Token) :
    (session.cancelToken token).calls = session.calls ∧
      (session.cancelToken token).errands = session.errands ∧
      (session.cancelToken token).workers = session.workers ∧
      (session.cancelToken token).registries = session.registries := by
  obtain ⟨base, woken, htells, heq, -⟩ := session.cancelToken_eq token
  rw [heq]
  rcases htells with rfl | ⟨other, rfl⟩ <;> exact ⟨rfl, rfl, rfl, rfl⟩

/-- Looking at a call changes no worker and no registry. -/
theorem finishCall_same (session : Session) (handle : Handle) (call : Call) (act : Act) :
    (session.finishCall handle call act).workers = session.workers ∧
      (session.finishCall handle call act).registries = session.registries := by
  rcases session.finishCall_cases handle call act with ⟨-, heq⟩ | ⟨ending, next, -, hnext, heq⟩ <;>
    rw [heq]
  · exact ⟨rfl, rfl⟩
  · obtain ⟨hworkers, hregistries⟩ := next.endCall_same handle call ending.told
    rw [hworkers, hregistries]
    rcases hnext with rfl | ⟨other, rfl⟩
    · exact ⟨rfl, rfl⟩
    · exact (session.cancelToken_same other).2.2

/-! ## What a call leaves alone -/

/-- The end of a call means nothing to an errand. -/
def Ignores (session : Session) (errand handle : Handle) : Prop :=
  ∀ e, session.errands.get? errand = some e → ∀ ending, e.learns handle ending = e

/-- A call has a turn before the clock moves: it is awake, or it lies in the inbox of its worker and the
inbox is awake. -/
def Stirs (session : Session) (worker handle : Handle) : Prop :=
  .call handle ∈ session.agenda ∨
    .inbox worker ∈ session.agenda ∧
      ∃ state, session.workers.get? worker = some state ∧ handle ∈ state.inbox

/-- Who was about to have a turn still is, if nothing was taken off the agenda. -/
theorem Stirs.of_subset (h : before.Stirs worker handle) (hagenda : before.agenda ⊆ after.agenda)
    (hworkers : after.workers = before.workers) : after.Stirs worker handle := by
  rcases h with hawake | ⟨hinbox, hin⟩
  · exact .inl (hagenda hawake)
  · exact .inr ⟨hagenda hinbox, hworkers ▸ hin⟩

/-- What happens leaves a call as it was. -/
structure Spares (handle : Handle) (before after : Session) : Prop where
  /-- The call is what it was. -/
  call : after.calls.get? handle = before.calls.get? handle
  /-- A call that was about to have a turn still is. -/
  stirs : ∀ worker, before.Stirs worker handle → after.Stirs worker handle
  /-- The alarms of the call are set. -/
  alarms : ∀ time, (time, .call handle) ∈ before.alarms → (time, .call handle) ∈ after.alarms

/-- What happens because of one call: no time passes, no number is given out, nothing changes for the
other calls, and nothing for the errands to which the call means nothing. -/
structure Apart (handle : Handle) (before after : Session) : Prop where
  /-- No time passes. -/
  now : after.now = before.now
  /-- No number is given out. -/
  next : after.next = before.next
  /-- The foreground gets no answer. -/
  answer : after.answer = before.answer
  /-- A cancelled token stays cancelled. -/
  tokens : ∀ token, before.isCancelled token = true → after.isCancelled token = true
  /-- The other calls are what they were. -/
  spares : ∀ other, other ≠ handle → Spares other before after
  /-- The errands to which the call means nothing are what they were. -/
  errands : ∀ errand, before.Ignores errand handle →
    after.errands.get? errand = before.errands.get? errand

/-- Nothing need happen to a call. -/
theorem Spares.refl (handle : Handle) (session : Session) : Spares handle session session :=
  ⟨rfl, fun _ h => h, fun _ h => h⟩

/-- One thing may happen after the other. -/
theorem Spares.trans (h : Spares handle before middle) (h' : Spares handle middle after) :
    Spares handle before after where
  call := h'.call.trans h.call
  stirs worker hstirs := h'.stirs worker (h.stirs worker hstirs)
  alarms time halarm := h'.alarms time (h.alarms time halarm)

/-- A call is spared where nothing is taken off the agenda and no alarm is stopped. -/
theorem Spares.of_subset (hcall : after.calls.get? handle = before.calls.get? handle)
    (hagenda : before.agenda ⊆ after.agenda) (hworkers : after.workers = before.workers)
    (halarms : after.alarms = before.alarms) : Spares handle before after where
  call := hcall
  stirs _ h := h.of_subset hagenda hworkers
  alarms _ h := halarms ▸ h

/-- Nothing need happen. -/
theorem Apart.refl (handle : Handle) (session : Session) : Apart handle session session where
  now := rfl
  next := rfl
  answer := rfl
  tokens _ h := h
  spares other _ := .refl other session
  errands _ _ := rfl

/-- One thing may happen after the other. -/
theorem Apart.trans (h : Apart handle before middle) (h' : Apart handle middle after) :
    Apart handle before after where
  now := h'.now.trans h.now
  next := h'.next.trans h.next
  answer := h'.answer.trans h.answer
  tokens token hcancelled := h'.tokens token (h.tokens token hcancelled)
  spares other hother := (h.spares other hother).trans (h'.spares other hother)
  errands errand hignores := by
    have hsame := h.errands errand hignores
    refine (h'.errands errand ?_).trans hsame
    intro e he
    exact hignores e (hsame ▸ he)

/-- Cancelling a token does nothing to anybody's call. -/
theorem spares_cancelToken (session : Session) (handle : Handle) (token : Token) :
    Spares handle session (session.cancelToken token) := by
  obtain ⟨base, woken, htells, heq, -⟩ := session.cancelToken_eq token
  rw [heq]
  rcases htells with rfl | ⟨other, rfl⟩ <;>
    exact .of_subset rfl (List.subset_append_left _ _) rfl rfl

/-- Cancelling a token does nothing else than that. -/
theorem apart_cancelToken (session : Session) (handle : Handle) (token : Token) :
    Apart handle session (session.cancelToken token) := by
  obtain ⟨base, woken, htells, heq, -⟩ := session.cancelToken_eq token
  have hspares := fun other (_ : other ≠ handle) => session.spares_cancelToken other token
  rw [heq] at hspares ⊢
  rcases htells with rfl | ⟨other, rfl⟩
  · exact { Apart.refl handle base with spares := hspares }
  · exact
      { Apart.refl handle session with
        tokens := fun _ h => TokenPool.isCancelled_cancel other h
        spares := hspares }

/-- The end of a call changes nothing for the others. -/
theorem apart_endCall (session : Session) (handle : Handle) (call : Call) (ending : Ending) :
    Apart handle session (session.endCall handle call ending) := by
  obtain ⟨woken, heq⟩ := session.endCall_eq handle call ending
  rw [heq]
  refine
    { Apart.refl handle session with
      spares := fun other hother => ?_
      errands := fun errand hignores => ?_ }
  · refine .of_subset ?_ (List.subset_append_left _ _) rfl rfl
    dsimp only
    rw [Catalog.get?_erase, if_neg (Ne.symm hother)]
  · dsimp only
    by_cases hsame : call.errand = errand
    · subst hsame
      rw [Catalog.get?_modify]
      cases he : session.errands.get? call.errand with
      | none => rfl
      | some e => exact congrArg some (hignores e he ending)
    · exact Catalog.get?_modify_of_ne _ hsame _

/-- So it is if the call may go on. -/
theorem apart_finishCall (session : Session) (handle : Handle) (call : Call) (act : Act) :
    Apart handle session (session.finishCall handle call act) := by
  rcases session.finishCall_cases handle call act with ⟨-, heq⟩ | ⟨ending, next, -, hnext, heq⟩
  · rw [heq]
    exact .refl _ _
  · have hcancel : Apart handle session next := by
      rcases hnext with rfl | ⟨other, rfl⟩
      · exact .refl _ _
      · exact session.apart_cancelToken handle other
    rw [heq]
    exact hcancel.trans (next.apart_endCall handle call ending.told)

/-- The errand that waits for a call learns how it ended. -/
theorem get?_errands_endCall {e : Errand} (he : session.errands.get? call.errand = some e)
    (ending : Ending) :
    (session.endCall handle call ending).errands.get? call.errand = some (e.learns handle ending) := by
  obtain ⟨woken, heq⟩ := session.endCall_eq handle call ending
  rw [heq]
  dsimp only
  rw [Catalog.get?_modify, he]
  rfl

/-- A call that has ended is gone. -/
theorem get?_calls_endCall (session : Session) (handle : Handle) (call : Call) (ending : Ending) :
    (session.endCall handle call ending).calls.get? handle = none := by
  obtain ⟨woken, heq⟩ := session.endCall_eq handle call ending
  rw [heq]
  dsimp only
  rw [Catalog.get?_erase, if_pos rfl]

/-! ## How a call begins -/

/-- The session after a request to a worker was resolved. -/
def resolved (session : Session) (state : WorkerState) (request : Request Address) : Session :=
  { session with
    registries := session.registries.insert state.registry
      (Worker.accept (session.registry state.registry) request).2 }

/-- What the service of a worker does with the call that it gets next. -/
def responseOf (state : WorkerState) : Response := state.script.take.1

/-- The session after a worker's service got a call. -/
def begun (session : Session) (handle : Handle) (call : Call) (state : WorkerState)
    (serviceCall : ServiceCall) : Session :=
  let act := (responseOf state).act session.now
  ({ session.resolved state call.request with
      workers := session.workers.insert call.worker
        { state with script := state.script.take.2, calls := state.calls ++ [serviceCall] }
      calls := session.calls.insert handle { call with act := some act } }).wakeAfter act
    (.call handle)

/-- A request is refused, or the worker's service gets the call and is looked at. -/
theorem beginCall_eq (session : Session) (handle : Handle) (call : Call) (state : WorkerState) :
    session.beginCall handle call state =
      match (Worker.accept (session.registry state.registry) call.request).1 with
      | .error failure =>
        (session.resolved state call.request).endCall handle call (.failed failure)
      | .ok serviceCall =>
        (session.begun handle call state serviceCall).finishCall handle
          { call with act := some ((responseOf state).act session.now) }
          ((responseOf state).act session.now) := by
  unfold beginCall
  cases haccept : Worker.accept (session.registry state.registry) call.request with
  | mk accepted registry =>
    cases accepted with
    | error failure => simp only [resolved, haccept]
    | ok serviceCall => simp only [begun, resolved, responseOf, haccept]

/-- What takes its time sets an alarm. -/
theorem wakeAfter_sets (session : Session) (act : Act) (task : Task) :
    ∃ alarms, session.wakeAfter act task = { session with alarms := session.alarms ++ alarms } ∧
      (session.now < act.due → (act.due, task) ∈ alarms) := by
  unfold wakeAfter
  split
  · exact ⟨[(act.due, task)], rfl, fun _ => List.mem_singleton_self _⟩
  · next hover => exact ⟨[], by rw [List.append_nil], fun hdelay => absurd hdelay hover⟩

/-- When the service gets a call, nothing but the worker, its registry and the call changes; the call has
an alarm if the service takes its time. -/
theorem begun_eq (session : Session) (handle : Handle) (call : Call) (state : WorkerState)
    (serviceCall : ServiceCall) :
    let act := (responseOf state).act session.now
    ∃ alarms, session.begun handle call state serviceCall =
        { session with
          registries := session.registries.insert state.registry
            (Worker.accept (session.registry state.registry) call.request).2
          workers := session.workers.insert call.worker
            { state with script := state.script.take.2, calls := state.calls ++ [serviceCall] }
          calls := session.calls.insert handle { call with act := some act }
          alarms := session.alarms ++ alarms } ∧
      (session.now < act.due → (act.due, .call handle) ∈ alarms) :=
  wakeAfter_sets _ ((responseOf state).act session.now) (.call handle)

/-- In its turn a call whose worker has stopped is lost; another one is begun with, or looked at again. -/
theorem callTurn_eq (hcall : session.calls.get? handle = some call) {state : WorkerState}
    (hworker : session.workers.get? call.worker = some state) :
    session.callTurn handle =
      if state.running then
        match call.act with
        | none => session.beginCall handle call state
        | some act => session.finishCall handle call act
      else session.endCall handle call (.failed .workerDisconnected) := by
  unfold callTurn
  cases hrunning : state.running with
  | false => simp [hcall, hworker, hrunning, Option.filter]
  | true =>
    cases hact : call.act <;> simp [hcall, hworker, hrunning, hact, Option.filter]

/-- When the service gets a call, nothing changes for the others. -/
theorem apart_begun {state : WorkerState} (hworker : session.workers.get? call.worker = some state)
    (handle : Handle) (serviceCall : ServiceCall) :
    Apart handle session (session.begun handle call state serviceCall) := by
  obtain ⟨alarms, heq, -⟩ := session.begun_eq handle call state serviceCall
  rw [heq]
  refine { Apart.refl handle session with spares := fun other hother => ⟨?_, ?_, ?_⟩ }
  · dsimp only
    rw [Catalog.get?_insert, if_neg (Ne.symm hother)]
  · rintro worker (hawake | ⟨hinbox, st, hst, hin⟩)
    · exact .inl hawake
    · refine .inr ⟨hinbox, ?_⟩
      dsimp only
      rw [Catalog.get?_insert]
      by_cases hsame : call.worker = worker
      · subst hsame
        obtain rfl := Option.some.inj (hworker.symm.trans hst)
        exact ⟨_, if_pos rfl, hin⟩
      · exact ⟨st, (if_neg hsame).trans hst, hin⟩
  · exact fun time halarm => List.mem_append_left _ halarm

/-- Whatever becomes of a call in its turn, nothing changes for the others. -/
theorem apart_callTurn (hcall : session.calls.get? handle = some call) {state : WorkerState}
    (hworker : session.workers.get? call.worker = some state) :
    Apart handle session (session.callTurn handle) := by
  rw [callTurn_eq hcall hworker]
  split
  · cases call.act with
    | some act => exact session.apart_finishCall handle call act
    | none =>
      dsimp only
      rw [beginCall_eq]
      split
      · -- Resolving the request changes nothing but the registry.
        have hresolved : Apart handle session (session.resolved state call.request) :=
          { Apart.refl handle session with
            tokens := fun _ h => h
            spares := fun _ _ => .of_subset rfl (List.Subset.refl _) rfl rfl
            errands := fun _ _ => rfl }
        exact hresolved.trans (apart_endCall _ handle call _)
      · exact (apart_begun hworker handle _).trans (apart_finishCall _ handle _ _)
  · exact session.apart_endCall handle call _

/-- So it is when the call is taken off the agenda for its turn. -/
theorem apart_afterTurn (hcall : session.calls.get? handle = some call) {state : WorkerState}
    (hworker : session.workers.get? call.worker = some state) :
    Apart handle session (session.afterTurn (.call handle)) := by
  have herased : Apart handle session
      { session with agenda := session.agenda.erase (.call handle) } :=
    { Apart.refl handle session with
      spares := fun other hother =>
        { call := rfl
          stirs := fun worker hstirs => by
            have hstays : ∀ task : Task, task ≠ .call handle → task ∈ session.agenda →
                task ∈ session.agenda.erase (.call handle) :=
              fun task hne hin => (List.mem_erase_of_ne hne).mpr hin
            rcases hstirs with hawake | ⟨hinbox, hin⟩
            · exact .inl (hstays _ (fun h => hother (Task.call.inj h)) hawake)
            · exact .inr ⟨hstays _ nofun hinbox, hin⟩
          alarms := fun _ h => h } }
  exact herased.trans (apart_callTurn hcall hworker)

/-- A call that was looked at is what it was, or it is gone. -/
theorem get?_calls_finishCall (session : Session) (handle : Handle) (call : Call) (act : Act) :
    (session.finishCall handle call act).calls.get? handle = session.calls.get? handle ∨
      (session.finishCall handle call act).calls.get? handle = none := by
  rcases session.finishCall_cases handle call act with ⟨-, heq⟩ | ⟨ending, next, -, -, heq⟩ <;> rw [heq]
  · exact .inl rfl
  · exact .inr (next.get?_calls_endCall handle call ending.told)

/-- A call that goes on after its turn is the one that it was, and the service has got it. -/
theorem get?_calls_callTurn (hcall : session.calls.get? handle = some call) {state : WorkerState}
    (hworker : session.workers.get? call.worker = some state) {later : Call}
    (hlater : (session.callTurn handle).calls.get? handle = some later) :
    later.worker = call.worker ∧ later.request = call.request ∧ later.act ≠ none := by
  rw [callTurn_eq hcall hworker] at hlater
  split at hlater
  · cases hact : call.act with
    | some act =>
      simp only [hact] at hlater
      rcases session.get?_calls_finishCall handle call act with heq | heq <;>
        rw [heq] at hlater
      · obtain rfl := Option.some.inj (hcall.symm.trans hlater)
        exact ⟨rfl, rfl, by simp [hact]⟩
      · contradiction
    | none =>
      simp only [hact, beginCall_eq] at hlater
      split at hlater
      · rw [get?_calls_endCall] at hlater
        contradiction
      · next serviceCall _ =>
        obtain ⟨alarms, hbegun, -⟩ := session.begun_eq handle call state serviceCall
        rcases get?_calls_finishCall (session.begun handle call state serviceCall) handle
          { call with act := some ((responseOf state).act session.now) }
          ((responseOf state).act session.now) with heq | heq <;> rw [heq] at hlater
        · rw [hbegun, Catalog.get?_insert, if_pos rfl] at hlater
          obtain rfl := Option.some.inj hlater
          exact ⟨rfl, rfl, Option.some_ne_none _⟩
        · contradiction
  · rw [get?_calls_endCall] at hlater
    contradiction

/-! ## The worker -/

/-- A worker that runs or not, whose service got these calls, and in whose registry requests find what
they find in the one that is known. -/
def Serves (session : Session) (worker : Handle) (known : SnapshotRegistry) (running : Bool)
    (calls : List ServiceCall) : Prop :=
  ∃ state, session.workers.get? worker = some state ∧ state.running = running ∧
    state.calls = calls ∧ known.Like (session.registry state.registry)

/-- The worker goes on where neither it nor a registry changes. -/
theorem Serves.of_same {known : SnapshotRegistry} {running : Bool} {calls : List ServiceCall}
    (h : before.Serves worker known running calls) (hworkers : after.workers = before.workers)
    (hregistries : after.registries = before.registries) :
    after.Serves worker known running calls := by
  unfold Serves registry at h ⊢
  rw [hworkers, hregistries]
  exact h

/-- In the registry in which a request was resolved requests find what they found before. -/
theorem like_resolved {known : SnapshotRegistry} {state : WorkerState}
    (h : known.Like (session.registry state.registry)) (request : Request Address) :
    known.Like ((session.resolved state request).registry state.registry) := by
  have hregistry : (session.resolved state request).registry state.registry =
      (Worker.accept (session.registry state.registry) request).2 := by
    simp [resolved, registry]
  rw [hregistry]
  exact h.after_accept request

/-- In the turn of a call the worker's service gets it if it has not got it before, the worker runs and
the request is not refused. Nothing else changes about the worker, however the call ends. -/
theorem Serves.callTurn {known : SnapshotRegistry} {running : Bool} {calls : List ServiceCall}
    (h : session.Serves call.worker known running calls)
    (hcall : session.calls.get? handle = some call) :
    (session.callTurn handle).Serves call.worker known running
      (calls ++ call.service known running) := by
  obtain ⟨state, hworker, rfl, rfl, hlike⟩ := h
  have hserves : session.Serves call.worker known state.running state.calls :=
    ⟨state, hworker, rfl, rfl, hlike⟩
  have hresolved := like_resolved hlike call.request
  rw [callTurn_eq hcall hworker, Call.service]
  by_cases hrunning : state.running = true
  case neg =>
    obtain ⟨hworkers, hregistries⟩ := session.endCall_same handle call (.failed .workerDisconnected)
    simpa [hrunning] using hserves.of_same hworkers hregistries
  case pos =>
    cases hact : call.act with
    | some act =>
      obtain ⟨hworkers, hregistries⟩ := session.finishCall_same handle call act
      simpa [hrunning] using hserves.of_same hworkers hregistries
    | none =>
      rw [if_pos hrunning, ← hlike.accept]
      dsimp only
      rw [beginCall_eq]
      cases haccept : (Worker.accept (session.registry state.registry) call.request).1 with
      | error failure =>
        obtain ⟨hworkers, hregistries⟩ := endCall_same (session.resolved state call.request) handle
          call (.failed failure)
        have hrefused : (session.resolved state call.request).Serves call.worker known true
            state.calls := ⟨state, hworker, hrunning, rfl, hresolved⟩
        simpa [hrunning, Except.toOption] using hrefused.of_same hworkers hregistries
      | ok serviceCall =>
        obtain ⟨hworkers, hregistries⟩ := finishCall_same
          (session.begun handle call state serviceCall) handle _ _
        refine Serves.of_same ?_ hworkers hregistries
        obtain ⟨alarms, heq, -⟩ := session.begun_eq handle call state serviceCall
        rw [heq]
        refine ⟨{ state with script := state.script.take.2, calls := state.calls ++ [serviceCall] },
          ?_, rfl, ?_, hresolved⟩
        · rw [Catalog.get?_insert, if_pos rfl]
        · simp [hrunning, Except.toOption]

/-! ## How a call is made -/

/-- The session after a request was sent to a worker, before the caller looks for an answer. -/
def sent (session : Session) (worker : Handle) (request : Request Address) (token : Token) : Session :=
  let (errand, session) := session.newHandle
  let (pending, session) := session.post worker request token errand
  { session with errands := session.errands.insert errand ⟨.asker, token, .request pending⟩ }

/-- To call a worker is to send the request and to wait. -/
theorem callWorker_eq (session : Session) (worker : Handle) (request : Request Address)
    (token : Token) :
    session.callWorker worker request token =
      (session.sent worker request token).awaitErrand session.next := rfl

/-- A request to a worker that runs becomes a call in its inbox, and the inbox is awake. -/
theorem post_of_running {state : WorkerState} (hworker : session.workers.get? worker = some state)
    (hrunning : state.running = true) (request : Request Address) (token : Token) (errand : Handle) :
    ∃ woken, session.post worker request token errand =
        (.call session.next,
          { session with
            next := session.next + 1
            calls := session.calls.insert session.next ⟨worker, request, token, errand, none⟩
            workers := session.workers.insert worker
              { state with inbox := state.inbox ++ [session.next] }
            agenda := session.agenda ++ woken }) ∧
      .inbox worker ∈ session.agenda ++ woken := by
  obtain ⟨woken, heq, -, hawake⟩ := wake_eq
    { session with
      next := session.next + 1
      calls := session.calls.insert session.next ⟨worker, request, token, errand, none⟩
      workers := session.workers.insert worker { state with inbox := state.inbox ++ [session.next] } }
    (.inbox worker)
  refine ⟨woken, ?_, hawake rfl⟩
  unfold post
  rw [hworker]
  dsimp only
  rw [if_pos hrunning]
  exact congrArg (Prod.mk _) heq

/-- The caller of a worker that runs waits for the call. -/
theorem sent_of_running {state : WorkerState} (hworker : session.workers.get? worker = some state)
    (hrunning : state.running = true) (request : Request Address) (token : Token) :
    ∃ woken, session.sent worker request token =
        { session with
          next := session.next + 2
          calls := session.calls.insert (session.next + 1)
            ⟨worker, request, token, session.next, none⟩
          workers := session.workers.insert worker
            { state with inbox := state.inbox ++ [session.next + 1] }
          errands := session.errands.insert session.next
            ⟨.asker, token, .request (.call (session.next + 1))⟩
          agenda := session.agenda ++ woken } ∧
      .inbox worker ∈ session.agenda ++ woken := by
  have hnumbered : ({ session with next := session.next + 1 } : Session).workers.get? worker =
      some state := hworker
  obtain ⟨woken, heq, hawake⟩ := post_of_running hnumbered hrunning request token session.next
  refine ⟨woken, ?_, hawake⟩
  simp only [sent, newHandle, heq]

/-- The caller of a worker that has stopped is answered at once. -/
theorem sent_of_stopped {state : WorkerState} (hworker : session.workers.get? worker = some state)
    (hstopped : state.running = false) (request : Request Address) (token : Token) :
    session.sent worker request token =
      { session with
        next := session.next + 1
        errands := session.errands.insert session.next
          ⟨.asker, token, .request (.ended (.failed .workerDisconnected))⟩ } := by
  simp [sent, newHandle, post, hworker, hstopped]

/-- In the turn of an inbox all calls in it are woken. -/
theorem inboxTurn_eq {state : WorkerState} (hworker : session.workers.get? worker = some state) :
    ∃ woken, session.inboxTurn worker =
        { session with
          workers := session.workers.insert worker { state with inbox := [] }
          agenda := session.agenda ++ woken } ∧
      ∀ handle ∈ state.inbox, .call handle ∈ session.agenda ++ woken := by
  obtain ⟨woken, heq, -, hawake⟩ := foldl_wake_eq (state.inbox.map .call)
    { session with workers := session.workers.insert worker { state with inbox := [] } }
  refine ⟨woken, ?_, fun handle hhandle => hawake _ (List.mem_map_of_mem hhandle) rfl⟩
  rw [List.foldl_map] at heq
  simp only [inboxTurn, hworker, heq]

/-- When a worker is stopped all its calls are woken. -/
theorem stopWorker_eq (session : Session) (worker : Handle) :
    ∃ woken, session.stopWorker worker =
        { session with
          workers := session.workers.modify worker fun state => { state with running := false }
          agenda := session.agenda ++ woken } ∧
      ∀ handle call, session.calls.get? handle = some call → call.worker = worker →
        .call handle ∈ session.agenda ++ woken := by
  obtain ⟨woken, heq, -, hawake⟩ := foldl_wake_eq
    ((session.calls.entries.filter fun e => e.2.worker = worker).map fun e => .call e.1)
    { session with
      workers := session.workers.modify worker fun state => { state with running := false } }
  refine ⟨woken, ?_, fun handle call hcall hworker => ?_⟩
  · rw [List.foldl_map] at heq
    exact heq
  · refine hawake _ (List.mem_map.mpr ⟨(handle, call), ?_, rfl⟩) rfl
    exact List.mem_filter.mpr ⟨Catalog.mem_of_get? hcall, decide_eq_true hworker⟩

/-! ## What a caller finds -/

/-- The session with other errands. -/
def withErrands (session : Session) (errands : Catalog Handle Errand) : Session :=
  { session with errands := errands }

/-- A session without an answer stays as it is when the answer is taken. -/
theorem eq_of_answer (hanswer : session.answer = none) (errands : Catalog Handle Errand) :
    { session with errands := errands, answer := none } = session.withErrands errands := by
  rw [withErrands, hanswer]

/-- An errand that is over finds nothing. -/
theorem lookAtErrand_of_none (hanswer : session.answer = none)
    (herrand : session.errands.get? errand = none) :
    lookAtErrand errand session = (none, session) := by
  simp only [lookAtErrand, errandTurn, herrand, hanswer, Prod.mk.injEq, true_and]
  exact eq_of_answer hanswer session.errands

/-- A caller finds the answer to the request, and is done. -/
theorem lookAtErrand_of_ended (hanswer : session.answer = none) {ending : Ending}
    (herrand : session.errands.get? errand = some ⟨.asker, token, .request (.ended ending)⟩) :
    lookAtErrand errand session =
      (some ending, session.withErrands (session.errands.erase errand)) := by
  simp only [lookAtErrand, errandTurn, herrand, lookAt, endErrand, Prod.mk.injEq, true_and]
  exact eq_of_answer hanswer _

/-- A caller whose token is cancelled is done, whatever becomes of the call. -/
theorem lookAtErrand_of_cancelled (hanswer : session.answer = none)
    (herrand : session.errands.get? errand = some ⟨.asker, token, .request (.call handle)⟩)
    (htoken : session.isCancelled token = true) :
    lookAtErrand errand session =
      (some (.failed .cancelled), session.withErrands (session.errands.erase errand)) := by
  simp only [lookAtErrand, errandTurn, herrand, lookAt, htoken, if_true, endErrand, Prod.mk.injEq,
    true_and]
  exact eq_of_answer hanswer _

/-- A caller whose call goes on waits. -/
theorem lookAtErrand_of_waits (hanswer : session.answer = none)
    (herrand : session.errands.get? errand = some ⟨.asker, token, .request (.call handle)⟩)
    (htoken : session.isCancelled token = false) :
    lookAtErrand errand session = (none, session) := by
  have hturn : session.errandTurn errand = session := by
    simp [errandTurn, herrand, lookAt, htoken]
  simp only [lookAtErrand, hturn, hanswer, Prod.mk.injEq, true_and]
  exact eq_of_answer hanswer session.errands

end Session

end SolutionWatch
