import SolutionWatch.Proofs.Pipeline.Bystanders
import SolutionWatch.Session.Asking

/-!
# What the foreground is told about its batch

The foreground has a batch worked on and waits until it has ended (`Session.process`). Nobody else answers it
meanwhile: only an errand for the foreground does, and there is no other (`Session.Works.asked`). So it is told
how its batch ends, and nothing else (`Session.process_follows`), whatever else goes on in the session.
-/

namespace SolutionWatch

namespace Session

variable {session before middle after : Session} {errand : Handle}

/-- An errand does something in its turn: no other errand is one for the foreground because of that, and while
the errand goes on the foreground gets no answer. -/
structure Works (errand : Handle) (before after : Session) : Prop where
  /-- No other errand is for the foreground. -/
  asked : before.AskedOnly errand → after.AskedOnly errand
  /-- The foreground gets no answer, or the errand is over. -/
  answer : after.answer = before.answer ∨ after.errands.get? errand = none

/-- What touches no errand may happen before. -/
theorem LeavesErrands.trans_works (h : before.LeavesErrands middle) (h' : middle.Works errand after) :
    before.Works errand after where
  asked hasked := h'.asked fun other found hfound => hasked other found (h.errands ▸ hfound)
  answer := by
    rw [← h.answer]
    exact h'.answer

/-- What touches no errand may be all. -/
theorem LeavesErrands.works (h : before.LeavesErrands after) (errand : Handle) :
    before.Works errand after where
  asked hasked other found hfound := hasked other found (h.errands ▸ hfound)
  answer := .inl h.answer

/-- The errand may end. -/
theorem works_endErrand (session : Session) (errand : Handle) (owner : ErrandOwner) (ending : Ending) :
    session.Works errand (session.endErrand errand owner ending) where
  asked hasked other found hfound := by
    rw [errands_endErrand] at hfound
    exact hasked other found (Catalog.of_get?_erase hfound).2
  answer := .inr (session.get?_endErrand errand owner ending)

/-- The errand may go on with its delivery. -/
theorem works_carryOn (session : Session) (errand : Handle) (owner : ErrandOwner) (token : Token)
    (client : Client) (registry : Handle) (delivery : Delivery) :
    session.Works errand (session.carryOn errand owner token client registry delivery) := by
  have hsent := leavesErrands_sendFrom errand client registry token (delivery.remaining.length + 1) delivery
    session
  cases hresult : sendFrom errand client registry token (delivery.remaining.length + 1) delivery session with
  | mk progress last =>
    rw [hresult] at hsent
    rcases progress with ending | ⟨rest, pending⟩
    · rw [carryOn_of_over hresult]
      exact hsent.trans_works (last.works_endErrand errand owner ending)
    · rw [carryOn_of_waiting hresult]
      refine hsent.trans_works ⟨fun hasked other found hfound hasker => ?_, .inl rfl⟩
      rcases Catalog.of_get?_insert hfound with ⟨heq, -⟩ | ⟨-, hbefore⟩
      · exact heq.symm
      · exact hasked other found hbefore hasker

/-- The errand may begin with its batch. -/
theorem works_processBatch (session : Session) (errand : Handle) (owner : ErrandOwner) (token : Token)
    (dispatcher : Handle) (events : List Event) :
    session.Works errand (session.processBatch errand owner token dispatcher events) := by
  unfold processBatch deliver
  split
  · exact session.works_endErrand errand owner _
  · split
    · exact session.works_endErrand errand owner _
    · split
      · exact session.works_carryOn errand owner token _ _ _
      · refine LeavesErrands.trans_works ?_ (works_endErrand _ errand owner _)
        exact .of_eq rfl rfl rfl
    · exact session.works_endErrand errand owner _

/-- The errand may have its turn. -/
theorem works_errandTurn (session : Session) (errand : Handle) :
    session.Works errand (session.errandTurn errand) := by
  unfold errandTurn
  split
  · exact LeavesErrands.works (.of_eq rfl rfl rfl) errand
  · next found _ =>
    split
    · exact session.works_processBatch errand _ _ _ _
    · next pending _ =>
      have hlook := session.leavesErrands_lookAt pending found.token
      split
      · next hnone => rw [hnone] at hlook; exact hlook.works errand
      · next hended => rw [hended] at hlook; exact hlook.trans_works (works_endErrand _ errand _ _)
    · next pending _ =>
      have hlook := session.leavesErrands_lookAt pending found.token
      split
      · next hnone => rw [hnone] at hlook; exact hlook.works errand
      · next last hsucceeded =>
        rw [hsucceeded] at hlook
        have hcounted : last.LeavesErrands last.countSent := .of_eq rfl rfl rfl
        exact (hlook.trans hcounted).trans_works (works_carryOn _ errand _ _ _ _ _)
      · next hended => rw [hended] at hlook; exact hlook.trans_works (works_endErrand _ errand _ _)

end Session

namespace Batch

variable {batch : Batch} {dispatcher : Dispatcher} {start moment session before after : Session}
  {entries more : List BatchEntry}

/-- A batch for the foreground is worked on: no other errand is for the foreground, and if the foreground has
an answer, that is how the batch has ended. -/
structure Underway (batch : Batch) (dispatcher : Dispatcher) (start moment session : Session) : Prop where
  /-- The errand has a number. -/
  numbered : batch.errand < session.next
  /-- No other errand is for the foreground. -/
  asked : session.AskedOnly batch.errand
  /-- The session comes from a run, and an answer is the end of the batch. -/
  run : ∃ steps, BatchRun batch dispatcher start moment steps session ∧
    ∀ ending, session.answer = some ending →
      ∃ cancelled, .ended ending cancelled ∈ steps.flatMap BatchStep.entries

/-- If the foreground has an answer after a step of its batch that it had not before, the batch has ended in
that step, and so. -/
theorem answered_of_step (hasker : batch.owner = .asker)
    (hfresh : ∀ ending cancelled, .ended ending cancelled ∉ entries)
    (hholds : batch.Holds dispatcher start moment (entries ++ more) after)
    (htruthful : BatchStep.Truthful batch dispatcher.registry ⟨before, more, after⟩)
    (hworks : before.Works batch.errand after) {ending : Ending} (hanswer : after.answer = some ending) :
    before.answer = some ending ∨ ∃ cancelled, .ended ending cancelled ∈ more := by
  rcases hworks.answer with hsame | hgone
  · exact .inl (hsame.symm.trans hanswer)
  · cases hholds with
    | waiting _ _ _ _ herrand =>
      rw [hgone] at herrand
      contradiction
    | @done n last hcourse _ =>
      obtain ⟨cancelled, hended⟩ := hcourse.ended_mem
      have hmore := (List.mem_append.mp hended).resolve_left (hfresh last cancelled)
      obtain ⟨session, hafter⟩ := htruthful.told last cancelled hmore
      -- The foreground is told how the batch has ended.
      have htold : after.answer = some last := by
        rw [show after = _ from hafter, hasker]
        rfl
      obtain rfl : ending = last := Option.some.inj (hanswer.symm.trans htold)
      exact .inr ⟨cancelled, hmore⟩

/-- A batch for the foreground is worked on as soon as it is begun with. -/
theorem underway_processBatch (hasker : batch.owner = .asker)
    (hdispatcher : start.dispatchers.get? batch.dispatcher = some dispatcher)
    (hnumbered : batch.errand < start.next)
    (hasked : start.AskedOnly batch.errand) (hanswer : start.answer = none) :
    batch.Underway dispatcher start start
      (start.processBatch batch.errand batch.owner batch.token batch.dispatcher batch.events) := by
  obtain ⟨hholds, htruthful⟩ := processBatch_follows hdispatcher
  have hworks := start.works_processBatch batch.errand batch.owner batch.token batch.dispatcher batch.events
  refine ⟨Nat.lt_of_lt_of_le hnumbered htruthful.accounts.keeps.next, hworks.asked hasked,
    _, .begins hdispatcher, fun ending hended => ?_⟩
  rw [List.flatMap_singleton]
  have hnothing : ∀ ending cancelled, BatchEntry.ended ending cancelled ∉ [] :=
    fun _ _ => List.not_mem_nil
  rcases answered_of_step hasker hnothing hholds htruthful hworks hended with hbefore | hnow
  · rw [hanswer] at hbefore
    contradiction
  · exact hnow

/-- A batch is still worked on after others have done something. -/
theorem Underway.elsewhere (h : batch.Underway dispatcher start moment session)
    (hbystands : session.Bystands batch.errand after) :
    batch.Underway dispatcher start moment after := by
  obtain ⟨steps, hrun, hended⟩ := h.run
  obtain ⟨hasked, hanswer⟩ := hbystands.asked h.asked
  exact ⟨Nat.lt_of_lt_of_le h.numbered hbystands.next, hasked, steps, hrun.elsewhere hbystands.leaves,
    fun ending hafter => hended ending (hanswer.symm.trans hafter)⟩

/-- A batch is still worked on after its errand had its turn. -/
theorem Underway.turn (hasker : batch.owner = .asker) (h : batch.Underway dispatcher start moment session) :
    batch.Underway dispatcher start moment (session.errandTurn batch.errand) := by
  obtain ⟨steps, hrun, hended⟩ := h.run
  cases hrun.invariant.1 with
  | done _ hgone =>
    -- After its end the errand does nothing.
    have hsame : session.errandTurn batch.errand = session := by simp only [Session.errandTurn, hgone]
    rw [hsame]
    exact h
  | waiting _ _ _ hdelivers _ =>
    have hfresh : ∀ ending cancelled, .ended ending cancelled ∉ steps.flatMap BatchStep.entries := by
      intro ending cancelled hmem
      have hnone := hdelivers.eq_of_ended_mem hmem
      contradiction
    have hworks := session.works_errandTurn batch.errand
    obtain ⟨hholds, hsteps⟩ := hrun.turn.invariant
    have htruthful := hsteps _ (List.mem_append_right _ (List.mem_singleton_self _))
    rw [List.flatMap_append, List.flatMap_singleton] at hholds
    refine ⟨Nat.lt_of_lt_of_le h.numbered htruthful.accounts.keeps.next, hworks.asked h.asked,
      _, hrun.turn, fun ending hanswer => ?_⟩
    rw [List.flatMap_append, List.flatMap_singleton]
    rcases answered_of_step hasker hfresh hholds htruthful hworks hanswer with hbefore | hnow
    · obtain ⟨cancelled, hmem⟩ := hended ending hbefore
      exact ⟨cancelled, List.mem_append_left _ hmem⟩
    · obtain ⟨cancelled, hmem⟩ := hnow
      exact ⟨cancelled, List.mem_append_right _ hmem⟩

/-- A batch is still worked on after the foreground has taken its answer. -/
theorem Underway.read (h : batch.Underway dispatcher start moment session) :
    batch.Underway dispatcher start moment { session with answer := none } := by
  obtain ⟨steps, hrun, -⟩ := h.run
  refine ⟨h.numbered, h.asked, steps, hrun.elsewhere (.of_eq _ rfl), fun ending hanswer => ?_⟩
  contradiction

/-- A batch is worked on whatever the loop of the session does. -/
theorem lasting_underway (hasker : batch.owner = .asker) (dispatcher : Dispatcher) (start moment : Session) :
    Session.Lasting (batch.Underway dispatcher start moment) where
  elapse session now agenda alarms h := by
    refine h.elsewhere (Session.LeavesErrands.bystands ?_ _)
    exact .of_eq rfl rfl rfl
  turn session task h := by
    have hturn : batch.Underway dispatcher start moment (session.giveTurn task) := by
      by_cases htask : task = .errand batch.errand
      · subst htask
        exact h.turn hasker
      · exact h.elsewhere (Session.bystands_giveTurn h.numbered htask)
    exact hturn.elsewhere ((Session.leavesErrands_letGo _).bystands _)
  letGo session h := h.elsewhere (session.leavesErrands_letGo.bystands _)

/-- An answer that is there while a batch is worked on is the end of the batch. -/
theorem Underway.ends (h : batch.Underway dispatcher start moment session) {ending : Ending}
    (hanswer : session.answer = some ending) :
    ∃ steps n, BatchRun batch dispatcher start moment steps { session with answer := none } ∧
      batch.Course dispatcher start moment n (steps.flatMap BatchStep.entries) (some ending) := by
  obtain ⟨steps, hrun, hended⟩ := h.run
  obtain ⟨cancelled, hmem⟩ := hended ending hanswer
  obtain ⟨n, ending?, hcourse, -⟩ := hrun.invariant.1.stands
  obtain rfl : ending? = some ending := hcourse.eq_of_ended_mem hmem
  exact ⟨steps, n, hrun.elsewhere (.of_eq _ rfl), hcourse⟩

end Batch

/-- What the foreground is told about its batch, if it does not give up before, is how the batch ends in a run
that leads to the session after that. -/
theorem Session.process_follows {session last : Session} {handle : Handle} {dispatcher : Dispatcher}
    {events : List Event} {token : Token} {ending : Ending}
    (hdispatcher : session.dispatchers.get? handle = some dispatcher)
    (hidle : session.answer = none) (hasked : session.AskedOnly session.next)
    (h : session.process handle events token = (some ending, last)) :
    let batch : Batch := ⟨session.next, .asker, token, handle, events⟩
    let start := session.newHandle.2
    ∃ steps n, BatchRun batch dispatcher start start steps last ∧
      batch.Course dispatcher start start n (steps.flatMap BatchStep.entries) (some ending) := by
  intro batch start
  have hbegun : batch.Underway dispatcher start start
      (start.processBatch session.next .asker token handle events) :=
    Batch.underway_processBatch rfl hdispatcher (Nat.lt_succ_self _) hasked hidle
  have hlook : ∀ session, batch.Underway dispatcher start start session →
      batch.Underway dispatcher start start (Session.lookAtErrand batch.errand session).2 :=
    fun session hunderway => (hunderway.turn rfl).read
  change (start.processBatch session.next .asker token handle events).awaitErrand session.next = _ at h
  generalize start.processBatch session.next .asker token handle events = begun at hbegun h
  unfold Session.awaitErrand at h
  split at h
  · next found hanswer =>
    obtain ⟨hfound, rfl⟩ := Prod.mk.inj h
    obtain rfl := Option.some.inj hfound
    exact hbegun.ends hanswer
  · split at h
    · next found after hwaited =>
      obtain ⟨hfound, rfl⟩ := Prod.mk.inj h
      obtain rfl := Option.some.inj hfound
      obtain ⟨before, hbefore, hlooked⟩ := (Batch.lasting_underway rfl dispatcher start start).run_found
        hlook _ _ _ ((Batch.lasting_underway rfl dispatcher start start).letGo _ hbegun) hwaited
      obtain ⟨hanswer, rfl⟩ := Prod.mk.inj hlooked
      exact (hbefore.turn rfl).ends hanswer
    · cases h

end SolutionWatch
