import Mathlib.Logic.Relation
import SolutionWatch.Fixture
import SolutionWatch.Proofs.Pipeline.Loop
import SolutionWatch.Proofs.Pipeline.Progress

/-!
# Batching is transparent

`Pipeline.Run` is every session that a pipeline comes to: the workspace may be asked for something at
any moment, any task may have a turn at any moment, and between these the clock, the agenda and the
alarms may come to be anything. The schedule that `Session.advance` follows is one of them
(`Run.advance`).

In every such session the service has got the first of the calls that the items of the raised events
come to, and once nothing waits and no batch is at hand it has got all of them (`delivered_in_order`). The
calls depend on the workspace and on the capacity of the registry only, so neither the length of a
window nor the size of a batch has a part in what is delivered, or in which order. And from every such
session turns alone lead to one in which nothing waits and no batch is at hand (`Run.comes_to_rest`).

A call is for what its item is for, and has a snapshot of the item's fingerprint. Its content is that of
the item's snapshot as long as fingerprints tell the contents of the items apart. They need not: a
project that is changed to write to `/bin` where it wrote to `bin` before has the fingerprint that it
had, and the service is handed the old snapshot (`not_delivered_by_content`).
-/

namespace SolutionWatch

namespace Pipeline

variable {p : Pipeline} {parts : Parts} {session : Session} {commands : List Command}
  {delivered remaining : List WorkItem} {extra : ℕ}

/-! ## What can be seen of a session -/

/-- The calls that the worker's service has got, oldest first. -/
def serviceLog (session : Session) : List ServiceCall :=
  ((session.workers.get? worker).map WorkerState.calls).getD []

/-- The events that wait in the listener's queue. -/
def pendingEvents (session : Session) : List Event :=
  ((session.listeners.get? listener).map fun state => state.keeper.queue.pending).getD []

/-- The batches of the listener that are being worked on. -/
def batchesAtHand (session : Session) : List Errand :=
  session.errands.values.filter fun errand => errand.owner = .listener listener

/-- The calls that the service is working on. -/
def callsInProgress (session : Session) : List Call :=
  session.calls.values.filter fun call => call.act.isSome

/-- Of a pipeline with given parts, the service has got the calls of the worker. -/
theorem Describes.serviceLog_eq (d : p.Describes parts session) :
    serviceLog session = parts.worker.calls := by
  simp [serviceLog, d.workers]

/-- Of a pipeline with given parts, the events that wait are those of the keeper. -/
theorem Describes.pendingEvents_eq (d : p.Describes parts session) :
    pendingEvents session = parts.keeper.queue.pending := by
  simp [pendingEvents, d.listeners, listening]

/-- Without a batch at hand there is nothing left of one. -/
theorem Sound.remaining_eq_nil (h : p.Sound parts delivered remaining extra commands)
    (d : p.Describes parts session) (hnone : batchesAtHand session = []) : remaining = [] := by
  rw [batchesAtHand, d.errands] at hnone
  cases h.stage with
  | resting => rfl
  | begun _ _ herrands | posted _ _ herrands | serving _ _ herrands | answered _ _ herrands =>
    rw [herrands] at hnone
    contradiction

/-- The service works on one call at most. -/
theorem Sound.length_callsInProgress_le (h : p.Sound parts delivered remaining extra commands)
    (d : p.Describes parts session) : (callsInProgress session).length ≤ 1 := by
  have hcalls : parts.calls.values.length ≤ 1 := by
    cases h.stage with
    | resting _ _ _ hcalls | begun _ _ _ hcalls | answered _ _ _ hcalls =>
      rw [hcalls]
      exact Nat.zero_le 1
    | posted _ _ _ hcalls | serving _ _ _ hcalls =>
      rw [hcalls]
      exact Nat.le_refl 1
  rw [callsInProgress, d.calls]
  exact Nat.le_trans (List.length_filter_le _ _) hcalls

/-! ## Runs -/

/-- The sessions that a pipeline comes to, and what its workspace was asked for on the way. -/
inductive Run (p : Pipeline) : Session → List Command → Prop
  /-- The listener has begun to listen. -/
  | start : Run p p.start []
  /-- Time goes by: tasks may have been woken, and alarms may have been set. -/
  | elapse {session : Session} {commands : List Command} (now : ℕ) (agenda : List Task)
      (alarms : List (ℕ × Task)) : Run p session commands →
      Run p { session with now := now, agenda := agenda, alarms := alarms } commands
  /-- A task has a turn. -/
  | turn {session : Session} {commands : List Command} (task : Task) : Run p session commands →
      Run p (session.giveTurn task).letGo commands
  /-- The workspace is asked for something. -/
  | command {session : Session} {commands : List Command} {command : Command} :
      Run p session commands → command.Faithful →
      Run p (afterCommand session command) (commands ++ [command])

namespace Run

/-- Every item is accounted for in every session that a pipeline comes to. -/
theorem holds (h : p.Run session commands) : ∃ left, p.Holds session commands left := by
  induction h with
  | start => exact ⟨0, p.holds_start⟩
  | elapse now agenda alarms _ ih =>
    obtain ⟨left, parts, delivered, remaining, extra, d, hsound, hleft⟩ := ih
    exact ⟨left, parts, delivered, remaining, extra, { d with }, hsound, hleft⟩
  | turn task _ ih => exact ih.imp fun left h => h.turn task
  | command _ hfaithful ih =>
    obtain ⟨left, h⟩ := ih
    exact h.command hfaithful

/-- Nothing is ever let go of. -/
theorem letGo (h : p.Run session commands) : p.Run session.letGo commands := by
  obtain ⟨_, parts, _, _, _, d, -⟩ := h.holds
  rw [d.letGo_eq]
  exact h

/-- The loop of the session is one of the schedules. -/
theorem lasting (p : Pipeline) (commands : List Command) :
    Session.Lasting fun session => p.Run session commands where
  elapse _ now agenda alarms h := h.elapse now agenda alarms
  turn _ task h := h.turn task
  letGo _ h := h.letGo

/-- Some time may pass. -/
theorem advance (h : p.Run session commands) (time : ℕ) :
    p.Run (session.advance time) commands := (lasting p commands).advance h time

end Run

/-- Some time goes by, and a task has a turn. -/
def Passes (before after : Session) : Prop :=
  ∃ now task, before.now ≤ now ∧
    after = (({ before with now := now } : Session).giveTurn task).letGo

namespace Run

/-- A task may have a turn after some time. -/
theorem passes (h : p.Run session commands) {after : Session} (hpasses : Passes session after) :
    p.Run after commands := by
  obtain ⟨now, task, -, rfl⟩ := hpasses
  exact (h.elapse now session.agenda session.alarms).turn task

/-- A pipeline does not get stuck: from every session that it comes to, turns alone lead to one in which
nothing waits and no batch is at hand. -/
theorem comes_to_rest (h : p.Run session commands) :
    ∃ last, Relation.ReflTransGen Passes session last ∧ p.Run last commands ∧
      pendingEvents last = [] ∧ batchesAtHand last = [] := by
  obtain ⟨left, hholds⟩ := h.holds
  -- There is always a turn that leaves fewer turns.
  induction left using Nat.strongRecOn generalizing session with
  | ind left ih =>
    obtain ⟨parts, delivered, remaining, extra, d, hsound, hleft⟩ := hholds
    obtain ⟨hpending, herrands⟩ | ⟨now, task, fewer, hnow, hlt, hturn⟩ := hsound.exists_turn d
    · refine ⟨session, .refl, h, d.pendingEvents_eq.trans hpending, ?_⟩
      rw [batchesAtHand, d.errands, herrands]
      rfl
    · have hpasses : Passes session _ := ⟨now, task, hnow, rfl⟩
      obtain ⟨last, hreaches, hlast⟩ :=
        ih fewer (Nat.lt_of_lt_of_le hlt hleft) (h.passes hpasses) hturn.letGo
      exact ⟨last, .head hpasses hreaches, hlast⟩

end Run

/-- What a session of a pipeline has delivered of some items. -/
structure Delivers (p : Pipeline) (session : Session) (items : List WorkItem) : Prop where
  /-- The service has got the first of the calls that the items come to, in order. -/
  first : serviceLog session <+: p.calls items
  /-- Once no event waits and no batch is at hand, it has got all of them. -/
  all : pendingEvents session = [] → batchesAtHand session = [] → serviceLog session = p.calls items
  /-- It never works on two calls at a time. -/
  alone : (callsInProgress session).length ≤ 1
  /-- The calls are for what the items are for, with snapshots of the items' fingerprints. -/
  labels : (p.calls items).map ServiceCall.label = items.map WorkItem.label
  /-- The calls so far have the contents of the first items exactly if none of these items met a snapshot
  of another content under its fingerprint. -/
  contents : (serviceLog session).map ServiceCall.reading <+: items.map WorkItem.reading ↔
    p.Tells (items.take (serviceLog session).length)
  /-- All calls have the contents of the items if fingerprints tell these contents apart. -/
  apart : Solution.TellApart (items.map WorkItem.solution) →
    (p.calls items).map ServiceCall.reading = items.map WorkItem.reading

/-- A sound pipeline delivers the items of the events that were heard. -/
theorem Sound.delivers (h : p.Sound parts delivered remaining extra commands)
    (d : p.Describes parts session) :
    p.Delivers session ((p.heard commands).flatMap Event.items) := by
  have hfiled : ∀ item ∈ (p.heard commands).flatMap Event.items, item.solution.Filed := by
    intro item hitem
    obtain ⟨event, hevent, hitem⟩ := List.mem_flatMap.mp hitem
    exact ((h.told event hevent).deliverable_of_mem hitem).filed
  have hnew := SnapshotRegistry.sound_withCapacity p.capacity
  have hlog : serviceLog session = p.calls delivered := d.serviceLog_eq.trans h.served
  have hsplit := h.account.symm
  exact {
    first := by
      rw [hlog, hsplit, calls, calls, SnapshotRegistry.calls_append]
      exact List.prefix_append _ _
    all := fun hpending hnone => by
      -- What was heard and not delivered would be in the queue or in a batch.
      rw [d.pendingEvents_eq] at hpending
      rw [hpending, h.remaining_eq_nil d hnone, List.flatMap_nil, List.append_nil,
        List.append_nil] at hsplit
      rw [hlog, hsplit]
    alone := h.length_callsInProgress_le d
    labels := hnew.map_label_calls hfiled
    contents := by
      rw [hlog, hsplit, calls, SnapshotRegistry.length_calls, List.take_left]
      exact SnapshotRegistry.prefix_reading_iff _ _ _
    apart := fun happart => by
      rw [calls, SnapshotRegistry.map_reading_calls_iff]
      exact hnew.tells_of_tellApart hfiled (fun e he => absurd he List.not_mem_nil)
        (fun item hitem => List.mem_map_of_mem hitem) happart }

/-- Batching is transparent. Whatever the length of a window, the size of a batch, the capacity of the
registry and the delays of the service are, and whenever the workspace is asked for something, the items
that the events of the workspace come to are delivered once and in order. -/
theorem delivered_in_order (h : p.Run session commands) :
    ∃ lists, (p.heard commands).mapM Event.diff = .ok lists ∧ p.Delivers session lists.flatten := by
  obtain ⟨_, parts, delivered, remaining, extra, d, hsound, -⟩ := h.holds
  have hdelivers := hsound.delivers d
  rw [List.flatMap_def] at hdelivers
  exact ⟨_, mapM_diff_eq hsound.told, hdelivers⟩

/-- A pipeline with batches of one event, room for one snapshot, and a service that takes its time over
its first call. -/
def oneByOne : Pipeline where
  capacity := 0
  script := [⟨30, .succeed, []⟩]
  config := { debounce := 10, batchLimit := 1 }
  id := Fixture.workspace
  before := [.addProject ((Fixture.mk 2 2 1 1).project 0)]
  succeeds := by decide
  enabled := rfl
  faithful := by
    intro command hcommand
    rw [List.mem_singleton.mp hcommand]
    trivial

/-- A document is edited, and a project is added before the first window has elapsed. -/
def editAndAdd : List Command :=
  [.editDocument (Fixture.documentId 0 0), .addProject ((Fixture.mk 2 2 1 1).project 1)]

/-- The session some time after an edit and an added project. -/
def oneByOneAfter (time : ℕ) : Session :=
  (editAndAdd.foldl afterCommand oneByOne.start).advance time

/-- An edit and an added project are delivered one by one. -/
theorem delivered_in_order_of_editAndAdd :
    oneByOne.Run (oneByOneAfter 20) editAndAdd ∧
      ∃ lists, (oneByOne.heard editAndAdd).mapM Event.diff = .ok lists ∧
        oneByOne.Delivers (oneByOneAfter 20) lists.flatten := by
  have hedited : oneByOne.Run (afterCommand oneByOne.start (.editDocument (Fixture.documentId 0 0)))
      [.editDocument (Fixture.documentId 0 0)] := Run.start.command trivial
  have hadd : Command.Faithful (.addProject ((Fixture.mk 2 2 1 1).project 1)) := trivial
  have hasked : oneByOne.Run (editAndAdd.foldl afterCommand oneByOne.start) editAndAdd :=
    hedited.command hadd
  have hrun : oneByOne.Run (oneByOneAfter 20) editAndAdd := hasked.advance 20
  exact ⟨hrun, delivered_in_order hrun⟩

/-- While the service works on the edit, the added project waits; in the end both were delivered. -/
example : (serviceLog (oneByOneAfter 20)).length = 1 ∧
    (callsInProgress (oneByOneAfter 20)).length = 1 ∧
    (pendingEvents (oneByOneAfter 20)).length = 1 ∧
    (serviceLog (oneByOneAfter 50)).length = 2 ∧ batchesAtHand (oneByOneAfter 50) = [] := by
  decide +kernel

/-- A pipeline that nothing was asked of, with all that it has by default. -/
def byDefault : Pipeline where
  capacity := Registry.defaultCapacity
  script := []
  config := {}
  id := ⟨7⟩
  before := []
  succeeds := by decide
  enabled := rfl
  faithful := fun _ hcommand => nomatch hcommand

/-- A project that writes its assembly to a given path. -/
def projectTo (path : String) : Project :=
  { Project.named ⟨1⟩ "P1" with
    config := { ProjectConfig.named "P1" with outputPath := some ⟨path⟩ } }

/-- A project is added, and then it is changed to write its assembly somewhere else: to an absolute path
with the names of the path before. -/
def addAndMove : List Command :=
  [.addProject (projectTo "bin"), .changeProject ⟨1⟩ fun project =>
    { project with config := { project.config with outputPath := some ⟨"/bin"⟩ } }]

/-- The change of the project is delivered with the old content of the project: its snapshot has the
fingerprint of the one before, which the registry still has. -/
theorem not_delivered_by_content : ∃ session lists, byDefault.Run session addAndMove ∧
    (byDefault.heard addAndMove).mapM Event.diff = .ok lists ∧
    pendingEvents session = [] ∧ batchesAtHand session = [] ∧
    ¬(serviceLog session).map ServiceCall.reading <+: lists.flatten.map WorkItem.reading := by
  have hadd : Command.Faithful (.addProject (projectTo "bin")) := trivial
  have hmove : Command.Faithful (.changeProject ⟨1⟩ fun project : Project =>
      { project with config := { project.config with outputPath := some ⟨"/bin"⟩ } }) := fun _ => rfl
  have hrun := ((Run.start (p := byDefault).command hadd).command hmove).advance 4001
  obtain ⟨_, parts, _, _, _, _, hsound, -⟩ := hrun.holds
  exact ⟨_, _, hrun, mapM_diff_eq hsound.told, by decide +kernel, by decide +kernel, by decide +kernel⟩

end Pipeline

end SolutionWatch
