import SolutionWatch.Proofs.Observing.Course

/-!
# Whatever is asked, workspaces stay on course

A session carries out actions, and observers carry out theirs while they are told something. All of that
takes place in the steps of a course (`Session.kept_perform`). Afterwards every workspace is telling just
what it told before, and if it was telling something, the action has not touched its chronicle: whatever
an observer does in the middle of a notification raises nothing there and tells nobody.

So a command that goes through raises one event, tells it to whoever was subscribed, in their order, and
does nothing else to the chronicle of its workspace (`Session.answered_carryOut`).
-/

namespace SolutionWatch

namespace Session

/-- Whoever binds a name tells nobody anything. -/
theorem aloof_bind (session : Session) (kind : ObjectKind) (name : String) (handle : Handle) :
    session.Aloof (session.bind kind name handle) := ⟨rfl, rfl, rfl, Nat.le_refl _⟩

/-- Whoever frees a name tells nobody anything. -/
theorem aloof_unbind (session : Session) (kind : ObjectKind) (name : String) :
    session.Aloof (session.unbind kind name) := ⟨rfl, rfl, rfl, Nat.le_refl _⟩

/-- Whoever names subscriptions tells nobody anything. -/
theorem aloof_subscriptions (session : Session) (names : Catalog String (Handle × ℕ)) :
    session.Aloof { session with subscriptions := names } := ⟨rfl, rfl, rfl, Nat.le_refl _⟩

/-- An observer that records what it did itself gets to know about no event. -/
theorem aloof_record (session : Session) (name : String) (outcome : Outcome) :
    session.Aloof (session.record name (.inside outcome)) where
  workspaces := rfl
  listeners := rfl
  notes := by
    rw [notes, record, List.filterMap_append]
    exact List.append_nil _
  next := Nat.le_refl _

end Session

/-- A chronicle goes on, but not with what is being told. -/
structure Chronicle.Keeps (chronicle later : Chronicle) : Prop where
  /-- What is being told is what was being told. -/
  tellings : later.tellings = chronicle.tellings
  /-- While something is being told, nothing is recorded. -/
  waits : chronicle.tellings ≠ [] → later = chronicle

namespace Chronicle.Keeps

variable {chronicle middle later : Chronicle}

theorem refl (chronicle : Chronicle) : chronicle.Keeps chronicle := ⟨rfl, fun _ => rfl⟩

theorem trans (h : chronicle.Keeps middle) (hlater : middle.Keeps later) : chronicle.Keeps later where
  tellings := hlater.tellings.trans h.tellings
  waits htellings := (hlater.waits (h.tellings ▸ htellings)).trans (h.waits htellings)

end Chronicle.Keeps

/-- A session goes on from a watched one, by steps, and its workspaces keep to what they are telling. -/
def Follows (watched : Watched) (session : Session) : Prop :=
  ∃ chronicles, Watched.Run watched ⟨session, chronicles⟩ ∧
    ∀ handle, (watched.chronicles handle).Keeps (chronicles handle)

namespace Follows

variable {watched : Watched} {session next : Session}

/-- A session follows itself. -/
theorem refl (watched : Watched) : Follows watched watched.session :=
  ⟨watched.chronicles, .refl, fun _ => .refl _⟩

/-- A step that leaves the chronicles alone can follow. -/
theorem step (h : Follows watched session)
    (hstep : ∀ chronicles, Watched.Step ⟨session, chronicles⟩ ⟨next, chronicles⟩) :
    Follows watched next := by
  obtain ⟨chronicles, hrun, hkeeps⟩ := h
  exact ⟨chronicles, hrun.tail (hstep _), hkeeps⟩

/-- What follows what follows. -/
theorem trans (h : Follows watched session)
    (hnext : ∀ chronicles, Watched.Run watched ⟨session, chronicles⟩ →
      Follows ⟨session, chronicles⟩ next) : Follows watched next := by
  obtain ⟨chronicles, hrun, hkeeps⟩ := h
  obtain ⟨later, hlater, hkeepsLater⟩ := hnext chronicles hrun
  exact ⟨later, hrun.trans hlater, fun handle => (hkeeps handle).trans (hkeepsLater handle)⟩

/-- A recorder may subscribe under a name that another one has. -/
theorem subscribeAs (h : Follows watched session) (handle : Handle) (name : String)
    (reactions : List Action) : Follows watched (session.subscribeAs handle name reactions) := by
  have hsubscribed : ∀ names, Follows watched
      { (session.subscribe handle (.recorder name reactions)).2 with subscriptions := names } :=
    fun names => (h.step fun _ => .subscribes handle _).step fun _ =>
      .elsewhere (Session.aloof_subscriptions _ names)
  unfold Session.subscribeAs
  dsimp only
  split
  · exact (hsubscribed _).step fun _ => .unsubscribes _ _
  · exact hsubscribed _

/-- A workspace may be made. -/
theorem newWorkspace (h : Follows watched session) (name : String) (id : WorkspaceId) :
    Follows watched (session.newWorkspace name id) := by
  have hmade := h.step fun _ => .makes id
  exact (hmade.step fun _ => .elsewhere (Session.aloof_bind _ .workspace name session.next)).step
    fun _ => .drops

end Follows

namespace Session

/-- Whoever carries out an action by this leaves workspaces on course. -/
def Kept (perform : Action → Session → Option Outcome × Session) : Prop :=
  ∀ {watched : Watched} {action : Action} {outcome : Outcome} {after : Session},
    watched.Sound → perform action watched.session = (some outcome, after) → Follows watched after

/-- How a command on a workspace is answered. -/
inductive Answered (handle : Handle) (watched : Watched) (state : WorkspaceState)
    (command : Command) : Outcome → Session → Prop
  /-- It is refused, and nothing is changed or told. -/
  | fails {failure : Failure} : state.workspace.begin command = .error failure →
      Answered handle watched state command (.failed failure) watched.session
  /-- There is nothing to do and nothing to tell. -/
  | rests {next : Workspace} : state.workspace.begin command = .ok (next, none) →
      Answered handle watched state command (outcomeOf next command) watched.session
  /-- The workspace told its subscribers what it did, in their order, and nobody anything else. -/
  | tells {next : Workspace} {event : Event} {ended : Session} {chronicles : Handle → Chronicle} :
      state.workspace.begin command = .ok (next, some event) →
      Watched.Run watched ⟨ended, chronicles⟩ →
      chronicles handle =
        { raised := (watched.chronicles handle).raised ++ [(event, state.workspace.subscriptions)]
          told := (watched.chronicles handle).told ++
            state.workspace.subscriptions.map fun k => (k, event)
          tellings := [] } →
      (∀ other, other ≠ handle → (watched.chronicles other).Keeps (chronicles other)) →
      Answered handle watched state command (outcomeOf next command) ended.dropWorkspaces

variable {perform : Action → Session → Option Outcome × Session} {watched : Watched}
  {session after : Session}

/-- An observer that is told something gets to know it and reacts. -/
theorem tellOne_eq (perform : Action → Session → Option Outcome × Session) (session : Session)
    (workspace : Handle) (event : Event) (k : ℕ) (observer : Observer) :
    ∃ name reactions, tellOne perform workspace event k observer session =
      react perform name reactions (session.hand workspace event k observer) := by
  cases observer with
  | listener listener => exact ⟨"", [], rfl⟩
  | recorder name reactions => exact ⟨name, reactions, rfl⟩

/-- A recorder that reacts leaves workspaces on course. -/
theorem follows_react (hperform : Kept perform) (hwatched : watched.Sound) (name : String)
    {actions : List Action} (hreact : react perform name actions watched.session = (false, after)) :
    Follows watched after := by
  induction actions generalizing watched with
  | nil => exact (Prod.mk.inj hreact).2 ▸ .refl watched
  | cons action rest ih =>
    rw [react] at hreact
    split at hreact
    · exact Bool.noConfusion (Prod.mk.inj hreact).1
    · next outcome between hperformed =>
      have hkept : Follows watched (between.record name (.inside outcome)) :=
        (hperform hwatched hperformed).step fun _ => .elsewhere (between.aloof_record name outcome)
      exact hkept.trans fun _ hrun => ih (hwatched.run hrun) hreact

/-- A workspace that tells its observers something tells each of them, in order, whatever they do. -/
theorem run_tell (hperform : Kept perform) {handle : Handle} {command : Command} {event : Event}
    {left : List (ℕ × Observer)} {chronicles : Handle → Chronicle}
    (hwatched : Watched.Sound ⟨session, chronicles⟩)
    (htellings : (chronicles handle).tellings = [⟨command, event, left⟩])
    (htell : tell perform handle event left session = (false, after)) :
    ∃ later, Watched.Run ⟨session, chronicles⟩ ⟨after, later⟩ ∧
      later handle =
        { chronicles handle with
          told := (chronicles handle).told ++ left.map fun entry => (entry.1, event)
          tellings := [⟨command, event, []⟩] } ∧
      ∀ other, other ≠ handle → (chronicles other).Keeps (later other) := by
  induction left generalizing session chronicles with
  | nil =>
    obtain rfl := (Prod.mk.inj htell).2
    refine ⟨chronicles, .refl, ?_, fun _ _ => .refl _⟩
    rw [List.map_nil, List.append_nil, ← htellings]
  | cons head left ih =>
    obtain ⟨k, observer⟩ := head
    obtain ⟨name, reactions, htold⟩ := tellOne_eq perform session handle event k observer
    rw [tell, htold] at htell
    split at htell
    · exact Bool.noConfusion (Prod.mk.inj htell).1
    · next between hreact =>
      -- The observer is told, and whatever it does then leaves the telling where it is.
      have hstep : Watched.Step ⟨session, chronicles⟩ _ := .tells htellings
      obtain ⟨reacted, hreacted, hkeeps⟩ := follows_react hperform (hwatched.step hstep) name hreact
      have hhandle := (hkeeps handle).waits
      simp only [Function.update_self] at hhandle
      have hhandle := hhandle (List.cons_ne_nil _ _)
      obtain ⟨later, hlater, hfinal, hothers⟩ := ih ((hwatched.step hstep).run hreacted)
        (congrArg Chronicle.tellings hhandle) htell
      refine ⟨later, (hreacted.trans hlater).head hstep, ?_, fun other hother => ?_⟩
      · rw [hfinal, hhandle, Chronicle.tell, List.append_assoc]
        rfl
      · have hkept := (hkeeps other).trans (hothers other hother)
        simp only [Function.update_of_ne hother] at hkept
        exact hkept

/-- A command is answered when everybody has been told what it did. -/
theorem answered_of_told (hperform : Kept perform) (hwatched : watched.Sound) {handle : Handle}
    {state : WorkspaceState} (hget : watched.session.workspaces.get? handle = some state)
    {command : Command} {next : Workspace} {event : Event}
    (hbegin : state.workspace.begin command = .ok (next, some event))
    (htell : tell perform handle event
        ((watched.session.install handle next event).observersOf handle)
        (watched.session.install handle next event) = (false, after)) :
    Answered handle watched state command (outcomeOf next command)
      (after.modifyWorkspace handle fun workspace => workspace.finish command).dropWorkspaces := by
  -- The observers that are told are those that were subscribed when the command began.
  have hfits := hwatched.fits hget
  obtain ⟨snapshot, hinstalled⟩ := get?_install hget next event
  rw [observersOf, hinstalled] at htell
  have hnone := hfits.tellings_eq_nil (Workspace.raises_of_begin hbegin).quiet
  have hbegins : Watched.Step watched _ := .begins hget hbegin
  have hbegun : (Function.update watched.chronicles handle
      ((watched.chronicles handle).raise ⟨command, event, state.observers.entries⟩
        state.workspace.subscriptions) handle).tellings =
      [⟨command, event, state.observers.entries⟩] := by
    rw [Function.update_self]
    exact congrArg (_ :: ·) hnone
  obtain ⟨later, hrun, hhandle, hothers⟩ := run_tell hperform (hwatched.step hbegins) hbegun htell
  have hfinishes : Watched.Step ⟨after, later⟩ _ := .finishes (congrArg Chronicle.tellings hhandle)
  refine .tells hbegin ((hrun.head hbegins).tail hfinishes) ?_ fun other hother => ?_
  · rw [Function.update_self, hhandle, Function.update_self, Chronicle.raise, ← hfits.keys,
      Catalog.keys, List.map_map]
    rfl
  · have hkept := hothers other hother
    rw [Function.update_of_ne hother] at hkept ⊢
    exact hkept

/-- A command on a workspace is answered. -/
theorem answered_carryOut (hperform : Kept perform) (hwatched : watched.Sound) {handle : Handle}
    {state : WorkspaceState} (hget : watched.session.workspaces.get? handle = some state)
    {command : Command} {outcome : Outcome}
    (hcarried : carryOut perform handle state command watched.session = (some outcome, after)) :
    Answered handle watched state command outcome after := by
  unfold carryOut at hcarried
  split at hcarried
  · next failure hbegin =>
    obtain ⟨houtcome, rfl⟩ := Prod.mk.inj hcarried
    exact Option.some.inj houtcome ▸ .fails hbegin
  · next next hbegin =>
    obtain ⟨houtcome, rfl⟩ := Prod.mk.inj hcarried
    exact Option.some.inj houtcome ▸ .rests hbegin
  · next next event hbegin =>
    dsimp only at hcarried
    split at hcarried
    · exact absurd (Prod.mk.inj hcarried).1.symm (Option.some_ne_none outcome)
    · next told htell =>
      obtain ⟨houtcome, rfl⟩ := Prod.mk.inj hcarried
      exact Option.some.inj houtcome ▸ answered_of_told hperform hwatched hget hbegin htell

/-- Workspaces stay on course when one of them answers a command. -/
theorem Answered.follows {handle : Handle} {state : WorkspaceState} {command : Command}
    {outcome : Outcome} (h : Answered handle watched state command outcome after)
    (hwatched : watched.Sound) (hget : watched.session.workspaces.get? handle = some state) :
    Follows watched after := by
  cases h with
  | fails | rests => exact .refl watched
  | @tells next event ended chronicles hbegin hrun hhandle hothers =>
    have hnone := (hwatched.fits hget).tellings_eq_nil (Workspace.raises_of_begin hbegin).quiet
    refine ⟨chronicles, hrun.tail .drops, fun other => ?_⟩
    by_cases hother : other = handle
    · subst hother
      rw [hhandle]
      exact ⟨hnone.symm, fun htells => absurd hnone htells⟩
    · exact hothers other hother

/-- What is found under a name is there. -/
theorem get?_of_workspace? {name : String} {handle : Handle} {state : WorkspaceState}
    (h : session.workspace? name = some (handle, state)) :
    session.workspaces.get? handle = some state := by
  obtain ⟨found, -, hmap⟩ := Option.bind_eq_some_iff.mp h
  obtain ⟨there, hget, heq⟩ := Option.map_eq_some_iff.mp hmap
  obtain ⟨rfl, rfl⟩ := Prod.mk.inj heq
  exact hget

/-- Whatever is asked leaves workspaces on course, however deep the actions of observers are nested. -/
theorem kept_perform (depth : ℕ) : Kept (Session.perform depth) := by
  induction depth with
  | zero => exact fun _ hperformed => (Prod.mk.inj hperformed).2 ▸ .refl _
  | succ depth ih =>
    intro watched action outcome after hwatched hperformed
    have hhere := Follows.refl watched
    cases action with
    | create name id => exact (Prod.mk.inj hperformed).2 ▸ hhere.newWorkspace name id
    | forget name =>
      have hunbound := hhere.step fun _ => .elsewhere (watched.session.aloof_unbind .workspace name)
      exact (Prod.mk.inj hperformed).2 ▸ hunbound.step fun _ => .drops
    | command name command =>
      simp only [Session.perform] at hperformed
      split at hperformed
      · next handle state hfound =>
        have hget := get?_of_workspace? hfound
        exact (answered_carryOut ih hwatched hget hperformed).follows hwatched hget
      · exact (Prod.mk.inj hperformed).2 ▸ hhere
    | inspect name documents =>
      simp only [Session.perform] at hperformed
      split at hperformed <;> exact (Prod.mk.inj hperformed).2 ▸ hhere
    | subscribe workspace name reactions =>
      simp only [Session.perform] at hperformed
      split at hperformed
      · exact (Prod.mk.inj hperformed).2 ▸ hhere.subscribeAs _ name reactions
      · exact (Prod.mk.inj hperformed).2 ▸ hhere
    | unsubscribe name =>
      simp only [Session.perform] at hperformed
      split at hperformed
      · have hfreed := hhere.step fun _ => .elsewhere
          (watched.session.aloof_subscriptions (watched.session.subscriptions.erase name))
        exact (Prod.mk.inj hperformed).2 ▸ hfreed.step fun _ => .unsubscribes _ _
      · exact (Prod.mk.inj hperformed).2 ▸ hhere
    | check name =>
      simp only [Session.perform] at hperformed
      split at hperformed <;> exact (Prod.mk.inj hperformed).2 ▸ hhere
    | refused | refusedBy => exact (Prod.mk.inj hperformed).2 ▸ hhere
    | breakDown => exact absurd (Prod.mk.inj hperformed).1.symm (Option.some_ne_none outcome)

end Session

end SolutionWatch
