import Mathlib.Logic.Function.Basic
import Mathlib.Logic.Relation
import SolutionWatch.Proofs.Queue.Effects
import SolutionWatch.Proofs.Workspace.Answers
import SolutionWatch.Session.Observing

/-!
# The course of workspaces and their observers

A `Watched` session is one together with a `Chronicle` of each workspace: the events that it raised, and
for whom; what was told, and to whom; and what is still being told. `Watched.Step` is what can happen to
it: a workspace is made, begins to tell its observers something, or has told all of them; one observer is
told; somebody subscribes, or a subscription ends; workspaces that nobody holds are forgotten; and anything
happens that leaves the workspaces alone and tells nobody anything. Steps come in any order, so an observer
that is told something may do anything before the next one is told, and it may ask anything of the
workspace that is telling.

No step demands that a workspace tells one thing at a time, that everybody who was subscribed is told, or
that what is told hangs together. `Chronicle.Fits` says so of a workspace and its chronicle, and every step
preserves it for every workspace (`Watched.Sound.step`).

What recorders write down is what the chronicles say that they were told (`Watched.Run.notes`).
-/

namespace SolutionWatch

/-- Something that a workspace is telling its observers. -/
structure Telling where
  /-- The command because of which it is told. -/
  command : Command
  /-- The event. -/
  event : Event
  /-- The observers that have not been told, with the numbers of their subscriptions. -/
  left : List (ℕ × Observer)

/-- The event, for a subscription that has not been told. -/
def Telling.owedTo (telling : Telling) (subscription : ℕ) : List Event :=
  if subscription ∈ telling.left.map Prod.fst then [telling.event] else []

/-- What a workspace has told its observers and what it is telling them. -/
structure Chronicle where
  /-- The events that were raised, each with the subscriptions that there were at that moment. -/
  raised : List (Event × List ℕ) := []
  /-- The notifications, each with the number of the subscription that it went to. -/
  told : List (ℕ × Event) := []
  /-- What is being told, the last that was begun first. -/
  tellings : List Telling := []

namespace Chronicle

/-- An event is raised. -/
def raise (chronicle : Chronicle) (telling : Telling) (subscriptions : List ℕ) : Chronicle :=
  { chronicle with
    raised := chronicle.raised ++ [(telling.event, subscriptions)]
    tellings := telling :: chronicle.tellings }

/-- One observer is told. -/
def tell (chronicle : Chronicle) (subscription : ℕ) (telling : Telling) (outer : List Telling) :
    Chronicle :=
  { chronicle with
    told := chronicle.told ++ [(subscription, telling.event)], tellings := telling :: outer }

/-- What was told to a subscription, in order. -/
def toldTo (chronicle : Chronicle) (subscription : ℕ) : List Event :=
  (chronicle.told.filter fun entry => entry.1 = subscription).map Prod.snd

/-- What is being told and has not been told to a subscription yet. -/
def owedTo (chronicle : Chronicle) (subscription : ℕ) : List Event :=
  chronicle.tellings.flatMap fun telling => telling.owedTo subscription

/-- What was raised while there was a subscription, in order. -/
def raisedFor (chronicle : Chronicle) (subscription : ℕ) : List Event :=
  (chronicle.raised.filter fun entry => subscription ∈ entry.2).map Prod.fst

variable (chronicle : Chronicle)

/-- An event is raised for those who are subscribed. -/
theorem raisedFor_raise (telling : Telling) (subscriptions : List ℕ) (k : ℕ) :
    (chronicle.raise telling subscriptions).raisedFor k =
      chronicle.raisedFor k ++ if k ∈ subscriptions then [telling.event] else [] := by
  rw [raisedFor, raise, List.filter_append, List.map_append, List.filter_singleton]
  by_cases hk : k ∈ subscriptions <;> simp [hk, raisedFor]

/-- An observer that is told something is the only one that is told. -/
theorem toldTo_tell (k other : ℕ) (telling : Telling) (outer : List Telling) :
    (chronicle.tell k telling outer).toldTo other =
      chronicle.toldTo other ++ if k = other then [telling.event] else [] := by
  rw [toldTo, tell, List.filter_append, List.map_append, List.filter_singleton]
  by_cases hk : k = other <;> simp [hk, toldTo]

variable {chronicle}

/-- Telling an observer settles what it is owed. -/
theorem settles_tell {command : Command} {event : Event} {k : ℕ} {observer : Observer}
    {left : List (ℕ × Observer)} {outer : List Telling}
    (htellings : chronicle.tellings = ⟨command, event, (k, observer) :: left⟩ :: outer)
    (hk : k ∉ left.map Prod.fst) (other : ℕ) :
    (chronicle.tell k ⟨command, event, left⟩ outer).toldTo other ++
        (chronicle.tell k ⟨command, event, left⟩ outer).owedTo other =
      chronicle.toldTo other ++ chronicle.owedTo other := by
  rw [toldTo_tell, owedTo, owedTo, htellings, tell, List.flatMap_cons, List.flatMap_cons,
    Telling.owedTo, Telling.owedTo, List.map_cons, List.append_assoc]
  by_cases h : k = other
  · obtain rfl := h
    rw [if_pos rfl, if_neg hk, if_pos List.mem_cons_self, List.nil_append]
  · have hmem : other ∈ k :: left.map Prod.fst ↔ other ∈ left.map Prod.fst :=
      List.mem_cons.trans (or_iff_right (Ne.symm h))
    simp only [if_neg h, hmem, List.nil_append]

/-- A workspace and its observers are as the chronicle says. -/
structure Fits (chronicle : Chronicle) (state : WorkspaceState) : Prop where
  /-- Every subscription has its observer. -/
  keys : state.observers.keys = state.workspace.subscriptions
  /-- The next subscription gets a number that none had. -/
  fresh : ∀ k ∈ state.workspace.subscriptions, k < state.workspace.nextSubscription
  /-- Events were raised for subscriptions. -/
  audiences : ∀ entry ∈ chronicle.raised, ∀ k ∈ entry.2, k < state.workspace.nextSubscription
  /-- The workspace tells one thing at a time, and is notifying while it does. -/
  single : (chronicle.tellings = [] ∧ state.workspace.notifying = false) ∨
    ∃ telling, chronicle.tellings = [telling] ∧ (telling.left.map Prod.fst).Nodup ∧
      state.workspace.notifying = true
  /-- Whoever was subscribed has been told, or is still to be told. -/
  balance : ∀ k, chronicle.toldTo k ++ chronicle.owedTo k = chronicle.raisedFor k
  /-- What was raised leads from the empty snapshot to the current one. -/
  unbroken : Unbroken (.initial state.workspace.id) (chronicle.raised.map Prod.fst)
    state.workspace.current
  /-- What was raised while there was a subscription leads on without a gap, to the current snapshot if
  the subscription is in force. -/
  each : ∀ k, ∃ first last, Unbroken first (chronicle.raisedFor k) last ∧
    (k ∈ state.workspace.subscriptions → last = state.workspace.current)

namespace Fits

variable {state : WorkspaceState}

/-- A new workspace has told nobody anything. -/
theorem made (id : WorkspaceId) (snapshot : Handle) :
    Fits {} { workspace := .initial id, snapshot := snapshot } where
  keys := rfl
  fresh _ h := nomatch h
  audiences _ h := nomatch h
  single := .inl ⟨rfl, rfl⟩
  balance _ := rfl
  unbroken := rfl
  each _ := ⟨.initial id, .initial id, rfl, fun _ => rfl⟩

/-- While something is told, the workspace is notifying. -/
theorem notifying (h : chronicle.Fits state) (htellings : chronicle.tellings ≠ []) :
    state.workspace.notifying = true := by
  rcases h.single with ⟨hnone, -⟩ | ⟨_, -, -, hnotifying⟩
  · exact absurd hnone htellings
  · exact hnotifying

/-- A workspace that is not notifying tells nothing. -/
theorem tellings_eq_nil (h : chronicle.Fits state) (hquiet : state.workspace.notifying = false) :
    chronicle.tellings = [] := by
  by_contra htellings
  exact Bool.false_ne_true (hquiet.symm.trans (h.notifying htellings))

/-- A workspace that tells nothing is not notifying. -/
theorem quiet (h : chronicle.Fits state) (htellings : chronicle.tellings = []) :
    state.workspace.notifying = false := by
  rcases h.single with ⟨-, hquiet⟩ | ⟨_, hone, -, -⟩
  · exact hquiet
  · exact absurd (hone.symm.trans htellings) (List.cons_ne_nil _ _)

/-- An event is raised when a workspace begins to tell it. -/
theorem raise (h : chronicle.Fits state) {command : Command} {next : Workspace} {event : Event}
    (hbegin : state.workspace.begin command = .ok (next, some event)) (snapshot : Handle) :
    (chronicle.raise ⟨command, event, state.observers.entries⟩ state.workspace.subscriptions).Fits
      { state with workspace := next, snapshot := snapshot } := by
  have hraises := Workspace.raises_of_begin hbegin
  have htellings := h.tellings_eq_nil hraises.quiet
  have hentries : state.observers.entries.map Prod.fst = state.workspace.subscriptions := h.keys
  constructor
  case keys => exact h.keys.trans hraises.subscriptions.symm
  case fresh =>
    rw [hraises.subscriptions, hraises.nextSubscription]
    exact h.fresh
  case audiences =>
    rw [hraises.nextSubscription]
    intro entry hentry k hk
    rcases List.mem_append.mp hentry with hentry | hentry
    · exact h.audiences entry hentry k hk
    · obtain rfl := List.mem_singleton.mp hentry
      exact h.fresh k hk
  case single =>
    exact .inr ⟨_, congrArg _ htellings, state.observers.nodup, hraises.notifying⟩
  case balance =>
    -- Whoever is subscribed is owed the event, and nobody is owed anything else.
    intro k
    have hbalance := h.balance k
    rw [owedTo, htellings, List.flatMap_nil, List.append_nil] at hbalance
    rw [raisedFor_raise, ← hbalance, owedTo, Chronicle.raise, htellings, List.flatMap_cons,
      List.flatMap_nil, List.append_nil, Telling.owedTo, hentries]
    rfl
  case unbroken =>
    rw [hraises.id, Chronicle.raise, List.map_append]
    exact h.unbroken.append hraises.unbroken
  case each =>
    intro k
    obtain ⟨first, last, hfor, hlast⟩ := h.each k
    rw [raisedFor_raise, hraises.subscriptions]
    by_cases hk : k ∈ state.workspace.subscriptions
    · rw [if_pos hk]
      exact ⟨first, next.current, hfor.append (hlast hk ▸ hraises.unbroken), fun _ => rfl⟩
    · rw [if_neg hk, List.append_nil]
      exact ⟨first, last, hfor, fun hsubscribed => absurd hsubscribed hk⟩

/-- One observer is told what the workspace is telling. Which reactions observers have left is no concern
of the chronicle. -/
theorem tell (h : chronicle.Fits state) {command : Command} {event : Event} {k : ℕ}
    {observer : Observer} {left : List (ℕ × Observer)} {outer : List Telling}
    (htellings : chronicle.tellings = ⟨command, event, (k, observer) :: left⟩ :: outer)
    {observers : Catalog ℕ Observer} (hkeys : observers.keys = state.observers.keys) :
    (chronicle.tell k ⟨command, event, left⟩ outer).Fits { state with observers := observers } := by
  obtain ⟨hnil, -⟩ | ⟨telling, hone, hnodup, hnotifying⟩ := h.single
  · exact absurd (htellings.symm.trans hnil) (List.cons_ne_nil _ _)
  obtain ⟨rfl, rfl⟩ := List.cons.inj (htellings.symm.trans hone)
  obtain ⟨hk, hnodup⟩ := List.nodup_cons.mp hnodup
  exact
    { h with
      keys := hkeys.trans h.keys
      single := .inr ⟨_, rfl, hnodup, hnotifying⟩
      balance := fun other => (settles_tell htellings hk other).trans (h.balance other) }

/-- Everybody has been told. -/
theorem finish (h : chronicle.Fits state) {command : Command} {event : Event} {outer : List Telling}
    (htellings : chronicle.tellings = ⟨command, event, []⟩ :: outer) :
    Fits { chronicle with tellings := outer }
      { state with workspace := state.workspace.finish command } := by
  obtain ⟨hnil, -⟩ | ⟨telling, hone, -, -⟩ := h.single
  · exact absurd (htellings.symm.trans hnil) (List.cons_ne_nil _ _)
  obtain ⟨-, rfl⟩ := List.cons.inj (htellings.symm.trans hone)
  refine { h with single := .inl ⟨rfl, rfl⟩, balance := fun k => ?_ }
  have hbalance := h.balance k
  rwa [owedTo, htellings] at hbalance

/-- Somebody subscribes. -/
theorem subscribe (h : chronicle.Fits state) (observer : Observer) :
    chronicle.Fits
      { state with
        workspace := state.workspace.subscribe.2
        observers := state.observers.insert state.workspace.subscribe.1 observer } := by
  have hnew : state.workspace.nextSubscription ∉ state.workspace.subscriptions :=
    fun hk => Nat.lt_irrefl _ (h.fresh _ hk)
  constructor
  case keys =>
    exact (Catalog.keys_insert _ _ _).trans ((if_neg (h.keys ▸ hnew)).trans (congrArg (· ++ _) h.keys))
  case fresh =>
    intro k hk
    rcases List.mem_append.mp hk with hk | hk
    · exact Nat.lt_succ_of_lt (h.fresh k hk)
    · obtain rfl := List.mem_singleton.mp hk
      exact Nat.lt_succ_self _
  case audiences => exact fun entry hentry k hk => Nat.lt_succ_of_lt (h.audiences entry hentry k hk)
  case single => exact h.single
  case balance => exact h.balance
  case unbroken => exact h.unbroken
  case each =>
    intro k
    by_cases hk : k = state.workspace.nextSubscription
    · -- Nothing was raised for a subscription that there was not.
      have hnone : chronicle.raisedFor k = [] := by
        rw [raisedFor, List.map_eq_nil_iff, List.filter_eq_nil_iff]
        intro entry hentry hmem
        exact Nat.ne_of_lt (h.audiences entry hentry k (of_decide_eq_true hmem)) hk
      rw [hnone]
      exact ⟨_, _, rfl, fun _ => rfl⟩
    · obtain ⟨first, last, hfor, hlast⟩ := h.each k
      refine ⟨first, last, hfor, fun hmem => hlast ?_⟩
      exact (List.mem_append.mp hmem).resolve_right fun hlater => hk (List.mem_singleton.mp hlater)

/-- A subscription ends. -/
theorem unsubscribe (h : chronicle.Fits state) (k : ℕ) :
    chronicle.Fits
      { state with
        workspace := state.workspace.unsubscribe k, observers := state.observers.erase k } where
  keys := (state.observers.keys_erase k).trans (congrArg _ h.keys)
  fresh other hother := h.fresh other (List.mem_filter.mp hother).1
  audiences := h.audiences
  single := h.single
  balance := h.balance
  unbroken := h.unbroken
  each other := by
    obtain ⟨first, last, hfor, hlast⟩ := h.each other
    exact ⟨first, last, hfor, fun hmem => hlast (List.mem_filter.mp hmem).1⟩

end Fits

end Chronicle

namespace Session

/-- The events that recorders have recorded, with their names. -/
def notes (session : Session) : List (String × Event) :=
  session.sightings.filterMap fun entry =>
    match entry.2 with
    | .event event => some (entry.1, event)
    | .inside _ => none

/-- The workspaces are left alone, nobody gets to know about an event, and numbers are not given back. -/
structure Aloof (session next : Session) : Prop where
  /-- The workspaces are the same. -/
  workspaces : next.workspaces = session.workspaces
  /-- The listeners have the events that they had. -/
  listeners : next.listeners = session.listeners
  /-- The recorders have the events that they had. -/
  notes : next.notes = session.notes
  /-- The number that the next object gets is no smaller. -/
  next : session.next ≤ next.next

end Session

/-- A session and what its workspaces have told their observers. -/
structure Watched where
  /-- The session. -/
  session : Session
  /-- What each workspace has told and is telling. -/
  chronicles : Handle → Chronicle := fun _ => {}

namespace Watched

open Function (update)

/-- What can happen in a watched session. -/
inductive Step : Watched → Watched → Prop
  /-- A workspace is made. -/
  | makes {session : Session} {chronicles : Handle → Chronicle} (id : WorkspaceId) :
      Step ⟨session, chronicles⟩
        ⟨{ session with
            next := session.next + 2
            workspaces := session.workspaces.insert session.next
              { workspace := .initial id, snapshot := session.next + 1 } }, chronicles⟩
  /-- A workspace begins to tell its observers something. -/
  | begins {session : Session} {chronicles : Handle → Chronicle} {handle : Handle}
      {state : WorkspaceState} {command : Command} {next : Workspace} {event : Event}
      (hstate : session.workspaces.get? handle = some state)
      (hbegin : state.workspace.begin command = .ok (next, some event)) :
      Step ⟨session, chronicles⟩
        ⟨session.install handle next event, update chronicles handle
          ((chronicles handle).raise ⟨command, event, state.observers.entries⟩
            state.workspace.subscriptions)⟩
  /-- One of its observers is told. -/
  | tells {session : Session} {chronicles : Handle → Chronicle} {handle : Handle} {command : Command}
      {event : Event} {k : ℕ} {observer : Observer} {left : List (ℕ × Observer)}
      {outer : List Telling}
      (htellings : (chronicles handle).tellings = ⟨command, event, (k, observer) :: left⟩ :: outer) :
      Step ⟨session, chronicles⟩
        ⟨session.hand handle event k observer, update chronicles handle
          ((chronicles handle).tell k ⟨command, event, left⟩ outer)⟩
  /-- All of them have been told. -/
  | finishes {session : Session} {chronicles : Handle → Chronicle} {handle : Handle}
      {command : Command} {event : Event} {outer : List Telling}
      (htellings : (chronicles handle).tellings = ⟨command, event, []⟩ :: outer) :
      Step ⟨session, chronicles⟩
        ⟨session.modifyWorkspace handle fun workspace => workspace.finish command,
          update chronicles handle { chronicles handle with tellings := outer }⟩
  /-- Somebody subscribes. -/
  | subscribes {session : Session} {chronicles : Handle → Chronicle} (handle : Handle)
      (observer : Observer) :
      Step ⟨session, chronicles⟩ ⟨(session.subscribe handle observer).2, chronicles⟩
  /-- A subscription ends. -/
  | unsubscribes {session : Session} {chronicles : Handle → Chronicle} (handle : Handle) (k : ℕ) :
      Step ⟨session, chronicles⟩ ⟨session.unsubscribe handle k, chronicles⟩
  /-- Workspaces that nobody holds are forgotten. -/
  | drops {session : Session} {chronicles : Handle → Chronicle} :
      Step ⟨session, chronicles⟩ ⟨session.dropWorkspaces, chronicles⟩
  /-- Something else happens. -/
  | elsewhere {session next : Session} {chronicles : Handle → Chronicle}
      (haloof : session.Aloof next) : Step ⟨session, chronicles⟩ ⟨next, chronicles⟩

/-- One thing happens after another. -/
def Run : Watched → Watched → Prop := Relation.ReflTransGen Step

/-- The chronicles are right. -/
structure Sound (watched : Watched) : Prop where
  /-- Every workspace and its observers are as its chronicle says. -/
  fits : ∀ {handle state}, watched.session.workspaces.get? handle = some state →
    (watched.chronicles handle).Fits state
  /-- A workspace that has not been made has told nobody anything. -/
  unmade : ∀ {handle}, watched.session.next ≤ handle →
    watched.session.workspaces.get? handle = none ∧ watched.chronicles handle = {}

end Watched

namespace Session

variable {session : Session} {handle other : Handle} {state : WorkspaceState}

/-- What a workspace is after it took over the first half of a command. -/
theorem get?_install (hstate : session.workspaces.get? handle = some state) (next : Workspace)
    (event : Event) :
    ∃ snapshot, (session.install handle next event).workspaces.get? handle =
      some { state with workspace := next, snapshot := snapshot } := by
  unfold install
  split
  · exact ⟨session.next, (Catalog.get?_modify _ _ _).trans (congrArg _ hstate)⟩
  · exact ⟨state.snapshot, (Catalog.get?_modify _ _ _).trans (congrArg _ hstate)⟩

/-- A workspace is as it was after another one took over the first half of a command. -/
theorem get?_install_of_ne (session : Session) (hne : handle ≠ other) (next : Workspace)
    (event : Event) :
    (session.install handle next event).workspaces.get? other = session.workspaces.get? other := by
  unfold install
  split <;> exact Catalog.get?_modify_of_ne _ hne _

/-- Numbers are not given back. -/
theorem next_le_install (session : Session) (handle : Handle) (next : Workspace) (event : Event) :
    session.next ≤ (session.install handle next event).next := by
  unfold install
  split
  · exact Nat.le_succ _
  · exact Nat.le_refl _

/-- A listener that is told something leaves the workspaces alone, and writes nothing down. -/
theorem addEvent_frame (session : Session) (listener : Handle) (event : Event) :
    (session.addEvent listener event).workspaces = session.workspaces ∧
      (session.addEvent listener event).next = session.next ∧
      (session.addEvent listener event).sightings = session.sightings := by
  unfold addEvent
  split
  · exact ⟨rfl, rfl, rfl⟩
  · dsimp only
    split
    · obtain ⟨woken, hwake, -⟩ := wake_eq _ _
      rw [hwake]
      exact ⟨rfl, rfl, rfl⟩
    · exact ⟨rfl, rfl, rfl⟩

/-- An observer that is told something leaves the workspace as it is, and itself where it is. -/
theorem hand_frame (session : Session) (handle : Handle) (event : Event) (k : ℕ)
    (observer : Observer) :
    (session.hand handle event k observer).next = session.next ∧
      (∀ other, handle ≠ other → (session.hand handle event k observer).workspaces.get? other =
        session.workspaces.get? other) ∧
      ∀ next, (session.hand handle event k observer).workspaces.get? handle = some next →
        ∃ state, session.workspaces.get? handle = some state ∧
          ∃ observers : Catalog ℕ Observer, observers.keys = state.observers.keys ∧
            next = { state with observers := observers } := by
  cases observer with
  | listener listener =>
    obtain ⟨hworkspaces, hnext, -⟩ := session.addEvent_frame listener event
    refine ⟨hnext, fun other _ => congrArg (Catalog.get? · other) hworkspaces, fun next hget => ?_⟩
    exact ⟨next, (congrArg (Catalog.get? · handle) hworkspaces).symm.trans hget, _, rfl, rfl⟩
  | recorder name reactions =>
    refine ⟨rfl, fun other hne => Catalog.get?_modify_of_ne _ hne _, fun next hget => ?_⟩
    obtain ⟨state, hstate, rfl⟩ :=
      Option.map_eq_some_iff.mp ((Catalog.get?_modify _ _ _).symm.trans hget)
    exact ⟨state, hstate, _, Catalog.keys_modify _ _ _, rfl⟩

/-- A workspace that is not forgotten is left as it is. -/
theorem get?_dropWorkspaces (session : Session) (handle : Handle) :
    session.dropWorkspaces.workspaces.get? handle = none ∨
      session.dropWorkspaces.workspaces.get? handle = session.workspaces.get? handle := by
  rw [dropWorkspaces, Catalog.get?_foldl_erase]
  split
  · exact .inl rfl
  · exact .inr rfl

end Session

namespace Watched.Sound

variable {watched next : Watched}

/-- A workspace has been made if it is there. -/
theorem lt_next (h : watched.Sound) {handle : Handle} {state : WorkspaceState}
    (hget : watched.session.workspaces.get? handle = some state) : handle < watched.session.next :=
  Nat.lt_of_not_le fun hle => nomatch (h.unmade hle).1.symm.trans hget

/-- A workspace has been made if it is telling something. -/
theorem lt_next_of_tellings (h : watched.Sound) {handle : Handle} {telling : Telling}
    {outer : List Telling} (htellings : (watched.chronicles handle).tellings = telling :: outer) :
    handle < watched.session.next := by
  refine Nat.lt_of_not_le fun hle => ?_
  rw [(h.unmade hle).2] at htellings
  contradiction

/-- The chronicles are right if nothing has changed but one workspace and its chronicle, and that one is
right. -/
theorem change (h : watched.Sound) {next : Session} {handle : Handle} {chronicle : Chronicle}
    (hnext : watched.session.next ≤ next.next) (hlt : handle < next.next)
    (hothers : ∀ other, handle ≠ other →
      next.workspaces.get? other = watched.session.workspaces.get? other)
    (hown : ∀ state, next.workspaces.get? handle = some state → chronicle.Fits state) :
    Sound ⟨next, Function.update watched.chronicles handle chronicle⟩ where
  fits := by
    intro other state hget
    by_cases hother : handle = other
    · subst hother
      simp only [Function.update_self]
      exact hown state hget
    · simp only [Function.update_of_ne (Ne.symm hother)]
      exact h.fits ((hothers other hother).symm.trans hget)
  unmade := by
    intro other hle
    have hother : handle ≠ other := fun heq => Nat.not_le_of_lt hlt (heq ▸ hle)
    obtain ⟨hnone, hempty⟩ := h.unmade (Nat.le_trans hnext hle)
    exact ⟨(hothers other hother).trans hnone,
      (Function.update_of_ne (Ne.symm hother) _ _).trans hempty⟩

/-- The chronicles are right if nothing has changed but one workspace, and its chronicle is right. -/
theorem change_workspace (h : watched.Sound) {next : Session} {handle : Handle}
    (hnext : watched.session.next ≤ next.next) (hlt : handle < next.next)
    (hothers : ∀ other, handle ≠ other →
      next.workspaces.get? other = watched.session.workspaces.get? other)
    (hown : ∀ state, next.workspaces.get? handle = some state →
      (watched.chronicles handle).Fits state) : Sound ⟨next, watched.chronicles⟩ := by
  have hchanged := h.change hnext hlt hothers hown
  rwa [Function.update_eq_self] at hchanged

variable {session : Session} {chronicles : Handle → Chronicle} {handle : Handle}

/-- A workspace may be made. -/
theorem makes (h : Sound ⟨session, chronicles⟩) (id : WorkspaceId) :
    Sound ⟨{ session with
      next := session.next + 2
      workspaces := session.workspaces.insert session.next
        { workspace := .initial id, snapshot := session.next + 1 } }, chronicles⟩ := by
  refine h.change_workspace (Nat.le_add_right _ 2) (Nat.lt_add_of_pos_right Nat.two_pos)
    (fun other hother => (Catalog.get?_insert _ _ _ _).trans (if_neg hother)) fun state hget => ?_
  obtain rfl := Option.some.inj (((Catalog.get?_insert _ _ _ _).trans (if_pos rfl)).symm.trans hget)
  rw [(h.unmade (Nat.le_refl _)).2]
  exact .made id _

/-- A workspace may begin to tell its observers something. -/
theorem begins (h : Sound ⟨session, chronicles⟩) {state : WorkspaceState} {command : Command}
    {next : Workspace} {event : Event} (hstate : session.workspaces.get? handle = some state)
    (hbegin : state.workspace.begin command = .ok (next, some event)) :
    Sound ⟨session.install handle next event, Function.update chronicles handle
      ((chronicles handle).raise ⟨command, event, state.observers.entries⟩
        state.workspace.subscriptions)⟩ := by
  have hnext := session.next_le_install handle next event
  refine h.change hnext (Nat.lt_of_lt_of_le (h.lt_next hstate) hnext)
    (fun other hother => session.get?_install_of_ne hother next event) fun installed hget => ?_
  obtain ⟨snapshot, hinstalled⟩ := Session.get?_install hstate next event
  obtain rfl := Option.some.inj (hinstalled.symm.trans hget)
  exact (h.fits hstate).raise hbegin snapshot

/-- An observer may be told what the workspace is telling. -/
theorem tells (h : Sound ⟨session, chronicles⟩) {command : Command} {event : Event} {k : ℕ}
    {observer : Observer} {left : List (ℕ × Observer)} {outer : List Telling}
    (htellings : (chronicles handle).tellings = ⟨command, event, (k, observer) :: left⟩ :: outer) :
    Sound ⟨session.hand handle event k observer, Function.update chronicles handle
      ((chronicles handle).tell k ⟨command, event, left⟩ outer)⟩ := by
  obtain ⟨hnext, hothers, hown⟩ := session.hand_frame handle event k observer
  refine h.change (Nat.le_of_eq hnext.symm) (hnext.symm ▸ h.lt_next_of_tellings htellings) hothers
    fun later hget => ?_
  obtain ⟨state, hstate, observers, hkeys, rfl⟩ := hown later hget
  exact (h.fits hstate).tell htellings hkeys

/-- A workspace may have told all of its observers. -/
theorem finishes (h : Sound ⟨session, chronicles⟩) {command : Command} {event : Event}
    {outer : List Telling}
    (htellings : (chronicles handle).tellings = ⟨command, event, []⟩ :: outer) :
    Sound ⟨session.modifyWorkspace handle fun workspace => workspace.finish command,
      Function.update chronicles handle { chronicles handle with tellings := outer }⟩ := by
  refine h.change (Nat.le_refl _) (h.lt_next_of_tellings htellings)
    (fun other hother => Catalog.get?_modify_of_ne _ hother _) fun later hget => ?_
  obtain ⟨state, hstate, rfl⟩ :=
    Option.map_eq_some_iff.mp ((Catalog.get?_modify _ _ _).symm.trans hget)
  exact (h.fits hstate).finish htellings

/-- Somebody may subscribe. -/
theorem subscribes (h : Sound ⟨session, chronicles⟩) (handle : Handle) (observer : Observer) :
    Sound ⟨(session.subscribe handle observer).2, chronicles⟩ := by
  cases hstate : session.workspaces.get? handle with
  | none => simpa only [Session.subscribe, hstate] using h
  | some state =>
    simp only [Session.subscribe, hstate]
    refine h.change_workspace (Nat.le_refl _) (h.lt_next hstate)
      (fun other hother => (Catalog.get?_insert _ _ _ _).trans (if_neg hother)) fun later hget => ?_
    obtain rfl := Option.some.inj (((Catalog.get?_insert _ _ _ _).trans (if_pos rfl)).symm.trans hget)
    exact (h.fits hstate).subscribe observer

/-- A subscription may end. -/
theorem unsubscribes (h : Sound ⟨session, chronicles⟩) (handle k : ℕ) :
    Sound ⟨session.unsubscribe handle k, chronicles⟩ where
  fits := by
    intro other later hget
    by_cases hother : handle = other
    · subst hother
      obtain ⟨state, hstate, rfl⟩ :=
        Option.map_eq_some_iff.mp ((Catalog.get?_modify _ _ _).symm.trans hget)
      exact (h.fits hstate).unsubscribe k
    · exact h.fits ((Catalog.get?_modify_of_ne _ hother _).symm.trans hget)
  unmade := by
    intro other hle
    obtain ⟨hnone, hempty⟩ := h.unmade hle
    refine ⟨?_, hempty⟩
    by_cases hother : handle = other
    · subst hother
      exact (Catalog.get?_modify _ _ _).trans (congrArg _ hnone)
    · exact (Catalog.get?_modify_of_ne _ hother _).trans hnone

/-- Workspaces that nobody holds may be forgotten. -/
theorem drops (h : Sound ⟨session, chronicles⟩) : Sound ⟨session.dropWorkspaces, chronicles⟩ where
  fits := by
    intro handle state hget
    rcases session.get?_dropWorkspaces handle with hnone | hsame
    · exact nomatch hnone.symm.trans hget
    · exact h.fits (hsame.symm.trans hget)
  unmade := by
    intro handle hle
    obtain ⟨hnone, hempty⟩ := h.unmade hle
    exact ⟨(session.get?_dropWorkspaces handle).elim (fun h => h) (Eq.trans · hnone), hempty⟩

/-- Anything may happen that leaves the workspaces as they are. -/
theorem elsewhere (h : Sound ⟨session, chronicles⟩) {next : Session}
    (hworkspaces : next.workspaces = session.workspaces) (hnext : session.next ≤ next.next) :
    Sound ⟨next, chronicles⟩ where
  fits hget := h.fits (hworkspaces ▸ hget)
  unmade hle := hworkspaces ▸ h.unmade (Nat.le_trans hnext hle)

/-- Whatever happens, the chronicles go on being right. -/
theorem step (h : watched.Sound) (hstep : Step watched next) : next.Sound := by
  cases hstep with
  | makes id => exact h.makes id
  | begins hstate hbegin => exact h.begins hstate hbegin
  | tells htellings => exact h.tells htellings
  | finishes htellings => exact h.finishes htellings
  | subscribes handle observer => exact h.subscribes handle observer
  | unsubscribes handle k => exact h.unsubscribes handle k
  | drops => exact h.drops
  | elsewhere haloof => exact h.elsewhere haloof.workspaces haloof.next

/-- The chronicles are right throughout. -/
theorem run (h : watched.Sound) (hrun : Run watched next) : next.Sound := by
  induction hrun with
  | refl => exact h
  | tail _ hstep ih => exact ih.step hstep

end Watched.Sound

/-! ## What recorders write down -/

/-- One observer is told about one event. -/
structure Notice where
  /-- The workspace that tells it. -/
  workspace : Handle
  /-- The number of its subscription. -/
  subscription : ℕ
  /-- The observer. -/
  observer : Observer
  /-- The event. -/
  event : Event

namespace Notice

/-- What is written down, and by whom: only recorders write. -/
def note (notice : Notice) : Option (String × Event) :=
  match notice.observer with
  | .listener _ => none
  | .recorder name _ => some (name, notice.event)

/-- What the chronicle of a workspace says about it: only the workspace that tells it has an entry. -/
def entry (handle : Handle) (notice : Notice) : Option (ℕ × Event) :=
  if notice.workspace = handle then some (notice.subscription, notice.event) else none

end Notice

namespace Session

/-- An observer that is told something writes it down if it is a recorder. -/
theorem notes_hand (session : Session) (handle : Handle) (event : Event) (k : ℕ)
    (observer : Observer) :
    (session.hand handle event k observer).notes =
      session.notes ++ (Notice.note ⟨handle, k, observer, event⟩).toList := by
  cases observer with
  | listener listener =>
    rw [notes, hand, (session.addEvent_frame listener event).2.2]
    exact (List.append_nil _).symm
  | recorder name reactions => exact List.filterMap_append

/-- A workspace that takes over the first half of a command has nothing written down. -/
theorem notes_install (session : Session) (handle : Handle) (next : Workspace) (event : Event) :
    (session.install handle next event).notes = session.notes := by
  unfold install
  split <;> rfl

/-- Nothing is written down by whoever subscribes. -/
theorem notes_subscribe (session : Session) (handle : Handle) (observer : Observer) :
    (session.subscribe handle observer).2.notes = session.notes := by
  unfold subscribe
  split <;> rfl

end Session

namespace Watched

open Function (update)

variable {watched next : Watched}

/-- After these notices the chronicles say of each workspace what it told, and the recorders have written
down what they were told. -/
structure Notes (watched : Watched) (notices : List Notice) (next : Watched) : Prop where
  /-- What each workspace told is in its chronicle. -/
  told : ∀ handle, (next.chronicles handle).told =
    (watched.chronicles handle).told ++ notices.filterMap (Notice.entry handle)
  /-- What recorders were told is in their records. -/
  written : next.session.notes = watched.session.notes ++ notices.filterMap Notice.note

/-- Nothing is written down if nobody is told anything. -/
theorem Notes.of_quiet
    (htold : ∀ handle, (next.chronicles handle).told = (watched.chronicles handle).told)
    (hnotes : next.session.notes = watched.session.notes) : watched.Notes [] next :=
  ⟨fun handle => (htold handle).trans (List.append_nil _).symm, hnotes.trans (List.append_nil _).symm⟩

/-- Nobody is told anything by a workspace whose chronicle tells as much as before. -/
theorem told_update {chronicles : Handle → Chronicle} {handle : Handle} {chronicle : Chronicle}
    (h : chronicle.told = (chronicles handle).told) (other : Handle) :
    (update chronicles handle chronicle other).told = (chronicles other).told := by
  by_cases hother : other = handle
  · subst hother
    rwa [Function.update_self]
  · rw [Function.update_of_ne hother]

/-- What is told and written down after other things stands behind them. -/
theorem Notes.trans {last : Watched} {notices more : List Notice} (h : watched.Notes notices next)
    (hmore : next.Notes more last) : watched.Notes (notices ++ more) last where
  told handle := by rw [hmore.told, h.told, List.filterMap_append, List.append_assoc]
  written := by rw [hmore.written, h.written, List.filterMap_append, List.append_assoc]

/-- A workspace tells the observer that is next, or nobody is told anything. -/
theorem Step.notes (h : Step watched next) :
    watched.Notes [] next ∨ ∃ handle command event k observer left outer,
      (watched.chronicles handle).tellings = ⟨command, event, (k, observer) :: left⟩ :: outer ∧
        watched.Notes [⟨handle, k, observer, event⟩] next := by
  -- Only telling an observer adds to the records and to what the chronicles say was told.
  cases h with
  | makes | unsubscribes | drops => exact .inl (.of_quiet (fun _ => rfl) rfl)
  | @begins session chronicles handle state command begun event =>
    exact .inl (.of_quiet (told_update rfl) (session.notes_install handle begun event))
  | @tells session chronicles handle command event k observer left outer htellings =>
    refine .inr ⟨handle, command, event, k, observer, left, outer, htellings, fun other => ?_, ?_⟩
    · by_cases hother : other = handle
      · subst hother
        simp [Chronicle.tell, Notice.entry]
      · simp [Notice.entry, hother, Ne.symm hother]
    · refine (session.notes_hand handle event k observer).trans (congrArg (session.notes ++ ·) ?_)
      cases observer <;> rfl
  | finishes => exact .inl (.of_quiet (told_update rfl) rfl)
  | @subscribes session chronicles handle observer =>
    exact .inl (.of_quiet (fun _ => rfl) (session.notes_subscribe handle observer))
  | elsewhere haloof => exact .inl (.of_quiet (fun _ => rfl) haloof.notes)

/-- What recorders write down on the way is what they are told, in order, and the chronicles say the same
of each workspace. -/
theorem Run.notes (h : Run watched next) : ∃ notices, watched.Notes notices next := by
  induction h with
  | refl => exact ⟨[], .of_quiet (fun _ => rfl) rfl⟩
  | tail _ hstep ih =>
    obtain ⟨notices, hnotices⟩ := ih
    rcases hstep.notes with hquiet | ⟨_, _, _, _, _, _, _, -, hmore⟩
    · exact ⟨_, hnotices.trans hquiet⟩
    · exact ⟨_, hnotices.trans hmore⟩

end Watched

end SolutionWatch
