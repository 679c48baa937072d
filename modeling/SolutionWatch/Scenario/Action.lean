import SolutionWatch.Scenario.Part
import SolutionWatch.Session.Action

/-!
# Actions in a scenario

What a step asks of a workspace, and what an observer does. A description that makes no sense, or
that names a solution that does not exist, is an action too: one that comes to just that when it is
carried out. A command that cannot be read asks for its workspace first, so it is the workspace
that is missing if both are at fault.

Observers have no solutions at hand, and they can be told to break down.
-/

namespace SolutionWatch.Scenario

open Wire (list)

/-- What is read, or what the action comes to that cannot be read. -/
abbrev Reading := Except Outcome

/-- A description that has to make sense. -/
def sensible {α : Type} : Option α → Reading α
  | some a => .ok a
  | none => .error .senseless

/-- A derivation that has to succeed. -/
def derived : Except Failure Solution → Reading Solution
  | .ok solution => .ok solution
  | .error e => .error (.failed e)

/-- The solution in the field `with`, which has to exist. -/
def base (solution? : String → Option Solution) (json : Json) : Reading Solution := do
  match solution? (← sensible (need json "with" Json.asText?)) with
  | some solution => return solution
  | none => throw .missing

/-- The command of a step, by the name of the step. -/
def command? (solution? : String → Option Solution) (name : String) (json : Json) :
    Option (Reading Command) :=
  match name with
  | "ws_add_project" => some do return .addProject (← sensible (need json "project" project))
  | "ws_remove_project" => some do return .removeProject (← sensible (need json "id" projectId))
  | "ws_change_project" => some do
    return .changeProject (← sensible (need json "id" projectId))
      (← sensible (need json "patch" patch)).apply
  | "ws_add_document" => some do return .addDocument (← sensible (need json "document" document))
  | "ws_edit" => some do return .editDocument (← sensible (need json "id" documentId))
  | "ws_remove_document" => some do return .removeDocument (← sensible (need json "id" documentId))
  | "ws_clear" => some do return .clear
  | "ws_replace" => some do
    let step ← sensible (mutation json)
    return .replace (← derived (step.apply (← base solution? json)))
  | "ws_apply" => some do
    let kind ← sensible (need json "kind" (ChangeKind.ofJson? false))
    let project ← sensible (given json "project" projectId)
    let document ← sensible (given json "document" documentId)
    let step ← sensible (mutation json)
    match present? json "with" with
    | none => return .apply kind project document step.apply
    | some _ =>
      let solution ← base solution? json
      return .apply kind project document fun _ => step.apply solution
  | "ws_open" => some do return .openDocument (← sensible (need json "id" documentId))
  | "ws_close" => some do return .closeDocument (← sensible (need json "id" documentId))
  | _ => none

/-- The action that was read, or the one that comes to what is wrong with it. -/
def orRefused : Reading Action → Action
  | .ok action => action
  | .error outcome => .refused outcome

/-- The action of a step, which describes the actions of observers less than `depth` deep. -/
def action (solution? : String → Option Solution) : Nat → Json → Action
  | 0, _ => .refused .senseless
  | depth + 1, json => orRefused do
    let field (name : String) := sensible (need json name Json.asText?)
    match ← field "do" with
    | "ws_new" => return .create (← field "as") (← sensible (need json "id" WorkspaceId.ofJson?))
    | "ws_drop" => return .forget (← field "ws")
    | "ws_snapshot" => throw .missing
    | "ws_state" =>
      let documents := (← sensible (given json "open" (list documentId))).getD []
      return .inspect (← field "ws") documents
    | "ws_subscribe" =>
      let reactions := (← sensible (given json "actions" Json.asArray?)).getD []
      return .subscribe (← field "ws") (← field "as") (reactions.map (action (fun _ => none) depth))
    | "ws_unsubscribe" => return .unsubscribe (← field "sub")
    | "ws_sub_active" => return .check (← field "sub")
    | "panic" => return .breakDown
    | name =>
      let command ← sensible (command? solution? name json)
      let workspace ← field "ws"
      match command with
      | .ok command => return .command workspace command
      | .error outcome => return .refusedBy workspace outcome

end SolutionWatch.Scenario
