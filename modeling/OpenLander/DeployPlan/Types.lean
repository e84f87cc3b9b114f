/-! # Deploy plan statuses

`DeployPlanStatus` and `PlanStateMachine` (`src/pipeline/deploy-plan/types.ts`). -/

namespace OpenLander.DeployPlan

inductive DeployPlanStatus
  | draft
  | ready
  | needs_input
  | needs_approval
  | executing
  | completed
  | failed
  | rolled_back
  deriving DecidableEq, Repr

namespace DeployPlanStatus

/-- `assertPlanIsExecutable` accepts the status. -/
def executable : DeployPlanStatus → Bool
  | ready | needs_approval => true
  | _ => false

/-- `updatePlan` refuses the status. -/
def terminal : DeployPlanStatus → Bool
  | executing | completed | failed | rolled_back => true
  | _ => false

theorem not_terminal_of_executable {status : DeployPlanStatus} (h : status.executable) :
    ¬status.terminal := by
  cases status <;> simp_all [executable, terminal]

end DeployPlanStatus

namespace PlanStateMachine

def validTransitions : DeployPlanStatus → List DeployPlanStatus
  | .draft => [.ready, .needs_input, .needs_approval]
  | .needs_input => [.ready]
  | .needs_approval => [.ready]
  | .ready => [.executing]
  | .executing => [.completed, .failed, .rolled_back]
  | .completed | .failed | .rolled_back => []

def canTransition (status newStatus : DeployPlanStatus) : Bool :=
  newStatus ∈ validTransitions status

end PlanStateMachine

end OpenLander.DeployPlan
