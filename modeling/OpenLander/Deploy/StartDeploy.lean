import OpenLander.Monitor.ProjectStateManager
import OpenLander.Db.DeployLock

/-! # Starting a deploy of an existing project

`startDeploy` (`src/pipeline/deploy-core.ts`) moves the project to `building` and then runs
`deploy()` in the background, which acquires the deploy lock. A call that the lock refuses goes on
with `recordBackgroundFailure`. The model follows one call from its lookup of the project on, among
any steps of the deploy that holds the lock. -/

namespace OpenLander.Deploy.StartDeploy
open Theory Db
open ProjectStateManager (ProjectStatus Project)

inductive EnvironmentStatus
  | running | stopped | building | error | idle
  deriving DecidableEq, Repr

structure Environment where
  id : String
  status : EnvironmentStatus
  deriving DecidableEq, Repr

/-- The container, image and port columns. -/
structure RuntimeColumns where
  containerId : Option String := none
  imageTag : Option String := none
  assignedPort : Option Nat := none
  previousImageTag : Option String := none
  deriving DecidableEq, Repr

structure ProjectRow where
  project : Project
  archived : Bool := false
  circuitBreakerOpen : Bool := false
  columns : RuntimeColumns := {}
  deriving DecidableEq, Repr

/-- `assertProjectMutable`. -/
def ProjectRow.mutable (row : ProjectRow) : Bool :=
  !row.archived && row.project.status != .recovering && !row.circuitBreakerOpen

/-- The call that `startDeploy` makes. -/
structure Config where
  projectId : String
  lockSessionId : Option String
  /-- The session that `deploy()` mints when there is none. -/
  sessionId : String

def Config.existingSessionId (config : Config) : Option String :=
  config.lockSessionId.filter (· ≠ "")

/-- `transitionProjectState(existing.id, 'building', 'deploy-started')`. -/
def toBuilding : ProjectStateManager.Call := ⟨.building, "deploy-started", false⟩

/-- `stateManager.transition(projectId, 'error', 'deploy-failed')`. -/
def toError : ProjectStateManager.Call := ⟨.error, "deploy-failed", false⟩

inductive Phase
  | idle
  /-- The project is mutable, and was read with this status. -/
  | checked (status : ProjectStatus)
  | cleared
  | writingBuilding
  | transitioned
  /-- `deploy()` runs in a session. -/
  | deploying
  /-- `deploy()` has rejected with `DeployLockedError`. -/
  | refused
  | writingError
  | listing
  /-- The environments that are still to be marked. -/
  | marking (ids : List String)
  | logging
  /-- `recordBackgroundFailure` has returned. -/
  | done
  deriving DecidableEq, Repr

/-- The stale columns are cleared if the project was read in `error`. -/
def Phase.readyToTransition : Phase → Bool
  | .checked status => status != .error
  | .cleared => true
  | _ => false

/-- What the call writes over what, and the events it emits. -/
inductive Effect
  | status (old new : ProjectStatus)
  | columns (old new : RuntimeColumns)
  | environment (id : String) (old new : EnvironmentStatus)
  | deployFailed (projectId : String)
  deriving DecidableEq, Repr

structure State where
  row : ProjectRow
  environments : List Environment
  locks : DeployLocks
  phase : Phase := .idle
  effects : List Effect := []

inductive Event
  | check
  | clearStale
  | readBuilding
  | writeBuilding (now : Nat)
  | deploy (now : Nat)
  | readError
  | writeError (now : Nat)
  | listEnvironments
  | markEnvironment
  | log
  | emit
  /-- A step of the deploy that holds the lock, or of anyone else. -/
  | others (row : ProjectRow) (environments : List Environment) (locks : DeployLocks)

def init (row : ProjectRow) (environments : List Environment) (locks : DeployLocks) : State :=
  { row, environments, locks }

namespace State

def setStatus (s : State) (call : ProjectStateManager.Call) (now : Nat) (phase : Phase) : State :=
  { s with
    row := { s.row with project := call.update now }
    effects := s.effects ++ [.status s.row.project.status call.targetStatus]
    phase }

def clearStale (s : State) : State :=
  { s with
    row := { s.row with columns := {} }
    effects := s.effects ++ [.columns s.row.columns {}]
    phase := .cleared }

/-- `updateEnvironment(id, { status: 'error' })`. -/
def markEnvironment (s : State) (id : String) (ids : List String) : State :=
  { s with
    environments := s.environments.map fun env =>
      if env.id = id then { env with status := .error } else env
    effects := s.effects ++
      (s.environments.filter (·.id = id)).map fun env => .environment id env.status .error
    phase := .marking ids }

end State

def next (config : Config) (s : State) : Event → Option State
  | .check =>
    if s.phase = .idle ∧ s.row.mutable then
      some { s with phase := .checked s.row.project.status }
    else none
  | .clearStale => if s.phase = .checked .error then some s.clearStale else none
  | .readBuilding =>
    if s.phase.readyToTransition then
      some { s with
        phase := if (toBuilding.check (some s.row.project)).isSome then .transitioned
          else .writingBuilding }
    else none
  | .writeBuilding now =>
    if s.phase = .writingBuilding then some (s.setStatus toBuilding now .transitioned) else none
  | .deploy now =>
    if s.phase = .transitioned then
      some (match config.existingSessionId with
        | some _ => { s with phase := .deploying }
        | none =>
          let (acquired, locks) := s.locks.acquireDeployLock now config.projectId config.sessionId
          { s with locks, phase := if acquired then .deploying else .refused })
    else none
  | .readError =>
    if s.phase = .refused then
      some { s with
        phase := if (toError.check (some s.row.project)).isSome then .listing else .writingError }
    else none
  | .writeError now =>
    if s.phase = .writingError then some (s.setStatus toError now .listing) else none
  | .listEnvironments =>
    if s.phase = .listing then some { s with phase := .marking (s.environments.map (·.id)) }
    else none
  | .markEnvironment =>
    match s.phase with
    | .marking (id :: ids) => some (s.markEnvironment id ids)
    | _ => none
  -- The deploy log is written in a `try` block of its own.
  | .log => if s.phase = .marking [] then some { s with phase := .logging } else none
  | .emit =>
    if s.phase = .logging then
      some { s with phase := .done, effects := s.effects ++ [.deployFailed config.projectId] }
    else none
  | .others row environments locks => some { s with row, environments, locks }

/-! ## Refused calls -/

variable {config : Config} {s s' : State}

/-- A call whose bookkeeping is over has emitted `deploy:failed`. -/
def Inv (config : Config) (s : State) : Prop :=
  s.phase = .done → .deployFailed config.projectId ∈ s.effects

theorem Inv.step (h : next config s e = some s') (H : Inv config s) : Inv config s' := by
  intro hdone
  cases e with
  | emit =>
    obtain ⟨-, ⟨⟩⟩ := Option.ite_none_right_eq_some.mp h
    exact List.mem_append_right _ (.head _)
  | others row environments locks =>
    cases h
    exact H hdone
  | markEnvironment =>
    rw [next] at h
    split at h
    · cases h
      cases hdone
    · cases h
  | readBuilding =>
    obtain ⟨-, ⟨⟩⟩ := Option.ite_none_right_eq_some.mp h
    dsimp only at hdone
    split at hdone <;> cases hdone
  | readError =>
    obtain ⟨-, ⟨⟩⟩ := Option.ite_none_right_eq_some.mp h
    dsimp only at hdone
    split at hdone <;> cases hdone
  | deploy now =>
    obtain ⟨-, ⟨⟩⟩ := Option.ite_none_right_eq_some.mp h
    split at hdone
    · cases hdone
    · dsimp only at hdone
      split at hdone <;> cases hdone
  | _ =>
    obtain ⟨-, ⟨⟩⟩ := Option.ite_none_right_eq_some.mp h
    cases hdone

/-- The bookkeeping of a refused call marks one environment after the other and emits. -/
theorem exists_run_of_marking (config : Config) (ids : List String) (h : s.phase = .marking ids) :
    ∃ es s', Run (Fires (next config)) s es s' ∧ s'.phase = .done := by
  induction ids generalizing s with
  | nil =>
    have hlog : next config s .log = some { s with phase := .logging } := if_pos h
    have hemit : next config { s with phase := .logging } .emit = some { s with
        phase := .done, effects := s.effects ++ [.deployFailed config.projectId] } := rfl
    exact ⟨_, _, .cons hlog (.single hemit), rfl⟩
  | cons id ids ih =>
    obtain ⟨es, s', hrun, hdone⟩ := ih (s := s.markEnvironment id ids) rfl
    have hmark : next config s .markEnvironment = some (s.markEnvironment id ids) := by
      simp only [next, h]
    exact ⟨_, _, .cons hmark hrun, hdone⟩

theorem exists_run_of_listing (config : Config) (h : s.phase = .listing) :
    ∃ es s', Run (Fires (next config)) s es s' ∧ s'.phase = .done := by
  obtain ⟨es, s', hrun, hdone⟩ := exists_run_of_marking config
    (s := { s with phase := .marking (s.environments.map (·.id)) }) _ rfl
  exact ⟨.listEnvironments :: es, s', .cons (if_pos h) hrun, hdone⟩

/-- The bookkeeping of a refused call can always go on to its end. -/
theorem exists_run_of_refused (h : s.phase = .refused) :
    ∃ es s', Run (Fires (next config)) s es s' ∧ s'.phase = .done := by
  have hread : ∃ t, next config s .readError = some t ∧
      (t.phase = .listing ∨ t.phase = .writingError) := by
    refine ⟨_, if_pos h, ?_⟩
    dsimp only
    split
    · exact .inl rfl
    · exact .inr rfl
  obtain ⟨t, hread, hlisting | hwriting⟩ := hread
  · obtain ⟨es, s', hrun, hdone⟩ := exists_run_of_listing config hlisting
    exact ⟨_, _, .cons hread hrun, hdone⟩
  · obtain ⟨es, s', hrun, hdone⟩ := exists_run_of_listing config
      (s := t.setStatus toError 0 .listing) rfl
    have hwrite : next config t (.writeError 0) = some (t.setStatus toError 0 .listing) :=
      if_pos hwriting
    exact ⟨_, _, .cons hread (.cons hwrite hrun), hdone⟩

def building : ProjectRow where
  project := ⟨.building, none⟩

end OpenLander.Deploy.StartDeploy
