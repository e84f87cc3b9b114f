import OpenLander.Pipeline.Port
import OpenLander.Pipeline.GreenCleanup
import OpenLander.Theory.Collections

/-! # The rollback to the previous image

`RollbackExecutor.rollbackToImage` (`src/pipeline/deploy/rollback.ts`) removes the container of a
service and starts one from the image that was recorded as the previous one. Where Docker does not
find something it gives up and leaves the status as it is; other failures are recorded. -/

namespace OpenLander.Pipeline.Rollback
open Theory
open GreenCleanup (containerName)

/-- How the calls end that `rollbackToImage` awaits, in the order of the code. -/
structure Calls where
  getProject : Bool := true
  getEnvironment : Bool := true
  getEnvironmentsByProject : Bool := true
  loadServiceViewRecord : Bool := true
  inspectImage : Bool := true
  recoveringTransition : TransitionCalls := {}
  scanUsedPorts : Option (List Nat) := some []
  stopContainer : ContainerRef → Bool := fun _ => true
  safeRemoveContainer : ContainerRef → Option Failure := fun _ => none
  getImageExposedPort : Option Nat := none
  ensureProjectNetwork : Option Failure := none
  ensureManagedTraefikNetwork : Option Failure := none
  loadResourceLimits : Option Failure := none
  getEnvVars : Option Failure := none
  runContainer : RunOutcome := .runs
  runningTransition : TransitionCalls := {}
  updateProject : Option Failure := none
  updateEnvironment : Option Failure := none
  createDeployLog : Option Failure := none
  errorTransition : TransitionCalls := {}
  errorEnvironment : Bool := true

structure Params where
  projectId : String
  environmentId : Option EnvironmentRef := none

inductive RollbackError
  | projectNotFound
  | environmentNotFound
  /-- `No previous image available for rollback` -/
  | noPreviousImage
  /-- `… — the image may have been pruned` -/
  | imagePruned
  /-- `Rollback failed: …` -/
  | failed
  deriving DecidableEq, Repr

structure RollbackResult where
  success : Bool := false
  projectId : String
  projectName : String
  error : Option RollbackError := none
  previousImageTag : Option String := none
  rollbackImageTag : Option String := none
  containerId : Option ContainerId := none
  port : Option Nat := none
  deriving DecidableEq, Repr

/-- What is rolled back, as far as it is read before the rollback begins. -/
structure Target where
  project : Project
  /-- `target.environment ?? productionEnvironment`, with the name of the environment. -/
  environment : Option (EnvironmentRef × EnvironmentRow)
  view : ServiceView
  rollbackImageTag : String

variable (c : Calls) (params : Params)

def failure (projectName : String) (error : RollbackError) : RollbackResult where
  projectId := params.projectId
  projectName := projectName
  error := some error

/-- The environment that is named, or else that of production; none if the one that is named is not
of this project. -/
def resolveTarget : Async (Option (Option (EnvironmentRef × EnvironmentRow))) := do
  match params.environmentId with
  | none =>
    await c.getEnvironmentsByProject
    let environment ← .read (·.environments params.projectId)
    return some (environment.map (.production params.projectId, ·))
  | some ref =>
    await c.getEnvironment
    match ← .read (·.getEnvironment ref) with
    | none => return none
    | some (owner, environment) =>
      return if owner = params.projectId then some (some (ref, environment)) else none

def currentImageTag (t : Target) : String :=
  ((t.environment.bind (·.2.imageTag)).or t.view.imageTag).getD ""

/-- The port that is on record, or else a new one. -/
def resolveContainerRuntime (t : Target) : Async Nat :=
  match (t.environment.bind (·.2.assignedPort)).or t.view.assignedPort with
  | some port => return port
  | none => allocatePort c.scanUsedPorts

/-- The containers on record, and the name, which may be taken by another one. -/
def staleRefs (t : Target) : List ContainerRef :=
  [(t.environment.bind (·.2.containerId)).map .id, t.view.containerId.map .id,
    some (.name (containerName t.project.name))].reduceOption.foldl insertLast []

def runningRefs (t : Target) : List ContainerRef :=
  [((t.environment.filter (·.2.status = .running)).bind (·.2.containerId)).map .id,
    (if t.view.status = some .running then t.view.containerId else none).map .id].reduceOption

def stopRef (resolves : Bool) : ContainerRef → Async Unit
  | .id containerId => stopContainer resolves containerId
  | .name _ => pure ()

/-- Containers that cannot be stopped are removed all the same. -/
def cleanupRunningContainer (t : Target) : List ContainerRef → Async Unit
  | [] => pure ()
  | ref :: refs => do
    if ref ∈ runningRefs t then (stopRef (c.stopContainer ref) ref).settle
    call (c.safeRemoveContainer ref) (·.removeContainer ref)
    cleanupRunningContainer t refs

def rollbackColumns (t : Target) (port : Nat) (containerId : ContainerId) (row : ServiceRow) :
    ServiceRow :=
  { row with
    assignedPort := some port
    containerPort := some (c.getImageExposedPort.getD port)
    containerId := some containerId
    imageTag := some t.rollbackImageTag
    previousImageTag := some (currentImageTag t) }

def rollbackEnvironment (t : Target) (port : Nat) (containerId : ContainerId)
    (environment : EnvironmentRow) : EnvironmentRow :=
  { environment with
    status := .running
    containerId := some containerId
    imageTag := some t.rollbackImageTag
    previousImageTag := some (currentImageTag t)
    assignedPort := some port
    containerPort := some (c.getImageExposedPort.getD port) }

/-- Update the environment, if there is one. -/
def writeEnvironment (t : Target) (failure : Option Failure)
    (f : EnvironmentRow → EnvironmentRow) : Async Unit :=
  match t.environment with
  | none => pure ()
  | some (ref, _) => call failure (·.updateEnvironmentAt f ref)

/-- Start the previous image under the name of the service. -/
def replaceContainer (t : Target) (port : Nat) : Async ContainerId := do
  cleanupRunningContainer c t (staleRefs t)
  call c.ensureProjectNetwork
  call c.ensureManagedTraefikNetwork
  call c.loadResourceLimits
  call c.getEnvVars
  runContainer c.runContainer (containerName t.project.name) port

/-- The `try` of the source. -/
def rollBack (t : Target) : Async RollbackResult := do
  transition c.recoveringTransition params.projectId .recovering
  let port ← resolveContainerRuntime c t
  let containerId ← replaceContainer c t port
  transition c.runningTransition params.projectId .running
  call c.updateProject (·.updateProject params.projectId (rollbackColumns c t port containerId))
  writeEnvironment t c.updateEnvironment (rollbackEnvironment c t port containerId)
  call c.createDeployLog
  return {
    success := true
    projectId := params.projectId
    projectName := t.project.name
    previousImageTag := some (currentImageTag t)
    rollbackImageTag := some t.rollbackImageTag
    containerId := some containerId
    port := some port }

/-- The `catch` of the source. -/
def recordFailure (t : Target) (error : Failure) : Async RollbackResult := do
  if error = .dockerNotFound then return failure params t.project.name .imagePruned
  transition c.errorTransition params.projectId .error
  writeEnvironment t (if c.errorEnvironment then none else some .other)
    ({ · with status := .error })
  return failure params t.project.name .failed

def rollbackToImage : Async RollbackResult := do
  await c.getProject
  match ← .read (·.getProject params.projectId) with
  | none => return failure params "unknown" .projectNotFound
  | some project =>
    match ← resolveTarget c params with
    | none => return failure params project.name .environmentNotFound
    | some environment =>
      await c.loadServiceViewRecord
      let service ← .read (·.services (projectIdToDeployableServiceId params.projectId))
      let view := serviceViewFromRows project service
      match (environment.bind (·.2.previousImageTag)).or view.previousImageTag with
      | none => return failure params project.name .noPreviousImage
      | some rollbackImageTag =>
        if rollbackImageTag = "" then return failure params project.name .noPreviousImage
        if !c.inspectImage then return failure params project.name .imagePruned
        let t : Target := { project, environment, view, rollbackImageTag }
        tryCatch (rollBack c params t) (recordFailure c params t)

end OpenLander.Pipeline.Rollback
