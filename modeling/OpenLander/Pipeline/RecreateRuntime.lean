import OpenLander.Pipeline.Port
import OpenLander.Pipeline.GreenCleanup

/-! # The recreation of a service runtime

`recreateServiceRuntime` (`src/pipeline/deploy-core.ts`) starts a replacement container from the
image that the service has, waits until it is healthy, records it in the rows of the service, the
environment and the project, and removes the previous container. Where the route does not answer it
puts the previous container back into the rows. Its `catch` removes the replacement, whatever the
rows say. -/

namespace OpenLander.Pipeline.RecreateRuntime
open Theory
open GreenCleanup (PROJECT_NAME_REGEX containerName)
open ProjectStateManager (ProjectStatus)

/-- How the calls end that `recreateServiceRuntime` awaits, in the order of the code. -/
structure Calls where
  getService : Bool := true
  getOwnerProject : Bool := true
  getRuntimeProject : Bool := true
  assertOwnerProjectMutable : Bool := true
  assertProjectMutable : Bool := true
  acquireDeployLock : Bool := true
  getEnvironmentsByProject : Bool := true
  createEnvironment : Bool := true
  preflightProjectNetwork : Bool := true
  pullImage : Bool := true
  resolveEnvVars : Bool := true
  getSecretFilesForDeploy : Bool := true
  /-- A failure counts as no port. -/
  getImageExposedPort : Option Nat := none
  ensureProjectNetwork : Bool := true
  ensureManagedTraefikNetwork : Bool := true
  loadResourceLimits : Bool := true
  scanUsedPorts : Option (List Nat) := some []
  runContainer : RunOutcome := .runs
  /-- The second attempt. -/
  scanUsedPorts₂ : Option (List Nat) := some []
  runContainer₂ : RunOutcome := .runs
  waitForHealthy : Probe := .passes
  updateService : Bool := true
  updateEnvironment : Bool := true
  transition : TransitionCalls := {}
  updateProject : Bool := true
  waitForManagedTraefikRoute : Probe := .passes
  restoreService : Bool := true
  restoreEnvironment : Bool := true
  restoreTransition : TransitionCalls := {}
  restoreProject : Bool := true
  removeTemp : Bool := true
  removePrevious : Bool := true
  releaseDeployLock : Bool := true

structure Params where
  serviceId : String
  /-- `options.healthCheckPath` -/
  healthCheckPath : Option String := none
  /-- `nanoid(6)` -/
  suffix : String

inductive Code
  | SERVICE_NOT_FOUND
  | SERVICE_OPERATION_UNSUPPORTED
  | NO_RUNTIME_IMAGE
  | RUNTIME_ENV_RECREATE_FAILED
  | RUNTIME_ENV_ROUTE_VERIFY_FAILED
  deriving DecidableEq, Repr

structure RuntimeRecreateResult where
  success : Bool := false
  projectId : String
  projectName : String
  code : Option Code := none
  routeSwitched : Option Bool := none
  previousVersionStillServing : Option Bool := none
  previousContainerId : Option ContainerId := none
  previousContainerName : Option String := none
  containerId : Option ContainerId := none
  containerName : Option String := none
  port : Option Nat := none
  deriving DecidableEq, Repr

/-- What the code reads before it touches Docker. -/
structure Target where
  project : Project
  view : ServiceView
  imageTag : String
  environment : EnvironmentRow

def isDeployableService (service : ServiceRow) : Bool := service.kind ≠ .managed

variable (c : Calls) (params : Params)

/-- The project whose rows the service runs under, and the one that owns it. -/
def resolveRuntimeProjectForService (service : ServiceRow) : Async (Project × Project) := do
  await c.getOwnerProject
  match ← .read (·.getProject service.projectId) with
  | none => throw .other
  | some ownerProject =>
    await c.getRuntimeProject
    let runtimeProject ← .read (·.getProject (deployableServiceIdToProjectId params.serviceId))
    return (ownerProject, runtimeProject.getD ownerProject)

/-- The production environment, created where there is none. -/
def findEnvironment (projectId : String) : Async EnvironmentRow := do
  await c.getEnvironmentsByProject
  match ← .read (·.environments projectId) with
  | some environment => return environment
  | none =>
    await c.createEnvironment fun w =>
      { w with environments := Function.update w.environments projectId (some {}) }
    return {}

def runtimeImage (view : ServiceView) : Option String :=
  (view.imageTag.or (if view.source = some .image then view.imageUrl else none)).filter (· ≠ "")

def tempContainerName (project : Project) : String :=
  containerName (project.name ++ "-env-" ++ params.suffix)

/-- One turn of the loop. -/
def attempt (scan : Option (List Nat)) (run : RunOutcome) (name : String) :
    Async (Nat × ContainerId) := do
  let tempPort ← allocatePort scan
  let tempContainerId ← (runContainer run name tempPort).onThrow (releasePortReservation tempPort)
  releasePortReservation tempPort
  return (tempPort, tempContainerId)

/-- A port conflict is tried once more. -/
def startReplacement (name : String) : Async (Nat × ContainerId) :=
  tryCatch (attempt c.scanUsedPorts c.runContainer name) fun error =>
    if error = .portConflict then attempt c.scanUsedPorts₂ c.runContainer₂ name else throw error

/-- The columns that point a service at the replacement. -/
def replacementColumns (t : Target) (tempPort : Nat) (tempContainerId : ContainerId)
    (row : ServiceRow) : ServiceRow :=
  { row with
    containerId := some tempContainerId
    containerName := some (tempContainerName params t.project)
    assignedPort := some tempPort
    containerPort :=
      (t.view.containerPort.or (c.getImageExposedPort.or t.view.assignedPort)).getD tempPort
    imageTag := some t.imageTag
    previousImageTag := t.view.imageTag }

def replacementEnvironment (t : Target) (tempPort : Nat) (tempContainerId : ContainerId)
    (environment : EnvironmentRow) : EnvironmentRow :=
  { environment with
    status := .running
    assignedPort := some tempPort
    containerId := some tempContainerId
    containerPort :=
      (t.view.containerPort.or (c.getImageExposedPort.or t.view.assignedPort)).getD tempPort
    imageTag := some t.imageTag
    previousImageTag := t.view.imageTag }

/-- The columns that point a service back at the container it had. -/
def previousColumns (t : Target) (row : ServiceRow) : ServiceRow :=
  { row with
    containerId := t.view.containerId
    containerName := t.view.containerName
    assignedPort := t.view.assignedPort
    containerPort := t.view.containerPort
    imageTag := t.view.imageTag
    previousImageTag := t.view.previousImageTag }

def restoredStatus (t : Target) : ProjectStatus :=
  match t.view.status with
  | some .stopped => .stopped
  | some .error => .error
  | some .recovering => .recovering
  | _ => .running

/-- Point the rows back at the previous container. -/
def restorePrevious (t : Target) : Async Unit := do
  updateService c.restoreService params.serviceId fun row =>
    { previousColumns t row with status := restoredStatus t }
  updateEnvironment c.restoreEnvironment t.project.id fun _ => t.environment
  transition c.restoreTransition t.project.id .running
  updateProject c.restoreProject t.project.id (previousColumns t)

/-- Only a service with an explicit health path is asked for its route. -/
def routeProbe (t : Target) : Probe :=
  if (explicitHealthCheckPath t.view params.healthCheckPath).isSome then
    c.waitForManagedTraefikRoute
  else .passes

/-- The probe of the route, which puts the previous container back where it fails. -/
def verifyRoute (t : Target) (tempPort : Nat) (tempContainerId : ContainerId) :
    Async RuntimeRecreateResult :=
  match routeProbe c params t with
  | .rejects => throw .other
  | .fails => do
    restorePrevious c params t
    (safeRemoveContainer c.removeTemp (.id tempContainerId)).settle
    return {
      projectId := t.project.id
      projectName := t.project.name
      code := some .RUNTIME_ENV_ROUTE_VERIFY_FAILED
      routeSwitched := some false
      previousVersionStillServing := some t.view.containerId.isSome }
  | .passes => do
    match t.view.containerId, t.view.containerName with
    | some previousContainerId, _ =>
      (safeRemoveContainer c.removePrevious (.id previousContainerId)).settle
    | none, some previousContainerName =>
      (safeRemoveContainer c.removePrevious (.name previousContainerName)).settle
    | none, none => pure ()
    return {
      success := true
      projectId := t.project.id
      projectName := t.project.name
      routeSwitched := some (explicitHealthCheckPath t.view params.healthCheckPath).isSome
      previousVersionStillServing := some false
      previousContainerId := t.view.containerId
      previousContainerName := t.view.containerName
      containerId := some tempContainerId
      containerName := some (tempContainerName params t.project)
      port := some tempPort }

/-- The replacement is healthy: record it, then ask the route. -/
def switchOver (t : Target) (tempPort : Nat) (tempContainerId : ContainerId) :
    Async RuntimeRecreateResult := do
  let columns := replacementColumns c params t tempPort tempContainerId
  updateService c.updateService params.serviceId fun row => { columns row with status := .running }
  updateEnvironment c.updateEnvironment t.project.id
    (replacementEnvironment c t tempPort tempContainerId)
  transition c.transition t.project.id .running
  updateProject c.updateProject t.project.id columns
  verifyRoute c params t tempPort tempContainerId

/-- What follows the start of the replacement. -/
def replaceBy (t : Target) (tempPort : Nat) (tempContainerId : ContainerId) :
    Async RuntimeRecreateResult :=
  match c.waitForHealthy with
  | .rejects => throw .other
  | .fails => do
    (safeRemoveContainer c.removeTemp (.id tempContainerId)).settle
    return {
      projectId := t.project.id
      projectName := t.project.name
      code := some .RUNTIME_ENV_RECREATE_FAILED
      previousVersionStillServing := some t.view.containerId.isSome }
  | .passes => switchOver c params t tempPort tempContainerId

/-- The `try` of the source. Its `catch` removes the replacement by its id where it has one, and by
its name before. -/
def replaceRuntime (t : Target) : Async RuntimeRecreateResult := do
  let name := tempContainerName params t.project
  let (tempPort, tempContainerId) ← (startReplacement c name).onThrow
    (safeRemoveContainer c.removeTemp (.name name)).settle
  (replaceBy c params t tempPort tempContainerId).onThrow
    (safeRemoveContainer c.removeTemp (.id tempContainerId)).settle

/-- What the body awaits before it turns to Docker. -/
def preparations (view : ServiceView) : List Bool :=
  (if view.source = some .image then [c.preflightProjectNetwork, c.pullImage] else []) ++
    [c.resolveEnvVars, c.getSecretFilesForDeploy, c.ensureProjectNetwork,
      c.ensureManagedTraefikNetwork, c.loadResourceLimits]

/-- What is awaited before the body, once the projects are known. -/
def admissions (ownerProject project : Project) : List Bool :=
  PROJECT_NAME_REGEX project.name ::
    (if ownerProject.id ≠ project.id then [c.assertOwnerProjectMutable] else []) ++
    [c.assertProjectMutable, c.acquireDeployLock]

/-- What runs under the deploy lock. -/
def recreateLocked (project : Project) (service : ServiceRow) : Async RuntimeRecreateResult := do
  let view := serviceViewFromRows project (some service)
  match runtimeImage view with
  | none =>
    return {
      projectId := project.id
      projectName := project.name
      code := some .NO_RUNTIME_IMAGE
      previousVersionStillServing := some view.containerId.isSome }
  | some imageTag =>
    let environment ← findEnvironment c project.id
    awaitAll (preparations c view)
    replaceRuntime c params { project, view, imageTag, environment }

def recreateServiceRuntime : Async RuntimeRecreateResult := do
  await c.getService
  match ← .read (·.services params.serviceId) with
  | none =>
    return {
      projectId := deployableServiceIdToProjectId params.serviceId
      projectName := "unknown"
      code := some .SERVICE_NOT_FOUND }
  | some service =>
    if isDeployableService service then
      let (ownerProject, project) ← resolveRuntimeProjectForService c params service
      awaitAll (admissions c ownerProject project)
      (recreateLocked c params project service).andFinally (await c.releaseDeployLock)
    else
      return {
        projectId := service.projectId
        projectName := "unknown"
        code := some .SERVICE_OPERATION_UNSUPPORTED }

end OpenLander.Pipeline.RecreateRuntime
