import OpenLander.Pipeline.Port
import OpenLander.Pipeline.GreenCleanup

/-! # The blue-green redeploy

`blueGreenRedeployInner` (`src/pipeline/deploy-core.ts`) builds the new version of a running service
and starts it as green next to blue. Once green is healthy it points the rows at green, probes the
route, stops blue, probes again and removes blue. Three flags say how far it has come; its `catch`
and its `finally` act on them. -/

namespace OpenLander.Pipeline.BlueGreen
open Theory
open GreenCleanup (PROJECT_NAME_REGEX containerName makeGreenContainerName)

structure DeployConfig where
  source : Option ServiceSource := none
  imageUrl : Option String := none
  /-- `_serviceId` -/
  serviceId : Option String := none
  gitCredentialId : Option String := none
  deriving DecidableEq, Repr

inductive BuildOutcome
  | succeeds | fails | cancelled
  deriving DecidableEq, Repr

/-- How the calls of `restoreBlueState` end. -/
structure RestoreCalls where
  transition : TransitionCalls := {}
  updateProject : Bool := true
  updateEnvironment : Bool := true
  deriving DecidableEq, Repr

/-- A container that the cleanup of stale greens finds, and how the calls on it end. -/
structure StaleGreen where
  containerId : ContainerId
  stop : Bool := true
  remove : Bool := true
  deriving DecidableEq, Repr

/-- How the calls end that `blueGreenRedeployInner` awaits, in the order of the code. -/
structure Calls where
  getProject : Bool := true
  loadServiceViewRecord : Bool := true
  getOwnerProject : Bool := true
  getRuntimeProject : Bool := true
  getEligibleProject : Bool := true
  loadEligibleRecord : Bool := true
  staleGreens : List StaleGreen := []
  getEnvironmentsByProject : Bool := true
  buildDeployConfig : Option DeployConfig := some {}
  buildingTransition : TransitionCalls := {}
  buildingEnvironment : Bool := true
  preflightProjectNetwork : Bool := true
  pullImage : Bool := true
  /-- The credential that the clone was made with. -/
  cloneRepo : Option (Option String) := some none
  build : BuildOutcome := .succeeds
  scanUsedPorts : Option (List Nat) := some []
  getImageExposedPort : Option (Option Nat) := some none
  resolveEnvVars : Bool := true
  getSecretFilesForDeploy : Bool := true
  ensureProjectNetwork : Bool := true
  ensureManagedTraefikNetwork : Bool := true
  loadResourceLimits : Bool := true
  runContainer : RunOutcome := .runs
  waitForBlueGreenHealth : Probe := .passes
  observeBlueGreenStability : Probe := .passes
  disconnectContainerFromNetwork : Bool := true
  connectContainerToNetwork : Bool := true
  switchTransition : TransitionCalls := {}
  switchProject : Bool := true
  switchEnvironment : Bool := true
  waitForManagedTraefikRoute : Probe := .passes
  restoreAfterProbe : RestoreCalls := {}
  stopBlue : Bool := true
  /-- The probe after blue has stopped. -/
  postBlueStopRouteProbe : Probe := .passes
  removeBlue : Bool := true
  createDeployLog : Bool := true
  updateGitCredential : Bool := true
  restoreInCatch : RestoreCalls := {}
  inspectBlue : Bool := true
  restartBlue : Bool := true
  /-- Where blue is still serving. -/
  finalRestore : RestoreCalls := {}
  /-- Where it is not: to `stopped` or to `error`. -/
  finalTransition : TransitionCalls := {}
  getEnvironment : Bool := true
  finalEnvironment : Bool := true
  createFailedLog : Bool := true
  stopGreen : Bool := true
  removeGreen : Bool := true

structure Params where
  projectId : String
  /-- `options.healthCheckPath` -/
  healthCheckPath : Option String := none
  /-- `config.traefik.mode === 'managed'` -/
  managedTraefik : Bool := true
  /-- What the monitoring profile of the service says. -/
  exposeViaTraefik : Bool := true
  /-- `Date.now()`, in base 36 for the name of green, and in base 10 for the tag of the image. -/
  suffix : String
  buildTag : String

/-- Why a redeploy is not supported. -/
inductive Reason
  | projectNotFound
  | noWorkload
  | composeStack
  | noSource
  | notRunning
  | noActiveContainer
  | unmanagedTraefik
  | notExposed
  | noHealthCheckPath
  deriving DecidableEq, Repr

inductive Readiness
  | healthy | unhealthy | blocked | unknown
  deriving DecidableEq, Repr

structure DeployResult where
  success : Bool := false
  projectId : String
  projectName : String
  reasons : List Reason := []
  readiness : Option Readiness := none
  routeSwitched : Option Bool := none
  previousVersionStillServing : Option Bool := none
  /-- Blue could not be removed. -/
  warnings : Bool := false
  previousImageTag : Option String := none
  containerId : Option ContainerId := none
  port : Option Nat := none
  cancelled : Bool := false
  deriving DecidableEq, Repr

structure BlueState where
  containerId : ContainerId
  containerName : Option String
  assignedPort : Option Nat
  containerPort : Option Nat
  imageTag : Option String
  previousImageTag : Option String
  deriving DecidableEq, Repr

/-- The variables that `catch` and `finally` read. -/
structure Vars where
  projectName : String := "unknown"
  newPort : Option Nat := none
  greenContainerId : Option ContainerId := none
  shouldCleanupGreen : Bool := false
  routeTargetUpdated : Bool := false
  routeSwitched : Bool := false
  /-- `environmentId` is defined. -/
  hasEnvironment : Bool := false
  blueState : Option BlueState := none
  deriving DecidableEq, Repr

/-- What runs under the `try`, with its variables. -/
abbrev Body := Prog (World × Vars) Failure

variable (c : Calls) (params : Params)

/-! ## Eligibility -/

/-- The reasons of `getBlueGreenEligibility`. -/
def eligibilityReasons (project : Option Project) (deployable : Option ServiceRow) : List Reason :=
  let view := if deployable.isSome then project.map (serviceViewFromRows · deployable) else none
  let reasons : List (Reason × Bool) := [
    (.projectNotFound, project.isNone),
    (.noWorkload, deployable.isNone),
    (.composeStack, view.any fun view =>
      view.kind = some .compose ∨ view.kind = some .composeChild),
    (.noSource, view.any (·.source = none)),
    (.notRunning, view.any (·.status ≠ some .running)),
    (.noActiveContainer, view.any (·.containerId = none)),
    (.unmanagedTraefik, !params.managedTraefik),
    (.notExposed, view.any fun _ => !params.exposeViaTraefik),
    (.noHealthCheckPath, view.any (explicitHealthCheckPath · params.healthCheckPath = none))]
  (reasons.filter (·.2)).map (·.1)

def getBlueGreenEligibility : Async (List Reason) := do
  await c.getEligibleProject
  let project ← .read (·.getProject params.projectId)
  if project.isSome then await c.loadEligibleRecord
  let deployable ← .read (·.services (projectIdToDeployableServiceId params.projectId))
  return eligibilityReasons params project (if project.isSome then deployable else none)

def resolveRuntimeProjectForService (service : ServiceRow) : Async Unit := do
  await c.getOwnerProject
  if (← .read (·.getProject service.projectId)).isNone then throw .other
  await c.getRuntimeProject

/-- The project whose network green joins, looked up if there is a deployable. -/
def resolveNetworkProject : Option ServiceRow → Async Unit
  | none => pure ()
  | some service => resolveRuntimeProjectForService c service

/-! ## Blue -/

/-- The service that is redeployed, and what the code reads of it. -/
structure Blue where
  project : Project
  service : ServiceRow
  view : ServiceView
  containerId : ContainerId

def Blue.state (blue : Blue) : BlueState where
  containerId := blue.containerId
  containerName := some (blue.view.containerName.getD (containerName blue.project.name))
  assignedPort := blue.view.assignedPort
  containerPort := blue.view.containerPort
  imageTag := blue.view.imageTag
  previousImageTag := blue.view.previousImageTag

/-- The columns that point a service at blue. -/
def BlueState.columns (blue : BlueState) (row : ServiceRow) : ServiceRow :=
  { row with
    containerId := some blue.containerId
    containerName := blue.containerName
    assignedPort := blue.assignedPort
    containerPort := blue.containerPort
    imageTag := blue.imageTag
    previousImageTag := blue.previousImageTag }

def BlueState.environment (blue : BlueState) (environment : EnvironmentRow) : EnvironmentRow :=
  { environment with
    status := .running
    containerId := some blue.containerId
    assignedPort := blue.assignedPort
    containerPort := blue.containerPort
    imageTag := blue.imageTag
    previousImageTag := blue.previousImageTag }

/-- Update the environment, if there is one. -/
def writeEnvironment (hasEnvironment resolves : Bool) (f : EnvironmentRow → EnvironmentRow) :
    Async Unit :=
  if hasEnvironment then updateEnvironment resolves params.projectId f else pure ()

def restoreBlueState (calls : RestoreCalls) (hasEnvironment : Bool) (blue : BlueState) :
    Async Unit := do
  transition calls.transition params.projectId .running
  updateProject calls.updateProject params.projectId blue.columns
  writeEnvironment params hasEnvironment calls.updateEnvironment blue.environment

/-! ## Green -/

/-- A failure of either call is logged. -/
def cleanupGreenContainer (stop remove : Bool) (containerId : ContainerId) : Async Unit := do
  (stopContainer stop containerId).settle
  (safeRemoveContainer remove (.id containerId)).settle

/-- The active container is not taken for a stale one. -/
def cleanupStaleGreenContainers (activeContainerId : ContainerId) : List StaleGreen → Async Unit
  | [] => pure ()
  | stale :: staleGreens => do
    if stale.containerId ≠ activeContainerId then
      cleanupGreenContainer stale.stop stale.remove stale.containerId
    cleanupStaleGreenContainers activeContainerId staleGreens

/-- Pull or build the image; its tag, and the credential of the clone. -/
def prepareImage (blue : Blue) (config : DeployConfig) : Async (String × Option String) := do
  await c.preflightProjectNetwork
  if config.source = some .image ∨ blue.view.source = some .image then
    match (config.imageUrl.or blue.view.imageUrl).filter (· ≠ "") with
    | none => throw .other
    | some imageUrl =>
      await c.pullImage
      return (imageUrl, config.gitCredentialId)
  else
    match c.cloneRepo with
    | none => throw .other
    | some gitCredentialId =>
      match c.build with
      | .succeeds =>
        return ("openlander/" ++ blue.project.name ++ ":" ++ params.buildTag, gitCredentialId)
      | .fails => throw .other
      | .cancelled => throw .buildCancelled

structure Green where
  containerId : ContainerId
  port : Nat
  containerPort : Nat
  imageTag : String

def runGreen (blue : Blue) (imageTag : String) : Body Green := do
  let newPort ← allocatePort c.scanUsedPorts
  .assign ({ · with newPort := some newPort })
  match c.getImageExposedPort with
  | none => throw .other
  | some exposedPort =>
    awaitAll [c.resolveEnvVars, c.getSecretFilesForDeploy, c.ensureProjectNetwork,
      c.ensureManagedTraefikNetwork, c.loadResourceLimits]
    let greenContainerId ← runContainer c.runContainer
      (makeGreenContainerName blue.project.name params.suffix) newPort
    .assign ({ · with greenContainerId := some greenContainerId, shouldCleanupGreen := true })
    return ⟨greenContainerId, newPort, exposedPort.getD newPort, imageTag⟩

/-- Go on only if the probe passes. -/
def demand : Probe → Async Unit
  | .passes => pure ()
  | .fails | .rejects => throw .other

def checkGreen : Async Unit := do
  demand c.waitForBlueGreenHealth
  demand c.observeBlueGreenStability
  awaitAll [c.disconnectContainerFromNetwork, c.connectContainerToNetwork]

/-- The columns that point a service at green. -/
def Green.columns (green : Green) (blue : Blue) (greenName : String) (row : ServiceRow) :
    ServiceRow :=
  { row with
    containerId := some green.containerId
    containerName := some greenName
    assignedPort := some green.port
    containerPort := some green.containerPort
    imageTag := some green.imageTag
    previousImageTag := blue.view.imageTag }

def Green.environment (green : Green) (prodEnv : Option EnvironmentRow)
    (environment : EnvironmentRow) : EnvironmentRow :=
  { environment with
    status := .running
    containerId := some green.containerId
    assignedPort := some green.port
    containerPort := some green.containerPort
    imageTag := some green.imageTag
    previousImageTag := prodEnv.bind (·.imageTag) }

/-- Point the rows at green. -/
def switchRoute (blue : Blue) (prodEnv : Option EnvironmentRow) (green : Green) : Body Unit := do
  transition c.switchTransition params.projectId .running
  updateProject c.switchProject params.projectId
    (green.columns blue (makeGreenContainerName blue.project.name params.suffix))
  writeEnvironment params prodEnv.isSome c.switchEnvironment (green.environment prodEnv)
  .assign ({ · with routeTargetUpdated := true })

/-- Probe the route; where it does not answer, point the rows back at blue. -/
def probeRoute (blue : Blue) (prodEnv : Option EnvironmentRow) : Body Unit :=
  match c.waitForManagedTraefikRoute with
  | .passes => pure ()
  | .rejects => throw .other
  | .fails => do
    restoreBlueState params c.restoreAfterProbe prodEnv.isSome blue.state
    .assign ({ · with routeTargetUpdated := false })
    throw .other

def stopBlue (blue : Blue) : Body Unit := do
  stopContainer c.stopBlue blue.containerId
  demand c.postBlueStopRouteProbe
  .assign ({ · with routeSwitched := true, shouldCleanupGreen := false })

def saveGitCredential (config : DeployConfig) (gitCredentialId : Option String) : Async Unit :=
  if gitCredentialId.isSome then
    updateService c.updateGitCredential
      (config.serviceId.getD (projectIdToDeployableServiceId params.projectId)) id
  else pure ()

/-- Remove blue, and write the log. A blue that cannot be removed is a warning. -/
def finishRedeploy (blue : Blue) (config : DeployConfig) (gitCredentialId : Option String)
    (green : Green) : Async DeployResult := do
  (safeRemoveContainer c.removeBlue (.id blue.containerId)).settle
  await c.createDeployLog
  saveGitCredential c params config gitCredentialId
  return {
    success := true
    projectId := params.projectId
    projectName := blue.project.name
    readiness := some .healthy
    routeSwitched := some true
    previousVersionStillServing := some false
    warnings := !c.removeBlue
    previousImageTag := blue.view.imageTag
    containerId := some green.containerId
    port := some green.port }

/-- What follows once green runs. -/
def switchOver (blue : Blue) (config : DeployConfig) (prodEnv : Option EnvironmentRow)
    (gitCredentialId : Option String) (green : Green) : Body DeployResult := do
  checkGreen c
  switchRoute c params blue prodEnv green
  probeRoute c params blue prodEnv
  stopBlue c blue
  finishRedeploy c params blue config gitCredentialId green

/-- What follows once the status says `building`. -/
def promote (blue : Blue) (config : DeployConfig) (prodEnv : Option EnvironmentRow) :
    Body DeployResult := do
  writeEnvironment params prodEnv.isSome c.buildingEnvironment ({ · with status := .building })
  let (imageTag, gitCredentialId) ← prepareImage c params blue config
  let green ← runGreen c params blue imageTag
  switchOver c params blue config prodEnv gitCredentialId green

/-- What follows once blue is known. -/
def replaceBlue (blue : Blue) : Body DeployResult := do
  .assign ({ · with blueState := some blue.state })
  cleanupStaleGreenContainers blue.containerId c.staleGreens
  await c.getEnvironmentsByProject
  let prodEnv ← .read (·.1.environments params.projectId)
  .assign ({ · with hasEnvironment := prodEnv.isSome })
  match c.buildDeployConfig with
  | none => throw .other
  | some config =>
    transition c.buildingTransition params.projectId .building
    promote c params blue config prodEnv

def unsupportedResult (projectName : String) (reasons : List Reason)
    (service : Option ServiceView) : DeployResult where
  projectId := params.projectId
  projectName := projectName
  reasons := reasons
  readiness := some .blocked
  routeSwitched := some false
  previousVersionStillServing := some (service.any (·.status = some .running))

/-- The `try` of the source. -/
def redeploy : Body DeployResult := do
  await c.getProject
  match ← .read (·.1.getProject params.projectId) with
  | none => return { projectId := params.projectId, projectName := "unknown" }
  | some project =>
    .assign ({ · with projectName := project.name })
    await (PROJECT_NAME_REGEX project.name)
    await c.loadServiceViewRecord
    let blueDeployable ←
      Prog.read (·.1.services (projectIdToDeployableServiceId params.projectId))
    let view := serviceViewFromRows project blueDeployable
    resolveNetworkProject c blueDeployable
    let reasons ← getBlueGreenEligibility c params
    match reasons, blueDeployable, view.containerId with
    | [], some service, some containerId =>
      replaceBlue c params { project, service, view, containerId }
    | [], _, _ => return unsupportedResult params project.name [.noActiveContainer] none
    | reasons, _, _ =>
      return unsupportedResult params project.name reasons (blueDeployable.map fun _ => view)

/-! ## Failures -/

/-- Whether blue runs, as far as Docker says. -/
def isBlueServing (blue : BlueState) : Async Bool :=
  tryCatch (inspectContainer c.inspectBlue blue.containerId) fun _ => pure false

/-- A blue that does not run is started again, unless the user has cancelled. -/
def recoverBlue (isCancelled : Bool) : Option BlueState → Async Bool
  | none => return false
  | some blue => do
    let serving ← isBlueServing c blue
    if !isCancelled && !serving then
      tryCatch (do restartContainer c.restartBlue blue.containerId; return true) fun _ => pure false
    else return serving

def abandonEnvironment (isCancelled : Bool) : Async Unit := do
  await c.getEnvironment
  if (← .read (·.environments params.projectId)).isSome then
    updateEnvironment c.finalEnvironment params.projectId
      ({ · with status := if isCancelled then .stopped else .error })

/-- The rows of a project whose previous version does not run. -/
def abandon (isCancelled hasEnvironment : Bool) : Async Unit := do
  transition c.finalTransition params.projectId (if isCancelled then .stopped else .error)
  if hasEnvironment then abandonEnvironment c params isCancelled

/-- Where the rows may point at green and the route has not been switched, point them back. -/
def rollBack (vars : Vars) : Async Unit :=
  match vars.blueState with
  | none => pure ()
  | some blue =>
    if vars.routeTargetUpdated && !vars.routeSwitched then
      (restoreBlueState params c.restoreInCatch vars.hasEnvironment blue).settle
    else pure ()

/-- The rows that the failure leaves. -/
def recordFailure (isCancelled blueStillServing : Bool) (vars : Vars) : Async Unit :=
  match blueStillServing, vars.blueState with
  | true, some blue => restoreBlueState params c.finalRestore vars.hasEnvironment blue
  | _, _ => abandon c params isCancelled vars.hasEnvironment

def failureResult (isCancelled blueStillServing : Bool) (vars : Vars) : DeployResult where
  projectId := params.projectId
  projectName := vars.projectName
  readiness := some (if isCancelled then .unknown else .unhealthy)
  routeSwitched := some (!isCancelled && vars.routeSwitched)
  previousVersionStillServing := some blueStillServing
  port :=
    if blueStillServing then (vars.blueState.bind (·.assignedPort)).or vars.newPort
    else if isCancelled then none
    else vars.newPort
  cancelled := isCancelled

/-- The `catch` of the source. -/
def handleFailure (failure : Failure) : Body DeployResult := do
  let isCancelled : Bool := failure = .buildCancelled
  let vars : Vars ← .read (·.2)
  rollBack c params vars
  let blueStillServing ← recoverBlue c isCancelled vars.blueState
  recordFailure c params isCancelled blueStillServing vars
  await c.createFailedLog
  return failureResult params isCancelled blueStillServing vars

/-- The `finally` of the source. -/
def cleanup : Body Unit := do
  let vars : Vars ← .read (·.2)
  match vars.shouldCleanupGreen, vars.greenContainerId with
  | true, some greenContainerId =>
    cleanupGreenContainer c.stopGreen c.removeGreen greenContainerId
  | _, _ => pure ()

def blueGreenRedeployInner : Async DeployResult :=
  .withVars {} ((tryCatch (redeploy c params) (handleFailure c params)).andFinally (cleanup c))

end OpenLander.Pipeline.BlueGreen
