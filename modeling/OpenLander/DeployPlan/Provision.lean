import OpenLander.DeployPlan.Update
import OpenLander.Pipeline.GreenCleanup
import OpenLander.Pipeline.ServiceLinker
import OpenLander.Theory.SideBySide

/-! # Executing a plan

`executePlan` (`src/pipeline/deploy-plan/engine.ts`) from the approval gate to the deploy that it
starts, and that deploy (`src/pipeline/deploy-core.ts`, `src/pipeline/deploy/orchestrator.ts`) as far
as it settles the environment that the container is started with. The managed services of the plan
are provided first, or next to the build where `canOverlapBuildAndProvision` lets them.

How the calls to Docker, Git and the rest end is given with the run. The store has an account of the
proposals that `ServiceManager.create` has been called for, and of the environment of the container. -/

namespace OpenLander.PlanExecution
open Theory
open DeployPlan (DeployPlanStatus)
open Pipeline.EnvInject (valuesToSet isPlaceholderEnvValue)
open Pipeline.GreenCleanup (PROJECT_NAME_REGEX)
open Pipeline.ResolveEnv (Record Store)
open Pipeline.ServiceLinker (EnvScope getVars setVars)
open Pipeline.ServiceLinker.LinkedTables (canonicalId)
open PlanUpdate (DetectedServiceType Action EnvValueIssue serviceEnvVarName isSafeProposal
  planServiceSatisfiedByExplicitEnv hasExplicitEnvValue truthy)

/-! ## Plans -/

structure PlanService extends PlanUpdate.PlanService where
  name : Option String := none
  serviceId : Option String := none
  deriving DecidableEq, Repr

inductive BuildMethod
  | dockerfile | compose | image
  deriving DecidableEq, Repr

structure PlanBuild extends PlanUpdate.PlanBuild where
  method : BuildMethod
  dockerfile : String := "Dockerfile"
  generatedDockerfile : Option String := none
  composeServices : Option (List String) := none
  deriving DecidableEq, Repr

structure Plan where
  status : DeployPlanStatus
  appName : String
  build : PlanBuild
  services : List PlanService
  auto : PlanUpdate.Record := []
  provided : PlanUpdate.Record := []
  missing : List String := []
  issues : List EnvValueIssue := []
  projectId : Option String := none
  /-- The target of `getExecutionContext`. -/
  executionTarget : Option String := none
  deriving DecidableEq, Repr

structure ExecutePlanApproval where
  approveAllSafeResources : Bool := false
  createResources : List String := []
  deriving DecidableEq, Repr

/-! ## The store -/

structure ProjectRow where
  id : String
  name : String
  deriving DecidableEq, Repr

/-- A service that runs a workload. -/
structure ServiceRow where
  id : String
  name : String
  projectId : String
  kind : Db.AttachService.ServiceKind
  parentServiceId : Option String := none
  deriving DecidableEq, Repr

/-- The column `credentials`, as `JSON.parse` leaves it. -/
inductive Credentials
  | invalid
  | parsed (connectionString : Option String)
  deriving DecidableEq, Repr

structure ManagedRow where
  id : String
  name : String
  projectId : String
  kind : String
  credentials : Credentials
  deriving DecidableEq, Repr

structure World where
  plans : List (String × Plan) := []
  projects : List ProjectRow := []
  services : List ServiceRow := []
  managed : List ManagedRow := []
  store : Store := {}
  provisioned : List PlanService := []
  started : Option Record := none

inductive Error
  | planNotFound (planId : String)
  | deployOnlyWithoutCompose (deployOnly : List String)
  | unknownComposeServices (unknown available : List String)
  | trafficServiceRequired (candidates : List String)
  | inputRequired (missing invalid : List String)
  | notExecutable (status : DeployPlanStatus)
  | invalidProjectName (name : String)
  | projectNotFound (id : String)
  | locked (projectId : String)
  | invalidTransition (status newStatus : DeployPlanStatus)
  | explicitValueRequired (type : DetectedServiceType) (envVarName : String)
  | targetRequired (type : DetectedServiceType)
  | dockerUnavailable (type : DetectedServiceType)
  | notReady (name : String)
  | noConnectionString (name : String)
  | invalidCredentials (id : String)
  | reusableNotFound (type : DetectedServiceType)
  | projectNotMutable (id : String)
  | provisioningFailed
  /-- A call that is outside of the model. -/
  | call
  deriving DecidableEq, Repr

inductive Response
  | needsApproval (createResources : List String)
  | targetServiceNameConflict (services : List String)
  | nameCollision (name : String)
  | failed (projectName : String)
  | building (projectId projectName : String)
  deriving DecidableEq, Repr

/-- What a call of `ServiceManager.create` returns. -/
structure Created where
  id : String
  credentials : Credentials
  deriving DecidableEq, Repr

/-- How the calls end, and in which order what is awaited together takes its steps. -/
structure Calls where
  lock : Bool := true
  createProject : Bool := true
  nanoid : String
  docker : Bool := true
  network : Bool := true
  create : PlanService → Option Created
  waitForReady : PlanService → Bool := fun _ => true
  connect : PlanService → Bool := fun _ => true
  remove : PlanService → Bool := fun _ => true
  preflight : Bool := true
  mutable : String → Bool := fun _ => true
  clone : Bool := true
  /-- `detectComposeFile` finds a file in the clone. -/
  composeFile : Bool := false
  build : Bool := true
  provisionSchedule : List Nat := []
  deploySchedule : List Nat := []

abbrev Program := Prog World Error

/-- Throw, unless the call succeeds. -/
def require (ok : Bool) (error : Error) : Program PUnit := if ok then pure ⟨⟩ else throw error

variable (decrypt : String → String → String) (calls : Calls)

/-! ## The gate -/

def proposedResourceIdentifier (service : PlanService) : String := service.name.getD service.type.text

def safeProposedResources (services : List PlanService) (providedEnv : PlanUpdate.Record) :
    List PlanService :=
  services.filter fun service => isSafeProposal service.toPlanService &&
    !planServiceSatisfiedByExplicitEnv service.toPlanService providedEnv

/-- The identifiers that are approved, or the response that asks for the approval. -/
def evaluateApprovalGate (plan : Plan) (approval : ExecutePlanApproval) :
    Except Response (List String) :=
  if plan.status ≠ .needs_approval then .ok []
  else
    let identifiers :=
      (safeProposedResources plan.services plan.provided).map proposedResourceIdentifier
    if identifiers.all fun id => approval.approveAllSafeResources || id ∈ approval.createResources then
      .ok identifiers
    else .error (.needsApproval identifiers)

def loadPlanForExecution (planId : String) : Program Plan := do
  match ← Prog.read fun w : World => w.plans.lookup planId with
  | some plan => return plan
  | none => throw (.planNotFound planId)

def checkDeployOnly (plan : Plan) (deployOnly : List String) : Except Error Unit :=
  if deployOnly = [] then .ok ⟨⟩
  else if plan.build.method ≠ .compose then .error (.deployOnlyWithoutCompose deployOnly)
  else
    let available := plan.build.composeServices.getD []
    let unknown := deployOnly.filter (· ∉ available)
    if unknown ≠ [] then .error (.unknownComposeServices unknown available) else .ok ⟨⟩

def assertPlanHasRequiredInput (plan : Plan) : Except Error Unit :=
  let trafficCandidates := plan.build.trafficServiceCandidates.getD []
  if 1 < trafficCandidates.length ∧ truthy plan.build.trafficService = none then
    .error (.trafficServiceRequired trafficCandidates)
  else if plan.status ≠ .needs_input then .ok ⟨⟩
  else .error (.inputRequired plan.missing
    ((plan.issues.filter (·.severity = .fail)).map (·.key)))

def assertPlanIsExecutable (plan : Plan) : Except Error Unit :=
  if plan.status.executable then .ok ⟨⟩ else .error (.notExecutable plan.status)

def assertValidProjectName (name : String) : Except Error Unit :=
  if PROJECT_NAME_REGEX name then .ok ⟨⟩ else .error (.invalidProjectName name)

def transition (plan : Plan) (newStatus : DeployPlanStatus) : Except Error Plan :=
  if DeployPlan.PlanStateMachine.canTransition plan.status newStatus then
    .ok { plan with status := newStatus }
  else .error (.invalidTransition plan.status newStatus)

/-- A value, or the error that is thrown. -/
def ofExcept (r : Except Error α) : Program α := .ret r

def transitionApprovedPlanForExecution (plan : Plan) : Program Plan :=
  if plan.status = .needs_approval then ofExcept (transition plan .ready) else pure plan

/-! ## The target -/

def getProject (id : String) (w : World) : Option ProjectRow := w.projects.find? (·.id = id)

def getProjectByName (name : String) (w : World) : Option ProjectRow :=
  w.projects.find? (·.name = name)

/-- The last part of a name, without the suffix of a deployable service. -/
def serviceNameLeaf (name : String) : List Char :=
  let canonical :=
    if "__svc".toList.isSuffixOf name.toList then name.toList.take (name.length - 5) else name.toList
  (canonical.splitOn '/').getLast?.getD canonical

/-- The services of the project whose names are planned for other ones. -/
def targetServiceNameConflicts (targetProjectId : String) (plannedNames : List String) (w : World) :
    List String :=
  let names := (w.services.filter (·.projectId = targetProjectId)).map (·.name) ++
    (w.managed.filter (·.projectId = targetProjectId)).map (·.name)
  names.filter fun name => serviceNameLeaf name ∈ plannedNames.map serviceNameLeaf

def addProject (project : ProjectRow) (w : World) : World :=
  { w with
    projects := w.projects ++ [project]
    services := w.services ++ [{
      id := canonicalId project.id, name := project.name ++ "__svc", projectId := project.id
      kind := .git }] }

def createPlanOwnedTargetProject (plan : Plan) : Program ProjectRow := do
  match ← Prog.read (getProjectByName plan.appName) with
  | some project => return project
  | none =>
    require calls.createProject .call
    let project : ProjectRow := { id := calls.nanoid, name := plan.appName }
    Prog.modify (addProject project)
    return project

/-- The service is a safe proposal of the plan, of what has been approved. -/
def isApprovedSafeProposal (approved : List String) (service : PlanService) : Bool :=
  isSafeProposal service.toPlanService && proposedResourceIdentifier service ∈ approved

def getExistingTargetProject : Option String → Program (Option ProjectRow)
  | none => pure none
  | some id => do
    match ← Prog.read (getProject id) with
    | some project => return some project
    | none => throw (.projectNotFound id)

structure Target where
  attachTargetProject : Option ProjectRow
  targetProject : Option ProjectRow
  deriving DecidableEq, Repr

def resolveExecuteTarget (plan : Plan) (approved : List String) : Program (Except Response Target) := do
  let attach ← getExistingTargetProject (truthy plan.executionTarget)
  let refused ← Prog.read fun w => attach.bind fun attach =>
    let plannedNames := plan.appName ::
      if plan.build.method = .compose then plan.build.composeServices.getD [] else []
    let conflicts := targetServiceNameConflicts attach.id plannedNames w
    if conflicts ≠ [] then some (Response.targetServiceNameConflict conflicts)
    else if (getProjectByName plan.appName w).any (·.id ≠ attach.id) then
      some (.nameCollision plan.appName)
    else none
  match refused with
  | some response => return .error response
  | none =>
    let target ← Prog.read fun w =>
      attach.or (((truthy plan.projectId).bind (getProject · w)).or (getProjectByName plan.appName w))
    let hasApprovedCreate := plan.services.any fun service =>
      service.action = .create && isApprovedSafeProposal approved service &&
        !planServiceSatisfiedByExplicitEnv service.toPlanService plan.provided
    if hasApprovedCreate && target.isNone then
      let project ← createPlanOwnedTargetProject calls plan
      return .ok ⟨attach, some project⟩
    else return .ok ⟨attach, target⟩

def bindPlanToExecutionTarget (plan : Plan) (target : Target) : Plan :=
  if target.attachTargetProject.isSome then plan
  else match target.targetProject with
    | none => plan
    | some project => { plan with projectId := some project.id }

def persistPlan (planId : String) (plan : Plan) (w : World) : World :=
  { w with plans := (planId, plan) :: w.plans.filter (·.1 ≠ planId) }

/-! ## Managed services -/

/-- The scope that the variables of the project are kept in. -/
def World.envScope (w : World) (projectId : String) : EnvScope :=
  if w.projects.any (·.id = projectId) && w.services.any (·.id = canonicalId projectId) then
    .service (canonicalId projectId)
  else .group projectId

/-- `createdService.kind`. -/
def serviceKind : DetectedServiceType → String
  | .postgresql => "postgres"
  | .mysql => "mysql"
  | .redis => "redis"
  | .mongodb => "mongo"
  | .rabbitmq => "rabbitmq"

/-- For the kinds that a plan proposes. -/
def DEFAULT_ENV_KEYS : DetectedServiceType → String
  | .postgresql => "DATABASE_URL"
  | .mysql => "DATABASE_URL"
  | .redis => "REDIS_URL"
  | .mongodb => "MONGODB_URI"
  | .rabbitmq => "AMQP_URL"

def serviceEnvPrefix (serviceName : String) : String :=
  String.ofList (serviceName.toList.map fun c =>
    let upper := c.toUpper
    if upper.isUpper || upper.isDigit then upper else '_') ++ "_"

/-- The workloads of the project, and the services of its Compose stacks. -/
def getProjectRuntimeEnvServices (projectId : String) (w : World) : List String :=
  let deployables := w.services.filter fun row => row.projectId = projectId && row.kind ≠ .composeChild
  deployables.flatMap fun deployable => deployable.id ::
    if deployable.kind = .compose then
      (w.services.filter (·.parentServiceId = some deployable.id)).map (·.id)
    else []

/-- The project has a value for the key that does not just hold the place. -/
def hasProjectRuntimeEnvKey (projectId key : String) (w : World) : Bool :=
  (EnvScope.group projectId :: (getProjectRuntimeEnvServices projectId w).map .service).any
    fun scope => (getVars w.store scope key).any (!isPlaceholderEnvValue ·)

/-- `getSuggestedEnv` for a service with a connection string. -/
def getSuggestedEnv (type : DetectedServiceType) (serviceName connectionString : String)
    (targetProjectId : String) (w : World) : List (String × String) :=
  let baseKey := DEFAULT_ENV_KEYS type
  let key := if hasProjectRuntimeEnvKey targetProjectId baseKey w then
    serviceEnvPrefix serviceName ++ baseKey else baseKey
  [(key, connectionString)]

/-- `connect`, for a service that is one of the project. What it does to the variables. -/
def connect (service : PlanService) (serviceName : String) (targetProjectId : String)
    (connectionEnv : List (String × String)) : Program PUnit := do
  require (calls.connect service) .call
  let set ← Prog.read fun w =>
    let scope := w.envScope targetProjectId
    (scope, valuesToSet { serviceName, serviceType := service.type.text, credentials := .empty
                          connectionEnv := some connectionEnv } (getVars w.store scope) false)
  Prog.modify fun w => { w with store := setVars targetProjectId w.store set.1 set.2 }

def isBlank (s : String) : Bool := (Compose.trim s.toList).isEmpty

/-- What follows `create`. -/
def wireApprovedService (service : PlanService) (target : ProjectRow) (serviceName : String)
    (created : Created) : Program String := do
  require (calls.waitForReady service) (.notReady serviceName)
  match created.credentials with
  | .invalid => throw (.noConnectionString serviceName)
  | .parsed connectionString =>
    let connectionString := connectionString.getD ""
    if isBlank connectionString then throw (.noConnectionString serviceName)
    else
      let suggestedEnv ← Prog.read (getSuggestedEnv service.type serviceName connectionString target.id)
      connect calls service serviceName target.id suggestedEnv
      return connectionString

def removeCreated (service : PlanService) (created : Created) : Program PUnit :=
  if calls.remove service then
    Prog.modify fun w => { w with managed := w.managed.filter (·.id ≠ created.id) }
  else pure ⟨⟩

def provisionApprovedService (service : PlanService) (target : ProjectRow) : Program String := do
  require calls.docker (.dockerUnavailable service.type)
  require calls.network .call
  let serviceName := target.name ++ "-" ++ service.type.text
  Prog.modify fun w => { w with provisioned := w.provisioned ++ [service] }
  match calls.create service with
  | none => throw .call
  | some created =>
    Prog.modify fun w => { w with managed := w.managed ++ [{
      id := created.id, name := serviceName, projectId := target.id
      kind := serviceKind service.type, credentials := created.credentials }] }
    (wireApprovedService calls service target serviceName created).onThrow
      (removeCreated calls service created)

def resolveReusableService (service : PlanService) (targetProjectId : String) (w : World) :
    Option ManagedRow :=
  let fits (row : ManagedRow) : Bool :=
    row.projectId = targetProjectId && row.kind = serviceKind service.type
  let byId := (truthy service.serviceId).bind fun id => (w.managed.find? (·.id = id)).filter fits
  byId.or (w.managed.find? fun row => some row.name = service.name && fits row)

def getServiceConnectionString (row : ManagedRow) : Except Error String :=
  match row.credentials with
  | .invalid => .error (.invalidCredentials row.id)
  | .parsed connectionString =>
    let connectionString := connectionString.getD ""
    if isBlank connectionString then .error (.noConnectionString row.name) else .ok connectionString

def connectReusableService (service : PlanService) (target : ProjectRow) (envVarName : String) :
    Program String := do
  match ← Prog.read (resolveReusableService service target.id) with
  | none => throw (.reusableNotFound service.type)
  | some row =>
    let connectionString ← ofExcept (getServiceConnectionString row)
    connect calls service row.name target.id [(envVarName, connectionString)]
    return connectionString

/-- The services that `applyManagedResourceEnv` passes over. -/
def isPassedOver (plan : Plan) (service : PlanService) : Bool :=
  service.resolution = some .compose_service ||
    hasExplicitEnvValue plan.provided (serviceEnvVarName service.toPlanService)

/-- What provides the value of the variable, for a service that is not passed over. -/
def workItem (target : Option ProjectRow) (approved : List String) (service : PlanService) :
    Except Error (String × Program String) :=
  let envVarName := serviceEnvVarName service.toPlanService
  match service.action with
  | .create =>
    if !isApprovedSafeProposal approved service then
      .error (.explicitValueRequired service.type envVarName)
    else match target with
      | none => .error (.targetRequired service.type)
      | some target => .ok (envVarName, provisionApprovedService calls service target)
  | .reuse =>
    match target with
    | none => .error (.targetRequired service.type)
    | some target => .ok (envVarName, connectReusableService calls service target envVarName)

/-- The variables of the managed services. The services are provided together, once it is known that
each may be. -/
def applyManagedResourceEnv (plan : Plan) (target : Option ProjectRow) (approved : List String) :
    Program (List (String × String)) := do
  let workItems ← ofExcept ((plan.services.filter (!isPassedOver plan ·)).mapM
    (workItem calls target approved))
  let ends ← Prog.sideBySide calls.provisionSchedule (workItems.map (·.2))
  let connectionStrings ← ofExcept (ends.mapM id)
  return (workItems.map (·.1)).zip connectionStrings

def canOverlapBuildAndProvision (plan : Plan) (target : Option ProjectRow) (approved : List String) :
    Bool :=
  plan.build.method = .dockerfile && target.isSome &&
    let needed := plan.services.filter fun service =>
      !hasExplicitEnvValue plan.provided (serviceEnvVarName service.toPlanService)
    needed ≠ [] && needed.all fun service =>
      service.action = .create && isApprovedSafeProposal approved service

/-! ## The deploy -/

structure ProjectConfig where
  name : String
  envVars : List (String × String)
  isImage : Bool
  preferDockerfile : Bool
  dockerfilePath : Option String
  composeFiles : Option (List String)
  composeFile : Option String
  /-- `_deferredRuntimeEnvVars`. -/
  deferredRuntimeEnvVars : Option (Program (List (String × String)))

/-- The project, with its production environment. -/
def ensureEnvironment (projectId : String) (store : Store) : Store :=
  if (store.productionEnvironment projectId).isSome then store
  else { store with environments := store.environments ++
    [{ id := projectId ++ "-production", projectId, type := "production" }] }

def productionEnvironmentId (projectId : String) (store : Store) : String :=
  ((store.productionEnvironment projectId).map (·.id)).getD (projectId ++ "-production")

/-- `ensureDeployableServiceForProject`. -/
def ensureFirstApplicationService (projectId name : String) (w : World) : World :=
  if w.services.any (·.id = canonicalId projectId) then w
  else { w with services := w.services ++ [{
    id := canonicalId projectId, name := name ++ "__svc", projectId, kind := .git }] }

inductive Built
  /-- The services of the Compose file are started with this environment. -/
  | compose (envVars : Record)
  | docker

/-- What `resolveEnvVars` gives a deploy of the project, whose service is not given. -/
def runtimeEnv (projectId : String) (envVars : List (String × String)) (w : World) : Record :=
  Pipeline.ResolveEnv.runAndVerify decrypt w.store projectId
    (productionEnvironmentId projectId w.store) none (fromEntries envVars)

/-- The build takes a Compose file, if there is one and nothing asks for the Dockerfile. -/
def takesCompose (config : ProjectConfig) : Bool :=
  let preferDockerfile := config.preferDockerfile || config.dockerfilePath.any (!isBlank ·)
  !config.isImage && !preferDockerfile &&
    (config.composeFiles.any (· ≠ []) || config.composeFiles.isNone && config.composeFile.isSome ||
      config.composeFiles.isNone && config.composeFile.isNone && calls.composeFile)

def buildProject (config : ProjectConfig) (projectId : String) : Program Built := do
  require (config.isImage || calls.clone) .call
  let composeEnvVars ← Prog.read (runtimeEnv decrypt projectId config.envVars)
  require calls.build .call
  return if takesCompose calls config then .compose composeEnvVars else .docker

def start (env : Record) : Program PUnit := Prog.modify fun w => { w with started := some env }

/-- What is awaited together: the variables that are deferred, and the build. -/
inductive Awaited
  | env (vars : List (String × String))
  | built (built : Built)

/-- `runAndVerify`. -/
def runContainer (projectId : String) (envVars : List (String × String)) : Program PUnit := do
  start (← Prog.read (runtimeEnv decrypt projectId envVars))

/-- `mergeEnvVarsForServiceDetailed` for the deployable service. -/
def mergeEnvVars (projectId : String) (envVars : List (String × String)) (w : World) : World :=
  { w with store := setVars projectId w.store (.service (canonicalId projectId)) envVars }

/-- What follows the build, which may have started a Compose stack. The variables that are deferred
are awaited before the container is started. -/
def finishDeploy (config : ProjectConfig) (projectId : String) :
    List (Except Error Awaited) → Program PUnit
  | [_, .ok (.built (.compose env))] => start env
  | [.ok (.env vars), .ok (.built .docker)] => do
    Prog.modify (mergeEnvVars projectId (config.envVars ++ vars))
    runContainer decrypt projectId (config.envVars ++ vars)
  | [.error _, .ok (.built .docker)] => throw .provisioningFailed
  | _ => throw .call

def deployEnvironment (config : ProjectConfig) (projectId : String) : Program PUnit := do
  Prog.modify (ensureFirstApplicationService projectId config.name)
  Prog.modify fun w => { w with store := ensureEnvironment projectId w.store }
  require (calls.mutable projectId) (.projectNotMutable projectId)
  Prog.modify (mergeEnvVars projectId config.envVars)
  match config.deferredRuntimeEnvVars with
  | none =>
    match ← buildProject decrypt calls config projectId with
    | .compose env => start env
    | .docker => runContainer decrypt projectId config.envVars
  | some deferred =>
    let ends ← Prog.sideBySide calls.deploySchedule
      [.env <$> deferred, .built <$> buildProject decrypt calls config projectId]
    finishDeploy decrypt config projectId ends

inductive StartDeployResult
  | preflightFailed
  | building (projectId : String)

/-- The deploy runs in the background: what comes of it is not awaited. -/
def startDeploy (config : ProjectConfig) : Program StartDeployResult := do
  if !calls.preflight then return .preflightFailed
  else
    match ← Prog.read (getProjectByName config.name) with
    | some existing =>
      require (calls.mutable existing.id) (.projectNotMutable existing.id)
      (deployEnvironment decrypt calls config existing.id).settle
      return .building existing.id
    | none =>
      require calls.createProject .call
      Prog.modify (addProject { id := calls.nanoid, name := config.name })
      (deployEnvironment decrypt calls config calls.nanoid).settle
      return .building calls.nanoid

def dispatchPlanDeploy (plan : Plan) (mergedEnv : List (String × String))
    (deferredRuntimeEnvVars : Option (Program (List (String × String)))) :
    Program StartDeployResult :=
  let isCompose : Bool := plan.build.method = .compose
  startDeploy decrypt calls
    { name := plan.appName
      envVars := mergedEnv
      isImage := plan.build.method = .image
      preferDockerfile := !isCompose && (truthy plan.build.generatedDockerfile).isNone
      dockerfilePath :=
        if !isCompose && plan.build.dockerfile ≠ "Dockerfile" then some plan.build.dockerfile else none
      composeFiles := if isCompose then plan.build.composeFiles else none
      composeFile := if isCompose then truthy plan.build.composeFile else none
      deferredRuntimeEnvVars }

/-! ## The execution -/

/-- The assignments of `resolvePlanBaseEnv`: automatic values, global secrets, the variables of the
project, and what the user has provided. -/
def resolvePlanBaseEnv (plan : Plan) (target : Target) (w : World) : List (String × String) :=
  let projectId := (target.targetProject.or target.attachTargetProject).elim
    (plan.projectId.getD plan.appName) (·.id)
  plan.auto ++ (w.store.globalSecrets.map fun row => (row.key, decrypt row.encryptedValue row.iv)) ++
    ((w.store.envVars.filter (EnvScope.group projectId).covers).map fun row => (row.key, row.value)) ++
      plan.provided

def failCommittedPlan (planId : String) (plan : Plan) : Program Response := do
  let failed ← ofExcept (transition plan .failed)
  Prog.modify (persistPlan planId failed)
  return .failed plan.appName

structure Prepared where
  plan : Plan
  target : Target
  approved : List String

/-- The execution up to the plan that is persisted as executing. -/
def prepareExecution (planId : String) (deployOnly : List String) (approval : ExecutePlanApproval)
    (plan : Plan) : Program (Except Response Prepared) := do
  ofExcept (checkDeployOnly plan deployOnly)
  ofExcept (assertPlanHasRequiredInput plan)
  match evaluateApprovalGate plan approval with
  | .error response => return .error response
  | .ok approved =>
    ofExcept (assertPlanIsExecutable plan)
    ofExcept (assertValidProjectName plan.appName)
    let approvedPlan ← transitionApprovedPlanForExecution plan
    match ← resolveExecuteTarget calls approvedPlan approved with
    | .error response => return .error response
    | .ok target =>
      let plan := bindPlanToExecutionTarget approvedPlan target
      require (target.targetProject.isNone || calls.lock)
        (.locked ((target.targetProject.map (·.id)).getD ""))
      let executingPlan ← ofExcept (transition plan .executing)
      Prog.modify (persistPlan planId executingPlan)
      return .ok ⟨executingPlan, target, approved⟩

/-- The managed services are provided before the deploy is started, or next to its build. -/
def provideAndDeploy (overlap : Bool) (p : Prepared) : Program StartDeployResult := do
  let baseEnv ← Prog.read (resolvePlanBaseEnv decrypt p.plan p.target)
  let managed := applyManagedResourceEnv calls p.plan p.target.targetProject p.approved
  if overlap then dispatchPlanDeploy decrypt calls p.plan baseEnv (some managed)
  else
    let vars ← managed
    dispatchPlanDeploy decrypt calls p.plan (baseEnv ++ vars) none

def executePrepared (planId : String) (overlap : Bool) (p : Prepared) : Program Response :=
  tryCatch (do
    match ← provideAndDeploy decrypt calls overlap p with
    | .preflightFailed => failCommittedPlan planId p.plan
    | .building projectId => return .building projectId p.plan.appName)
  fun _ => failCommittedPlan planId p.plan

def executeLoaded (planId : String) (deployOnly : List String) (approval : ExecutePlanApproval)
    (plan : Plan) : Program Response := do
  match ← prepareExecution calls planId deployOnly approval plan with
  | .error response => return response
  | .ok p =>
    let overlap := canOverlapBuildAndProvision p.plan p.target.targetProject p.approved
    executePrepared decrypt calls planId overlap p

def executePlan (planId : String) (deployOnly : List String) (approval : ExecutePlanApproval) :
    Program Response := do
  executeLoaded decrypt calls planId deployOnly approval (← loadPlanForExecution planId)

/-! ## What is provided -/

section
variable {decrypt calls}

/-- The service is a safe proposal of a plan that waits for the approval, and has been approved. -/
structure Approved (plan : Plan) (approval : ExecutePlanApproval) (service : PlanService) : Prop where
  waiting : plan.status = .needs_approval
  mem : service ∈ plan.services
  safe : isSafeProposal service.toPlanService
  unsatisfied : planServiceSatisfiedByExplicitEnv service.toPlanService plan.provided = false
  approved : approval.approveAllSafeResources ∨
    proposedResourceIdentifier service ∈ approval.createResources

/-- At most one service is provided, and it is in `P`. -/
def Provisions (P : PlanService → Prop) (w w' : World) : Prop :=
  w'.provisioned = w.provisioned ∨ ∃ service, P service ∧ w'.provisioned = w.provisioned ++ [service]

variable {P : PlanService → Prop}

theorem ofExcept_ok_bind {k : α → Program β} : (ofExcept (.ok a) >>= k) = k a := rfl

theorem Provisions.refl (w : World) : Provisions P w w := .inl rfl

theorem steps_require {ok : Bool} {error : Error} : (require ok error).Steps (Provisions P) := by
  rw [require]
  split
  · exact .pure _
  · exact .throw _

theorem steps_read {g : World → α} : (Prog.read g : Program α).Steps (Provisions P) :=
  .read .refl g

theorem steps_modify {f : World → World} (h : ∀ w, (f w).provisioned = w.provisioned) :
    (Prog.modify f : Program PUnit).Steps (Provisions P) :=
  .modify fun w => .inl (h w)

theorem steps_connect {service : PlanService} {connectionEnv : List (String × String)} :
    (connect calls service serviceName targetProjectId connectionEnv).Steps (Provisions P) :=
  steps_require.bind fun _ => steps_read.bind fun _ => steps_modify fun _ => rfl

theorem steps_wireApprovedService {service : PlanService} {target : ProjectRow} {created : Created} :
    (wireApprovedService calls service target serviceName created).Steps (Provisions P) := by
  refine steps_require.bind fun _ => ?_
  cases created.credentials with
  | invalid => exact .throw _
  | parsed connectionString =>
    dsimp only
    split
    · exact .throw _
    · exact steps_read.bind fun _ => steps_connect.bind fun _ => .pure _

theorem steps_removeCreated {service : PlanService} {created : Created} :
    (removeCreated calls service created).Steps (Provisions P) := by
  rw [removeCreated]
  split
  · exact steps_modify fun _ => rfl
  · exact .pure _

theorem steps_provisionApprovedService {service : PlanService} {target : ProjectRow} (h : P service) :
    (provisionApprovedService calls service target).Steps (Provisions P) := by
  refine steps_require.bind fun _ => steps_require.bind fun _ => ?_
  refine Prog.Steps.bind (.modify fun w => .inr ⟨service, h, rfl⟩) fun _ => ?_
  cases calls.create service with
  | none => exact .throw _
  | some created =>
    refine (steps_modify fun _ => rfl).bind fun _ => ?_
    exact steps_wireApprovedService.onThrow steps_removeCreated

theorem steps_connectReusableService {service : PlanService} {target : ProjectRow} :
    (connectReusableService calls service target envVarName).Steps (Provisions P) := by
  refine steps_read.bind fun row => ?_
  cases row with
  | none => exact .throw _
  | some row => exact Prog.Steps.bind (.ret _) fun _ => steps_connect.bind fun _ => .pure _

theorem steps_workItem {target : Option ProjectRow} {service : PlanService}
    (hP : isApprovedSafeProposal approved service → P service)
    (h : workItem calls target approved service = .ok item) : item.2.Steps (Provisions P) := by
  unfold workItem at h
  cases haction : service.action with
  | create =>
    rw [haction] at h
    dsimp only at h
    split at h
    · cases h
    next hsafe =>
      cases target with
      | none => cases h
      | some target =>
        cases h
        exact steps_provisionApprovedService (hP (by simpa using hsafe))
  | reuse =>
    rw [haction] at h
    cases target with
    | none => cases h
    | some target =>
      cases h
      exact steps_connectReusableService

/-- The services that are provided are proposals of the plan without a value of their own. -/
theorem steps_applyManagedResourceEnv {plan : Plan} {target : Option ProjectRow}
    (hP : ∀ service ∈ plan.services, isApprovedSafeProposal approved service →
      planServiceSatisfiedByExplicitEnv service.toPlanService plan.provided = false → P service) :
    (applyManagedResourceEnv calls plan target approved).Steps (Provisions P) := by
  rw [applyManagedResourceEnv]
  cases hitems : (plan.services.filter (!isPassedOver plan ·)).mapM (workItem calls target approved) with
  | error e => exact .throw _
  | ok workItems =>
    rw [ofExcept_ok_bind]
    refine Prog.Steps.bind (.sideBySide fun p hp => ?_) fun ends =>
      Prog.Steps.bind (.ret _) fun _ => .pure _
    obtain ⟨item, hitem, rfl⟩ := List.mem_map.mp hp
    obtain ⟨service, hservice, hok⟩ := ((mem_mapM_ok hitems).2 item).mp hitem
    obtain ⟨hmem, hpassed⟩ := List.mem_filter.mp hservice
    rw [isPassedOver, Bool.not_eq_true', Bool.or_eq_false_iff] at hpassed
    exact steps_workItem (fun hsafe => hP service hmem hsafe hpassed.2) hok

theorem steps_buildProject {config : ProjectConfig} :
    (buildProject decrypt calls config projectId).Steps (Provisions P) :=
  steps_require.bind fun _ => steps_read.bind fun _ => steps_require.bind fun _ => .pure _

theorem steps_runContainer {envVars : List (String × String)} :
    (runContainer decrypt projectId envVars).Steps (Provisions P) :=
  steps_read.bind fun _ => steps_modify fun _ => rfl

theorem steps_finishDeploy {config : ProjectConfig} {ends : List (Except Error Awaited)} :
    (finishDeploy decrypt config projectId ends).Steps (Provisions P) := by
  unfold finishDeploy
  split
  · exact steps_modify fun _ => rfl
  · exact (steps_modify fun _ => rfl).bind fun _ => steps_runContainer
  · exact .throw _
  · exact .throw _

theorem steps_deployEnvironment {config : ProjectConfig}
    (h : ∀ deferred ∈ config.deferredRuntimeEnvVars, deferred.Steps (Provisions P)) :
    (deployEnvironment decrypt calls config projectId).Steps (Provisions P) := by
  refine Prog.Steps.bind (steps_modify fun w => ?_) fun _ => ?_
  · rw [ensureFirstApplicationService]
    split <;> rfl
  refine (steps_modify fun _ => rfl).bind fun _ => steps_require.bind fun _ => ?_
  refine (steps_modify fun _ => rfl).bind fun _ => ?_
  cases hdeferred : config.deferredRuntimeEnvVars with
  | none =>
    refine steps_buildProject.bind fun built => ?_
    cases built with
    | compose env => exact steps_modify fun _ => rfl
    | docker => exact steps_runContainer
  | some deferred =>
    refine Prog.Steps.bind (.sideBySide fun p hp => ?_) fun ends => steps_finishDeploy
    simp only [List.mem_cons, List.not_mem_nil, or_false] at hp
    rcases hp with rfl | rfl
    · exact (h deferred hdeferred).bind fun _ => .pure _
    · exact steps_buildProject.bind fun _ => .pure _

theorem steps_startDeploy {config : ProjectConfig}
    (h : ∀ deferred ∈ config.deferredRuntimeEnvVars, deferred.Steps (Provisions P)) :
    (startDeploy decrypt calls config).Steps (Provisions P) := by
  rw [startDeploy]
  split
  · exact .pure _
  refine steps_read.bind fun existing => ?_
  cases existing with
  | some existing =>
    exact steps_require.bind fun _ => (steps_deployEnvironment h).settle.bind fun _ => .pure _
  | none =>
    refine steps_require.bind fun _ => (steps_modify fun _ => rfl).bind fun _ => ?_
    exact (steps_deployEnvironment h).settle.bind fun _ => .pure _

theorem steps_failCommittedPlan {plan : Plan} :
    (failCommittedPlan planId plan).Steps (Provisions P) :=
  Prog.Steps.bind (.ret _) fun _ => (steps_modify fun _ => rfl).bind fun _ => .pure _

theorem steps_executePrepared {p : Prepared}
    (hP : ∀ service ∈ p.plan.services, isApprovedSafeProposal p.approved service →
      planServiceSatisfiedByExplicitEnv service.toPlanService p.plan.provided = false → P service) :
    (executePrepared decrypt calls planId overlap p).Steps (Provisions P) := by
  have hmanaged : (applyManagedResourceEnv calls p.plan p.target.targetProject p.approved).Steps
      (Provisions P) := steps_applyManagedResourceEnv hP
  refine Prog.Steps.tryCatch (Prog.Steps.bind ?_ fun result => ?_) fun _ => steps_failCommittedPlan
  · refine steps_read.bind fun baseEnv => ?_
    dsimp only
    split
    · refine steps_startDeploy fun deferred hdeferred => ?_
      obtain rfl := Option.some.inj hdeferred
      exact hmanaged
    · refine hmanaged.bind fun vars => steps_startDeploy ?_
      rintro _ ⟨⟩
  · cases result with
    | preflightFailed => exact steps_failCommittedPlan
    | building projectId => exact .pure _

/-! ## Before the plan is executed -/

theorem steps_getExistingTargetProject {id : Option String} :
    (getExistingTargetProject id).Steps (Provisions P) := by
  cases id with
  | none => exact .pure _
  | some id =>
    refine steps_read.bind fun project => ?_
    cases project with
    | none => exact .throw _
    | some project => exact .pure _

theorem steps_createPlanOwnedTargetProject {plan : Plan} :
    (createPlanOwnedTargetProject calls plan).Steps (Provisions P) := by
  refine steps_read.bind fun project => ?_
  cases project with
  | some project => exact .pure _
  | none => exact steps_require.bind fun _ => (steps_modify fun _ => rfl).bind fun _ => .pure _

theorem steps_resolveExecuteTarget {plan : Plan} {approved : List String} :
    (resolveExecuteTarget calls plan approved).Steps (Provisions P) := by
  refine steps_getExistingTargetProject.bind fun attach => steps_read.bind fun refused => ?_
  cases refused with
  | some response => exact .pure _
  | none =>
    refine steps_read.bind fun target => ?_
    dsimp only
    split
    · exact steps_createPlanOwnedTargetProject.bind fun _ => .pure _
    · exact .pure _

theorem steps_prepareExecution {plan : Plan} :
    (prepareExecution calls planId deployOnly approval plan).Steps (Provisions P) := by
  refine Prog.Steps.bind (.ret _) fun _ => Prog.Steps.bind (.ret _) fun _ => ?_
  cases evaluateApprovalGate plan approval with
  | error response => exact .pure _
  | ok approved =>
    refine Prog.Steps.bind (.ret _) fun _ => Prog.Steps.bind (.ret _) fun _ => ?_
    refine Prog.Steps.bind ?_ fun approvedPlan => steps_resolveExecuteTarget.bind fun target => ?_
    · rw [transitionApprovedPlanForExecution]
      split
      · exact .ret _
      · exact .pure _
    cases target with
    | error response => exact .pure _
    | ok target =>
      refine steps_require.bind fun _ => Prog.Steps.bind (.ret _) fun _ => ?_
      exact (steps_modify fun _ => rfl).bind fun _ => .pure _

/-- What is executed has the services and the environment of the plan, and what the gate approved. -/
structure Prepared.From (plan : Plan) (approval : ExecutePlanApproval) (p : Prepared) : Prop where
  services : p.plan.services = plan.services
  provided : p.plan.provided = plan.provided
  approved : evaluateApprovalGate plan approval = .ok p.approved

theorem transition_eq_ok (h : transition plan newStatus = .ok plan') :
    plan' = { plan with status := newStatus } := by
  rw [transition] at h
  split at h
  · exact (Except.ok.inj h).symm
  · cases h

theorem bindPlan_services (plan : Plan) (target : Target) :
    (bindPlanToExecutionTarget plan target).services = plan.services ∧
      (bindPlanToExecutionTarget plan target).provided = plan.provided := by
  rw [bindPlanToExecutionTarget]
  split
  · exact ⟨rfl, rfl⟩
  · split <;> exact ⟨rfl, rfl⟩

theorem leaves_prepareExecution {plan : Plan} :
    (prepareExecution calls planId deployOnly approval plan).Leaves fun r =>
      ∀ p, r = .ok (.ok p) → p.From plan approval := by
  have hany {α : Type} {p : Program α} : p.Leaves fun _ => True := .of_forall fun _ => trivial
  refine Prog.Leaves.bind hany (fun _ _ => Prog.Leaves.bind hany (fun _ _ => ?_) ?_) ?_
  all_goals try (rintro _ _ _ ⟨⟩)
  cases hgate : evaluateApprovalGate plan approval with
  | error response => rintro _ ⟨⟩
  | ok approved =>
    refine Prog.Leaves.bind hany (fun _ _ => Prog.Leaves.bind hany (fun _ _ => ?_) ?_) ?_
    all_goals try (rintro _ _ _ ⟨⟩)
    refine Prog.Leaves.bind (Q := fun r => ∀ plan', r = .ok plan' →
      plan'.services = plan.services ∧ plan'.provided = plan.provided) ?_ (fun plan' hplan' => ?_) ?_
    · rw [transitionApprovedPlanForExecution]
      split
      · intro plan' h
        rw [transition_eq_ok h]
        exact ⟨rfl, rfl⟩
      · rintro _ ⟨⟩
        exact ⟨rfl, rfl⟩
    · refine Prog.Leaves.bind hany (fun target _ => ?_) ?_
      · cases target with
        | error response => rintro _ ⟨⟩
        | ok target =>
          refine Prog.Leaves.bind hany (fun _ _ => ?_) ?_
          · refine Prog.Leaves.bind (Q := fun r => ∀ executing, r = .ok executing →
              executing.services = plan.services ∧ executing.provided = plan.provided) ?_ ?_ ?_
            · intro executing h
              obtain ⟨hservices, hprovided⟩ := bindPlan_services plan' target
              obtain ⟨hs, hp⟩ := hplan' plan' rfl
              rw [transition_eq_ok h]
              exact ⟨hservices.trans hs, hprovided.trans hp⟩
            · intro executing hexecuting
              obtain ⟨hservices, hprovided⟩ := hexecuting executing rfl
              refine Prog.Leaves.bind hany (fun _ _ => ?_) ?_
              · rintro p ⟨⟩
                exact ⟨hservices, hprovided, hgate⟩
              · rintro _ _ _ ⟨⟩
            · rintro _ _ _ ⟨⟩
          · rintro _ _ _ ⟨⟩
      · rintro _ _ _ ⟨⟩
    · rintro _ _ _ ⟨⟩

/-- What the gate lets pass is approved. -/
theorem approved_of_gate {plan : Plan} (hgate : evaluateApprovalGate plan approval = .ok approved)
    (hmem : service ∈ plan.services) (hsafe : isApprovedSafeProposal approved service)
    (hunsatisfied : planServiceSatisfiedByExplicitEnv service.toPlanService plan.provided = false) :
    Approved plan approval service := by
  obtain ⟨hproposal, hid⟩ := Bool.and_eq_true_iff.mp hsafe
  rw [decide_eq_true_iff] at hid
  rw [evaluateApprovalGate] at hgate
  split at hgate
  · obtain rfl := Except.ok.inj hgate
    cases hid
  next hstatus =>
    dsimp only at hgate
    split at hgate
    next hall =>
      obtain rfl := Except.ok.inj hgate
      have happroved := List.all_eq_true.mp hall _ hid
      refine ⟨not_not.mp hstatus, hmem, hproposal, hunsatisfied, ?_⟩
      simpa using happroved
    · cases hgate

/-- Whatever else happens to the store, each step of an execution provides only what has been
approved. -/
theorem steps_executeLoaded (planId : String) (deployOnly : List String) (approval : ExecutePlanApproval)
    (plan : Plan) : (executeLoaded decrypt calls planId deployOnly approval plan).Steps
      (Provisions (Approved plan approval)) := by
  refine steps_prepareExecution.bind_of_leaves leaves_prepareExecution fun prepared hprepared => ?_
  cases prepared with
  | error response => exact .pure _
  | ok p =>
    obtain ⟨hservices, hprovided, hgate⟩ := hprepared p rfl
    refine steps_executePrepared fun service hmem hsafe hunsatisfied => ?_
    rw [hservices] at hmem
    rw [hprovided] at hunsatisfied
    exact approved_of_gate hgate hmem hsafe hunsatisfied

end

end OpenLander.PlanExecution
