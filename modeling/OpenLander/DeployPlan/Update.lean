import OpenLander.Compose.Interpolate
import OpenLander.DeployPlan.Types
import OpenLander.Pipeline.EnvManager
import OpenLander.Theory.Collections
import OpenLander.Theory.Keyed

/-! # What a plan still misses

`createPlan` and `updatePlan` (`src/pipeline/deploy-plan/engine.ts`) both compute which required variables
are missing, and the status from it. `createPlan` counts what the target project has stored as given,
`updatePlan` does not. -/

namespace OpenLander.PlanUpdate
open Theory
open DeployPlan (DeployPlanStatus)
open Pipeline.EnvManager (objectPrototypeKeys)
open Compose (trim)

/-! ## Records -/

/-- The own entries of an object. -/
abbrev Record := List (String × String)

/-- `key in record` -/
def Record.has (record : Record) (key : String) : Bool :=
  key ∈ record.map (·.1) || key ∈ objectPrototypeKeys

/-- `{ ...lo, ...hi }` -/
def Record.spread (lo hi : Record) : Record := putAll (·.1) lo hi

/-- A text that is there and not empty. -/
def truthy (value : Option String) : Option String := value.filter (· ≠ "")

/-! ## The plan -/

inductive DetectedServiceType
  | postgresql | mysql | redis | mongodb | rabbitmq
  deriving DecidableEq, Repr

inductive Action
  | create | reuse
  deriving DecidableEq, Repr

inductive Resolution
  | existing_project_service | proposed_project_service | compose_service | needs_user_input
  deriving DecidableEq, Repr

inductive Approval
  | safe_resource | explicit_resource | not_auto_creatable
  deriving DecidableEq, Repr

structure PlanService where
  type : DetectedServiceType
  action : Action
  connectVia : String
  resolution : Option Resolution := none
  approval : Option Approval := none
  deriving DecidableEq, Repr

/-- An entry of the environment, with a requirement of its values. -/
structure PlanEnvEntry (ρ : Type) where
  key : String
  source : String
  required : Bool
  requirement : Option ρ := none
  deriving DecidableEq, Repr

inductive Severity
  | fail | warning
  deriving DecidableEq, Repr

structure EnvValueIssue where
  key : String
  severity : Severity
  deriving DecidableEq, Repr

structure PlanEnv (ρ : Type) where
  auto : Record
  required : List String
  provided : Record
  trusted : Option (List String) := none
  detected : List (PlanEnvEntry ρ)
  issues : List EnvValueIssue

structure PlanBuild where
  composeFile : Option String := none
  composeFiles : Option (List String) := none
  composeProfiles : Option (List String) := none
  trafficService : Option String := none
  trafficServiceCandidates : Option (List String) := none
  deriving DecidableEq, Repr

structure Plan (ρ : Type) where
  status : DeployPlanStatus
  repoUrl : String
  build : PlanBuild
  services : List PlanService
  env : PlanEnv ρ
  missing : List String

inductive Error
  | serviceConfig (message : String)
  | invalidTrafficService (name : String) (candidates : List String)
  | projectNotFound (id : String)
  | targetProjectServiceNameConflict (id : String)
  | repoUrlRequired
  | cannotUpdate (status : DeployPlanStatus)
  /-- The repository cannot be cloned or analysed. -/
  | analysis
  deriving DecidableEq, Repr

/-- The checks of `src/pipeline/env-requirements.ts`: what the name of a variable requires, together with
what has been detected, and what is wrong with a value, given whether it is required and whether its
source is trusted. -/
structure EnvRequirements (ρ : Type) where
  inferEnvValueRequirement : String → Option ρ
  mergeEnvValueRequirement : String → Option ρ → Option ρ
  validateEnvValue : String → String → Option ρ → Bool → Bool → List EnvValueIssue

/-! ## Parts of both -/

section
variable {ρ : Type}

/-- The required entries that nothing satisfies, each key once. -/
def missingFrom (satisfied : String → Bool) :
    List String → List (PlanEnvEntry ρ) → List (PlanEnvEntry ρ)
  | _, [] => []
  | seen, entry :: entries =>
    if !entry.required || entry.key ∈ seen then missingFrom satisfied seen entries
    else if satisfied entry.key then missingFrom satisfied (entry.key :: seen) entries
    else entry :: missingFrom satisfied (entry.key :: seen) entries

def computeMissingEnvVars (entries : List (PlanEnvEntry ρ)) (provided autoDetected existing : Record)
    (plannedServiceKeys : List String) : List (PlanEnvEntry ρ) :=
  missingFrom (fun key => provided.has key || autoDetected.has key || existing.has key ||
    key ∈ plannedServiceKeys) [] entries

def DetectedServiceType.text : DetectedServiceType → String
  | .postgresql => "postgresql"
  | .mysql => "mysql"
  | .redis => "redis"
  | .mongodb => "mongodb"
  | .rabbitmq => "rabbitmq"

def SERVICE_ENV_VARS : DetectedServiceType → String
  | .postgresql => "DATABASE_URL"
  | .mysql => "DATABASE_URL"
  | .redis => "REDIS_URL"
  | .mongodb => "MONGODB_URI"
  | .rabbitmq => "RABBITMQ_URL"

def serviceEnvVarName (service : PlanService) : String :=
  if service.connectVia ≠ "" then service.connectVia else SERVICE_ENV_VARS service.type

def hasExplicitEnvValue (envVars : Record) (key : String) : Bool :=
  (fromEntries envVars key).any fun value => trim value.toList ≠ []

def planServiceSatisfiedByExplicitEnv (service : PlanService) (providedEnv : Record) : Bool :=
  hasExplicitEnvValue providedEnv (serviceEnvVarName service)

def filterServicesWithExplicitEnv (services : List PlanService) (providedEnv : Record) :
    List PlanService :=
  services.filter fun service => !planServiceSatisfiedByExplicitEnv service providedEnv

def isSafeProposal (service : PlanService) : Bool :=
  service.resolution = some .proposed_project_service && service.approval = some .safe_resource

def hasSafeProposedResources (services : List PlanService) (providedEnv : Record) : Bool :=
  services.any fun service =>
    isSafeProposal service && !planServiceSatisfiedByExplicitEnv service providedEnv

def computePlanStatus (missing : List String) (services : List PlanService) (providedEnv : Record)
    (envIssues : List EnvValueIssue) (trafficServiceRequired : Bool) : DeployPlanStatus :=
  if missing ≠ [] || envIssues.any (·.severity = .fail) || trafficServiceRequired then .needs_input
  else if hasSafeProposedResources services providedEnv then .needs_approval
  else .ready

/-- The services are not looked at. -/
def buildAutoEnvVars (_services : List PlanService) : Record := []

def plannedServiceEnvKeys (services : List PlanService) : List String :=
  ((services.filter fun service => service.action = .reuse || isSafeProposal service).map
    (·.connectVia)).filter (· ≠ "")

def trustedEnvKeySet (env : PlanEnv ρ) : List String :=
  (env.trusted.getD []).filter env.provided.has

variable (checks : EnvRequirements ρ)

def validatePlanEnvValues (entries : List (PlanEnvEntry ρ)) (providedEnv : Record)
    (trustedEnvKeys : List String) : List EnvValueIssue :=
  providedEnv.flatMap fun (key, value) =>
    let entry := fromEntries (entries.map fun entry => (entry.key, entry)) key
    checks.validateEnvValue key value
      (checks.mergeEnvValueRequirement key (entry.bind (·.requirement))) (entry.any (·.required))
      (key ∈ trustedEnvKeys)

def requiredEntriesFrom : List String → List PlanService → List (PlanEnvEntry ρ)
  | _, [] => []
  | seen, service :: services =>
    if service.action ≠ .create || service.connectVia = "" || service.connectVia ∈ seen then
      requiredEntriesFrom seen services
    else
      { key := service.connectVia
        source := s!"detected {service.type.text} dependency"
        required := true
        requirement := checks.inferEnvValueRequirement service.connectVia } ::
          requiredEntriesFrom (service.connectVia :: seen) services

def requiredEnvEntriesForServiceChoices (services : List PlanService)
    (detectedEnv : List (PlanEnvEntry ρ)) : List (PlanEnvEntry ρ) :=
  requiredEntriesFrom checks (detectedEnv.map (·.key)) services

end

/-! ## `createPlan` -/

/-- An entry of the environment as the files of the repository declare it. -/
structure DetectedEntry where
  key : String
  source : String
  required : Bool
  deriving DecidableEq, Repr

/-- What the analysis of the repository finds: the Compose files, if it is a Compose deployment, the
entries of the environment and the services that it depends on. -/
structure Analysis where
  isCompose : Bool
  composeFile : Option String := none
  composeFiles : Option (List String) := none
  trafficServiceCandidates : Option (List String) := none
  detectedEnv : List DetectedEntry
  detectedServices : List PlanService
  deriving DecidableEq, Repr

structure CreatePlanOptions where
  repoUrl : Option String := none
  /-- The plan is for an image. -/
  isImage : Bool := false
  envVars : Record := []
  projectId : Option String := none
  targetProjectId : Option String := none
  trafficService : Option String := none
  composeProfiles : Option (List String) := none
  deriving DecidableEq, Repr

/-- What the plan engine reads besides the repository. -/
structure World where
  /-- The ids of the projects. -/
  projects : List String
  /-- The variables that are stored for a project. -/
  getAll : String → Record
  /-- A service of the project has a name of the plan. -/
  serviceNamesTaken : String → Bool

def getExistingTargetProject (world : World) (projectId : Option String) :
    Except Error (Option String) :=
  match truthy projectId with
  | none => .ok none
  | some projectId =>
    if projectId ∈ world.projects then .ok (some projectId) else .error (.projectNotFound projectId)

/-- Only several candidates are kept. -/
def severalOf (candidates : Option (List String)) : Option (List String) :=
  candidates.filter (1 < ·.length)

def trafficServiceRequired (build : PlanBuild) : Bool :=
  1 < (build.trafficServiceCandidates.getD []).length && (truthy build.trafficService).isNone

section
variable {ρ : Type} (checks : EnvRequirements ρ)

/-- The traffic service of a Compose deployment. -/
def chooseTrafficService (opts : CreatePlanOptions) (analysis : Analysis) :
    Except Error (Option String) :=
  if analysis.isCompose then
    let candidates := analysis.trafficServiceCandidates.getD []
    match truthy opts.trafficService with
    | some name =>
      if name ∈ candidates then .ok (some name) else .error (.invalidTrafficService name candidates)
    | none => .ok (opts.trafficService.or (if candidates.length = 1 then candidates[0]? else none))
  else .ok none

/-- The services that no variable of the options stands for. -/
def plannedServices (opts : CreatePlanOptions) (analysis : Analysis) : List PlanService :=
  filterServicesWithExplicitEnv analysis.detectedServices opts.envVars

def detectedEnvWithServiceRequirements (opts : CreatePlanOptions) (analysis : Analysis) :
    List (PlanEnvEntry ρ) :=
  let detectedEnv := analysis.detectedEnv.map fun entry =>
    { key := entry.key, source := entry.source, required := entry.required }
  detectedEnv ++ requiredEnvEntriesForServiceChoices checks (plannedServices opts analysis) detectedEnv

/-- The plan of a repository, where the stored variables are those of the target project. -/
def assemblePlan (opts : CreatePlanOptions) (analysis : Analysis) (existingEnvVars : Record)
    (trafficService : Option String) : Plan ρ :=
  let services := plannedServices opts analysis
  let detectedEnv := detectedEnvWithServiceRequirements checks opts analysis
  let autoEnvVars := buildAutoEnvVars services
  let missing := (computeMissingEnvVars detectedEnv opts.envVars autoEnvVars existingEnvVars
    (plannedServiceEnvKeys services)).map (·.key)
  let envIssues := validatePlanEnvValues checks detectedEnv opts.envVars []
  { status := computePlanStatus missing services opts.envVars envIssues
      (1 < (analysis.trafficServiceCandidates.getD []).length && (truthy trafficService).isNone)
    repoUrl := opts.repoUrl.getD ""
    build := {
      composeFile := analysis.composeFile
      composeFiles := severalOf analysis.composeFiles
      composeProfiles := opts.composeProfiles
      trafficService
      trafficServiceCandidates := severalOf analysis.trafficServiceCandidates }
    services
    env := {
      auto := autoEnvVars
      required := ((detectedEnv.filter (·.required)).map (·.key)).foldl insertLast []
      provided := opts.envVars
      detected := detectedEnv
      issues := envIssues }
    missing }

/-- The plan of an image. -/
def assembleImagePlan (opts : CreatePlanOptions) : Plan ρ :=
  let envIssues := validatePlanEnvValues checks [] opts.envVars []
  { status := computePlanStatus [] [] opts.envVars envIssues false
    repoUrl := ""
    build := {}
    services := []
    env := { auto := [], required := [], provided := opts.envVars, detected := [], issues := envIssues }
    missing := [] }

def assertTargetServiceNamesAvailable (world : World) : Option String → Except Error Unit
  | none => .ok ()
  | some id =>
    if world.serviceNamesTaken id then .error (.targetProjectServiceNameConflict id) else .ok ()

/-- The stored variables of the project that the plan attaches to or updates. -/
def existingEnvVars (world : World) (targetProject attachTargetProject : Option String) : Record :=
  ((attachTargetProject.or targetProject).map world.getAll).getD []

def createPlan (world : World) (opts : CreatePlanOptions) (analysis : Except Error Analysis) :
    Except Error (Plan ρ) := do
  if (truthy opts.projectId).isSome && (truthy opts.targetProjectId).isSome then
    .error (.serviceConfig "projectId and targetProjectId cannot be used together.")
  else if opts.isImage then
    let _ ← getExistingTargetProject world opts.projectId
    let attachTargetProject ← getExistingTargetProject world opts.targetProjectId
    assertTargetServiceNamesAvailable world attachTargetProject
    return assembleImagePlan checks opts
  else if (truthy opts.repoUrl).isNone then .error .repoUrlRequired
  else
    let targetProject ← getExistingTargetProject world opts.projectId
    let attachTargetProject ← getExistingTargetProject world opts.targetProjectId
    let analysis ← analysis
    let trafficService ← chooseTrafficService opts analysis
    assertTargetServiceNamesAvailable world attachTargetProject
    return assemblePlan checks opts analysis (existingEnvVars world targetProject attachTargetProject)
      trafficService

/-! ## `updatePlan` -/

inductive EnvUpdate
  /-- `{ provided?, trusted? }` -/
  | structured (provided : Option Record) (trusted : Option (List String))
  | flat (vars : Record)
  deriving DecidableEq, Repr

/-- The fields that are given. -/
structure PlanUpdates where
  env : Option EnvUpdate := none
  build : PlanBuild := {}
  composeFile : Option String := none
  composeFiles : Option (List String) := none
  composeProfiles : Option (List String) := none
  trafficService : Option String := none
  services : Option (List PlanService) := none
  deriving DecidableEq, Repr

/-- `{ ...build, ...update }` -/
def PlanBuild.overlay (build update : PlanBuild) : PlanBuild where
  composeFile := update.composeFile.or build.composeFile
  composeFiles := update.composeFiles.or build.composeFiles
  composeProfiles := update.composeProfiles.or build.composeProfiles
  trafficService := update.trafficService.or build.trafficService
  trafficServiceCandidates := update.trafficServiceCandidates.or build.trafficServiceCandidates

/-- The Compose files and profiles that are to be analysed again. -/
structure ComposeSelection where
  composeFile : Option String
  composeFiles : Option (List String)
  composeProfiles : Option (List String)
  deriving DecidableEq, Repr

/-- What the analysis of a selection finds. -/
structure ComposeConfig where
  composeFile : String
  composeFiles : List String
  trafficServiceCandidates : Option (List String)
  deriving DecidableEq, Repr

def requestedSelection (updates : PlanUpdates) : ComposeSelection where
  composeFile := updates.composeFile.or updates.build.composeFile
  composeFiles := updates.composeFiles.or updates.build.composeFiles
  composeProfiles := updates.composeProfiles.or updates.build.composeProfiles

def ComposeSelection.isRequested (requested : ComposeSelection) : Bool :=
  requested.composeFile.isSome || requested.composeFiles.isSome || requested.composeProfiles.isSome

/-- What is not requested is that of the plan. -/
def selectedCompose (plan : Plan ρ) (requested : ComposeSelection) : ComposeSelection :=
  let composeFiles := requested.composeFiles.or
    (if requested.composeFile.isNone then plan.build.composeFiles else none)
  { composeFile := requested.composeFile.or
      (if composeFiles.isSome then none else plan.build.composeFile)
    composeFiles
    composeProfiles := requested.composeProfiles.or plan.build.composeProfiles }

/-- The Compose configuration after a new analysis. -/
def refreshCompose (plan : Plan ρ) (updates : PlanUpdates) (config : ComposeConfig) :
    Except Error PlanBuild :=
  let candidates := config.trafficServiceCandidates.getD []
  let explicitlyUpdatedTraffic := updates.trafficService.or updates.build.trafficService
  let retainedTraffic := explicitlyUpdatedTraffic.or plan.build.trafficService
  let trafficService := match (truthy retainedTraffic).filter (· ∈ candidates) with
    | some name => some name
    | none => if candidates.length = 1 then candidates[0]? else none
  match (truthy explicitlyUpdatedTraffic).filter (· ∉ candidates) with
  | some name => .error (.invalidTrafficService name candidates)
  | none => .ok {
      composeFile := config.composeFile
      composeFiles := severalOf (some config.composeFiles)
      composeProfiles := (requestedSelection updates).composeProfiles.or plan.build.composeProfiles
      trafficService
      trafficServiceCandidates := severalOf (some candidates) }

/-- The build with its own updates, or as a new analysis finds it, where `resolve` clones the repository
and analyses a selection. -/
def baseBuild (plan : Plan ρ) (updates : PlanUpdates)
    (resolve : ComposeSelection → Except Error ComposeConfig) : Except Error PlanBuild :=
  if (requestedSelection updates).isRequested then
    if plan.repoUrl = "" then
      .error (.serviceConfig "Compose settings require a Git repository plan.")
    else do
      let config ← resolve (selectedCompose plan (requestedSelection updates))
      refreshCompose plan updates config
  else .ok (plan.build.overlay updates.build)

def updateBuild (plan : Plan ρ) (updates : PlanUpdates)
    (resolve : ComposeSelection → Except Error ComposeConfig) : Except Error PlanBuild :=
  let requested := requestedSelection updates
  if requested.composeFile.isSome && requested.composeFiles.isSome then
    .error (.serviceConfig "compose_file and compose_files cannot be combined.")
  else do
    let build ← baseBuild plan updates resolve
    return {
      composeFile := updates.composeFile.or build.composeFile
      composeFiles := updates.composeFiles.or build.composeFiles
      composeProfiles := updates.composeProfiles.or build.composeProfiles
      trafficService := updates.trafficService.or build.trafficService
      trafficServiceCandidates := build.trafficServiceCandidates }

def PlanEnv.update (env : PlanEnv ρ) : Option EnvUpdate → PlanEnv ρ
  | none => env
  | some (.flat vars) => { env with provided := Record.spread env.provided vars }
  | some (.structured provided trusted) =>
    let provided := (provided.map (Record.spread env.provided ·)).getD env.provided
    let trusted := match trusted with
      | none => env.trusted
      | some keys => some ((((env.trusted.getD []) ++ keys.filter (· ≠ "")).foldl insertLast []).filter
          (Record.has provided))
    { env with provided, trusted }

/-- The required entries, as they have been detected. -/
def requiredEntries (env : PlanEnv ρ) : List (PlanEnvEntry ρ) :=
  env.required.map fun key =>
    (env.detected.find? fun entry => entry.key = key && entry.required).getD
      { key, source := "required", required := true }

def updatePlan (plan : Plan ρ) (updates : PlanUpdates)
    (resolve : ComposeSelection → Except Error ComposeConfig) : Except Error (Plan ρ) := do
  if plan.status.terminal then .error (.cannotUpdate plan.status)
  else
    let build ← updateBuild plan updates resolve
    let candidates := build.trafficServiceCandidates.getD []
    match (truthy build.trafficService).filter fun name => candidates ≠ [] && name ∉ candidates with
    | some name => .error (.invalidTrafficService name candidates)
    | none =>
      let env := plan.env.update updates.env
      let services := updates.services.getD (filterServicesWithExplicitEnv plan.services env.provided)
      let auto := buildAutoEnvVars services
      -- The stored variables of the project are not read.
      let missing := (computeMissingEnvVars (requiredEntries env) env.provided auto []
        (plannedServiceEnvKeys services)).map (·.key)
      let issues := validatePlanEnvValues checks env.detected env.provided (trustedEnvKeySet env)
      return {
        status := computePlanStatus missing services env.provided issues (trafficServiceRequired build)
        repoUrl := plan.repoUrl
        build
        services
        env := { env with auto, issues }
        missing }

/-! ## Plans that nothing has changed -/

/-- The updates say what the plan says, and a new analysis finds the same candidates. -/
structure NoChange (resolve : ComposeSelection → Except Error ComposeConfig) (plan : Plan ρ)
    (updates : PlanUpdates) : Prop where
  services : ∀ services ∈ updates.services, services = plan.services
  provided : (plan.env.update updates.env).provided = plan.env.provided
  trusted : ∀ key, key ∈ trustedEnvKeySet (plan.env.update updates.env) ↔
    key ∈ trustedEnvKeySet plan.env
  traffic : ∀ name ∈ updates.trafficService.or updates.build.trafficService,
    plan.build.trafficService = some name
  candidates : ∀ candidates ∈ updates.build.trafficServiceCandidates,
    plan.build.trafficServiceCandidates = some candidates
  compose : (requestedSelection updates).isRequested = true → ∀ config,
    resolve (selectedCompose plan (requestedSelection updates)) = .ok config →
        severalOf (some (config.trafficServiceCandidates.getD [])) =
          plan.build.trafficServiceCandidates

/-- The plan has been created as `created`, and updated without a change since. -/
inductive Stored (resolve : ComposeSelection → Except Error ComposeConfig) (created : Plan ρ) :
    Plan ρ → Prop
  | created : Stored resolve created created
  | updated {plan plan' : Plan ρ} {updates : PlanUpdates} (h : Stored resolve created plan)
      (hno : NoChange resolve plan updates)
      (hupdate : updatePlan checks plan updates resolve = .ok plan') : Stored resolve created plan'

/-- The same variables are missing, and the status is the same. -/
structure Unchanged (created updated : Plan ρ) : Prop where
  missing : ∀ key, key ∈ updated.missing ↔ key ∈ created.missing
  status : updated.status = created.status

/-- The stored variables of the target project. -/
def storedEnvVars (world : World) (opts : CreatePlanOptions) : Record :=
  existingEnvVars world (truthy opts.projectId) (truthy opts.targetProjectId)

/-- No required variable is there only because the target project has it stored. -/
def NoneOnlyStored (world : World) (opts : CreatePlanOptions) (analysis : Except Error Analysis) :
    Prop :=
  opts.isImage = true ∨ ∀ found, analysis = .ok found →
    ∀ entry ∈ detectedEnvWithServiceRequirements checks opts found, entry.required = true →
      entry.key ∈ (storedEnvVars world opts).map (·.1) →
        opts.envVars.has entry.key = true ∨
          entry.key ∈ plannedServiceEnvKeys (plannedServices opts found)

end

section
variable {ρ : Type} {checks : EnvRequirements ρ} {plan created updated : Plan ρ}
  {updates : PlanUpdates} {resolve : ComposeSelection → Except Error ComposeConfig}
  {entries : List (PlanEnvEntry ρ)} {key : String}

/-! ## Missing variables -/

theorem mem_missingFrom {satisfied : String → Bool} {seen : List String} :
    key ∈ (missingFrom satisfied seen entries).map (·.key) ↔
      key ∉ seen ∧ (∃ entry ∈ entries, entry.required = true ∧ entry.key = key) ∧
        satisfied key = false := by
  induction entries generalizing seen with
  | nil => simp [missingFrom]
  | cons entry entries ih =>
    rw [missingFrom]
    split
    next hskip =>
      rw [ih]
      refine and_congr_right fun hseen => and_congr_left fun _ => ?_
      rw [List.exists_mem_cons_iff, or_iff_right]
      rintro ⟨hrequired, rfl⟩
      rw [hrequired] at hskip
      exact hseen (of_decide_eq_true hskip)
    next hskip =>
      obtain ⟨hrequired, hseen⟩ : entry.required = true ∧ entry.key ∉ seen := by
        simpa using hskip
      by_cases hkey : key = entry.key
      · subst hkey
        split
        next hsatisfied => simp [ih, hsatisfied]
        next hsatisfied => simpa [hrequired, hseen] using hsatisfied
      · have hrest : key ∉ entry.key :: seen ↔ key ∉ seen := by simp [hkey]
        split
        · rw [ih, hrest]
          simp [Ne.symm hkey]
        · rw [List.map_cons, List.mem_cons, or_iff_right hkey, ih, hrest]
          simp [Ne.symm hkey]

/-- Nothing but the own keys differs between what `in` finds in a record and in an empty one. -/
theorem has_iff {record : Record} : record.has key = true ↔
    key ∈ record.map (·.1) ∨ key ∈ objectPrototypeKeys := by
  rw [Record.has, Bool.or_eq_true, decide_eq_true_eq, decide_eq_true_eq]

theorem mem_computeMissingEnvVars {provided existing : Record} {planned : List String} :
    key ∈ (computeMissingEnvVars entries provided [] existing planned).map (·.key) ↔
      (∃ entry ∈ entries, entry.required = true ∧ entry.key = key) ∧
        ¬(provided.has key = true ∨ key ∈ existing.map (·.1) ∨ key ∈ planned) := by
  rw [computeMissingEnvVars, mem_missingFrom, and_iff_right List.not_mem_nil]
  refine and_congr_right fun _ => ?_
  rw [← Bool.not_eq_true, Bool.or_eq_true, Bool.or_eq_true, Bool.or_eq_true, decide_eq_true_eq,
    has_iff, has_iff, has_iff, List.map_nil]
  have := @List.not_mem_nil _ key
  tauto

theorem mem_requiredEntries {env : PlanEnv ρ} :
    (∃ entry ∈ requiredEntries env, entry.required = true ∧ entry.key = key) ↔
      key ∈ env.required := by
  have hentry (key : String) : ((env.detected.find? fun entry => entry.key = key && entry.required).getD
      { key, source := "required", required := true }).required = true ∧
      ((env.detected.find? fun entry => entry.key = key && entry.required).getD
        { key, source := "required", required := true }).key = key := by
    cases hfound : env.detected.find? fun entry => entry.key = key && entry.required with
    | none => exact ⟨rfl, rfl⟩
    | some entry =>
      have hfound := List.find?_some hfound
      rw [Bool.and_eq_true, decide_eq_true_eq] at hfound
      exact hfound.symm
  simp only [requiredEntries, List.mem_map, exists_exists_and_eq_and, hentry, true_and,
    exists_eq_right]

theorem computePlanStatus_congr {missing missing' : List String} {services : List PlanService}
    {provided : Record} {issues : List EnvValueIssue} {traffic : Bool}
    (h : ∀ key, key ∈ missing ↔ key ∈ missing') :
    computePlanStatus missing services provided issues traffic =
      computePlanStatus missing' services provided issues traffic := by
  have hnil : missing = [] ↔ missing' = [] := by
    rw [List.eq_nil_iff_forall_not_mem, List.eq_nil_iff_forall_not_mem]
    exact forall_congr' fun key => not_congr (h key)
  rw [computePlanStatus, computePlanStatus, decide_eq_decide.mpr (not_congr hnil)]

/-! ## One update -/

theorem severalOf_eq_some {candidates : Option (List String)} {several : List String}
    (h : severalOf candidates = some several) : candidates = some several ∧ 1 < several.length := by
  obtain ⟨hcandidates, hlength⟩ := Option.filter_eq_some_iff.mp h
  exact ⟨hcandidates, of_decide_eq_true hlength⟩

/-- The traffic service is one of the candidates, of which there are several. -/
structure Consistent (build : PlanBuild) : Prop where
  several : ∀ candidates ∈ build.trafficServiceCandidates, 1 < candidates.length
  mem : ∀ candidates ∈ build.trafficServiceCandidates, ∀ name ∈ truthy build.trafficService,
    name ∈ candidates

/-- The traffic service is the same where there are several candidates. -/
structure SameTraffic (build build' : PlanBuild) : Prop where
  candidates : build'.trafficServiceCandidates = build.trafficServiceCandidates
  name : build.trafficServiceCandidates.isSome →
    truthy build'.trafficService = truthy build.trafficService

theorem SameTraffic.required {build build' : PlanBuild} (H : SameTraffic build build') :
    trafficServiceRequired build' = trafficServiceRequired build := by
  rw [trafficServiceRequired, trafficServiceRequired, H.candidates]
  cases hsome : build.trafficServiceCandidates with
  | none => rfl
  | some candidates => rw [H.name (hsome ▸ rfl)]

theorem SameTraffic.consistent {build build' : PlanBuild} (H : SameTraffic build build')
    (C : Consistent build) : Consistent build' where
  several candidates h := C.several candidates (H.candidates ▸ h)
  mem candidates h name hname := by
    have h : build.trafficServiceCandidates = some candidates := H.candidates ▸ h
    exact C.mem candidates h name (H.name (h ▸ rfl) ▸ hname)

theorem refreshCompose_ok (H : NoChange resolve plan updates) (C : Consistent plan.build)
    {config : ComposeConfig} {build : PlanBuild}
    (hrequested : (requestedSelection updates).isRequested = true)
    (hresolve : resolve (selectedCompose plan (requestedSelection updates)) = .ok config)
    (h : refreshCompose plan updates config = .ok build) : SameTraffic plan.build build := by
  have hcandidates := H.compose hrequested config hresolve
  have hretained : (updates.trafficService.or updates.build.trafficService).or
      plan.build.trafficService = plan.build.trafficService := by
    cases hupdate : updates.trafficService.or updates.build.trafficService with
    | none => rfl
    | some name => exact (H.traffic name hupdate).symm
  unfold refreshCompose at h
  dsimp only at h
  rw [hretained] at h
  split at h
  · exact nomatch h
  · obtain rfl := Except.ok.inj h
    refine ⟨hcandidates, fun hsome => ?_⟩
    obtain ⟨several, hseveral⟩ := Option.isSome_iff_exists.mp hsome
    obtain ⟨hlist, hlength⟩ := severalOf_eq_some (hcandidates.trans hseveral)
    obtain rfl := Option.some.inj hlist
    -- There are several candidates, so that none is chosen on its own.
    dsimp only
    cases hname : truthy plan.build.trafficService with
    | none => rw [Option.filter_none, if_neg (Nat.ne_of_gt hlength)]; rfl
    | some name =>
      have hmem := C.mem _ hseveral name hname
      rw [Option.filter_some, if_pos (decide_eq_true hmem)]
      have hne := (Option.filter_eq_some_iff.mp hname).2
      exact Option.filter_eq_some_iff.mpr ⟨rfl, hne⟩

theorem baseBuild_ok (H : NoChange resolve plan updates) (C : Consistent plan.build)
    {build : PlanBuild} (h : baseBuild plan updates resolve = .ok build) :
    SameTraffic plan.build (build.overlay { trafficService := updates.trafficService }) := by
  unfold baseBuild at h
  split at h
  next hrequested =>
    split at h
    · exact nomatch h
    obtain ⟨config, hconfig, h⟩ := bind_eq_ok.mp h
    obtain ⟨hcandidates, hname⟩ := refreshCompose_ok H C hrequested hconfig h
    refine ⟨hcandidates, fun hsome => ?_⟩
    cases hupdate : updates.trafficService with
    | none => exact hname hsome
    | some name =>
      have htraffic := H.traffic name (by rw [hupdate, Option.some_or]; rfl)
      rw [htraffic]
      rfl
  next =>
    obtain rfl := Except.ok.inj h
    constructor
    · change updates.build.trafficServiceCandidates.or plan.build.trafficServiceCandidates = _
      cases hupdate : updates.build.trafficServiceCandidates with
      | none => rfl
      | some candidates => exact (H.candidates candidates hupdate).symm
    · intro _
      change truthy (updates.trafficService.or
        (updates.build.trafficService.or plan.build.trafficService)) = _
      rw [← Option.or_assoc]
      cases hupdate : updates.trafficService.or updates.build.trafficService with
      | none => rfl
      | some name => rw [H.traffic name hupdate, Option.some_or]

theorem updateBuild_ok (H : NoChange resolve plan updates) (C : Consistent plan.build)
    {build : PlanBuild} (h : updateBuild plan updates resolve = .ok build) :
    SameTraffic plan.build build := by
  unfold updateBuild at h
  dsimp only at h
  split at h
  · exact nomatch h
  obtain ⟨base, hbase, h⟩ := bind_eq_ok.mp h
  obtain rfl := Except.ok.inj h
  obtain ⟨hcandidates, hname⟩ := baseBuild_ok H C hbase
  exact ⟨hcandidates, hname⟩

/-- Of the trusted keys only it matters which they are. -/
theorem validatePlanEnvValues_congr {trusted trusted' : List String} {provided : Record}
    (h : ∀ key, key ∈ trusted ↔ key ∈ trusted') :
    validatePlanEnvValues checks entries provided trusted =
      validatePlanEnvValues checks entries provided trusted' := by
  refine List.flatMap_congr fun entry _ => ?_
  dsimp only
  rw [decide_eq_decide.mpr (h entry.1)]

/-- What a plan that has been stored since it was created agrees with it in. -/
structure SameInputs (created plan : Plan ρ) : Prop where
  services : plan.services = created.services
  filtered : filterServicesWithExplicitEnv created.services created.env.provided = created.services
  provided : plan.env.provided = created.env.provided
  required : plan.env.required = created.env.required
  detected : plan.env.detected = created.env.detected
  trusted : ∀ key, key ∈ trustedEnvKeySet plan.env ↔ key ∈ trustedEnvKeySet created.env
  traffic : SameTraffic created.build plan.build
  consistent : Consistent created.build

theorem update_required (env : PlanEnv ρ) (update : Option EnvUpdate) :
    (env.update update).required = env.required ∧ (env.update update).detected = env.detected := by
  rcases update with _ | _ | _ <;> exact ⟨rfl, rfl⟩

/-- What an update without a change computes, which is not from what the plan says is missing. -/
theorem updatePlan_ok (H : SameInputs created plan) (hno : NoChange resolve plan updates)
    (h : updatePlan checks plan updates resolve = .ok updated) :
    SameInputs created updated ∧
      (∀ key, key ∈ updated.missing ↔ key ∈ created.env.required ∧
        ¬(created.env.provided.has key = true ∨
          key ∈ plannedServiceEnvKeys created.services)) ∧
      updated.status = computePlanStatus updated.missing created.services created.env.provided
        (validatePlanEnvValues checks created.env.detected created.env.provided
          (trustedEnvKeySet created.env)) (trafficServiceRequired created.build) := by
  unfold updatePlan at h
  split at h
  · exact nomatch h
  obtain ⟨build, hbuild, h⟩ := bind_eq_ok.mp h
  dsimp only at h
  split at h
  · exact nomatch h
  obtain rfl := Except.ok.inj h
  have hprovided : (plan.env.update updates.env).provided = created.env.provided :=
    hno.provided.trans H.provided
  obtain ⟨hrequired, hdetected⟩ := update_required plan.env updates.env
  have htrusted (key : String) : key ∈ trustedEnvKeySet (plan.env.update updates.env) ↔
      key ∈ trustedEnvKeySet created.env :=
    (hno.trusted key).trans (H.trusted key)
  have hservices : updates.services.getD (filterServicesWithExplicitEnv plan.services
      (plan.env.update updates.env).provided) = created.services := by
    rw [hprovided, H.services, H.filtered]
    cases hupdate : updates.services with
    | none => rfl
    | some services => exact (hno.services services hupdate).trans H.services
  have htraffic : SameTraffic created.build build := by
    have hstep := updateBuild_ok hno (H.traffic.consistent H.consistent) hbuild
    refine ⟨hstep.candidates.trans H.traffic.candidates, fun hsome => ?_⟩
    exact (hstep.name (H.traffic.candidates ▸ hsome)).trans (H.traffic.name hsome)
  refine ⟨⟨hservices, H.filtered, hprovided, hrequired.trans H.required, hdetected.trans H.detected,
    htrusted, htraffic, H.consistent⟩, fun key => ?_, ?_⟩
  · dsimp only
    rw [hservices, hprovided, buildAutoEnvVars, mem_computeMissingEnvVars, mem_requiredEntries,
      hrequired, H.required, List.map_nil, or_iff_right (List.not_mem_nil (a := key))]
  · dsimp only
    rw [hservices, hprovided, hdetected, H.detected, htraffic.required,
      validatePlanEnvValues_congr htrusted]

theorem sameInputs_of_stored (H : SameInputs created created)
    (h : Stored checks resolve created plan) : SameInputs created plan := by
  induction h with
  | created => exact H
  | updated _ hno hupdate ih => exact (updatePlan_ok ih hno hupdate).1

/-! ## The created plan -/

theorem sameInputs_refl (hfiltered : filterServicesWithExplicitEnv created.services
      created.env.provided = created.services) (hconsistent : Consistent created.build) :
    SameInputs created created where
  services := rfl
  filtered := hfiltered
  provided := rfl
  required := rfl
  detected := rfl
  trusted _ := Iff.rfl
  traffic := ⟨rfl, fun _ => rfl⟩
  consistent := hconsistent

theorem filterServicesWithExplicitEnv_idem (services : List PlanService) (providedEnv : Record) :
    filterServicesWithExplicitEnv (filterServicesWithExplicitEnv services providedEnv) providedEnv =
      filterServicesWithExplicitEnv services providedEnv :=
  List.filter_filter .. |>.trans (by simp [filterServicesWithExplicitEnv])

variable {world : World} {opts : CreatePlanOptions} {analysis : Except Error Analysis}
  {found : Analysis} {trafficService : Option String}

theorem getExistingTargetProject_ok {projectId project : Option String}
    (h : getExistingTargetProject world projectId = .ok project) : project = truthy projectId := by
  unfold getExistingTargetProject at h
  split at h
  next hnone => rw [hnone, Except.ok.inj h]
  next id hid =>
    split at h
    · rw [hid, Except.ok.inj h]
    · exact nomatch h

theorem createPlan_ok (h : createPlan checks world opts analysis = .ok created) :
    opts.isImage = true ∧ created = assembleImagePlan checks opts ∨
      opts.isImage = false ∧ ∃ found trafficService, analysis = .ok found ∧
        chooseTrafficService opts found = .ok trafficService ∧
        created = assemblePlan checks opts found (storedEnvVars world opts) trafficService := by
  unfold createPlan at h
  split at h
  · exact nomatch h
  split at h
  next himage =>
    obtain ⟨_, -, h⟩ := bind_eq_ok.mp h
    obtain ⟨_, -, h⟩ := bind_eq_ok.mp h
    obtain ⟨_, -, h⟩ := bind_eq_ok.mp h
    exact .inl ⟨himage, (Except.ok.inj h).symm⟩
  next himage =>
    split at h
    · exact nomatch h
    obtain ⟨targetProject, htarget, h⟩ := bind_eq_ok.mp h
    obtain ⟨attachTargetProject, hattach, h⟩ := bind_eq_ok.mp h
    obtain ⟨found, hfound, h⟩ := bind_eq_ok.mp h
    obtain ⟨trafficService, htraffic, h⟩ := bind_eq_ok.mp h
    obtain ⟨_, -, h⟩ := bind_eq_ok.mp h
    obtain rfl := getExistingTargetProject_ok htarget
    obtain rfl := getExistingTargetProject_ok hattach
    exact .inr ⟨Bool.not_eq_true _ ▸ himage, found, trafficService, hfound, htraffic,
      (Except.ok.inj h).symm⟩

theorem sameInputs_image : SameInputs (assembleImagePlan checks opts) (assembleImagePlan checks opts) :=
  sameInputs_refl rfl ⟨nofun, nofun⟩

theorem sameInputs_git (htraffic : chooseTrafficService opts found = .ok trafficService) :
    SameInputs (assemblePlan checks opts found existing trafficService)
      (assemblePlan checks opts found existing trafficService) := by
  refine sameInputs_refl (filterServicesWithExplicitEnv_idem _ _) ⟨fun candidates h => ?_, ?_⟩
  · exact (severalOf_eq_some h).2
  · intro candidates hcandidates name hname
    obtain ⟨hfound, hlength⟩ := severalOf_eq_some hcandidates
    change truthy trafficService = some name at hname
    unfold chooseTrafficService at htraffic
    split at htraffic
    · dsimp only at htraffic
      rw [hfound, Option.getD_some, if_neg (Nat.ne_of_gt hlength), Option.or_none] at htraffic
      split at htraffic
      next name' hname' =>
        split at htraffic
        next hmem =>
          obtain rfl := Except.ok.inj htraffic
          obtain rfl := Option.some.inj (Option.filter_eq_some_iff.mp hname).1
          exact hmem
        next => exact nomatch htraffic
      next hnone =>
        obtain rfl := Except.ok.inj htraffic
        exact nomatch hnone.symm.trans hname
    · obtain rfl := Except.ok.inj htraffic
      exact nomatch hname

theorem mem_required : key ∈ (assemblePlan checks opts found existing trafficService).env.required ↔
    ∃ entry ∈ detectedEnvWithServiceRequirements checks opts found,
      entry.required = true ∧ entry.key = key := by
  rw [assemblePlan]
  simp only [mem_foldl_insertLast, List.not_mem_nil, false_or, List.mem_map, List.mem_filter, and_assoc]

theorem mem_missing : key ∈ (assemblePlan checks opts found existing trafficService).missing ↔
    (∃ entry ∈ detectedEnvWithServiceRequirements checks opts found,
      entry.required = true ∧ entry.key = key) ∧
        ¬(opts.envVars.has key = true ∨ key ∈ existing.map (·.1) ∨
          key ∈ plannedServiceEnvKeys (plannedServices opts found)) :=
  mem_computeMissingEnvVars

theorem status_assemblePlan : (assemblePlan checks opts found existing trafficService).status =
    computePlanStatus (assemblePlan checks opts found existing trafficService).missing
      (plannedServices opts found) opts.envVars
      (validatePlanEnvValues checks (detectedEnvWithServiceRequirements checks opts found) opts.envVars [])
      (trafficServiceRequired (assemblePlan checks opts found existing trafficService).build) := by
  have hseveral : (1 < ((severalOf found.trafficServiceCandidates).getD []).length) ↔
      1 < (found.trafficServiceCandidates.getD []).length := by
    rw [severalOf]
    cases hcandidates : found.trafficServiceCandidates with
    | none => rfl
    | some candidates =>
      rw [Option.filter_some]
      split
      · rfl
      next hone =>
        rw [decide_eq_true_eq] at hone
        exact iff_of_false (Nat.not_lt_zero 1 ·) hone
  rw [trafficServiceRequired, assemblePlan]
  dsimp only
  rw [decide_eq_decide.mpr hseveral]

/-- An update without a change leaves the missing variables and the status as they were created exactly
when no required variable is there only because the target project has it stored. -/
theorem unchanged_iff (hcreate : createPlan checks world opts analysis = .ok created)
    (hstored : Stored checks resolve created plan) (hno : NoChange resolve plan updates)
    (hupdate : updatePlan checks plan updates resolve = .ok updated) :
    Unchanged created updated ↔ NoneOnlyStored checks world opts analysis := by
  rcases createPlan_ok hcreate with ⟨himage, rfl⟩ | ⟨himage, found, trafficService, rfl, htraffic, rfl⟩
  · obtain ⟨-, hmissing, hstatus⟩ :=
      updatePlan_ok (sameInputs_of_stored sameInputs_image hstored) hno hupdate
    have hnone : ∀ key, key ∈ updated.missing ↔ key ∈ ([] : List String) := fun key => by
      rw [hmissing]
      exact iff_of_false (fun h => nomatch h.1) nofun
    exact iff_of_true ⟨hnone, hstatus.trans (computePlanStatus_congr hnone)⟩ (.inl himage)
  · have hsame : SameInputs (assemblePlan checks opts _ (storedEnvVars world opts) _) _ :=
      sameInputs_git htraffic
    obtain ⟨-, hmissing, hstatus⟩ := updatePlan_ok (sameInputs_of_stored hsame hstored) hno hupdate
    simp only [mem_required] at hmissing
    have hstatus' : (∀ key, key ∈ updated.missing ↔ key ∈ (assemblePlan checks opts found
        (storedEnvVars world opts) trafficService).missing) →
        updated.status = (assemblePlan checks opts found (storedEnvVars world opts)
          trafficService).status := by
      intro h
      rw [hstatus, status_assemblePlan, computePlanStatus_congr h]
      rfl
    refine ⟨fun hunchanged => .inr ?_, fun hnone => ?_⟩
    · rintro _ hfound entry hentry hrequired hstored
      obtain rfl := Except.ok.inj hfound
      have hnot := mt (hunchanged.missing entry.key).mp fun h =>
        (mem_missing.mp h).2 (.inr (.inl hstored))
      rw [hmissing, not_and, not_not] at hnot
      exact hnot ⟨entry, hentry, hrequired, rfl⟩
    · have hmissing' : ∀ key, key ∈ updated.missing ↔ key ∈ (assemblePlan checks opts found
          (storedEnvVars world opts) trafficService).missing := by
        intro key
        rw [hmissing, mem_missing]
        refine and_congr_right ?_
        rintro ⟨entry, hentry, hrequired, rfl⟩
        have hgiven := (hnone.resolve_left (by rw [himage]; exact Bool.false_ne_true)) found rfl entry
          hentry hrequired
        refine not_congr ⟨fun h => h.imp_right .inr, ?_⟩
        rintro (h | h | h)
        · exact .inl h
        · exact hgiven h
        · exact .inr h
      exact ⟨hmissing', hstatus' hmissing'⟩

end

/-! ## An example -/

/-- The checks as they are for names that say nothing of the value, and values that are no
placeholders. -/
def noRequirements : EnvRequirements Unit where
  inferEnvValueRequirement _ := none
  mergeEnvValueRequirement _ requirement := requirement
  validateEnvValue _ _ _ _ _ := []

/-- The project `shop` has `REGION` stored. -/
def shopWorld : World where
  projects := ["shop"]
  getAll _ := [("REGION", "eu")]
  serviceNamesTaken _ := false

def shopOptions : CreatePlanOptions where
  repoUrl := some "git@host:shop.git"
  envVars := [("GREETING", "hello")]
  projectId := some "shop"

/-- The repository requires this variable. -/
def requires (key : String) : Analysis where
  isCompose := false
  detectedEnv := [⟨key, ".env.example", true⟩]
  detectedServices := []

def noCompose (_ : ComposeSelection) : Except Error ComposeConfig := .error .analysis

theorem noChange_empty (plan : Plan ρ) : NoChange noCompose plan {} where
  services _ h := nomatch h
  provided := rfl
  trusted _ := Iff.rfl
  traffic _ h := nomatch h
  candidates _ h := nomatch h
  compose h := nomatch h

theorem unchanged_greeting : ∃ created updated,
    createPlan noRequirements shopWorld shopOptions (.ok (requires "GREETING")) = .ok created ∧
      updatePlan noRequirements created {} noCompose = .ok updated ∧ Unchanged created updated := by
  obtain ⟨created, updated, hcreate, hupdate⟩ : ∃ created updated,
      createPlan noRequirements shopWorld shopOptions (.ok (requires "GREETING")) = .ok created ∧
        updatePlan noRequirements created {} noCompose = .ok updated :=
    ⟨_, _, rfl, rfl⟩
  refine ⟨created, updated, hcreate, hupdate,
    (unchanged_iff hcreate .created (noChange_empty _) hupdate).mpr (.inr ?_)⟩
  rintro _ hfound entry hentry -
  obtain rfl := Except.ok.inj hfound
  obtain rfl := List.mem_singleton.mp hentry
  exact fun _ => .inl (by decide)

/-- The variable that the project has stored is missing after the update. -/
theorem not_forall_unchanged : ¬∀ (ρ : Type) (checks : EnvRequirements ρ) (world : World)
    (opts : CreatePlanOptions) (analysis : Except Error Analysis)
    (resolve : ComposeSelection → Except Error ComposeConfig) (created updated : Plan ρ)
    (updates : PlanUpdates), createPlan checks world opts analysis = .ok created →
      NoChange resolve created updates →
      updatePlan checks created updates resolve = .ok updated → Unchanged created updated := by
  intro h
  have hunchanged := h Unit noRequirements shopWorld shopOptions (.ok (requires "REGION")) noCompose
    _ _ {} rfl (noChange_empty _) rfl
  exact absurd hunchanged.status (by decide)

end OpenLander.PlanUpdate
