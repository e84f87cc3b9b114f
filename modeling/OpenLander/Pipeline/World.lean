import Mathlib.Data.Finset.Basic
import Mathlib.Logic.Function.Basic
import OpenLander.Theory.Prog
import OpenLander.Monitor.ProjectStateManager

/-! # What the operations of the deploy pipeline work on

The rows of the database, the containers and images of Docker, and the port reservations of
`src/pipeline/port.ts`, with the calls that the operations make on them. A call that the code awaits
takes as its first argument whether it resolves; one that rejects has no effect, except that a
container which Docker creates and cannot start stays. -/

namespace OpenLander.Pipeline
open Theory
open ProjectStateManager (ProjectStatus VALID_TRANSITIONS)

abbrev ContainerId := Nat

structure Container where
  id : ContainerId
  name : String
  /-- The host port that is bound to it. -/
  port : Nat
  running : Bool
  deriving DecidableEq, Repr

inductive ServiceKind
  | git | image | compose | composeChild | managed
  deriving DecidableEq, Repr

inductive ServiceSource
  | git | image
  deriving DecidableEq, Repr

structure ServiceRow where
  projectId : String
  kind : ServiceKind
  source : Option ServiceSource
  status : ProjectStatus
  containerId : Option ContainerId := none
  containerName : Option String := none
  assignedPort : Option Nat := none
  containerPort : Option Nat := none
  imageUrl : Option String := none
  imageTag : Option String := none
  previousImageTag : Option String := none
  healthCheckPath : Option String := none
  archivedAt : Option String := none
  deriving DecidableEq, Repr

inductive EnvironmentStatus
  | running | stopped | building | error | idle
  deriving DecidableEq, Repr

structure EnvironmentRow where
  status : EnvironmentStatus := .idle
  containerId : Option ContainerId := none
  assignedPort : Option Nat := none
  containerPort : Option Nat := none
  imageTag : Option String := none
  previousImageTag : Option String := none
  deriving DecidableEq, Repr

structure ProjectRow where
  name : String
  archivedAt : Option String := none
  deriving DecidableEq, Repr

structure World where
  containers : List Container := []
  /-- Docker mints the ids of containers, each once. -/
  nextContainerId : ContainerId := 0
  /-- The image that a reference resolves to. -/
  images : String → Option Nat := fun _ => none
  reservedPorts : Finset Nat := ∅
  projects : String → Option ProjectRow := fun _ => none
  services : String → Option ServiceRow := fun _ => none
  /-- The production environment of each project. -/
  environments : String → Option EnvironmentRow := fun _ => none
  /-- The environments of other types, by their ids, each with its project. -/
  otherEnvironments : String → Option (String × EnvironmentRow) := fun _ => none

/-- Why a call rejects, as far as the code asks. -/
inductive Failure
  | portConflict
  | portExhausted
  /-- `isDockerNotFoundError` -/
  | dockerNotFound
  /-- `isDockerBuildCancelledError` -/
  | buildCancelled
  | other
  deriving DecidableEq, Repr

/-- An `async` function. -/
abbrev Async := Prog World Failure

/-- What a probe says. -/
inductive Probe
  | passes | fails | rejects
  deriving DecidableEq, Repr

/-- A call that resolves or rejects. -/
def await (resolves : Bool) (effect : World → World := id) : Async Unit :=
  if resolves then .modify effect else throw .other

@[simp] theorem run_await_true (effect : World → World) (w : World) :
    (await true effect).run w = (.ok (), effect w) := rfl

@[simp] theorem run_await_false (effect : World → World) (w : World) :
    (await false effect).run w = (.error .other, w) := rfl

theorem run_await_bind (resolves : Bool) (effect : World → World) (k : Unit → Async α) (w : World) :
    (await resolves effect >>= k).run w =
      if resolves then (k ()).run (effect w) else (.error .other, w) := by
  cases resolves <;> rfl

/-- What is proved of a program that awaits a call without an effect. -/
theorem ends_await_bind {Q : Except Failure α → World → Prop} {k : Unit → Async α}
    (resolves : Bool) (herror : Q (.error .other) w)
    (hk : resolves = true → (k ()).Ends w Q) : (await resolves >>= k).Ends w Q := by
  cases resolves with
  | true => exact hk rfl
  | false => exact herror

/-- A call that rejects with the failure, if there is one. -/
def call (failure : Option Failure) (effect : World → World := id) : Async Unit :=
  match failure with
  | none => .modify effect
  | some failure => throw failure

/-- Calls one after another that change nothing, up to the first that rejects. -/
def awaitAll : List Bool → Async Unit
  | [] => pure ()
  | resolves :: calls => do
    await resolves
    awaitAll calls

theorem run_awaitAll (calls : List Bool) (w : World) :
    (awaitAll calls).run w = if calls.all id then (.ok (), w) else (.error .other, w) := by
  induction calls with
  | nil => rfl
  | cons resolves calls ih =>
    rw [awaitAll, run_await_bind]
    cases resolves with
    | false => rfl
    | true => exact ih

theorem run_awaitAll_bind (calls : List Bool) (k : Unit → Async α) (w : World) :
    (awaitAll calls >>= k).run w =
      if calls.all id then (k ()).run w else (.error .other, w) := by
  rw [Prog.run_bind, run_awaitAll]
  cases calls.all id <;> rfl

/-! ## Rows -/

def DEPLOYABLE_SERVICE_SUFFIX : String := "__svc"

def projectIdToDeployableServiceId (projectId : String) : String :=
  if DEPLOYABLE_SERVICE_SUFFIX.toList.isSuffixOf projectId.toList then projectId
  else projectId ++ DEPLOYABLE_SERVICE_SUFFIX

def deployableServiceIdToProjectId (serviceId : String) : String :=
  if DEPLOYABLE_SERVICE_SUFFIX.toList.isSuffixOf serviceId.toList then
    .ofList (serviceId.toList.take (serviceId.length - DEPLOYABLE_SERVICE_SUFFIX.length))
  else serviceId

/-- A project as `getProject` reads it: its row, hydrated by its canonical service row. -/
structure Project extends ProjectRow where
  id : String
  deployable : Option ServiceRow
  deriving DecidableEq, Repr

def World.getProject (w : World) (projectId : String) : Option Project :=
  (w.projects projectId).map
    (⟨·, projectId, w.services (projectIdToDeployableServiceId projectId)⟩)

theorem deployable_of_getProject {w : World} (h : w.getProject projectId = some project) :
    project.deployable = w.services (projectIdToDeployableServiceId projectId) := by
  obtain ⟨row, -, rfl⟩ := Option.map_eq_some_iff.mp h
  rfl

def Project.status (project : Project) : Option ProjectStatus := project.deployable.map (·.status)

/-- The columns of a service, those that are null taken from the project. -/
structure ServiceView where
  kind : Option ServiceKind
  /-- `idle` if neither row has one. -/
  status : Option ProjectStatus
  source : Option ServiceSource
  containerId : Option ContainerId
  containerName : Option String
  assignedPort : Option Nat
  containerPort : Option Nat
  imageUrl : Option String
  imageTag : Option String
  previousImageTag : Option String
  healthCheckPath : Option String
  deriving DecidableEq, Repr

def serviceViewFromRows (project : Project) (service : Option ServiceRow) : ServiceView :=
  let column {α : Type} (f : ServiceRow → Option α) : Option α :=
    (service.bind f).or (project.deployable.bind f)
  { kind := service.map (·.kind)
    status := column (some ·.status)
    source := column (·.source)
    containerId := column (·.containerId)
    containerName := service.bind (·.containerName)
    assignedPort := column (·.assignedPort)
    containerPort := column (·.containerPort)
    imageUrl := column (·.imageUrl)
    imageTag := column (·.imageTag)
    previousImageTag := column (·.previousImageTag)
    healthCheckPath := column (·.healthCheckPath) }

/-- What `trim` removes. -/
def isWhitespace (c : Char) : Bool :=
  c ∈ ['\t', '\n', '\x0b', '\x0c', '\r', ' ', '\u00a0', '\u1680', '\u2028', '\u2029', '\u202f',
    '\u205f', '\u3000', '\ufeff'] || ('\u2000' ≤ c && c ≤ '\u200a')

def explicitHealthCheckPath (view : ServiceView) (override : Option String) : Option String :=
  ([override, view.healthCheckPath].findSome? fun candidate =>
    candidate.filter fun path => !path.toList.all isWhitespace).map fun found =>
      if found.toList.head? = some '/' then found else "/" ++ found

def World.updateService (w : World) (serviceId : String) (f : ServiceRow → ServiceRow) : World :=
  { w with services := Function.update w.services serviceId ((w.services serviceId).map f) }

/-- The columns of a deployable are those of its canonical service row. -/
def World.updateProject (w : World) (projectId : String) (f : ServiceRow → ServiceRow) : World :=
  w.updateService (projectIdToDeployableServiceId projectId) f

def World.updateEnvironment (w : World) (projectId : String)
    (f : EnvironmentRow → EnvironmentRow) : World :=
  { w with environments :=
      Function.update w.environments projectId ((w.environments projectId).map f) }

/-- An environment: that of production, or another one by its id. -/
inductive EnvironmentRef
  | production (projectId : String)
  | other (environmentId : String)
  deriving DecidableEq, Repr

/-- The environment, with its project. -/
def World.getEnvironment (w : World) : EnvironmentRef → Option (String × EnvironmentRow)
  | .production projectId => (w.environments projectId).map (projectId, ·)
  | .other environmentId => w.otherEnvironments environmentId

def World.updateEnvironmentAt (w : World) (f : EnvironmentRow → EnvironmentRow) :
    EnvironmentRef → World
  | .production projectId => w.updateEnvironment projectId f
  | .other environmentId =>
    { w with
      otherEnvironments := Function.update w.otherEnvironments environmentId
        ((w.otherEnvironments environmentId).map fun environment =>
          (environment.1, f environment.2)) }

def World.setStatus (w : World) (projectId : String) (status : ProjectStatus) : World :=
  w.updateProject projectId ({ · with status })

def updateService (resolves : Bool) (serviceId : String) (f : ServiceRow → ServiceRow) :
    Async Unit :=
  await resolves (·.updateService serviceId f)

def updateProject (resolves : Bool) (projectId : String) (f : ServiceRow → ServiceRow) :
    Async Unit :=
  await resolves (·.updateProject projectId f)

def updateEnvironment (resolves : Bool) (projectId : String)
    (f : EnvironmentRow → EnvironmentRow) : Async Unit :=
  await resolves (·.updateEnvironment projectId f)

/-- `ProjectStateManager.transition` would write the status: the table allows it from the one that
the project has, which is another one. -/
def World.allows (w : World) (projectId : String) (targetStatus : ProjectStatus) : Bool :=
  match (w.getProject projectId).bind (·.status) with
  | none => false
  | some currentStatus =>
    currentStatus ≠ targetStatus ∧ targetStatus ∈ VALID_TRANSITIONS currentStatus

structure TransitionCalls where
  getProject : Bool := true
  updateProject : Bool := true
  deriving DecidableEq, Repr

/-- `ProjectStateManager.transition`: a status that the table does not allow is ignored. -/
def transition (c : TransitionCalls) (projectId : String) (targetStatus : ProjectStatus) :
    Async Unit := do
  await c.getProject
  if ← .read (·.allows projectId targetStatus) then
    await c.updateProject (·.setStatus projectId targetStatus)

def TransitionCalls.resolves (c : TransitionCalls) (w : World) (projectId : String)
    (targetStatus : ProjectStatus) : Bool :=
  c.getProject && (!w.allows projectId targetStatus || c.updateProject)

def World.transitioned (w : World) (projectId : String) (targetStatus : ProjectStatus) : World :=
  if w.allows projectId targetStatus then w.setStatus projectId targetStatus else w

/-- The status that a call of `transition` leaves, given the one it finds; none if it rejects. -/
def TransitionCalls.moves (c : TransitionCalls) (targetStatus status : ProjectStatus) :
    Option ProjectStatus :=
  if !c.getProject then none
  else if status = targetStatus ∨ targetStatus ∉ VALID_TRANSITIONS status then some status
  else if c.updateProject then some targetStatus
  else none

theorem run_transition (c : TransitionCalls) (w : World) (projectId : String)
    (targetStatus : ProjectStatus) :
    (transition c projectId targetStatus).run w =
      if c.resolves w projectId targetStatus then (.ok (), w.transitioned projectId targetStatus)
      else (.error .other, w) := by
  obtain ⟨getProject, updateProject'⟩ := c
  cases getProject <;> cases h : w.allows projectId targetStatus <;> cases updateProject' <;>
    simp [transition, run_await_bind, TransitionCalls.resolves, World.transitioned, h]

theorem TransitionCalls.moves_of_drops (c : TransitionCalls) {targetStatus status : ProjectStatus}
    (h : targetStatus ∉ VALID_TRANSITIONS status) :
    c.moves targetStatus status = if c.getProject then some status else none := by
  unfold TransitionCalls.moves
  cases c.getProject <;> simp [h]

theorem TransitionCalls.moves_of_allows (c : TransitionCalls) (targetStatus status : ProjectStatus)
    (hne : status ≠ targetStatus) (h : targetStatus ∈ VALID_TRANSITIONS status) :
    c.moves targetStatus status =
      if c.getProject && c.updateProject then some targetStatus else none := by
  unfold TransitionCalls.moves
  cases c.getProject <;> cases c.updateProject <;> simp [h, hne]

theorem run_transition_of_status {w : World} {status : ProjectStatus} (c : TransitionCalls)
    (targetStatus : ProjectStatus)
    (h : (w.getProject projectId).bind (·.status) = some status) :
    (transition c projectId targetStatus).run w =
      match c.moves targetStatus status with
      | none => (.error .other, w)
      | some moved => (.ok (), if moved = status then w else w.setStatus projectId moved) := by
  have hallows : w.allows projectId targetStatus =
      decide (status ≠ targetStatus ∧ targetStatus ∈ VALID_TRANSITIONS status) := by
    simp [World.allows, h]
  rw [run_transition, TransitionCalls.resolves, World.transitioned, hallows]
  unfold TransitionCalls.moves
  by_cases hsame : status = targetStatus ∨ targetStatus ∉ VALID_TRANSITIONS status
  · have hdrop : ¬(status ≠ targetStatus ∧ targetStatus ∈ VALID_TRANSITIONS status) := by tauto
    cases c.getProject <;> simp [hsame, hdrop]
  · have hallow : status ≠ targetStatus ∧ targetStatus ∈ VALID_TRANSITIONS status := by tauto
    cases c.getProject <;> cases c.updateProject <;> simp [hallow, hallow.1.symm]

theorem keeps_await {I : World → Prop} {effect : World → World} (resolves : Bool)
    (h : ∀ w, I w → I (effect w)) : Prog.Keeps I (await resolves effect) := by
  cases resolves with
  | false => exact .ret _
  | true => exact .step h fun _ => .ret _

theorem keeps_transition {I : World → Prop} (c : TransitionCalls)
    (h : ∀ w, I w → I (w.setStatus projectId targetStatus)) :
    Prog.Keeps I (transition c projectId targetStatus) := by
  refine .bind (keeps_await _ fun _ hw => hw) fun _ => .bind (.read _) fun allowed => ?_
  cases allowed with
  | false => exact .ret _
  | true => exact keeps_await _ h

/-- The container that the row of a service names. -/
def World.recordedContainer (w : World) (serviceId : String) : Option ContainerId :=
  (w.services serviceId).bind (·.containerId)

section
variable {w : World} {f : ServiceRow → ServiceRow} {g : EnvironmentRow → EnvironmentRow}

@[simp] theorem updateService_containers :
    (w.updateService serviceId f).containers = w.containers := rfl

@[simp] theorem updateProject_containers :
    (w.updateProject projectId f).containers = w.containers := rfl

@[simp] theorem updateEnvironment_containers :
    (w.updateEnvironment projectId g).containers = w.containers := rfl

@[simp] theorem updateEnvironment_services :
    (w.updateEnvironment projectId g).services = w.services := rfl

/-- What is allowed depends on the statuses alone. -/
theorem allows_updateService {f' : ServiceRow → ServiceRow}
    (h : ∀ row, (f row).status = (f' row).status) :
    (w.updateService serviceId f).allows projectId targetStatus =
      (w.updateService serviceId f').allows projectId targetStatus := by
  simp only [World.allows, World.getProject, World.updateService, Project.status]
  cases w.projects projectId with
  | none => rfl
  | some project =>
    by_cases hid : projectIdToDeployableServiceId projectId = serviceId
    · subst hid
      cases w.services (projectIdToDeployableServiceId projectId) <;> simp [h]
    · simp [hid]

@[simp] theorem transitioned_containers :
    (w.transitioned projectId targetStatus).containers = w.containers := by
  unfold World.transitioned
  split <;> rfl

@[simp] theorem updateEnvironment_recordedContainer :
    (w.updateEnvironment projectId g).recordedContainer serviceId =
      w.recordedContainer serviceId := rfl

theorem updateService_recordedContainer :
    (w.updateService serviceId f).recordedContainer serviceId =
      (w.services serviceId).bind fun row => (f row).containerId := by
  simp [World.recordedContainer, World.updateService, Option.bind_map]

theorem updateService_recordedContainer_of_ne (h : serviceId' ≠ serviceId) :
    (w.updateService serviceId f).recordedContainer serviceId' =
      w.recordedContainer serviceId' := by
  simp [World.recordedContainer, World.updateService, h]

/-- An update that leaves the container column leaves every recorded container. -/
theorem updateService_recordedContainer_of_keeps
    (hf : ∀ row, (f row).containerId = row.containerId) :
    (w.updateService serviceId' f).recordedContainer serviceId = w.recordedContainer serviceId := by
  by_cases h : serviceId = serviceId'
  · subst h
    simp only [updateService_recordedContainer, hf]
    rfl
  · exact updateService_recordedContainer_of_ne h

/-- An update that writes the container which is recorded anyway. -/
theorem updateService_recordedContainer_of_eq {recorded : Option ContainerId}
    (hf : ∀ row, (f row).containerId = recorded) (h : w.recordedContainer serviceId = recorded) :
    (w.updateService serviceId' f).recordedContainer serviceId = recorded := by
  by_cases hid : serviceId = serviceId'
  · subst hid
    rw [updateService_recordedContainer]
    cases hrow : w.services serviceId with
    | none => rw [← h, World.recordedContainer, hrow, Option.bind_none, Option.bind_none]
    | some row => rw [Option.bind_some, hf]
  · exact (updateService_recordedContainer_of_ne hid).trans h

@[simp] theorem setStatus_recordedContainer :
    (w.setStatus projectId status).recordedContainer serviceId = w.recordedContainer serviceId :=
  updateService_recordedContainer_of_keeps fun _ => rfl

@[simp] theorem transitioned_recordedContainer :
    (w.transitioned projectId targetStatus).recordedContainer serviceId =
      w.recordedContainer serviceId := by
  unfold World.transitioned
  split
  · exact setStatus_recordedContainer
  · rfl

end

/-! ## Docker -/

/-- What the code passes to Docker to name a container. -/
inductive ContainerRef
  | id (containerId : ContainerId)
  | name (containerName : String)
  deriving DecidableEq, Repr

def Container.answersTo (c : Container) : ContainerRef → Bool
  | .id containerId => c.id = containerId
  | .name containerName => c.name = containerName

def World.createContainer (w : World) (name : String) (port : Nat) : World :=
  { w with
    containers := ⟨w.nextContainerId, name, port, false⟩ :: w.containers
    nextContainerId := w.nextContainerId + 1 }

def World.removeContainer (w : World) (ref : ContainerRef) : World :=
  { w with containers := w.containers.filter (!·.answersTo ref) }

def World.setRunning (w : World) (containerId : ContainerId) (running : Bool) : World :=
  { w with containers :=
      w.containers.map fun c => if c.id = containerId then { c with running } else c }

def World.renameContainer (w : World) (containerId : ContainerId) (name : String) : World :=
  { w with containers :=
      w.containers.map fun c => if c.id = containerId then { c with name } else c }

/-- What `runContainer` does: Docker creates the container, then starts it. -/
inductive RunOutcome
  | runs
  | createFails (failure : Failure)
  | startFails (failure : Failure)
  deriving DecidableEq, Repr

def World.nameTaken (w : World) (name : String) : Bool := w.containers.any (·.name = name)

/-- Docker refuses to create a container under a name that is taken. -/
def runContainer (outcome : RunOutcome) (name : String) (port : Nat) : Async ContainerId := do
  if let .createFails failure := outcome then throw failure
  let containerId ← .step
    (fun w => if w.nameTaken name then w else w.createContainer name port)
    fun w => if w.nameTaken name then throw .other else pure w.nextContainerId
  if let .startFails failure := outcome then throw failure
  .modify (·.setRunning containerId true)
  return containerId

theorem run_runContainer (outcome : RunOutcome) (port : Nat) (h : w.nameTaken name = false) :
    (runContainer outcome name port).run w =
      match outcome with
      | .runs =>
        (.ok w.nextContainerId, (w.createContainer name port).setRunning w.nextContainerId true)
      | .createFails failure => (.error failure, w)
      | .startFails failure => (.error failure, w.createContainer name port) := by
  cases outcome <;> simp [runContainer, h]

theorem run_runContainer_taken (outcome : RunOutcome) (port : Nat) (h : w.nameTaken name = true) :
    ∃ failure, (runContainer outcome name port).run w = (.error failure, w) := by
  cases outcome with
  | createFails failure => exact ⟨failure, rfl⟩
  | runs | startFails => exact ⟨.other, by simp [runContainer, h]⟩

def safeRemoveContainer (resolves : Bool) (ref : ContainerRef) : Async Unit :=
  await resolves (·.removeContainer ref)

/-- A removal whose failure is logged. -/
@[simp] theorem run_settle_safeRemoveContainer (resolves : Bool) (ref : ContainerRef) (w : World) :
    (safeRemoveContainer resolves ref).settle.run w =
      (.ok (), if resolves then w.removeContainer ref else w) := by
  cases resolves <;> simp [safeRemoveContainer]

def World.findContainer (w : World) (containerId : ContainerId) : Option Container :=
  w.containers.find? (·.id = containerId)

/-- Start or stop a container; Docker rejects if there is none. -/
def changeRunning (resolves : Bool) (containerId : ContainerId) (running : Bool) : Async Unit := do
  await resolves
  if (← .read (·.findContainer containerId)).isNone then throw .dockerNotFound
  .modify (·.setRunning containerId running)

theorem run_changeRunning (resolves : Bool) (containerId : ContainerId) (running : Bool)
    (w : World) :
    (changeRunning resolves containerId running).run w =
      if !resolves then (.error .other, w)
      else match w.findContainer containerId with
        | none => (.error .dockerNotFound, w)
        | some _ => (.ok (), w.setRunning containerId running) := by
  rw [changeRunning, run_await_bind]
  cases resolves with
  | false => rfl
  | true =>
    rw [if_pos rfl, Prog.run_read_bind, id]
    cases w.findContainer containerId <;> rfl

def startContainer (resolves : Bool) (containerId : ContainerId) : Async Unit :=
  changeRunning resolves containerId true

def stopContainer (resolves : Bool) (containerId : ContainerId) : Async Unit :=
  changeRunning resolves containerId false

def restartContainer (resolves : Bool) (containerId : ContainerId) : Async Unit :=
  changeRunning resolves containerId true

/-- `State.Running` of the container. -/
def inspectContainer (resolves : Bool) (containerId : ContainerId) : Async Bool := do
  await resolves
  match ← .read (·.findContainer containerId) with
  | none => throw .dockerNotFound
  | some container => return container.running

/-- The container is there. -/
def World.Stands (w : World) (containerId : Option ContainerId) : Prop :=
  ∀ id, containerId = some id → ∃ container ∈ w.containers, container.id = id

/-- The ids in use have been minted. -/
structure World.Minted (w : World) : Prop where
  containers : ∀ container ∈ w.containers, container.id < w.nextContainerId
  recorded : ∀ serviceId id, w.recordedContainer serviceId = some id → id < w.nextContainerId

/-- The container of a view is recorded by one of the rows it is made of. -/
theorem World.Minted.view {w : World} {containerId : ContainerId} (hw : w.Minted)
    (hservice : w.services serviceId = service)
    (hproject : w.getProject projectId = some project)
    (h : (serviceViewFromRows project service).containerId = some containerId) :
    containerId < w.nextContainerId := by
  rcases Option.or_eq_some_iff.mp h with h | ⟨-, h⟩
  · exact hw.recorded serviceId containerId (by rw [World.recordedContainer, hservice, h])
  · rw [deployable_of_getProject hproject] at h
    exact hw.recorded _ containerId h

theorem World.Minted.setRunning_createContainer {w : World} (h : w.Minted) :
    ((w.createContainer name port).setRunning w.nextContainerId running).containers =
      ⟨w.nextContainerId, name, port, running⟩ :: w.containers := by
  simp only [World.setRunning, World.createContainer, List.map_cons, if_true, List.cons.injEq,
    true_and]
  refine (List.map_congr_left fun container hmem => ?_).trans (List.map_id _)
  exact if_neg (h.containers container hmem).ne

end OpenLander.Pipeline
