import OpenLander.Monitor.ProjectStateManager
import OpenLander.Db.Services

/-! # Reconciliation with Docker

`ProjectStateManager.reconcileAll` (`src/monitor/project-state-manager.ts`) goes once through the projects with a
live canonical service, looks one container up for each, and moves the stored status when that container
runs or is missing. -/

namespace OpenLander.Reconcile
open ProjectStateManager
open Db.Services (ServiceKind isManagedKind)

/-- The `State` of a container. -/
inductive DockerState
  | created | running | paused | restarting | removing | exited | dead
  deriving DecidableEq, Repr

structure ContainerInfo where
  id : String
  name : String
  status : DockerState
  /-- The label `openlander.project`. -/
  project : Option String := none
  deriving DecidableEq, Repr

def ContainerInfo.Running (c : ContainerInfo) : Prop := c.status = .running

instance (c : ContainerInfo) : Decidable c.Running := inferInstanceAs (Decidable (c.status = .running))

structure ServiceRow where
  kind : ServiceKind
  status : Option ProjectStatus
  recoveringStartedAt : Option Nat := none
  containerId : Option String := none
  containerName : Option String := none
  archived : Bool := false
  deriving DecidableEq, Repr

structure ProjectRow where
  id : String
  name : String
  archived : Bool := false
  deriving DecidableEq, Repr

inductive EnvironmentStatus
  | running | stopped | building | error | idle
  deriving DecidableEq, Repr

structure EnvironmentRow where
  id : String
  serviceId : String
  status : Option EnvironmentStatus
  containerId : Option String
  deriving DecidableEq, Repr

/-- The tables, with services by their primary key. The latest update of a project comes first. -/
structure Database where
  projects : List ProjectRow
  services : String → Option ServiceRow
  environments : List EnvironmentRow
  nodup_projectIds : (projects.map (·.id)).Nodup

def projectIdToDeployableServiceId (projectId : String) : String := projectId ++ "__svc"

/-- JavaScript's reading of a nullable string as a condition. -/
def truthy (value : Option String) : Bool := value.any (· ≠ "")

namespace Database
variable (db : Database)

def getDeployableForProject (projectId : String) : Option ServiceRow :=
  db.services (projectIdToDeployableServiceId projectId)

def getProject (projectId : String) : Option ProjectRow := db.projects.find? (·.id = projectId)

/-- The status that `getProject` takes over from the canonical service. -/
def status (projectId : String) : Option ProjectStatus :=
  (db.getDeployableForProject projectId).bind (·.status)

/-- A project that `listRuntimeProjectsForReconciliation` selects. -/
def isRuntimeProject (project : ProjectRow) : Bool :=
  project.id ≠ "__orphan_managed" && !project.archived &&
    (db.getDeployableForProject project.id).any fun service =>
      !isManagedKind service.kind && !service.archived

def listRuntimeProjectsForReconciliation : List ProjectRow :=
  db.projects.filter db.isRuntimeProject

/-- The columns that `transition` writes, on the canonical service. -/
def updateProject (projectId : String) (update : Project) : Database :=
  { db with
    services := Function.update db.services (projectIdToDeployableServiceId projectId)
      ((db.getDeployableForProject projectId).map fun service =>
        { service with
          status := some update.status
          recoveringStartedAt := update.recoveringStartedAt }) }

def updateEnvironment (id : String) (status : EnvironmentStatus) : Database :=
  { db with
    environments := db.environments.map fun env =>
      if env.id = id then { env with status := some status } else env }

/-- What `transition` reads: a project without a status counts as a missing one. -/
def stored (projectId : String) : Option Project :=
  (db.getProject projectId).bind fun _ =>
    (db.getDeployableForProject projectId).bind fun service =>
      service.status.map fun status => ⟨status, service.recoveringStartedAt⟩

def transition (now : Nat) (projectId : String) (call : Call) : Database × Bool :=
  match call.check (db.stored projectId) with
  | some result => (db, result)
  | none => (db.updateProject projectId (call.update now), true)

end Database

/-! ## The index of the containers -/

/-- A `Map`, as what `get` returns. -/
abbrev ContainerIndex := String → Option ContainerInfo

def ContainerIndex.set (index : ContainerIndex) (key : String) (container : ContainerInfo) :
    ContainerIndex :=
  Function.update index key (some container)

def ContainerIndex.add (index : ContainerIndex) (container : ContainerInfo) : ContainerIndex :=
  let index := index.set ("id:" ++ container.id) container
  let index := match container.project with
    | some labeledProject =>
      if truthy (some labeledProject) then index.set ("project:" ++ labeledProject) container
      else index
    | none => index
  index.set ("name:" ++ container.name) container

def buildContainerIndex (containers : List ContainerInfo) : ContainerIndex :=
  containers.foldl ContainerIndex.add fun _ => none

def findProjectContainer (projectId projectName : String) (containerRef : Option String)
    (containers : ContainerIndex) : Option ContainerInfo :=
  let byRef :=
    match containerRef with
    | some ref =>
      if truthy (some ref) then (containers ("id:" ++ ref)).or (containers ("name:" ++ ref)) else none
    | none => none
  byRef.or ((containers ("project:" ++ projectName)).or (containers ("project:" ++ projectId)))

/-! ## Reconciliation -/

def containerRunning : Call := ⟨.running, "docker reconciliation: container is running", true⟩
def containerMissing : Call := ⟨.stopped, "docker reconciliation: container missing", true⟩

/-- `service.container_id → service.container_name → project.container_id`; what is read as the container of
the project is the service's too. -/
def projectContainerRef (deployable : Option ServiceRow) : Option String :=
  deployable.bind fun service =>
    if truthy service.containerId then service.containerId.or service.containerName
    else service.containerName.or service.containerId

namespace Database
variable (db : Database)

def reconcileProject (now : Nat) (index : ContainerIndex) (projectId : String) : Database × Bool :=
  match db.getProject projectId with
  | none => (db, false)
  | some project =>
    if project.archived then (db, false)
    else
      let deployable := db.getDeployableForProject project.id
      let projectStatus := deployable.bind (·.status)
      let container :=
        findProjectContainer project.id project.name (projectContainerRef deployable) index
      if container.any (·.Running) && projectStatus ≠ some .running then
        db.transition now project.id containerRunning
      else if container.isNone &&
          (projectStatus = some .running || projectStatus = some .building) then
        db.transition now project.id containerMissing
      else (db, false)

/-- The first loop of `reconcileAll`, with how many it reconciled. -/
def reconcileProjects (now : Nat) (index : ContainerIndex) :
    Database → List String → Database × Nat
  | db, [] => (db, 0)
  | db, projectId :: rest =>
    let (db, didReconcile) := db.reconcileProject now index projectId
    let (db, reconciled) := reconcileProjects now index db rest
    (db, reconciled + didReconcile.toNat)

/-- The environments of the projects, as they are read before the second loop. -/
def getEnvironmentsByProjectIds (projectIds : List String) : List EnvironmentRow :=
  projectIds.dedup.flatMap fun projectId =>
    db.environments.filter (·.serviceId = projectIdToDeployableServiceId projectId)

def reconcileStaleEnvironments (runningContainerIds : List String) :
    Database → List EnvironmentRow → Database × Nat
  | db, [] => (db, 0)
  | db, env :: rest =>
    if env.status = some .building then
      let isContainerRunning := env.containerId.any (· ∈ runningContainerIds)
      let db := db.updateEnvironment env.id (if isContainerRunning then .running else .stopped)
      let (db, count) := reconcileStaleEnvironments runningContainerIds db rest
      (db, count + 1)
    else reconcileStaleEnvironments runningContainerIds db rest

/-- The tables after `reconcileAll`, and its `reconciled`. -/
def reconcileAll (now : Nat) (containers : List ContainerInfo) : Database × Nat :=
  let projects := db.listRuntimeProjectsForReconciliation
  let (db, reconciled) :=
    reconcileProjects now (buildContainerIndex containers) db (projects.map (·.id))
  let runningContainerIds := (containers.filter (·.Running)).map (·.id)
  let environments := db.getEnvironmentsByProjectIds (projects.map (·.id))
  let (db, count) := reconcileStaleEnvironments runningContainerIds db environments
  (db, reconciled + count)

end Database

/-! ## What the index finds -/

/-- The keys under which a container is entered. -/
def ContainerInfo.keys (c : ContainerInfo) : List String :=
  ["id:" ++ c.id, "name:" ++ c.name] ++
    ((c.project.filter (truthy <| some ·)).map ("project:" ++ ·)).toList

/-- The last container of the list with the property. -/
def lastWith (p : ContainerInfo → Bool) (containers : List ContainerInfo) : Option ContainerInfo :=
  containers.reverse.find? p

theorem mem_of_lastWith (h : lastWith p containers = some c) : c ∈ containers ∧ p c = true :=
  ⟨List.mem_reverse.mp (List.mem_of_find?_eq_some h), List.find?_some h⟩

theorem lastWith_isSome : (lastWith p containers).isSome ↔ ∃ c ∈ containers, p c = true := by
  simp [lastWith]

theorem ContainerIndex.add_apply (index : ContainerIndex) (c : ContainerInfo) (key : String) :
    index.add c key = if key ∈ c.keys then some c else index key := by
  unfold ContainerIndex.add ContainerInfo.keys
  cases c.project with
  | none => simp only [set, Function.update_apply]; grind
  | some label =>
    by_cases hlabel : truthy (some label)
    · simp only [set, Function.update_apply, hlabel]; grind
    · simp only [set, Function.update_apply, hlabel]; grind

theorem foldl_add_apply (containers : List ContainerInfo) (index : ContainerIndex) (key : String) :
    containers.foldl ContainerIndex.add index key =
      (lastWith (key ∈ ·.keys) containers).or (index key) := by
  induction containers generalizing index with
  | nil => rfl
  | cons c rest ih =>
    rw [List.foldl_cons, ih, lastWith, lastWith, List.reverse_cons, List.find?_append,
      ContainerIndex.add_apply, Option.or_assoc]
    congr 1
    by_cases hkey : key ∈ c.keys <;> simp [hkey]

/-- Every key finds the last container that is entered under it. -/
theorem buildContainerIndex_apply (containers : List ContainerInfo) (key : String) :
    buildContainerIndex containers key = lastWith (key ∈ ·.keys) containers := by
  rw [buildContainerIndex, foldl_add_apply, Option.or_none]

section Keys
variable (c : ContainerInfo) (text : String)

theorem id_mem_keys : "id:" ++ text ∈ c.keys ↔ c.id = text := by
  have hname : "id:" ++ text ≠ "name:" ++ c.name := by
    simp [← String.toList_inj, String.toList_append]
  have hproject : ∀ label, "id:" ++ text ≠ "project:" ++ label := by
    simp [← String.toList_inj, String.toList_append]
  simp [ContainerInfo.keys, hname, hproject, eq_comm]

theorem name_mem_keys : "name:" ++ text ∈ c.keys ↔ c.name = text := by
  have hid : "name:" ++ text ≠ "id:" ++ c.id := by
    simp [← String.toList_inj, String.toList_append]
  have hproject : ∀ label, "name:" ++ text ≠ "project:" ++ label := by
    simp [← String.toList_inj, String.toList_append]
  simp [ContainerInfo.keys, hid, hproject, eq_comm]

theorem project_mem_keys :
    "project:" ++ text ∈ c.keys ↔ c.project = some text ∧ truthy (some text) = true := by
  have hid : "project:" ++ text ≠ "id:" ++ c.id := by
    simp [← String.toList_inj, String.toList_append]
  have hname : "project:" ++ text ≠ "name:" ++ c.name := by
    simp [← String.toList_inj, String.toList_append]
  simp [ContainerInfo.keys, hid, hname, Option.filter_eq_some_iff]

end Keys

/-- The container by which a project is reconciled: the last one with the recorded id, else the last one of that
name, else the last one labelled with the name of the project, else with its id. -/
def Database.deciding (db : Database) (containers : List ContainerInfo) (project : ProjectRow) :
    Option ContainerInfo :=
  let byRef := ((projectContainerRef (db.getDeployableForProject project.id)).filter
    (truthy <| some ·)).bind fun ref =>
      (lastWith (·.id = ref) containers).or (lastWith (·.name = ref) containers)
  let byLabel label :=
    lastWith (fun c => c.project = some label && truthy (some label)) containers
  byRef.or ((byLabel project.name).or (byLabel project.id))

theorem Database.findProjectContainer_eq (db : Database) (containers : List ContainerInfo)
    (project : ProjectRow) :
    findProjectContainer project.id project.name
        (projectContainerRef (db.getDeployableForProject project.id))
        (buildContainerIndex containers) =
      db.deciding containers project := by
  simp only [findProjectContainer, deciding, buildContainerIndex_apply, id_mem_keys, name_mem_keys,
    project_mem_keys, Bool.decide_and, Bool.decide_eq_true]
  cases projectContainerRef (db.getDeployableForProject project.id) with
  | none => rfl
  | some ref => by_cases href : truthy (some ref) = true <;> simp [href, Option.filter]

/-! ## One project -/

/-- The status after a project was reconciled by this container. A project without a status keeps none. -/
def settled (container : Option ContainerInfo) (status : Option ProjectStatus) :
    Option ProjectStatus :=
  match container with
  | some c => if c.Running then status.map fun _ => .running else status
  | none => if status = some .running ∨ status = some .building then some .stopped else status

theorem settled_settled (container : Option ContainerInfo) (status : Option ProjectStatus) :
    settled container (settled container status) = settled container status := by
  cases container with
  | some c => by_cases hc : c.Running <;> simp [settled, hc, Function.comp_def]
  | none =>
    by_cases hs : status = some .running ∨ status = some .building <;> simp [settled, hs]

/-- What reconciliation leaves of a row as it is. -/
def ServiceRow.record (service : ServiceRow) : ServiceRow :=
  { service with status := none, recoveringStartedAt := none }

/-- Only statuses differ. -/
structure Database.SameRecords (db db' : Database) : Prop where
  projects : db'.projects = db.projects
  services : ∀ id, (db'.services id).map ServiceRow.record = (db.services id).map ServiceRow.record

namespace Database.SameRecords
variable {db db' db'' : Database}

theorem refl (db : Database) : db.SameRecords db := ⟨rfl, fun _ => rfl⟩

theorem trans (H : db.SameRecords db') (H' : db'.SameRecords db'') : db.SameRecords db'' :=
  ⟨H'.projects.trans H.projects, fun id => (H'.services id).trans (H.services id)⟩

theorem updateProject (projectId : String) (update : Project) :
    db.SameRecords (db.updateProject projectId update) := by
  refine ⟨rfl, fun id => ?_⟩
  by_cases hid : id = projectIdToDeployableServiceId projectId
  · subst hid
    simp only [Database.updateProject, Function.update_self, Option.map_map]
    rfl
  · simp [Database.updateProject, Function.update_of_ne hid]

theorem updateEnvironment (id : String) (status : EnvironmentStatus) :
    db.SameRecords (db.updateEnvironment id status) := ⟨rfl, fun _ => rfl⟩

variable (H : db.SameRecords db')
include H

theorem getDeployable (projectId : String) :
    (db'.getDeployableForProject projectId).map ServiceRow.record =
      (db.getDeployableForProject projectId).map ServiceRow.record :=
  H.services _

theorem getProject (projectId : String) : db'.getProject projectId = db.getProject projectId := by
  rw [Database.getProject, H.projects, Database.getProject]

theorem isRuntimeProject (project : ProjectRow) :
    db'.isRuntimeProject project = db.isRuntimeProject project := by
  have h := H.getDeployable project.id
  unfold Database.isRuntimeProject
  cases h' : db'.getDeployableForProject project.id <;>
    cases h'' : db.getDeployableForProject project.id <;>
    simp_all [ServiceRow.record]

theorem listRuntimeProjects :
    db'.listRuntimeProjectsForReconciliation = db.listRuntimeProjectsForReconciliation := by
  unfold Database.listRuntimeProjectsForReconciliation
  rw [H.projects]
  exact List.filter_congr fun project _ => H.isRuntimeProject project

theorem containerRef (projectId : String) :
    projectContainerRef (db'.getDeployableForProject projectId) =
      projectContainerRef (db.getDeployableForProject projectId) := by
  have h := H.getDeployable projectId
  cases h' : db'.getDeployableForProject projectId <;>
    cases h'' : db.getDeployableForProject projectId <;>
    simp_all [ServiceRow.record, projectContainerRef]

theorem deciding (containers : List ContainerInfo) (project : ProjectRow) :
    db'.deciding containers project = db.deciding containers project := by
  rw [Database.deciding, H.containerRef, Database.deciding]

end Database.SameRecords

namespace Database
variable {db : Database} {now : Nat} {containers : List ContainerInfo} {project : ProjectRow}

theorem getDeployableForProject_updateProject (projectId : String) (update : Project)
    (other : String) :
    (db.updateProject projectId update).getDeployableForProject other =
      if other = projectId then
        (db.getDeployableForProject projectId).map fun service =>
          { service with
            status := some update.status
            recoveringStartedAt := update.recoveringStartedAt }
      else db.getDeployableForProject other := by
  have hid : projectIdToDeployableServiceId other = projectIdToDeployableServiceId projectId ↔
      other = projectId := by
    simp [projectIdToDeployableServiceId, ← String.toList_inj]
  simp only [getDeployableForProject, updateProject, Function.update_apply, hid]

theorem status_updateProject (projectId : String) (update : Project) (other : String)
    (h : (db.status projectId).isSome = true) :
    (db.updateProject projectId update).status other =
      if other = projectId then some update.status else db.status other := by
  unfold status at h ⊢
  rw [getDeployableForProject_updateProject]
  split
  · cases hservice : db.getDeployableForProject projectId with
    | none => simp [hservice] at h
    | some service => rfl
  · rfl

theorem getProject_of_mem (h : project ∈ db.projects) : db.getProject project.id = some project := by
  obtain ⟨found, hfound⟩ : ∃ found, db.getProject project.id = some found := by
    rw [← Option.isSome_iff_exists, getProject, List.find?_isSome]
    exact ⟨project, h, decide_eq_true rfl⟩
  have hmem := List.mem_of_find?_eq_some hfound
  have hid : found.id = project.id := of_decide_eq_true (List.find?_some hfound :)
  rw [hfound, List.inj_on_of_nodup_map db.nodup_projectIds hmem h hid]

/-- A reconciliation to another status is always allowed. -/
theorem transition_reconciliation {call : Call} (hcall : call.isAllowedReconciliationTarget = true)
    (hmem : project ∈ db.projects) (hstatus : db.status project.id ≠ some call.targetStatus) :
    db.transition now project.id call =
      if (db.status project.id).isSome then (db.updateProject project.id (call.update now), true)
      else (db, false) := by
  unfold status at hstatus ⊢
  unfold transition stored
  rw [getProject_of_mem hmem]
  cases hservice : db.getDeployableForProject project.id with
  | none => simp [Call.check]
  | some service =>
    cases hold : service.status with
    | none => simp [Call.check, hold]
    | some old =>
      have hne : old ≠ call.targetStatus := fun h => hstatus (by simp [hservice, hold, h])
      simp [Call.check, hold, hne, hcall]

/-- The result of reconciling one project by a container: its status is settled, nothing else changes, and a
status that is in order is not written. -/
structure ReconciledBy (db : Database) (projectId : String) (container : Option ContainerInfo)
    (result : Database × Bool) : Prop where
  same : db.SameRecords result.1
  environments : result.1.environments = db.environments
  status : ∀ other, result.1.status other =
    if other = projectId then settled container (db.status other) else db.status other
  quiet : settled container (db.status projectId) = db.status projectId → result = (db, false)

theorem ReconciledBy.refl {projectId : String} {container : Option ContainerInfo}
    (h : settled container (db.status projectId) = db.status projectId) :
    db.ReconciledBy projectId container (db, false) := by
  refine ⟨.refl db, rfl, fun other => ?_, fun _ => rfl⟩
  split
  · rename_i hother
    rw [hother, h]
  · rfl

theorem ReconciledBy.transition (call : Call) {container : Option ContainerInfo}
    (hcall : call.isAllowedReconciliationTarget = true) (hmem : project ∈ db.projects)
    (hne : db.status project.id ≠ some call.targetStatus)
    (hsettled : settled container (db.status project.id) =
      (db.status project.id).map fun _ => call.targetStatus) :
    db.ReconciledBy project.id container (db.transition now project.id call) := by
  rw [transition_reconciliation hcall hmem hne]
  cases hold : db.status project.id with
  | none => exact .refl (by rw [hsettled, hold, Option.map_none])
  | some old =>
    have hsome : (db.status project.id).isSome = true := by simp [hold]
    rw [hold, Option.map_some] at hsettled
    rw [if_pos (Option.isSome_some)]
    refine ⟨.updateProject _ _, rfl, fun other => ?_, fun h => ?_⟩
    · rw [status_updateProject _ _ _ hsome]
      split
      · rename_i hother
        rw [hother, hold, hsettled]
        rfl
      · rfl
    · rw [hold, hsettled] at h
      exact absurd (by rw [hold, ← h]) hne

/-- What `reconcileProject` does. -/
theorem reconcileProject_spec (hmem : project ∈ db.projects) (harchived : project.archived = false) :
    db.ReconciledBy project.id (db.deciding containers project)
      (db.reconcileProject now (buildContainerIndex containers) project.id) := by
  have hstatus : (db.getDeployableForProject project.id).bind (·.status) = db.status project.id := rfl
  simp only [reconcileProject, getProject_of_mem hmem, harchived, Bool.false_eq_true, if_false,
    findProjectContainer_eq, hstatus]
  cases db.deciding containers project with
  | some c =>
    by_cases hc : c.Running
    · by_cases hrunning : db.status project.id = some .running
      · simpa [hrunning] using ReconciledBy.refl (by simp [settled, hc, hrunning])
      · simpa [hc, hrunning] using ReconciledBy.transition containerRunning rfl hmem hrunning
          (by simp [settled, hc, containerRunning])
    · simpa [hc] using ReconciledBy.refl (by simp [settled, hc])
  | none =>
    by_cases hrunning : db.status project.id = some .running ∨ db.status project.id = some .building
    · have hne : db.status project.id ≠ some .stopped := by
        rcases hrunning with h | h <;> simp [h]
      have hsettled : settled none (db.status project.id) =
          (db.status project.id).map fun _ => ProjectStatus.stopped := by
        rcases hrunning with h | h <;> simp [settled, h]
      simpa [hrunning] using ReconciledBy.transition containerMissing rfl hmem hne hsettled
    · simpa [hrunning] using ReconciledBy.refl (by simp [settled, hrunning])

/-! ## The loops -/

/-- The projects, each settled by its deciding container. -/
theorem reconcileProjects_spec (now : Nat) (containers : List ContainerInfo)
    (projects : List ProjectRow) (db : Database)
    (hmem : ∀ project ∈ projects, project ∈ db.projects ∧ project.archived = false)
    (hnodup : (projects.map (·.id)).Nodup) :
    let result := reconcileProjects now (buildContainerIndex containers) db (projects.map (·.id))
    db.SameRecords result.1 ∧ result.1.environments = db.environments ∧
      (∀ project ∈ projects,
        result.1.status project.id =
          settled (db.deciding containers project) (db.status project.id)) ∧
      (∀ other ∉ projects.map (·.id), result.1.status other = db.status other) ∧
      ((∀ project ∈ projects,
        settled (db.deciding containers project) (db.status project.id) = db.status project.id) →
          result = (db, 0)) := by
  induction projects generalizing db with
  | nil => exact ⟨.refl db, rfl, fun _ h => (nomatch h), fun _ _ => rfl, fun _ => rfl⟩
  | cons project rest ih =>
    obtain ⟨hproject, harchived⟩ := hmem project (.head _)
    obtain ⟨hnotMem, hnodup⟩ := List.nodup_cons.mp hnodup
    have H := @reconcileProject_spec db now containers _ hproject harchived
    simp only [List.map_cons, reconcileProjects]
    generalize db.reconcileProject now (buildContainerIndex containers) project.id = first at H
    have hrest : ∀ other ∈ rest, other ∈ first.1.projects ∧ other.archived = false := by
      intro other hother
      rw [H.same.projects]
      exact hmem other (.tail _ hother)
    obtain ⟨hsame, henvs, hstatus, hothers, hquiet⟩ := ih first.1 hrest hnodup
    have hother : ∀ other ∈ rest, first.1.status other.id = db.status other.id := by
      intro other hmem
      have hne : other.id ≠ project.id := fun h => hnotMem (List.mem_map.mpr ⟨other, hmem, h⟩)
      rw [H.status, if_neg hne]
    refine ⟨H.same.trans hsame, henvs.trans H.environments, fun other hmem => ?_,
      fun other hnot => ?_, fun hsettled => ?_⟩
    · rcases List.mem_cons.mp hmem with rfl | hmem
      · rw [hothers _ hnotMem, H.status, if_pos rfl]
      · rw [hstatus other hmem, hother other hmem, H.same.deciding]
    · obtain ⟨hne, hnot⟩ := not_or.mp (mt List.mem_cons.mpr hnot)
      rw [hothers other hnot, H.status, if_neg hne]
    · obtain rfl := H.quiet (hsettled project (.head _))
      rw [hquiet fun other hmem => hsettled other (.tail _ hmem)]
      rfl

theorem mem_updateEnvironment {env : EnvironmentRow} {id : String} {status : EnvironmentStatus}
    (h : env ∈ (db.updateEnvironment id status).environments) (hne : status ≠ .building)
    (hbuilding : env.status = some .building) : env ∈ db.environments ∧ id ≠ env.id := by
  obtain ⟨old, hold, rfl⟩ := List.mem_map.mp h
  by_cases hid : old.id = id
  · rw [if_pos hid] at hbuilding
    exact absurd (Option.some.inj hbuilding) hne
  · rw [if_neg hid]
    exact ⟨hold, Ne.symm hid⟩

/-- Afterwards an environment is only building if none of its id was found building. -/
theorem reconcileStaleEnvironments_spec (ids : List String) (envs : List EnvironmentRow)
    (db : Database) :
    let result := reconcileStaleEnvironments ids db envs
    db.SameRecords result.1 ∧ (∀ projectId, result.1.status projectId = db.status projectId) ∧
      (∀ env ∈ result.1.environments, env.status = some .building →
        env ∈ db.environments ∧ ∀ found ∈ envs, found.status = some .building → found.id ≠ env.id) ∧
      ((∀ env ∈ envs, env.status ≠ some .building) → result = (db, 0)) := by
  induction envs generalizing db with
  | nil => exact ⟨.refl db, fun _ => rfl, fun env h _ => ⟨h, fun _ h => (nomatch h)⟩, fun _ => rfl⟩
  | cons env rest ih =>
    by_cases hbuilding : env.status = some .building
    · simp only [reconcileStaleEnvironments, hbuilding, if_true]
      obtain ⟨status, hne, hstatus⟩ : ∃ status : EnvironmentStatus, status ≠ .building ∧
          (if (env.containerId.any (· ∈ ids)) = true then
            EnvironmentStatus.running else .stopped) = status := by
        refine ⟨_, ?_, rfl⟩
        split <;> decide
      rw [hstatus]
      obtain ⟨hsame, hstatuses, hmem, -⟩ := ih (db.updateEnvironment env.id status)
      refine ⟨(SameRecords.updateEnvironment _ _).trans hsame, hstatuses, fun other hother hb => ?_,
        fun h => absurd hbuilding (h env (.head _))⟩
      obtain ⟨hin, hrest⟩ := hmem other hother hb
      obtain ⟨hin, hid⟩ := mem_updateEnvironment hin hne hb
      refine ⟨hin, fun found hfound hfb => ?_⟩
      rcases List.mem_cons.mp hfound with rfl | hfound
      · exact hid
      · exact hrest found hfound hfb
    · obtain ⟨hsame, hstatus, hmem, hquiet⟩ := ih db
      simp only [reconcileStaleEnvironments, hbuilding, if_false]
      refine ⟨hsame, hstatus, fun other hother hb => ?_, fun h => hquiet fun e he => h e (.tail _ he)⟩
      obtain ⟨hin, hne⟩ := hmem other hother hb
      refine ⟨hin, fun found hfound hfb => ?_⟩
      rcases List.mem_cons.mp hfound with rfl | hfound
      · exact absurd hfb hbuilding
      · exact hne found hfound hfb

theorem mem_listRuntimeProjects :
    project ∈ db.listRuntimeProjectsForReconciliation ↔
      project ∈ db.projects ∧ db.isRuntimeProject project = true := by
  rw [listRuntimeProjectsForReconciliation, List.mem_filter]

theorem isRuntimeProject_archived (h : db.isRuntimeProject project = true) :
    project.archived = false := by
  simp only [isRuntimeProject, Bool.and_eq_true, Bool.not_eq_true'] at h
  exact h.1.2

/-- The whole of `reconcileAll`: the runtime projects are settled and the others keep their status. -/
theorem reconcileAll_spec (now : Nat) (containers : List ContainerInfo) (db : Database) :
    let result := db.reconcileAll now containers
    db.SameRecords result.1 ∧
      (∀ project ∈ db.projects, result.1.status project.id =
        if db.isRuntimeProject project then
          settled (db.deciding containers project) (db.status project.id)
        else db.status project.id) ∧
      (∀ project ∈ db.listRuntimeProjectsForReconciliation, ∀ env ∈ result.1.environments,
        env.serviceId = projectIdToDeployableServiceId project.id → env.status ≠ some .building) ∧
      ((∀ project ∈ db.listRuntimeProjectsForReconciliation,
          settled (db.deciding containers project) (db.status project.id) = db.status project.id) →
        (∀ project ∈ db.listRuntimeProjectsForReconciliation, ∀ env ∈ db.environments,
          env.serviceId = projectIdToDeployableServiceId project.id → env.status ≠ some .building) →
        result = (db, 0)) := by
  have hmem : ∀ project ∈ db.listRuntimeProjectsForReconciliation,
      project ∈ db.projects ∧ project.archived = false := fun project h =>
    ⟨(mem_listRuntimeProjects.mp h).1, isRuntimeProject_archived (mem_listRuntimeProjects.mp h).2⟩
  have hnodup : (db.listRuntimeProjectsForReconciliation.map (·.id)).Nodup :=
    db.nodup_projectIds.sublist (List.filter_sublist.map _)
  obtain ⟨hsame, henvs, hstatus, hothers, hquiet⟩ :=
    reconcileProjects_spec now containers db.listRuntimeProjectsForReconciliation db hmem hnodup
  simp only [reconcileAll]
  generalize reconcileProjects now (buildContainerIndex containers) db
    (db.listRuntimeProjectsForReconciliation.map (·.id)) = first at *
  obtain ⟨hsame', hstatus', hbuilding, hquiet'⟩ := reconcileStaleEnvironments_spec
    ((containers.filter (·.Running)).map (·.id))
    (first.1.getEnvironmentsByProjectIds (db.listRuntimeProjectsForReconciliation.map (·.id))) first.1
  have hfound : ∀ env, env ∈ first.1.getEnvironmentsByProjectIds
      (db.listRuntimeProjectsForReconciliation.map (·.id)) ↔
      env ∈ db.environments ∧ ∃ project ∈ db.listRuntimeProjectsForReconciliation,
        env.serviceId = projectIdToDeployableServiceId project.id := by
    intro env
    simp only [getEnvironmentsByProjectIds, henvs, List.mem_flatMap, List.mem_dedup, List.mem_map,
      List.mem_filter, decide_eq_true_eq]
    grind
  refine ⟨hsame.trans hsame', fun project hproject => ?_, fun project hproject env henv hid hb => ?_,
    fun hsettled hclean => ?_⟩
  · rw [hstatus']
    split
    · rename_i hruntime
      exact hstatus project (mem_listRuntimeProjects.mpr ⟨hproject, hruntime⟩)
    · rename_i hruntime
      refine hothers project.id fun hlisted => hruntime ?_
      obtain ⟨other, hother, hid⟩ := List.mem_map.mp hlisted
      obtain ⟨hother, hruntime⟩ := mem_listRuntimeProjects.mp hother
      rwa [← List.inj_on_of_nodup_map db.nodup_projectIds hother hproject hid]
  · obtain ⟨hin, hne⟩ := hbuilding env henv hb
    exact hne env ((hfound env).mpr ⟨henvs ▸ hin, project, hproject, hid⟩) hb rfl
  · obtain rfl := hquiet hsettled
    have hnone : ∀ env ∈ db.getEnvironmentsByProjectIds
        (db.listRuntimeProjectsForReconciliation.map (·.id)), env.status ≠ some .building := by
      intro env henv
      obtain ⟨hin, project, hproject, hid⟩ := (hfound env).mp henv
      exact hclean project hproject env hin hid
    rw [hquiet' hnone]
    rfl

/-! ## Agreement with Docker -/

/-- The container is recorded for the project, or labelled with it. -/
def BelongsTo (db : Database) (c : ContainerInfo) (project : ProjectRow) : Prop :=
  c.project = some project.name ∨ c.project = some project.id ∨
    ∃ service ∈ db.getDeployableForProject project.id,
      service.containerId = some c.id ∨ service.containerName = some c.name

def HasRunning (db : Database) (containers : List ContainerInfo) (project : ProjectRow) : Prop :=
  ∃ c ∈ containers, c.Running ∧ db.BelongsTo c project

/-- Reconciliation makes the stored statuses agree with Docker. -/
structure Reconciles (now later : Nat) (containers : List ContainerInfo) (db : Database) : Prop where
  agrees : ∀ project ∈ db.projects, project.archived = false →
    (db.reconcileAll now containers).1.status project.id ≠ some .recovering →
    ((db.reconcileAll now containers).1.status project.id = some .running ↔
      (db.reconcileAll now containers).1.HasRunning containers project)
  /-- No project is decided by a container of another one. -/
  own : ∀ project ∈ db.listRuntimeProjectsForReconciliation, ∀ c,
    findProjectContainer project.id project.name
      (projectContainerRef (db.getDeployableForProject project.id))
      (buildContainerIndex containers) = some c →
    ∀ other ∈ db.projects, other ≠ project → ¬db.BelongsTo c other
  stable : (db.reconcileAll now containers).1.reconcileAll later containers =
    ((db.reconcileAll now containers).1, 0)

/-- When the deciding container of a project says whether the project runs. -/
def Decided (db : Database) (containers : List ContainerInfo) (project : ProjectRow) : Prop :=
  if db.isRuntimeProject project then
    (∀ c ∈ db.deciding containers project, ∀ other ∈ db.projects, other ≠ project →
      ¬db.BelongsTo c other) ∧
    match db.deciding containers project with
    | some c =>
      if c.Running then (db.status project.id).isSome ↔ db.HasRunning containers project
      else db.status project.id ≠ some .recovering →
        (db.status project.id = some .running ↔ db.HasRunning containers project)
    | none => db.status project.id ≠ some .recovering → ¬db.HasRunning containers project
  else
    db.status project.id ≠ some .recovering →
      (db.status project.id = some .running ↔ db.HasRunning containers project)

theorem SameRecords.belongsTo {db' : Database} (H : db.SameRecords db') (c : ContainerInfo)
    (project : ProjectRow) : db'.BelongsTo c project ↔ db.BelongsTo c project := by
  have h := H.getDeployable project.id
  unfold BelongsTo
  cases h' : db'.getDeployableForProject project.id <;>
    cases h'' : db.getDeployableForProject project.id <;>
    simp_all [ServiceRow.record]

theorem SameRecords.hasRunning {db' : Database} (H : db.SameRecords db')
    (containers : List ContainerInfo) (project : ProjectRow) :
    db'.HasRunning containers project ↔ db.HasRunning containers project := by
  simp only [HasRunning, H.belongsTo]

/-- A second `reconcileAll` on the same containers writes nothing. -/
theorem reconcileAll_stable (now later : Nat) (containers : List ContainerInfo) (db : Database) :
    (db.reconcileAll now containers).1.reconcileAll later containers =
      ((db.reconcileAll now containers).1, 0) := by
  obtain ⟨hsame, hstatus, hclean, -⟩ := reconcileAll_spec now containers db
  obtain ⟨-, -, -, hquiet⟩ := reconcileAll_spec later containers (db.reconcileAll now containers).1
  rw [hsame.listRuntimeProjects] at hquiet
  refine hquiet (fun project hproject => ?_) hclean
  obtain ⟨hmem, hruntime⟩ := mem_listRuntimeProjects.mp hproject
  rw [hstatus project hmem, if_pos hruntime, hsame.deciding, settled_settled]

/-- A reconciled status agrees with Docker exactly in the cases of `Decided`. -/
theorem settled_agrees_iff (container : Option ContainerInfo) (status : Option ProjectStatus)
    (running : Prop) :
    (settled container status ≠ some .recovering →
      (settled container status = some .running ↔ running)) ↔
    match container with
    | some c =>
      if c.Running then status.isSome ↔ running
      else status ≠ some .recovering → (status = some .running ↔ running)
    | none => status ≠ some .recovering → ¬running := by
  cases container with
  | some c =>
    by_cases hc : c.Running
    · cases status <;> simp [settled, hc]
    · simp [settled, hc]
  | none =>
    by_cases hs : status = some .running ∨ status = some .building
    · have hne : status ≠ some .recovering := by rcases hs with h | h <;> simp [h]
      simp [settled, hs, hne]
    · obtain ⟨hrunning, hbuilding⟩ := not_or.mp hs
      simp [settled, hrunning, hbuilding]

/-- Reconciliation makes the statuses agree with Docker if and only if every project that is not archived is
decided rightly: its deciding container belongs to no other project; if that one runs, the project has a running
container just when it has a status; if it does not run, or the project is not reconciled, the stored status is
right already; and without a deciding container the project has no running one. -/
theorem reconciles_iff (now later : Nat) (containers : List ContainerInfo) (db : Database) :
    db.Reconciles now later containers ↔
      ∀ project ∈ db.projects, project.archived = false → db.Decided containers project := by
  obtain ⟨hsame, hstatus, -, -⟩ := reconcileAll_spec now containers db
  constructor
  · intro H project hmem harchived
    have hagrees := H.agrees project hmem harchived
    rw [hstatus project hmem, hsame.hasRunning] at hagrees
    unfold Decided
    by_cases hruntime : db.isRuntimeProject project = true
    · rw [if_pos hruntime] at hagrees ⊢
      refine ⟨fun c hc => ?_, (settled_agrees_iff _ _ _).mp hagrees⟩
      have hown := H.own project (mem_listRuntimeProjects.mpr ⟨hmem, hruntime⟩) c
      rw [findProjectContainer_eq] at hown
      exact hown hc
    · rw [if_neg hruntime] at hagrees ⊢
      exact hagrees
  · intro H
    refine ⟨fun project hmem harchived => ?_, fun project hlisted c hc => ?_,
      reconcileAll_stable now later containers db⟩
    · have hdecided := H project hmem harchived
      rw [hstatus project hmem, hsame.hasRunning]
      unfold Decided at hdecided
      by_cases hruntime : db.isRuntimeProject project = true
      · rw [if_pos hruntime] at hdecided ⊢
        exact (settled_agrees_iff _ _ _).mpr hdecided.2
      · rw [if_neg hruntime] at hdecided ⊢
        exact hdecided
    · obtain ⟨hmem, hruntime⟩ := mem_listRuntimeProjects.mp hlisted
      have hdecided := H project hmem (isRuntimeProject_archived hruntime)
      rw [Decided, if_pos hruntime] at hdecided
      rw [findProjectContainer_eq] at hc
      exact hdecided.1 c hc

/-- A project that runs in the tables, whose only container has exited. -/
def exitedProject : Database where
  projects := [⟨"p", "shop", false⟩]
  services := Function.update (fun _ => none) "p__svc" (some {
    kind := .git, status := some .running, containerId := some "c1", containerName := some "ol-shop" })
  environments := []
  nodup_projectIds := List.nodup_singleton _

/-- The project stays `running` although its container has exited. -/
theorem not_reconciles_exitedProject :
    ¬exitedProject.Reconciles 1 2 [⟨"c1", "ol-shop", .exited, some "shop"⟩] := by
  intro H
  have hstatus : (exitedProject.reconcileAll 1 [⟨"c1", "ol-shop", .exited, some "shop"⟩]).1.status "p" =
      some .running := by decide
  have hagrees := H.agrees ⟨"p", "shop", false⟩ (.head _) rfl
  rw [hstatus] at hagrees
  obtain ⟨c, hc, hrunning, -⟩ := (hagrees (by decide)).mp rfl
  cases List.mem_singleton.mp hc
  exact absurd hrunning (by decide)

end Database

end OpenLander.Reconcile
