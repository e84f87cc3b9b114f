import OpenLander.Pipeline.PreservedContainer

/-! # Archive and restore of whole stacks and groups

`archive`, `archiveGroup` and `unarchiveGroup` of `src/pipeline/deploy/lifecycle.ts`. What a restore
brings back is told by a marker, the time of the archive that is written to every row it takes down,
one service after another. -/

namespace OpenLander.Pipeline.Lifecycle
open Theory
open PreservedContainer (ArchiveVars)

/-- How the calls end that `archiveRuntimeProject` awaits for one project, with the columns that
nothing else reads. -/
structure ArchiveCalls where
  /-- `new Date().toISOString()` -/
  now : String := ""
  /-- The `runtime_role` of the service is `resource`. -/
  resource : Bool := false
  /-- The id of the container as Docker writes it. -/
  containerIdText : String := ""
  getProject : Bool := true
  loadServiceViewRecord : Bool := true
  getComposeChildProjects : Bool := true
  stopContainer : Bool := true
  disconnectContainerFromNetwork : Bool := true
  renameContainer : Bool := true
  archiveProject : Bool := true
  renameBack : Bool := true
  connectContainerToNetwork : Bool := true
  startContainer : Bool := true
  removeContainer : Bool := true
  removeImage : Bool := true
  /-- What `archive` and `archiveGroup` load before. -/
  getProjectFirst : Bool := true
  loadServiceViewRecordFirst : Bool := true
  /-- The ids of the deployable services that `getDeployablesByGroup` finds. -/
  getDeployablesByGroup : Option (List String) := some []
  setProjectArchivedAt : Bool := true

/-! ## Rows -/

def World.setProjectArchivedAt (w : World) (projectId : String) (archivedAt : Option String) :
    World :=
  { w with
    projects := Function.update w.projects projectId
      ((w.projects projectId).map ({ · with archivedAt })) }

structure RetainedRuntime where
  containerId : ContainerId
  containerName : String
  imageTag : Option String

def archivedRow (archivedAt : String) (retainedRuntime : Option RetainedRuntime)
    (row : ServiceRow) : ServiceRow :=
  { row with
    archivedAt := some archivedAt
    assignedPort := none
    containerId := retainedRuntime.map (·.containerId)
    containerName := (retainedRuntime.map (·.containerName)).or row.containerName
    imageTag := retainedRuntime.bind (·.imageTag)
    status := .stopped }

/-- The transaction of `archiveProject`. -/
def World.archiveProject (w : World) (projectId archivedAt : String)
    (retainedRuntime : Option RetainedRuntime) : World :=
  let w := World.setProjectArchivedAt w projectId (some archivedAt)
  let w := w.updateProject projectId (archivedRow archivedAt retainedRuntime)
  let w := w.updateEnvironment projectId ({ · with status := .stopped })
  { w with
    otherEnvironments := fun id => (w.otherEnvironments id).map fun (owner, row) =>
      (owner, if owner = projectId then { row with status := .stopped } else row) }

def archiveProject (resolves : Bool) (projectId archivedAt : String)
    (retainedRuntime : Option RetainedRuntime) : Async Unit := do
  await resolves
  if (← .read (·.projects projectId)).isNone then throw .other
  .modify (World.archiveProject · projectId archivedAt retainedRuntime)

/-! ## Archive -/

section
variable (c : ArchiveCalls) (projectId : String)

def retireName (service : PreservedContainer.Service) (originalName : String)
    (containerId : ContainerId) : Prog (World × ArchiveVars) Failure Unit :=
  if originalName ≠ service.preservedName then do
    await c.renameContainer (·.renameContainer containerId service.preservedName)
    .assign ({ · with renamed := true })
  else pure ()

/-- The `try` of the source. -/
def keepContainer (service : PreservedContainer.Service) (originalName archivedAt : String)
    (containerId : ContainerId) (imageTag : Option String) :
    Prog (World × ArchiveVars) Failure Unit := do
  await c.stopContainer (·.setRunning containerId false)
  .assign ({ · with stopped := true })
  await c.disconnectContainerFromNetwork
  .assign ({ · with disconnected := true })
  retireName c service originalName containerId
  archiveProject c.archiveProject projectId archivedAt
    (some ⟨containerId, service.preservedName, imageTag⟩)

def awaitIf (done resolves : Bool) (effect : World → World := id) : Async Unit :=
  if done then await resolves effect else pure ()

/-- The `catch` of the source. -/
def undoKeep (originalName : String) (containerId : ContainerId) (error : Failure) :
    Prog (World × ArchiveVars) Failure Unit := do
  let vars : ArchiveVars ← .read (·.2)
  awaitIf vars.renamed c.renameBack (·.renameContainer containerId originalName)
  awaitIf vars.disconnected c.connectContainerToNetwork
  awaitIf vars.stopped c.startContainer (·.setRunning containerId true)
  throw error

/-- A stateful service of a stack keeps its container. -/
def archiveResource (project : Project) (originalName archivedAt : String)
    (containerId : ContainerId) (imageTag : Option String) : Async Unit :=
  .withVars {} (tryCatch
    (keepContainer c projectId ⟨c.containerIdText, project.name⟩ originalName archivedAt containerId
      imageTag)
    (undoKeep c originalName containerId))

/-- The service is the primary one of its group. -/
def isPrimary (deployable : ServiceRow) : Bool :=
  deployable.projectId =
    deployableServiceIdToProjectId (projectIdToDeployableServiceId projectId)

def clearPartialGroupArchiveMarker (deployables : List String) (groupId : String) :
    Async Unit := do
  let hasActiveSibling ← .read fun w : World => deployables.any fun id =>
    id ≠ projectIdToDeployableServiceId projectId ∧ ((w.services id).bind (·.archivedAt)).isNone
  if deployables.length > 1 && hasActiveSibling then
    await c.setProjectArchivedAt (World.setProjectArchivedAt · groupId none)

/-- A group is not archived with its primary service while another service is active. -/
def clearPartialGroupArchiveMarkerAfterRuntimeArchive (deployable : Option ServiceRow) :
    Async Unit :=
  match deployable with
  | none => pure ()
  | some deployable =>
    if isPrimary projectId deployable then
      match c.getDeployablesByGroup with
      | none => throw .other
      | some deployables =>
        clearPartialGroupArchiveMarker c projectId deployables deployable.projectId
    else pure ()

/-- The failures are logged. -/
def dropRuntime (containerId : Option ContainerId) (imageTag : Option String) : Async Unit := do
  if let some containerId := containerId then
    (await c.stopContainer (·.setRunning containerId false)).settle
    (await c.removeContainer (·.removeContainer (.id containerId))).settle
  if let some imageTag := imageTag then
    (await c.removeImage fun w =>
      { w with images := Function.update w.images imageTag none }).settle

/-- The container of any other service is removed. -/
def archiveRecord (archivedAt : Option String) (service : Option ServiceRow) (view : ServiceView) :
    Async Unit := do
  archiveProject c.archiveProject projectId (archivedAt.getD c.now) none
  if archivedAt.isNone then clearPartialGroupArchiveMarkerAfterRuntimeArchive c projectId service
  dropRuntime c view.containerId view.imageTag

/-- The container that a stateful service of a stack keeps, with its name. -/
def retained (service : Option ServiceRow) (view : ServiceView) : Option (ContainerId × String) :=
  match service.map (·.kind), c.resource, view.containerId, service.bind (·.containerName) with
  | some ServiceKind.composeChild, true, some containerId, some originalName =>
    some (containerId, originalName)
  | _, _, _, _ => none

/-- What follows once the children are archived. -/
def archiveSelf (archivedAt : Option String) (project : Project) (service : Option ServiceRow) :
    Async Unit :=
  let view := serviceViewFromRows project service
  match retained c service view with
  | some (containerId, originalName) =>
    archiveResource c projectId project originalName (archivedAt.getD c.now) containerId
      view.imageTag
  | none => archiveRecord c projectId archivedAt service view

def alreadyArchived (project : Project) (service : Option ServiceRow) : Bool :=
  match service with
  | some row => row.archivedAt.isSome
  | none => project.archivedAt.isSome

end

section
variable (archivedAt : Option String)

mutual

def archiveRuntimeProject : ProjectTree ArchiveCalls → Async Unit
  | .node projectId c children => do
    await c.getProject
    match ← .read (·.getProject projectId) with
    | none => pure ()
    | some project =>
      await c.loadServiceViewRecord
      let service ← .read (·.services (projectIdToDeployableServiceId projectId))
      if archivedAt.isSome && alreadyArchived project service then pure ()
      else
        await c.getComposeChildProjects
        archiveChildren children
        archiveSelf c projectId archivedAt project service

def archiveChildren : List (ProjectTree ArchiveCalls) → Async Unit
  | [] => pure ()
  | child :: children => do
    archiveRuntimeProject child
    archiveChildren children

end

end

def ProjectTree.calls : ProjectTree κ → κ
  | .node _ calls _ => calls

def ProjectTree.children : ProjectTree κ → List (ProjectTree κ)
  | .node _ _ children => children

/-- How the calls end that an operation makes itself. -/
structure RootCalls where
  /-- The marker. -/
  archivedAt : String := ""
  getProject : Bool := true
  getComposeChildProjects : Bool := true
  getDeployablesByGroup : Bool := true
  setProjectArchivedAt : Bool := true

/-- One marker for a stack with its services, none for a project without. -/
def archive (r : RootCalls) (tree : ProjectTree ArchiveCalls) : Async Unit := do
  await r.getComposeChildProjects
  if tree.children.isEmpty then archiveRuntimeProject none tree
  else
    await tree.calls.getProjectFirst
    if (← .read (·.projects tree.projectId)).isNone then pure ()
    else
      await tree.calls.loadServiceViewRecordFirst
      let service ← .read (·.services (projectIdToDeployableServiceId tree.projectId))
      archiveRuntimeProject (some r.archivedAt) tree
      clearPartialGroupArchiveMarkerAfterRuntimeArchive tree.calls tree.projectId service

/-- `loadRuntimeProjectForArchive`, for each service. -/
def loadRuntimeProjects : List (ProjectTree ArchiveCalls) → Async Unit
  | [] => pure ()
  | tree :: trees => do
    await tree.calls.getProjectFirst
    if (← .read (·.projects tree.projectId)).isNone then throw .other
    else
      await tree.calls.loadServiceViewRecordFirst
      loadRuntimeProjects trees

def World.isArchived (w : World) (projectId : String) : Bool :=
  ((w.services (projectIdToDeployableServiceId projectId)).bind (·.archivedAt)).isSome

/-- The tree is that of the project itself, `deployables` those of the services of the group. -/
def archiveGroup (r : RootCalls) (tree : ProjectTree ArchiveCalls)
    (deployables : List (ProjectTree ArchiveCalls)) : Async Unit := do
  await r.getProject
  if (← .read (·.projects tree.projectId)).isNone then pure ()
  else
    await r.getDeployablesByGroup
    if deployables.isEmpty then archiveRuntimeProject none tree
    else
      let activeDeployables ← .read fun w : World =>
        deployables.filter (!World.isArchived w ·.projectId)
      if activeDeployables.isEmpty then pure ()
      else
        loadRuntimeProjects activeDeployables
        archiveChildren (some r.archivedAt) activeDeployables
        await r.setProjectArchivedAt
          (World.setProjectArchivedAt · tree.projectId (some r.archivedAt))

/-! ## Restore -/

def unarchiveEach : List (ProjectTree UnarchiveCalls) → Async Unit
  | [] => pure ()
  | tree :: trees => do
    unarchiveRuntimeProject tree
    unarchiveEach trees

def unarchiveGroup (r : RootCalls) (tree : ProjectTree UnarchiveCalls)
    (deployables : List (ProjectTree UnarchiveCalls)) : Async Unit := do
  await r.getProject
  match ← .read (·.projects tree.projectId) with
  | none => pure ()
  | some project =>
    await r.getDeployablesByGroup
    if deployables.isEmpty then unarchiveRuntimeProject tree
    else
      match project.archivedAt with
      | none => pure ()
      | some restoreMarker =>
        let restoreServices ← .read fun w : World => deployables.filter fun service =>
          (w.services (projectIdToDeployableServiceId service.projectId)).bind (·.archivedAt) =
            some restoreMarker
        unarchiveEach restoreServices
        await r.setProjectArchivedAt (World.setProjectArchivedAt · tree.projectId none)

end OpenLander.Pipeline.Lifecycle
