import OpenLander.Pipeline.Port
import OpenLander.Pipeline.GreenCleanup

/-! # Start, stop and restore

`ContainerLifecycle` (`src/pipeline/deploy/lifecycle.ts`). The operations go down a tree of projects:
those of the services of a Compose stack come before that of the stack itself. -/

namespace OpenLander.Pipeline.Lifecycle
open Theory
open GreenCleanup (composeContainerName)

/-- A project, how the calls end that are made for it, and what `getComposeChildProjects` finds. -/
inductive ProjectTree (κ : Type)
  | node (projectId : String) (calls : κ) (children : List (ProjectTree κ))

def ProjectTree.projectId : ProjectTree κ → String
  | .node projectId _ _ => projectId

/-! ## Restore -/

/-- How the calls end that `unarchiveRuntimeProject` awaits for one project. -/
structure UnarchiveCalls where
  getProject : Bool := true
  loadServiceViewRecord : Bool := true
  getComposeChildProjects : Bool := true
  inspectContainer : Option Failure := none
  renameContainer : Option Failure := none
  ensureProjectNetwork : Option Failure := none
  connectContainerToNetwork : Option Failure := none
  startContainer : Bool := true
  /-- The two statements of `unarchiveProject`. -/
  unarchiveProject : Bool := true
  unarchiveService : Bool := true
  updateService : Bool := true
  disconnectContainerFromNetwork : Option Failure := none
  renameBack : Option Failure := none
  scanUsedPorts : Option (List Nat) := some []
  updateProject : Bool := true

section
variable (c : UnarchiveCalls) (projectId : String)

/-- The name of the stack and that of the service, before and after the last slash. -/
def splitProjectName (name : String) : String × String :=
  match name.toList.reverse.span (· ≠ '/') with
  | (service, _ :: parent@(_ :: _)) => (.ofList parent.reverse, .ofList service.reverse)
  | _ => (name, name)

def clearArchivedAt (w : World) : World :=
  { w with
    projects := Function.update w.projects projectId
      ((w.projects projectId).map ({ · with archivedAt := none })) }

def unarchiveProject : Async Unit := do
  await c.unarchiveProject (clearArchivedAt projectId)
  updateProject c.unarchiveService projectId ({ · with archivedAt := none, status := .stopped })

/-- No other container has the name. -/
def checkContainerName (name : String) (containerId : ContainerId) : Async Unit := do
  call c.inspectContainer
  match ← .read (·.containers.find? (·.name = name)) with
  | none => throw .dockerNotFound
  | some conflicting => if conflicting.id ≠ containerId then throw .other

/-- What the `catch` undoes. -/
structure RestoreVars where
  renamed : Bool := false
  connected : Bool := false

/-- No other container has the name, as far as Docker says. -/
def checkNameFree (name : String) (containerId : ContainerId) : Async Unit :=
  tryCatch (checkContainerName c name containerId) fun error => do
    if error ≠ .dockerNotFound then throw error

def takeName (name preservedName : String) (containerId : ContainerId) :
    Prog (World × RestoreVars) Failure Unit :=
  if preservedName ≠ name then do
    call c.renameContainer (·.renameContainer containerId name)
    .assign ({ · with renamed := true })
  else pure ()

/-- The `try` of the source. -/
def restoreContainer (name preservedName : String) (containerId : ContainerId) :
    Prog (World × RestoreVars) Failure Unit := do
  checkNameFree c name containerId
  takeName c name preservedName containerId
  call c.ensureProjectNetwork
  call c.connectContainerToNetwork
  .assign ({ · with connected := true })
  startContainer c.startContainer containerId
  unarchiveProject c projectId
  updateService c.updateService (projectIdToDeployableServiceId projectId) fun row =>
    { row with
      archivedAt := none
      status := .running
      containerId := some containerId
      containerName := some name }

def undoConnect (vars : RestoreVars) : Async Unit :=
  if vars.connected then call c.disconnectContainerFromNetwork else pure ()

def undoRename (preservedName : String) (containerId : ContainerId) (vars : RestoreVars) :
    Async Unit :=
  if vars.renamed then call c.renameBack (·.renameContainer containerId preservedName) else pure ()

/-- The `catch` of the source. -/
def undoRestore (preservedName : String) (containerId : ContainerId) (error : Failure) :
    Prog (World × RestoreVars) Failure Unit := do
  let vars : RestoreVars ← .read (·.2)
  undoConnect c vars
  undoRename c preservedName containerId vars
  throw error

/-- The service of a stack has kept its container. -/
def restoreComposeChild (project : Project) (preservedName : String) (containerId : ContainerId) :
    Async Unit :=
  let (parentName, serviceName) := splitProjectName project.name
  .withVars {} (tryCatch
    (restoreContainer c projectId (composeContainerName parentName serviceName) preservedName
      containerId)
    (undoRestore c preservedName containerId))

/-- Other services get a port, and are deployed later. -/
def restoreRecord (service : Option ServiceRow) : Async Unit := do
  unarchiveProject c projectId
  if service.map (·.kind) ≠ some ServiceKind.composeChild then
    let port ← allocatePort c.scanUsedPorts
    updateProject c.updateProject projectId ({ · with assignedPort := some port })

/-- What follows once the children are restored. -/
def restoreSelf (project : Project) (service : Option ServiceRow) : Async Unit :=
  match service.map (·.kind), service.bind (·.containerId), service.bind (·.containerName) with
  | some ServiceKind.composeChild, some containerId, some preservedName =>
    restoreComposeChild c projectId project preservedName containerId
  | _, _, _ => restoreRecord c projectId service

end

mutual

def unarchiveRuntimeProject : ProjectTree UnarchiveCalls → Async Unit
  | .node projectId c children => do
    await c.getProject
    match ← .read (·.getProject projectId) with
    | none => pure ()
    | some project =>
      await c.loadServiceViewRecord
      let service ← .read (·.services (projectIdToDeployableServiceId projectId))
      match project.archivedAt.or (service.bind (·.archivedAt)) with
      | none => pure ()
      | some restoreMarker =>
        await c.getComposeChildProjects
        let projects ← .read (·.projects)
        unarchiveChildren projects restoreMarker children
        restoreSelf c projectId project service

/-- The children that were archived together with the project. -/
def unarchiveChildren (projects : String → Option ProjectRow) (restoreMarker : String) :
    List (ProjectTree UnarchiveCalls) → Async Unit
  | [] => pure ()
  | child :: children => do
    if (projects child.projectId).bind (·.archivedAt) = some restoreMarker then
      unarchiveRuntimeProject child
    unarchiveChildren projects restoreMarker children

end

end OpenLander.Pipeline.Lifecycle
