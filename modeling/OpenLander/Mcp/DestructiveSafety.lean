import OpenLander.Mcp.ScopePolicy

/-! # The gate of destructive tools

`maybeHandleMcpSafety` (`src/mcp/destructive-safety.ts`) evaluates the permission of the target that it
has resolved, and for a Compose service those of all services below it. -/

namespace OpenLander.Mcp
open Db.Services Security

/-- The tools of `POLICY_CONTROLLED_DESTRUCTIVE_TOOLS` and `DATABASE_ACCESS_TOOLS`. -/
inductive PolicyTool
  | stopApp
  | deleteApp
  | stopService
  | archiveProject
  | unarchiveProject
  | archiveService
  | unarchiveService
  | removeService
  | removeVolume
  | deleteBucket
  | cleanupDocker
  | describeDataSource
  | readDataSource
  | getServiceCredentials
  | createServiceUser
  | execServiceContainer
  | getMigrationPreflight
  deriving DecidableEq, Repr

def databaseAccessTools : List PolicyTool :=
  [.describeDataSource, .readDataSource, .getServiceCredentials, .createServiceUser,
    .execServiceContainer, .getMigrationPreflight]

def PolicyTool.isDatabaseAccess (tool : PolicyTool) : Bool := tool ∈ databaseAccessTools

/-- The permission that a destructive tool is controlled by. -/
def PolicyTool.permissionKey (tool : PolicyTool) : PermissionKey :=
  if tool ∈ [.stopApp, .deleteApp] then .appLifecycle else .destructiveActions

inductive BlockedPermission
  | databaseAccess
  | key (permission : PermissionKey)
  deriving DecidableEq, Repr

/-- What keeps a tool from being executed at once. -/
inductive SafetyResult
  | blocked (permission : BlockedPermission) (projectId serviceId : Option String)
      (source : OperationPermissionSource)
  /-- The target is what a plan for approval records, unless it is a preview. -/
  | pendingApproval (targetProjectId targetServiceId : Option String)
  deriving DecidableEq, Repr

variable (db : Database)

/-- One row of the services below a Compose service. What it requires so far comes first. -/
def checkChild (permission : PermissionKey) (required : DestructiveActionPermission)
    (child : ServiceRow) : Except Error (DestructiveActionPermission ⊕ SafetyResult) :=
  match getOperationPermissionSnapshot db.settings
      { projectId := child.projectId, serviceId := child.id } with
  | .error e => .error (.permission e)
  | .ok permissions =>
    if permissions.effective.get permission = .block then
      .ok (.inr (.blocked (.key permission) child.projectId child.id
        (permissions.sources.get permission)))
    else if permissions.effective.get permission = .approvalRequired && required ≠ .block then
      .ok (.inl .approvalRequired)
    else .ok (.inl required)

def checkChildren (permission : PermissionKey) :
    DestructiveActionPermission → List ServiceRow →
      Except Error (DestructiveActionPermission ⊕ SafetyResult)
  | required, [] => .ok (.inl required)
  | required, child :: children =>
    match checkChild db permission required child with
    | .ok (.inl required) => checkChildren permission required children
    | result => result

/-- A tool on a Compose service affects the services below it too. -/
def affected (tool : PolicyTool) (targetServiceId : Option String) : List ServiceRow :=
  match targetServiceId.bind db.getService with
  | some service =>
    if tool ∈ [.stopApp, .deleteApp, .archiveService, .unarchiveService] && service.kind = .compose then
      db.services.filter (·.id ∈ db.expandedIds service.id)
    else []
  | none => []

/-- The tool waits for approval even where its permission is `allow`. -/
def holdsByDefault (tool : PolicyTool) (permissions : OperationPermissionSnapshot) : Bool :=
  tool ∈ [.archiveProject, .unarchiveProject, .archiveService, .unarchiveService] &&
    (permissions.projectOverride.bind (·.destructiveActions)).isNone &&
    (permissions.serviceOverride.bind (·.destructiveActions)).isNone

/-- The permission of the target. -/
def handleSafety (tool : PolicyTool) (targetProjectId targetServiceId : Option String) :
    Except Error (Option SafetyResult) :=
  match getOperationPermissionSnapshot db.settings
      { projectId := targetProjectId, serviceId := targetServiceId } with
  | .error e => .error (.permission e)
  | .ok permissions =>
    if tool.isDatabaseAccess then
      if permissions.effective.databaseAccess = .block then
        .ok (some (.blocked .databaseAccess targetProjectId targetServiceId
          permissions.sources.databaseAccess))
      else .ok none
    else
      match checkChildren db tool.permissionKey (permissions.effective.get tool.permissionKey)
          (affected db tool targetServiceId) with
      | .error e => .error e
      | .ok (.inr blocked) => .ok (some blocked)
      | .ok (.inl .block) =>
        .ok (some (.blocked (.key tool.permissionKey) targetProjectId targetServiceId
          (permissions.sources.get tool.permissionKey)))
      | .ok (.inl required) =>
        if required = .approvalRequired || holdsByDefault tool permissions then
          .ok (some (.pendingApproval targetProjectId targetServiceId))
        else .ok none

def maybeHandleMcpSafety (tool : PolicyTool) (args : Args) (identity : Option RequestIdentity) :
    Except Error (Option SafetyResult) := do
  let target ← resolveMcpScopeTarget db args identity
  let targetProjectId := target.bind (·.projectId)
  let targetServiceId := target.bind (·.serviceId)
  assertMcpActiveScope targetProjectId targetServiceId identity
  handleSafety db tool targetProjectId targetServiceId

end OpenLander.Mcp
