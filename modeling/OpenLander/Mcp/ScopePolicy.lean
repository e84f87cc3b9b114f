import OpenLander.Db.Services
import OpenLander.Mcp.Server

/-! # The target of a tool

`resolveMcpScopeTargets` (`src/mcp/scope-policy.ts`) finds the targets that the arguments of a tool
name, by which `maybeRejectMcpScope` and `assertMcpActiveScope` refuse a token of another scope. -/

namespace OpenLander.Mcp
open Db.Services
open Compose (trim)

structure ScopeTarget where
  projectId : Option String
  serviceId : Option String
  resolvedFrom : String
  deriving DecidableEq, Repr

def isScopedIdentity (identity : Option RequestIdentity) : Bool :=
  identity.any fun identity => identity.mcpScopeKind ≠ .org

/-- `value.replace(/^\//, '').trim()` -/
def normalizedAlias (value : String) : String :=
  String.ofList (trim (match value.toList with
    | '/' :: rest => rest
    | text => text))

def matchesServiceAlias (service : ServiceRow) (value : String) : Bool :=
  service.id = value || service.name = value || service.containerId = some value ||
    service.containerName = some (normalizedAlias value)

variable (db : Database)

def resolveProjectIdByName (name : String) : Except Error String :=
  match (db.getProject name).or (db.getProjectByName name) with
  | some project => .ok project.id
  | none => .error (.projectNotFound name)

def targetFromService (serviceId : String) : Except Error ScopeTarget :=
  match db.getService serviceId with
  | some service => .ok {
      projectId := some service.projectId, serviceId := some service.id, resolvedFrom := "service_id" }
  | none => .error (.serviceNotFound serviceId)

/-- The service of a token for one, where the name stands for it and no project is named. -/
def tokenService (serviceName : String) (projectName : Option String)
    (identity : Option RequestIdentity) : Option ServiceRow :=
  match identity, projectName with
  | some { mcpScopeKind := .service, mcpScopeServiceId := some identityServiceId, .. }, none =>
    (db.getService identityServiceId).filter fun service =>
      !isManagedKind service.kind && matchesServiceAlias service serviceName
  | _, _ => none

/-- The services that the name stands for, in a project if one is named. -/
def aliasMatches (serviceName : String) (projectScopeId : Option String) : List ServiceRow :=
  db.services.filter fun service =>
    matchesServiceAlias service serviceName && projectScopeId.all (service.projectId = ·)

def targetFromServiceName (serviceName : String) (projectName : Option String)
    (identity : Option RequestIdentity) : Except Error (Option ScopeTarget) :=
  match tokenService db serviceName projectName identity with
  | some service => .ok (some {
      projectId := some service.projectId, serviceId := some service.id,
      resolvedFrom := "token_service" })
  | none => do
    let projectScopeId ← projectName.mapM (resolveProjectIdByName db)
    match aliasMatches db serviceName projectScopeId, projectScopeId with
    | [service], _ => .ok (some {
        projectId := some service.projectId, serviceId := some service.id
        resolvedFrom :=
          if projectScopeId.isSome then "service_name_project_scope" else "service_name" })
    | _, some projectScopeId => .ok (some {
        projectId := some projectScopeId, serviceId := none, resolvedFrom := "project_name" })
    | _, none => if isScopedIdentity identity then .error (.serviceNotFound serviceName) else .ok none

/-- The targets of the ids, of the name and of the projects, in this order. -/
def resolveMcpScopeTargets (args : Args) (identity : Option RequestIdentity) :
    Except Error (List ScopeTarget) := do
  let serviceIds ← args.serviceIds.mapM (targetFromService db)
  let serviceId ← (readString args.serviceId).mapM (targetFromService db)
  let projectId := readString args.projectId
  let projectName := readString args.projectName
  let serviceName ← match readString args.serviceName with
    | some serviceName => targetFromServiceName db serviceName (projectId.or projectName) identity
    | none => .ok none
  let projectOfName ← projectName.mapM (resolveProjectIdByName db)
  return serviceIds ++ serviceId.toList ++ serviceName.toList ++
    (projectId.map fun projectId =>
      { projectId := some projectId, serviceId := none, resolvedFrom := "project_id" }).toList ++
    (projectOfName.map fun projectId =>
      { projectId := some projectId, serviceId := none, resolvedFrom := "project_name" }).toList

def resolveMcpScopeTarget (args : Args) (identity : Option RequestIdentity) :
    Except Error (Option ScopeTarget) := do
  return (← resolveMcpScopeTargets db args identity).head?

/-- The reason why the identity may not act on the target. -/
def scopeRejection (identity : RequestIdentity) (target : ScopeTarget) : Option String :=
  match target.projectId, identity.mcpScopeKind with
  | none, _ => some "target_required"
  | some projectId, .project =>
    if identity.mcpScopeProjectId = some projectId then none else some "project_mismatch"
  | some _, _ =>
    if identity.mcpScopeServiceId.isSome && target.serviceId = identity.mcpScopeServiceId then none
    else some "service_mismatch"

/-- The reason of a rejection. -/
def maybeRejectMcpScope (args : Args) (identity : Option RequestIdentity) :
    Except Error (Option String) :=
  match identity.filter fun identity => identity.mcpScopeKind ≠ .org with
  | none => .ok none
  | some scopedIdentity =>
    match resolveMcpScopeTargets db args identity with
    | .error (.projectNotFound _) | .error (.serviceNotFound _) =>
      .ok (some "target_not_found_or_out_of_scope")
    | .error e => .error e
    | .ok [] => .ok (some "target_required")
    | .ok targets => .ok (targets.findSome? (scopeRejection scopedIdentity))

/-- Nothing is asserted of a target without a project. -/
def assertMcpActiveScope (targetProjectId targetServiceId : Option String)
    (identity : Option RequestIdentity) : Except Error Unit :=
  match targetProjectId, identity.filter fun identity => identity.mcpScopeKind ≠ .org with
  | some targetProjectId, some identity =>
    if identity.mcpScopeKind = .project then
      if identity.mcpScopeProjectId = some targetProjectId then .ok ()
      else .error (.scopeViolation "project_mismatch")
    else if identity.mcpScopeServiceId.isSome && identity.mcpScopeServiceId = targetServiceId then .ok ()
    else .error (.scopeViolation "service_target_required")
  | _, _ => .ok ()

end OpenLander.Mcp
