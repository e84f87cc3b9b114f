import OpenLander.Db.Services

/-! # The service that a tool acts on

How the tools look up the service that their arguments name: `resolveDeployableService`
(`src/tools/defs/deployable-service.ts`) for workloads, `getServiceByName` and `resolveServiceByIdOrName`
(`src/tools/defs/service.ts`) for managed services. -/

namespace OpenLander.Tools
open Db.Services

variable (db : Database)

/-! ## Workloads -/

def resolveProjectScope (projectName : Option String) : Option ProjectRow :=
  projectName.bind fun name => (db.getProject name).or (db.getProjectByName name)

/-- The only workload of a project that has the name. -/
def resolveSingleDeployableProjectAlias (projectName : String) : Except Error (Option ServiceRow) :=
  match resolveProjectScope db (some projectName) with
  | none => .ok none
  | some project =>
    match (db.getDeployablesByGroup project.id).filter (!isManagedKind ·.kind) with
    | [] => .ok none
    | [service] => .ok (some service)
    | _ => .error (.serviceSelectionRequired projectName)

/-- The services of the name, in a project if there is one. -/
def scopedServices (serviceName : String) (projectScope : Option ProjectRow) : List ServiceRow :=
  db.services.filter fun row => row.name = serviceName && projectScope.all (row.projectId = ·.id)

def resolveServiceByName (serviceName : String) (projectName : Option String) :
    Except Error ServiceRow :=
  let projectScope := resolveProjectScope db projectName
  if projectName.isSome && projectScope.isNone then
    .error (.projectNotFound (projectName.getD ""))
  else
    match (scopedServices db serviceName projectScope).filter (!isManagedKind ·.kind),
      (scopedServices db serviceName projectScope).head? with
    | _ :: _ :: _, _ => .error (.serviceSelectionRequired serviceName)
    | [service], _ => .ok service
    | [], some service => .ok service
    | [], none =>
      match projectName with
      | some projectName => .error (.serviceNotFound (serviceName ++ " in " ++ projectName))
      | none =>
        match resolveSingleDeployableProjectAlias db serviceName with
        | .error e => .error e
        | .ok (some service) => .ok service
        | .ok none => .error (.serviceNotFound serviceName)

/-- The service that is looked up, before its kind and its project are checked. -/
def lookupDeployable (args : Args) : Except Error ServiceRow :=
  match readString args.serviceId, readString args.serviceName with
  | some serviceId, _ =>
    match db.getService serviceId with
    | some service => .ok service
    | none => .error (.serviceNotFound serviceId)
  | none, some serviceName => resolveServiceByName db serviceName (readString args.projectName)
  | none, none => .error (.serviceNotFound "unknown")

def resolveDeployableService (args : Args) (operation : String) :
    Except Error (ServiceRow × ProjectRow) :=
  match lookupDeployable db args with
  | .error e => .error e
  | .ok service =>
    if isManagedKind service.kind then .error (.serviceOperationUnsupported operation service.kind)
    else
      match db.getProject service.projectId with
      | none => .error (.projectNotFound service.projectId)
      | some project =>
        match readString args.projectName with
        | some projectName =>
          if projectName ≠ project.id ∧ projectName ≠ project.name then
            .error (.serviceNotFound (service.name ++ " in " ++ projectName))
          else .ok (service, project)
        | none => .ok (service, project)

section
variable {db : Database} {service : ServiceRow}

theorem resolveSingleDeployableProjectAlias_mem
    (h : resolveSingleDeployableProjectAlias db name = .ok (some service)) :
    ∃ project, resolveProjectScope db (some name) = some project ∧
      service ∈ db.getDeployablesByGroup project.id := by
  unfold resolveSingleDeployableProjectAlias at h
  split at h
  · exact nomatch Except.ok.inj h
  next project hproject =>
    split at h
    · exact nomatch Except.ok.inj h
    next single hsingle =>
      obtain rfl := Option.some.inj (Except.ok.inj h)
      have hmem : single ∈ (db.getDeployablesByGroup project.id).filter (!isManagedKind ·.kind) := by
        rw [hsingle]
        exact List.mem_singleton_self single
      exact ⟨project, hproject, (List.mem_filter.mp hmem).1⟩
    · exact nomatch h

theorem mem_of_mem_getDeployablesByGroup (h : service ∈ db.getDeployablesByGroup projectId) :
    service ∈ db.services :=
  (List.mem_filter.mp h).1

theorem resolveServiceByName_mem (h : resolveServiceByName db name projectName = .ok service) :
    service ∈ db.services := by
  unfold resolveServiceByName at h
  dsimp only at h
  split at h
  · exact nomatch h
  split at h
  · exact nomatch h
  next single hsingle =>
    obtain rfl := Except.ok.inj h
    have hmem : single ∈ (scopedServices db name (resolveProjectScope db projectName)).filter
        (!isManagedKind ·.kind) := by
      rw [hsingle]
      exact List.mem_singleton_self single
    exact (List.mem_filter.mp (List.mem_filter.mp hmem).1).1
  next hhead =>
    obtain rfl := Except.ok.inj h
    exact (List.mem_filter.mp (List.mem_of_mem_head? hhead)).1
  next =>
    split at h
    · exact nomatch h
    split at h
    · exact nomatch h
    next halias =>
      obtain rfl := Except.ok.inj h
      obtain ⟨project, -, hmem⟩ := resolveSingleDeployableProjectAlias_mem halias
      exact mem_of_mem_getDeployablesByGroup hmem
    · exact nomatch h

theorem lookupDeployable_mem (h : lookupDeployable db args = .ok service) :
    service ∈ db.services := by
  unfold lookupDeployable at h
  split at h
  · split at h
    next hservice =>
      obtain rfl := Except.ok.inj h
      exact (Database.getService_eq_some hservice).1
    · exact nomatch h
  · exact resolveServiceByName_mem h
  · exact nomatch h

/-- A service that is resolved is the one that is looked up, and a workload. -/
theorem resolveDeployableService_ok
    (h : resolveDeployableService db args operation = .ok (service, project)) :
    lookupDeployable db args = .ok service ∧ isManagedKind service.kind = false ∧
      db.getProject service.projectId = some project := by
  unfold resolveDeployableService at h
  split at h
  · exact nomatch h
  next found hlookup =>
    split at h
    · exact nomatch h
    next hkind =>
      split at h
      · exact nomatch h
      next owner hproject =>
        have heq : (found, owner) = (service, project) := by
          split at h
          · split at h
            · exact nomatch h
            · exact Except.ok.inj h
          · exact Except.ok.inj h
        obtain ⟨rfl, rfl⟩ := Prod.mk.inj heq
        exact ⟨hlookup, Bool.of_not_eq_true hkind, hproject⟩

end

/-! ## Managed services -/

/-- The services as `list` finds them, which may touch their rows and so change their order. -/
def getServiceByName (listed : List ServiceRow) (serviceName : String) : Except Error ServiceRow :=
  match listed.find? (·.name = serviceName) with
  | none => .error (.serviceNotFound serviceName)
  | some service =>
    if isManagedKind service.kind then .ok service
    else .error (.serviceOperationUnsupported "Database/Cache/Storage operation" service.kind)

def resolveServiceByIdOrName (listed : List ServiceRow) (args : Args) : Except Error ServiceRow :=
  match readString args.serviceId with
  | some serviceId =>
    match db.getService serviceId with
    | some service => .ok service
    | none => .error (.serviceNotFound serviceId)
  | none =>
    match listed.find? (·.name = (readString args.serviceName).getD "") with
    | some service => .ok service
    | none => .error (.serviceNotFound ((readString args.serviceName).getD ""))

end OpenLander.Tools
