import OpenLander.Mcp.DestructiveSafety
import OpenLander.Tools.Resolve

/-! # The service that is checked and the service that is acted on

`maybeHandleMcpSafety` evaluates the permission of the target that `resolveMcpScopeTarget` finds, and
records it in the plan of an action that waits for approval. The handler of the tool looks its arguments
up again in its own way, at once or when the plan is executed. This module says of which services both
are the same. -/

namespace OpenLander.Mcp
open Theory Db.Services Security Tools

/-! ## Handlers -/

/-- How the handler of a tool finds the service that it acts on. -/
inductive Handler
  /-- `db.getService` with the text as it is -/
  | byId
  /-- `getServiceByName` with the text as it is -/
  | byName
  /-- `resolveServiceByIdOrName` -/
  | byIdOrName
  /-- `resolveDeployableService` -/
  | deployable
  deriving DecidableEq, Repr

def PolicyTool.name : PolicyTool → String
  | .stopApp => "stop_app"
  | .deleteApp => "delete_app"
  | .stopService => "stop_service"
  | .archiveProject => "archive_project"
  | .unarchiveProject => "unarchive_project"
  | .archiveService => "archive_service"
  | .unarchiveService => "unarchive_service"
  | .removeService => "remove_service"
  | .removeVolume => "remove_volume"
  | .deleteBucket => "delete_bucket"
  | .cleanupDocker => "cleanup_docker"
  | .describeDataSource => "describe_data_source"
  | .readDataSource => "read_data_source"
  | .getServiceCredentials => "get_service_credentials"
  | .createServiceUser => "create_service_user"
  | .execServiceContainer => "exec_service_container"
  | .getMigrationPreflight => "get_migration_preflight"

/-- The other tools act on no service. -/
def PolicyTool.handler : PolicyTool → Option Handler
  | .describeDataSource | .readDataSource => some .byId
  | .stopService | .removeService | .deleteBucket | .createServiceUser | .execServiceContainer =>
    some .byName
  | .getServiceCredentials => some .byIdOrName
  | .stopApp | .deleteApp | .archiveService | .unarchiveService => some .deployable
  | .archiveProject | .unarchiveProject | .removeVolume | .cleanupDocker | .getMigrationPreflight => none

/-- The schema of the tool. A parameter that it does not have is rejected. -/
def Handler.accepts (handler : Handler) (args : Args) : Bool :=
  args.serviceIds.isEmpty && args.projectId.isNone &&
    args.serviceId.all (· ≠ "") && args.serviceName.all (· ≠ "") && args.projectName.all (· ≠ "") &&
    match handler with
    | .byId => args.serviceId.isSome && args.serviceName.isNone && args.projectName.isNone
    | .byName => args.serviceName.isSome && args.serviceId.isNone && args.projectName.isNone
    | .byIdOrName => (args.serviceId.isSome || args.serviceName.isSome) && args.projectName.isNone
    | .deployable => args.serviceId.isSome || args.serviceName.isSome

section
variable (db : Database) (listed : List ServiceRow)

/-- The service that a handler acts on, where `listed` is what `list` of the service manager finds. -/
def Handler.resolve (operation : String) (args : Args) : Handler → Except Error ServiceRow
  | .byId =>
    match db.getService (args.serviceId.getD "") with
    | some service => .ok service
    | none => .error (.serviceNotFound (args.serviceId.getD ""))
  | .byName => getServiceByName listed (args.serviceName.getD "")
  | .byIdOrName => resolveServiceByIdOrName db listed args
  | .deployable => (resolveDeployableService db args operation).map (·.1)

/-- `executeClaimedMcpAction`, for a tool that has been approved by a human. -/
def executeApproved (tool : PolicyTool) (handler : Handler) (targetProjectId targetServiceId : Option String)
    (identity : Option RequestIdentity) (args : Args) : Except Error ServiceRow := do
  assertMcpActiveScope targetProjectId targetServiceId identity
  match assertAllowed tool.permissionKey db.settings
      { projectId := targetProjectId, serviceId := targetServiceId } with
  | .error e => .error (.permission e)
  | .ok _ => handler.resolve db listed tool.name args

/-- What `list` leaves as it is in a row. -/
def listedIdentity (row : ServiceRow) : String × String × String × ServiceKind :=
  (row.id, row.projectId, row.name, row.kind)

/-- `list` updates the states and the container ids of the rows, and so their order. -/
def Listed : Prop := (listed.map listedIdentity).Perm (db.services.map listedIdentity)

/-- The target whose permission the gate evaluates. -/
def evaluatedTarget (args : Args) (identity : Option RequestIdentity) :
    Except Error OperationPermissionTarget := do
  let target ← resolveMcpScopeTarget db args identity
  return { projectId := target.bind (·.projectId), serviceId := target.bind (·.serviceId) }

end

/-! ## The condition -/

/-- The project that narrows the names down. -/
def namedProject (db : Database) (args : Args) : Option String :=
  (readString args.projectName).bind fun name => (resolveProjectIdByName db name).toOption

/-- The services that the gate takes the arguments for. -/
def candidates (db : Database) (args : Args) (identity : Option RequestIdentity) : List ServiceRow :=
  match readString args.serviceId, readString args.serviceName with
  | some serviceId, _ => (db.getService serviceId).toList
  | none, some serviceName =>
    match tokenService db serviceName (readString args.projectName) identity with
    | some service => [service]
    | none => aliasMatches db serviceName (namedProject db args)
  | none, none => []

/-- The first row of the name has the id of the service. -/
def FirstNamed (listed : List ServiceRow) (name : String) (row : ServiceRow) : Prop :=
  (listed.find? (·.name = name)).map (·.id) = some row.id

/-- The workload has the name, or no service in scope has it and the workload is in the project of the
name. -/
def NamesWorkload (db : Database) (args : Args) (row : ServiceRow) : Prop :=
  ∃ name, readString args.serviceName = some name ∧
    let named := scopedServices db name (resolveProjectScope db (readString args.projectName))
    isManagedKind row.kind = false ∧
      (row ∈ named ∨ named = [] ∧ readString args.projectName = none ∧
        ∃ project, resolveProjectScope db (some name) = some project ∧
          row ∈ db.getDeployablesByGroup project.id)

/-- The arguments name the service for the handler. -/
def Names (db : Database) (listed : List ServiceRow) (args : Args) (row : ServiceRow) : Handler → Prop
  | .byId => args.serviceId.getD "" = row.id
  | .byName => FirstNamed listed (args.serviceName.getD "") row
  | .byIdOrName =>
    match readString args.serviceId with
    | some serviceId => serviceId = row.id
    | none => FirstNamed listed ((readString args.serviceName).getD "") row
  | .deployable =>
    match readString args.serviceId with
    | some serviceId => serviceId = row.id
    | none => NamesWorkload db args row

/-- The gate takes the arguments for one service only, and this is the one that they name for the handler
in the tables `db'`. -/
def Identifies (db : Database) (args : Args) (identity : Option RequestIdentity) (db' : Database)
    (listed : List ServiceRow) (handler : Handler) : Prop :=
  ∃ row, candidates db args identity = [row] ∧
    ∃ row' ∈ db'.services, row'.id = row.id ∧ Names db' listed args row' handler

/-! ## The gate -/

/-- A single candidate is the target, and otherwise no service is. -/
def Determines (rows : List ServiceRow) (projectId serviceId : Option String) : Prop :=
  (∃ row, rows = [row] ∧ projectId = some row.projectId ∧ serviceId = some row.id) ∨
    (∀ row, rows ≠ [row]) ∧ serviceId = none

theorem Determines.iff {id : String} (h : Determines rows projectId serviceId) :
    serviceId = some id ↔ ∃ row, rows = [row] ∧ row.id = id := by
  obtain ⟨row, rfl, -, rfl⟩ | ⟨hnone, rfl⟩ := h
  · constructor
    · intro hid
      exact ⟨row, rfl, Option.some.inj hid⟩
    · intro ⟨row', hrow', hid⟩
      obtain rfl := List.singleton_inj.mp hrow'
      exact congrArg some hid
  · exact ⟨fun h => (nomatch h), fun ⟨row, hrow, _⟩ => absurd hrow (hnone row)⟩

section
variable {db : Database} {args : Args} {identity : Option RequestIdentity}

theorem targetFromService_ok (h : targetFromService db serviceId = .ok target) :
    Determines (db.getService serviceId).toList target.projectId target.serviceId := by
  unfold targetFromService at h
  split at h
  next row hrow =>
    obtain rfl := Except.ok.inj h
    rw [hrow]
    exact .inl ⟨row, rfl, rfl, rfl⟩
  · exact nomatch h

theorem targetFromServiceName_ok
    (h : targetFromServiceName db serviceName projectName identity = .ok target) :
    Determines (match tokenService db serviceName projectName identity with
      | some service => [service]
      | none => aliasMatches db serviceName (projectName.bind fun name =>
        (resolveProjectIdByName db name).toOption))
      (target.bind (·.projectId)) (target.bind (·.serviceId)) := by
  unfold targetFromServiceName at h
  cases htoken : tokenService db serviceName projectName identity with
  | some service =>
    rw [htoken] at h
    obtain rfl := Except.ok.inj h
    exact .inl ⟨service, rfl, rfl, rfl⟩
  | none =>
    rw [htoken] at h
    obtain ⟨scope, hscope, h⟩ := bind_eq_ok.mp h
    have hproject : (projectName.bind fun name => (resolveProjectIdByName db name).toOption) = scope := by
      cases projectName with
      | none => exact Except.ok.inj hscope
      | some name =>
        obtain ⟨projectId, hname, hscope⟩ := bind_eq_ok.mp hscope
        obtain rfl := Except.ok.inj hscope
        rw [Option.bind_some, hname]
        rfl
    rw [hproject]
    dsimp only
    split at h
    next row hrow =>
      obtain rfl := Except.ok.inj h
      exact .inl ⟨row, hrow, rfl, rfl⟩
    next projectId hnot =>
      obtain rfl := Except.ok.inj h
      exact .inr ⟨fun row hrow => hnot row hrow, rfl⟩
    next hnot =>
      split at h
      · exact nomatch h
      · obtain rfl := Except.ok.inj h
        exact .inr ⟨fun row hrow => hnot row hrow, rfl⟩

/-- The targets of projects, which come after that of the name, are no services. -/
theorem determines_head? {rows : List ServiceRow} {target : Option ScopeTarget}
    {projects : List ScopeTarget} (hprojects : ∀ project ∈ projects, project.serviceId = none)
    (h : Determines rows (target.bind (·.projectId)) (target.bind (·.serviceId))) :
    Determines rows (((target.toList ++ projects).head?).bind (·.projectId))
      (((target.toList ++ projects).head?).bind (·.serviceId)) := by
  cases target with
  | some target => exact h
  | none =>
    obtain ⟨row, -, -, hrow⟩ | ⟨hnone, -⟩ := h
    · exact nomatch hrow
    · refine .inr ⟨hnone, ?_⟩
      cases projects with
      | nil => rfl
      | cons project projects => exact hprojects project List.mem_cons_self

theorem append_projectTargets {byId byName : Option ScopeTarget} {projectOfName : Option String}
    (h : targets = [] ++ byId.toList ++ byName.toList ++ [] ++ (projectOfName.map fun projectId =>
      ({ projectId := some projectId, serviceId := none, resolvedFrom := "project_name" } :
        ScopeTarget)).toList) :
    ∃ projects : List ScopeTarget, (∀ project ∈ projects, project.serviceId = none) ∧
      targets = byId.toList ++ (byName.toList ++ projects) := by
  rw [List.nil_append, List.append_nil, List.append_assoc] at h
  refine ⟨_, fun project hmem => ?_, h⟩
  obtain ⟨projectId, -, rfl⟩ := Option.map_eq_some_iff.mp (Option.mem_toList.mp hmem)
  rfl

/-- The target of the id comes first, and then that of the name. -/
theorem resolveMcpScopeTargets_ok (hids : args.serviceIds = []) (hproject : args.projectId = none)
    (h : resolveMcpScopeTargets db args identity = .ok targets) :
    ∃ byId byName projects, (readString args.serviceId).mapM (targetFromService db) = .ok byId ∧
      (match readString args.serviceName with
        | some serviceName =>
          targetFromServiceName db serviceName (readString args.projectName) identity
        | none => .ok none) = .ok byName ∧
      (∀ project ∈ projects, project.serviceId = none) ∧
        targets = byId.toList ++ (byName.toList ++ projects) := by
  unfold resolveMcpScopeTargets at h
  rw [hids, hproject] at h
  obtain ⟨serviceIds, hserviceIds, h⟩ := bind_eq_ok.mp h
  obtain rfl := Except.ok.inj hserviceIds
  obtain ⟨byId, hbyId, h⟩ := bind_eq_ok.mp h
  cases hserviceName : readString args.serviceName with
  | some serviceName =>
    rw [hserviceName] at h
    obtain ⟨byName, hbyName, h⟩ := bind_eq_ok.mp h
    obtain ⟨projectOfName, -, h⟩ := bind_eq_ok.mp h
    obtain ⟨projects, hprojects, htargets⟩ := append_projectTargets (Except.ok.inj h).symm
    exact ⟨byId, byName, projects, hbyId, hbyName, hprojects, htargets⟩
  | none =>
    rw [hserviceName] at h
    obtain ⟨byName, hbyName, h⟩ := bind_eq_ok.mp h
    obtain ⟨projectOfName, -, h⟩ := bind_eq_ok.mp h
    obtain ⟨projects, hprojects, htargets⟩ := append_projectTargets (Except.ok.inj h).symm
    exact ⟨byId, byName, projects, hbyId, hbyName, hprojects, htargets⟩

theorem resolveMcpScopeTarget_ok (hids : args.serviceIds = []) (hproject : args.projectId = none)
    (h : resolveMcpScopeTarget db args identity = .ok target) :
    Determines (candidates db args identity) (target.bind (·.projectId))
      (target.bind (·.serviceId)) := by
  obtain ⟨targets, htargets, h⟩ := bind_eq_ok.mp h
  obtain rfl := Except.ok.inj h
  obtain ⟨byId, byName, projects, hbyId, hbyName, hprojects, rfl⟩ :=
    resolveMcpScopeTargets_ok hids hproject htargets
  unfold candidates
  cases hserviceId : readString args.serviceId with
  | some serviceId =>
    rw [hserviceId] at hbyId
    obtain ⟨target, htarget, hbyId⟩ := bind_eq_ok.mp hbyId
    obtain rfl := Except.ok.inj hbyId
    exact targetFromService_ok htarget
  | none =>
    rw [hserviceId] at hbyId
    obtain rfl := Except.ok.inj hbyId
    cases hserviceName : readString args.serviceName with
    | some serviceName =>
      rw [hserviceName] at hbyName
      have hdetermines := determines_head? hprojects (targetFromServiceName_ok hbyName)
      exact hdetermines
    | none =>
      rw [hserviceName] at hbyName
      obtain rfl := Except.ok.inj hbyName
      have hdetermines : Determines [] ((none : Option ScopeTarget).bind (·.projectId))
          ((none : Option ScopeTarget).bind (·.serviceId)) :=
        .inr ⟨fun row hrow => (nomatch hrow), rfl⟩
      exact determines_head? hprojects hdetermines

theorem candidates_subset (h : row ∈ candidates db args identity) : row ∈ db.services := by
  unfold candidates at h
  split at h
  next serviceId _ =>
    exact (Database.getService_eq_some (Option.mem_toList.mp h)).1
  · split at h
    next service htoken =>
      obtain rfl := List.mem_singleton.mp h
      unfold tokenService at htoken
      split at htoken
      · exact (Database.getService_eq_some (Option.filter_eq_some_iff.mp htoken).1).1
      · exact nomatch htoken
    · exact (List.mem_filter.mp h).1
  · exact absurd h List.not_mem_nil

theorem evaluatedTarget_ok (hids : args.serviceIds = []) (hproject : args.projectId = none)
    (h : evaluatedTarget db args identity = .ok target) :
    Determines (candidates db args identity) target.projectId target.serviceId := by
  obtain ⟨scopeTarget, hscopeTarget, h⟩ := bind_eq_ok.mp h
  obtain rfl := Except.ok.inj h
  exact resolveMcpScopeTarget_ok hids hproject hscopeTarget

/-- The gate evaluates the permissions of this target. -/
theorem maybeHandleMcpSafety_ok_iff {result : Option SafetyResult} :
    maybeHandleMcpSafety db tool args identity = .ok result ↔
      ∃ target, evaluatedTarget db args identity = .ok target ∧
        assertMcpActiveScope target.projectId target.serviceId identity = .ok () ∧
        handleSafety db tool target.projectId target.serviceId = .ok result := by
  constructor
  · intro h
    obtain ⟨target, htarget, h⟩ := bind_eq_ok.mp h
    obtain ⟨_, hscope, h⟩ := bind_eq_ok.mp h
    refine ⟨⟨target.bind (·.projectId), target.bind (·.serviceId)⟩, ?_, hscope, h⟩
    rw [evaluatedTarget, htarget]
    rfl
  · intro ⟨target, htarget, hscope, h⟩
    obtain ⟨scopeTarget, hscopeTarget, htarget⟩ := bind_eq_ok.mp htarget
    obtain rfl := Except.ok.inj htarget
    exact bind_eq_ok.mpr ⟨scopeTarget, hscopeTarget, bind_eq_ok.mpr ⟨(), hscope, h⟩⟩

theorem checkChild_inr (h : checkChild db permission required child = .ok (.inr result)) :
    ∃ key projectId serviceId source, result = .blocked key projectId serviceId source := by
  unfold checkChild at h
  split at h
  · exact nomatch h
  split at h
  · obtain rfl := Sum.inr.inj (Except.ok.inj h)
    exact ⟨_, _, _, _, rfl⟩
  split at h
  · exact nomatch Except.ok.inj h
  · exact nomatch Except.ok.inj h

theorem checkChildren_inr {children : List ServiceRow}
    (h : checkChildren db permission required children = .ok (.inr result)) :
    ∃ key projectId serviceId source, result = .blocked key projectId serviceId source := by
  induction children generalizing required with
  | nil => exact nomatch Except.ok.inj h
  | cons child children ih =>
    unfold checkChildren at h
    split at h
    · exact ih h
    · exact checkChild_inr h

/-- A plan records the target that has been evaluated. -/
theorem handleSafety_pendingApproval
    (h : handleSafety db tool projectId serviceId = .ok (some (.pendingApproval projectId' serviceId'))) :
    projectId' = projectId ∧ serviceId' = serviceId := by
  unfold handleSafety at h
  split at h
  · exact nomatch h
  split at h
  · split at h
    · exact nomatch Option.some.inj (Except.ok.inj h)
    · exact nomatch Except.ok.inj h
  split at h
  · exact nomatch h
  next hchildren =>
    obtain rfl := Option.some.inj (Except.ok.inj h)
    obtain ⟨_, _, _, _, hblocked⟩ := checkChildren_inr hchildren
    exact nomatch hblocked
  · exact nomatch Option.some.inj (Except.ok.inj h)
  · split at h
    · obtain ⟨rfl, rfl⟩ := SafetyResult.pendingApproval.inj (Option.some.inj (Except.ok.inj h))
      exact ⟨rfl, rfl⟩
    · exact nomatch Except.ok.inj h

end

/-! ## The handlers -/

section
variable {db : Database} {listed : List ServiceRow} {args : Args} {service row : ServiceRow}

theorem firstNamed_iff (h : listed.find? (·.name = name) = some service) :
    FirstNamed listed name row ↔ service.id = row.id := by
  rw [FirstNamed, h, Option.map_some, Option.some.injEq]

theorem getServiceByName_ok (h : getServiceByName listed name = .ok service) :
    listed.find? (·.name = name) = some service := by
  unfold getServiceByName at h
  split at h
  · exact nomatch h
  next found hfound =>
    split at h
    · obtain rfl := Except.ok.inj h
      exact hfound
    · exact nomatch h

theorem resolveServiceByIdOrName_ok (h : resolveServiceByIdOrName db listed args = .ok service) :
    (∃ serviceId, readString args.serviceId = some serviceId ∧ db.getService serviceId = some service) ∨
      readString args.serviceId = none ∧
        listed.find? (·.name = (readString args.serviceName).getD "") = some service := by
  unfold resolveServiceByIdOrName at h
  split at h
  next serviceId hserviceId =>
    split at h
    next hservice =>
      obtain rfl := Except.ok.inj h
      exact .inl ⟨serviceId, hserviceId, hservice⟩
    · exact nomatch h
  next hserviceId =>
    split at h
    next hservice =>
      obtain rfl := Except.ok.inj h
      exact .inr ⟨hserviceId, hservice⟩
    · exact nomatch h

/-- The only workload of the name in scope, or the only one in the project of the name. -/
theorem resolveServiceByName_ok (h : resolveServiceByName db name projectName = .ok service)
    (hkind : isManagedKind service.kind = false) :
    (scopedServices db name (resolveProjectScope db projectName)).filter (!isManagedKind ·.kind) =
        [service] ∨
      scopedServices db name (resolveProjectScope db projectName) = [] ∧ projectName = none ∧
        ∃ project, resolveProjectScope db (some name) = some project ∧
          (db.getDeployablesByGroup project.id).filter (!isManagedKind ·.kind) = [service] := by
  unfold resolveServiceByName at h
  dsimp only at h
  split at h
  · exact nomatch h
  split at h
  · exact nomatch h
  next single hsingle =>
    obtain rfl := Except.ok.inj h
    exact .inl hsingle
  next found hnone hhead =>
    obtain rfl : found = service := Except.ok.inj h
    have hworkload : (!isManagedKind found.kind) = true := (iff_of_eq (Bool.not_eq_true' _)).mpr hkind
    have hnot := List.filter_eq_nil_iff.mp hnone found (List.mem_of_mem_head? hhead)
    exact absurd hworkload hnot
  next hhead =>
    have hnil := List.head?_eq_none_iff.mp hhead
    split at h
    · exact nomatch h
    split at h
    · exact nomatch h
    next halias =>
      obtain rfl := Except.ok.inj h
      unfold resolveSingleDeployableProjectAlias at halias
      split at halias
      · exact nomatch Except.ok.inj halias
      next project hproject =>
        split at halias
        · exact nomatch Except.ok.inj halias
        next single hsingle =>
          obtain rfl := Option.some.inj (Except.ok.inj halias)
          exact .inr ⟨hnil, rfl, project, hproject, hsingle⟩
        · exact nomatch halias
    · exact nomatch h

theorem eq_of_filter_eq_singleton {p : ServiceRow → Bool} {rows : List ServiceRow}
    (h : rows.filter p = [service]) : (p row = true ∧ row ∈ rows ↔ row = service) := by
  rw [and_comm, ← List.mem_filter, h, List.mem_singleton]

/-- A workload that a name is resolved to is the one that it names. -/
theorem namesWorkload_iff (hname : readString args.serviceName = some name)
    (h : resolveServiceByName db name (readString args.projectName) = .ok service)
    (hkind : isManagedKind service.kind = false) : NamesWorkload db args row ↔ row = service := by
  have hnot {row : ServiceRow} : isManagedKind row.kind = false ↔ (!isManagedKind row.kind) = true :=
    (iff_of_eq (Bool.not_eq_true' _)).symm
  obtain hsingle | ⟨hnil, hprojectName, project, hproject, hsingle⟩ := resolveServiceByName_ok h hkind
  · rw [← eq_of_filter_eq_singleton hsingle]
    constructor
    · intro ⟨name', hname', hworkload, hnamed⟩
      obtain rfl := Option.some.inj (hname.symm.trans hname')
      refine ⟨hnot.mp hworkload, ?_⟩
      obtain hnamed | ⟨hnil, -⟩ := hnamed
      · exact hnamed
      · rw [hnil] at hsingle
        exact nomatch hsingle
    · intro ⟨hworkload, hnamed⟩
      exact ⟨name, hname, hnot.mpr hworkload, .inl hnamed⟩
  · rw [← eq_of_filter_eq_singleton hsingle]
    constructor
    · intro ⟨name', hname', hworkload, hnamed⟩
      obtain rfl := Option.some.inj (hname.symm.trans hname')
      refine ⟨hnot.mp hworkload, ?_⟩
      obtain hnamed | ⟨-, -, project', hproject', hmem⟩ := hnamed
      · rw [hnil] at hnamed
        exact absurd hnamed List.not_mem_nil
      · obtain rfl := Option.some.inj (hproject.symm.trans hproject')
        exact hmem
    · intro ⟨hworkload, hmem⟩
      exact ⟨name, hname, hnot.mpr hworkload, .inr ⟨hnil, hprojectName, project, hproject, hmem⟩⟩

theorem lookupDeployable_ok (h : lookupDeployable db args = .ok service) :
    (∃ serviceId, readString args.serviceId = some serviceId ∧ db.getService serviceId = some service) ∨
      readString args.serviceId = none ∧ ∃ name, readString args.serviceName = some name ∧
        resolveServiceByName db name (readString args.projectName) = .ok service := by
  unfold lookupDeployable at h
  split at h
  next serviceId hserviceId =>
    split at h
    next hservice =>
      obtain rfl := Except.ok.inj h
      exact .inl ⟨serviceId, hserviceId, hservice⟩
    · exact nomatch h
  next name hserviceId hname => exact .inr ⟨hserviceId, name, hname, h⟩
  · exact nomatch h

theorem resolve_deployable_ok
    (h : Handler.resolve db listed operation args .deployable = .ok service) :
    ∃ project, resolveDeployableService db args operation = .ok (service, project) := by
  unfold Handler.resolve at h
  cases hresolved : resolveDeployableService db args operation with
  | error e =>
    rw [hresolved] at h
    exact nomatch h
  | ok resolved =>
    rw [hresolved] at h
    obtain rfl := Except.ok.inj h
    exact ⟨resolved.2, rfl⟩

/-- A service that is resolved is in the tables, as far as `list` leaves the rows as they are. -/
theorem resolve_mem {handler : Handler} (hlisted : Listed db listed)
    (h : handler.resolve db listed operation args = .ok service) :
    ∃ row ∈ db.services, listedIdentity row = listedIdentity service := by
  have hfind {name : String} (h : listed.find? (·.name = name) = some service) :
      ∃ row ∈ db.services, listedIdentity row = listedIdentity service :=
    List.mem_map.mp (hlisted.subset (List.mem_map_of_mem (List.mem_of_find?_eq_some h)))
  cases handler with
  | byId =>
    unfold Handler.resolve at h
    dsimp only at h
    split at h
    next found hfound =>
      obtain rfl := Except.ok.inj h
      exact ⟨found, (Database.getService_eq_some hfound).1, rfl⟩
    · exact nomatch h
  | byName => exact hfind (getServiceByName_ok h)
  | byIdOrName =>
    obtain ⟨serviceId, -, hservice⟩ | ⟨-, hfound⟩ := resolveServiceByIdOrName_ok h
    · exact ⟨service, (Database.getService_eq_some hservice).1, rfl⟩
    · exact hfind hfound
  | deployable =>
    obtain ⟨project, hresolved⟩ := resolve_deployable_ok h
    exact ⟨service, lookupDeployable_mem (resolveDeployableService_ok hresolved).1, rfl⟩

/-- What a handler resolves is the service that the arguments name for it. -/
theorem names_iff {handler : Handler} (h : handler.resolve db listed operation args = .ok service)
    (hrow : row ∈ db.services) : Names db listed args row handler ↔ service.id = row.id := by
  cases handler with
  | byId =>
    unfold Handler.resolve at h
    dsimp only at h
    split at h
    next found hfound =>
      obtain rfl := Except.ok.inj h
      rw [(Database.getService_eq_some hfound).2]
      rfl
    · exact nomatch h
  | byName => exact firstNamed_iff (getServiceByName_ok h)
  | byIdOrName =>
    unfold Names
    obtain ⟨serviceId, hserviceId, hservice⟩ | ⟨hserviceId, hfound⟩ := resolveServiceByIdOrName_ok h
    · rw [hserviceId, (Database.getService_eq_some hservice).2]
    · rw [hserviceId]
      exact firstNamed_iff hfound
  | deployable =>
    obtain ⟨project, hresolved⟩ := resolve_deployable_ok h
    obtain ⟨hlookup, hkind, -⟩ := resolveDeployableService_ok hresolved
    unfold Names
    obtain ⟨serviceId, hserviceId, hservice⟩ | ⟨hserviceId, name, hname, h⟩ :=
      lookupDeployable_ok hlookup
    · rw [hserviceId, (Database.getService_eq_some hservice).2]
    · rw [hserviceId]
      dsimp only
      rw [namesWorkload_iff hname h hkind]
      constructor
      · intro hrow
        exact congrArg _ hrow.symm
      · intro hid
        exact List.inj_on_of_nodup_map db.nodup_serviceIds hrow (lookupDeployable_mem hlookup) hid.symm

end

/-! ## Agreement -/

section
variable {db db' : Database} {listed : List ServiceRow} {args : Args} {service : ServiceRow}

theorem args_of_accepts {handler : Handler} (h : handler.accepts args = true) :
    args.serviceIds = [] ∧ args.projectId = none := by
  unfold Handler.accepts at h
  simp only [Bool.and_eq_true, List.isEmpty_iff, Option.isNone_iff_eq_none] at h
  exact ⟨h.1.1.1.1.1, h.1.1.1.1.2⟩

/-- The service that a handler resolves in the tables `db'` is the one that the gate has found in `db`
exactly if the arguments identify it. -/
theorem serviceId_eq_iff {handler : Handler} (haccepts : handler.accepts args = true)
    (htarget : evaluatedTarget db args identity = .ok target) (hlisted : Listed db' listed)
    (h : handler.resolve db' listed operation args = .ok service) :
    target.serviceId = some service.id ↔ Identifies db args identity db' listed handler := by
  obtain ⟨hids, hproject⟩ := args_of_accepts haccepts
  rw [(evaluatedTarget_ok hids hproject htarget).iff]
  constructor
  · intro ⟨row, hrow, hid⟩
    obtain ⟨row', hrow', hidentity⟩ := resolve_mem hlisted h
    have hid' : row'.id = service.id := congrArg (·.1) hidentity
    exact ⟨row, hrow, row', hrow', hid'.trans hid.symm, (names_iff h hrow').mpr hid'.symm⟩
  · intro ⟨row, hrow, row', hrow', hid, hnames⟩
    exact ⟨row, hrow, hid.symm.trans ((names_iff h hrow').mp hnames).symm⟩

/-- The target of a service is in its project. -/
theorem evaluatedTarget_of_mem {handler : Handler} {row : ServiceRow}
    (haccepts : handler.accepts args = true)
    (htarget : evaluatedTarget db args identity = .ok target) (hrow : row ∈ db.services)
    (hid : target.serviceId = some row.id) :
    target = { projectId := some row.projectId, serviceId := some row.id } := by
  obtain ⟨hids, hproject⟩ := args_of_accepts haccepts
  obtain ⟨found, hfound, hprojectId, hserviceId⟩ | ⟨-, hnone⟩ :=
    evaluatedTarget_ok hids hproject htarget
  · have hmem : found ∈ db.services := candidates_subset (hfound ▸ List.mem_singleton_self found)
    obtain rfl := List.inj_on_of_nodup_map db.nodup_serviceIds hmem hrow
      (Option.some.inj (hserviceId.symm.trans hid))
    cases target
    obtain rfl := hprojectId
    obtain rfl := hserviceId
    rfl
  · exact nomatch hnone.symm.trans hid

/-- The permissions of the tool have been evaluated for the service. -/
def Evaluated (db : Database) (args : Args) (identity : Option RequestIdentity) (service : ServiceRow) :
    Prop :=
  evaluatedTarget db args identity =
    .ok { projectId := some service.projectId, serviceId := some service.id }

/-- Where a tool passes the gate, the permission that has been evaluated is that of the service which its
handler resolves exactly if the arguments identify this service. Where it waits for approval and is
executed later, in any other tables, the same holds of the service that the plan records. -/
theorem evaluated_iff (tool : PolicyTool) (db : Database) (args : Args)
    (identity : Option RequestIdentity) (_htool : tool.handler = some handler)
    (haccepts : handler.accepts args = true) :
    (∀ listed service, maybeRejectMcpScope db args identity = .ok none →
      maybeHandleMcpSafety db tool args identity = .ok none → Listed db listed →
      handler.resolve db listed tool.name args = .ok service →
        (Evaluated db args identity service ↔ Identifies db args identity db listed handler)) ∧
    ∀ projectId serviceId db' listed service, maybeRejectMcpScope db args identity = .ok none →
      maybeHandleMcpSafety db tool args identity = .ok (some (.pendingApproval projectId serviceId)) →
      Listed db' listed →
      executeApproved db' listed tool handler projectId serviceId identity args = .ok service →
        (serviceId = some service.id ↔ Identifies db args identity db' listed handler) := by
  constructor
  · intro listed service _ hsafety hlisted h
    obtain ⟨target, htarget, -⟩ := maybeHandleMcpSafety_ok_iff.mp hsafety
    rw [← serviceId_eq_iff haccepts htarget hlisted h, Evaluated, htarget, Except.ok.injEq]
    constructor
    · intro heq
      exact congrArg (·.serviceId) heq
    · intro hid
      obtain ⟨row, hrow, hidentity⟩ := resolve_mem hlisted h
      have hrowId : row.id = service.id := congrArg (·.1) hidentity
      have hrowProject : row.projectId = service.projectId := congrArg (·.2.1) hidentity
      rw [evaluatedTarget_of_mem haccepts htarget hrow (hrowId ▸ hid), hrowId, hrowProject]
  · intro projectId serviceId db' listed service _ hsafety hlisted h
    obtain ⟨target, htarget, -, hpending⟩ := maybeHandleMcpSafety_ok_iff.mp hsafety
    obtain ⟨-, rfl⟩ := handleSafety_pendingApproval hpending
    obtain ⟨_, -, h⟩ := bind_eq_ok.mp h
    split at h
    · exact nomatch h
    · exact serviceId_eq_iff haccepts htarget hlisted h

end

/-! ## A workload that is named by its project -/

section

def web : ServiceRow where
  id := "web__svc"
  projectId := "p1"
  name := "web"
  kind := .git

def shopTables (settings : Settings) : Database where
  services := [web]
  projects := [{ id := "p1", name := "shop" }]
  settings
  nodup_serviceIds := by decide
  nodup_projectIds := by decide

/-- Workloads may be stopped at once, except those of the project `shop`. -/
def shopHeld : Settings
  | .global => some (some { appLifecycle := some .allow })
  | .project "p1" => some (some { appLifecycle := some .approvalRequired })
  | _ => none

theorem listed_shopTables (settings : Settings) : Listed (shopTables settings) [web] := .refl _

/-- Workloads may be stopped at once. -/
def allAllowed : Settings
  | .global => some (some { appLifecycle := some .allow })
  | _ => none

/-- By its own name the workload is stopped at once, or when it has been approved. -/
theorem evaluated_web :
    Evaluated (shopTables allAllowed) { serviceName := some " web" } none web ∧
      (some "web__svc" = some web.id ↔ Identifies (shopTables fun _ => none)
        { serviceName := some " web" } none (shopTables shopHeld) [web] .deployable) := by
  have haccepts : Handler.accepts .deployable { serviceName := some " web" } = true := by decide
  constructor
  · have hiff := (evaluated_iff .stopApp (shopTables allAllowed) _ none rfl haccepts).1 [web] web
      (by decide) (by decide) (listed_shopTables allAllowed) (by decide)
    refine hiff.mpr ⟨web, by decide, web, .head _, rfl, "web", by decide, rfl, .inl ?_⟩
    decide
  · exact (evaluated_iff .stopApp (shopTables fun _ => none) _ none rfl haccepts).2 (some "p1")
      (some "web__svc") (shopTables shopHeld) [web] web (by decide) (by decide)
      (listed_shopTables shopHeld) (by decide)

/-- Of the name of the project the gate knows nothing, and takes the permission that is set for all. -/
theorem not_evaluated : ¬∀ (tool : PolicyTool) (handler : Handler) (db : Database)
    (listed : List ServiceRow) (args : Args) (identity : Option RequestIdentity) (service : ServiceRow),
    tool.handler = some handler → handler.accepts args = true →
    maybeRejectMcpScope db args identity = .ok none →
    maybeHandleMcpSafety db tool args identity = .ok none → Listed db listed →
    handler.resolve db listed tool.name args = .ok service → Evaluated db args identity service := by
  intro h
  have hevaluated := h .stopApp .deployable (shopTables shopHeld) [web] { serviceName := some "shop" }
    none web rfl (by decide) (by decide) (by decide)
    (listed_shopTables shopHeld) (by decide)
  have hnot : evaluatedTarget (shopTables shopHeld) { serviceName := some "shop" } none =
      .ok {} := by decide
  exact nomatch Except.ok.inj (hnot.symm.trans hevaluated)

end

end OpenLander.Mcp
