import OpenLander.Mcp.ActionRun
import OpenLander.Mcp.DestructiveSafety
import OpenLander.Tools.Resolve
import OpenLander.Theory.Run

/-! # Executing destructive actions

All ways on which an agent stops, deletes or archives a workload: at once, where
`maybeHandleMcpSafety` lets a tool pass; after a human has approved it, or the call has been resumed,
by `executeClaimedMcpAction` (`src/mcp/destructive-executor.ts`); and for several services by
`executeAppCleanup` (`src/mcp/app-cleanup.ts`). They end in `stopService` and `deleteService`, which check
the permissions of all services below a Compose service, and in `archive`, which checks none
(`src/pipeline/deploy-core.ts`). -/

namespace OpenLander.Mcp.Executor
open Theory Db.Services Security Tools

inductive Action
  | stopApp
  | deleteApp
  | archiveService
  deriving DecidableEq, Repr

def Action.tool : Action → PolicyTool
  | .stopApp => .stopApp
  | .deleteApp => .deleteApp
  | .archiveService => .archiveService

def Action.name : Action → String
  | .stopApp => "stop_app"
  | .deleteApp => "delete_app"
  | .archiveService => "archive_service"

def Action.permissionKey (action : Action) : PermissionKey := action.tool.permissionKey

/-! ## The pipeline -/

section
variable (db : Database)

def assertServiceAllowed (permission : PermissionKey) (row : ServiceRow) : Except Error Unit :=
  match assertAllowed permission db.settings { projectId := row.projectId, serviceId := row.id } with
  | .error e => .error (.permission e)
  | .ok _ => .ok ()

/-- The services whose overrides `stopService` respects beside that of the service itself. -/
def stopTargets (service : ServiceRow) : List ServiceRow :=
  if service.kind = .compose then db.services.filter (·.id ∈ db.expandedIds service.id) else []

/-- `stopService`, up to the first container that it stops. The pipeline is ready if the deploy locks
are free and its other checks pass. -/
def stopService (ready : Bool) (serviceId : String) : Except Error ServiceRow :=
  match db.getService serviceId with
  | none => .error (.serviceNotFound serviceId)
  | some service =>
    if isManagedKind service.kind then .error (.serviceOperationUnsupported "stop_app" service.kind)
    else if (db.getProject service.projectId).isNone then
      .error (.projectNotFound service.projectId)
    else if !ready then .error .pipeline
    else do
      assertServiceAllowed db .appLifecycle service
      (stopTargets db service).forM (assertServiceAllowed db .appLifecycle)
      return service

def deleteTargets (service : ServiceRow) : List ServiceRow :=
  if service.kind = .compose then db.services.filter (·.id ∈ db.descendantIds service.id)
  else [service]

/-- `deleteService`, up to the first service that it deletes. -/
def deleteService (ready : Bool) (serviceId : String) : Except Error ServiceRow :=
  match db.getService serviceId with
  | none => .error (.serviceNotFound serviceId)
  | some service =>
    if isManagedKind service.kind then .error (.serviceOperationUnsupported "delete_app" service.kind)
    else if (db.getProject service.projectId).isNone then
      .error (.projectNotFound service.projectId)
    else if !ready then .error .pipeline
    else do
      (deleteTargets db service).forM (assertServiceAllowed db .appLifecycle)
      return service

/-- The service that the handler of the tool acts on. -/
def executeTool (ready : Bool) (action : Action) (args : Args) : Except Error ServiceRow :=
  match resolveDeployableService db args action.name with
  | .error e => .error e
  | .ok (service, _) =>
    match action with
    | .stopApp => stopService db ready service.id
    | .deleteApp => deleteService db ready service.id
    | .archiveService =>
      if service.archived then .error .archived
      else if !ready then .error .pipeline
      else .ok service

/-! ## Cleanup -/

inductive CleanupOperation
  | stop
  | delete
  deriving DecidableEq, Repr

def CleanupOperation.action : CleanupOperation → Action
  | .stop => .stopApp
  | .delete => .deleteApp

structure AppCleanupArgs where
  projectId : String
  serviceIds : List String
  operation : CleanupOperation
  deriving DecidableEq, Repr

/-- A selected service is above. The number bounds the rows that are still to be visited. -/
def hasTargetAbove (targets : List String) : Nat → List String → Option String → Bool
  | left + 1, seen, some parent =>
    if parent ∈ seen then false
    else if parent ∈ targets then true
    else hasTargetAbove targets left (parent :: seen)
      ((db.getService parent).bind (·.parentServiceId))
  | _, _, _ => false

def checkCleanupTarget (args : AppCleanupArgs) (id : String) : Except Error (List String) :=
  match db.getService id with
  | none => .error (.serviceNotFound id)
  | some service =>
    if service.projectId ≠ args.projectId then .error (.scopeViolation "")
    else if isManagedKind service.kind then .error .invalidCleanupTarget
    else .ok (if service.kind = .compose then db.descendantIds id else [id])

/-- The roots, and what the gate says of each service that is affected. -/
def inspectAppCleanup (args : AppCleanupArgs) (identity : Option RequestIdentity) :
    Except Error (List String × List (String × Option SafetyResult)) := do
  let found ← args.serviceIds.mapM (checkCleanupTarget db args)
  let targets := (args.serviceIds ++ found.flatten).foldl insertLast []
  let roots := args.serviceIds.filter fun id =>
    !hasTargetAbove db targets (db.services.length + 1) []
      ((db.getService id).bind (·.parentServiceId))
  let permissions ← targets.mapM fun id => do
    if ((db.getService id).map (·.projectId)) ≠ some args.projectId then
      .error (.scopeViolation "")
    else
      match ← maybeRejectMcpScope db { serviceId := id } identity with
      | some reason => .error (.scopeViolation reason)
      | none =>
        let response ← maybeHandleMcpSafety db args.operation.action.tool { serviceId := id } identity
        return (id, response)
  return (roots, permissions)

/-- A root of a cleanup. With `requirePermission` approval is not enough. -/
def cleanupRoot (ready requirePermission : Bool) (args : AppCleanupArgs)
    (identity : Option RequestIdentity) (serviceId : String) : Except Error ServiceRow := do
  let rejection ←
    maybeHandleMcpSafety db args.operation.action.tool { serviceId := serviceId } identity
  match rejection, requirePermission with
  | none, _ | some (.pendingApproval ..), false =>
    match args.operation with
    | .stop => stopService db ready serviceId
    | .delete => deleteService db ready serviceId
  | _, _ => .error (.permission (.denied .appLifecycle { serviceId := serviceId }))

end

/-! ## Runs -/

inductive PlanWork
  | tool (action : Action) (args : Args)
  | cleanup (args : AppCleanupArgs)

structure Plan where
  work : PlanWork
  targetProjectId : Option String
  targetServiceId : Option String := none
  identity : Option RequestIdentity

/-- How far the execution of a run is. -/
inductive Progress
  | waiting
  | claimed (requirePermission : Bool)
  /-- The roots of a cleanup that are still to come. -/
  | cleaning (requirePermission failed : Bool) (roots : List String)

structure ActionRun where
  row : ActionRun.ActionRunRow := ActionRun.createPendingMcpApproval
  plan : Plan
  progress : Progress := .waiting

/-- An action that is carried out on a service, with the tables at that time. -/
structure Carried where
  action : Action
  root : ServiceRow
  db : Database

structure State (ι : Type*) where
  db : Database
  runs : ι → Option ActionRun := fun _ => none
  carried : List Carried := []

inductive Event (ι : Type*)
  /-- The tables or the permissions change, by an action or in any other way. -/
  | edit (db : Database)
  /-- An agent calls a tool. If it is held it becomes the run `id`. -/
  | call (action : Action) (args : Args) (identity : Option RequestIdentity) (id : ι) (ready : Bool)
  | cleanupApps (args : AppCleanupArgs) (identity : Option RequestIdentity) (id : ι)
  /-- A human approves a run. -/
  | approve (id : ι)
  /-- An agent resumes a run, once the permission has been granted. -/
  | resume (id : ι) (identity : Option RequestIdentity)
  /-- The execution of a claimed run begins. -/
  | execute (id : ι) (ready : Bool)
  /-- It comes to the next root. -/
  | cleanupRoot (id : ι) (ready : Bool)
  /-- The server stops, and fails all runs that have not ended when it starts again. -/
  | restart

section
variable {ι : Type*}

def State.carry (s : State ι) (action : Action) : Except Error ServiceRow → State ι
  | .ok root => { s with carried := s.carried ++ [{ action, root, db := s.db }] }
  | .error _ => s

variable [DecidableEq ι]

def State.setRun (s : State ι) (id : ι) (run : ActionRun) : State ι :=
  { s with runs := Function.update s.runs id (some run) }

/-- `claimMcpActionExecution` -/
def State.claim (s : State ι) (id : ι) (permissionGranted : Bool) (run : ActionRun) : State ι :=
  match ActionRun.claimMcpExecution permissionGranted run.row with
  | some row => s.setRun id { run with row, progress := .claimed permissionGranted }
  | none => s

def State.finish (s : State ι) (id : ι) (status : ActionRun.Status) (run : ActionRun) : State ι :=
  s.setRun id { run with row := ActionRun.updateStatus status run.row, progress := .waiting }

def call (s : State ι) (action : Action) (args : Args) (identity : Option RequestIdentity) (id : ι)
    (ready : Bool) : State ι :=
  match maybeRejectMcpScope s.db args identity with
  | .ok none =>
    match maybeHandleMcpSafety s.db action.tool args identity with
    | .ok none => s.carry action (executeTool s.db ready action args)
    | .ok (some (.pendingApproval targetProjectId targetServiceId)) => s.setRun id {
        plan := { work := .tool action args, targetProjectId, targetServiceId, identity } }
    | _ => s
  | _ => s

def cleanupApps (s : State ι) (args : AppCleanupArgs) (identity : Option RequestIdentity) (id : ι) :
    State ι :=
  match maybeRejectMcpScope s.db
      { serviceIds := args.serviceIds, projectId := args.projectId } identity,
    inspectAppCleanup s.db args identity with
  | .ok none, .ok (_, permissions) =>
    let run : ActionRun := {
      plan := { work := .cleanup args, targetProjectId := args.projectId, identity } }
    if permissions.any fun (_, response) =>
        match response with
        | some (.blocked ..) => true
        | _ => false
    then s
    else if permissions.any (·.2.isSome) then s.setRun id run
    else (s.setRun id run).claim id true run
  | _, _ => s

/-- One of the runs of `resumeMcpActions`. -/
def resume (s : State ι) (id : ι) (identity : Option RequestIdentity) (run : ActionRun) : State ι :=
  if run.row.status ≠ .pendingApproval ∨ run.row.approvalStatus = .rejected then s
  else match run.plan.work with
    | .tool .archiveService _ => s
    | .tool action args =>
      match maybeRejectMcpScope s.db args identity,
        maybeHandleMcpSafety s.db action.tool args identity with
      | .ok none, .ok none => s.claim id true run
      | _, _ => s
    | .cleanup args =>
      match inspectAppCleanup s.db args identity with
      | .ok (_, permissions) => if permissions.any (·.2.isSome) then s else s.claim id true run
      | .error _ => s

/-- `executeClaimedMcpAction`, for a plan of a tool. -/
def executePlan (db : Database) (ready requirePermission : Bool) (plan : Plan) (action : Action)
    (args : Args) : Except Error ServiceRow := do
  assertMcpActiveScope plan.targetProjectId plan.targetServiceId plan.identity
  match assertAllowed action.permissionKey db.settings
      { projectId := plan.targetProjectId, serviceId := plan.targetServiceId } with
  | .error e => .error (.permission e)
  | .ok _ =>
    if requirePermission then
      match ← maybeHandleMcpSafety db action.tool args plan.identity with
      | some _ => .error (.permission (.denied action.permissionKey {}))
      | none => executeTool db ready action args
    else executeTool db ready action args

def execute (s : State ι) (id : ι) (ready : Bool) (run : ActionRun) : State ι :=
  match run.progress, run.plan.work with
  | .claimed requirePermission, .tool action args =>
    let result := executePlan s.db ready requirePermission run.plan action args
    (s.carry action result).finish id
      (match result with
        | .ok _ => .succeeded
        | .error _ => .failed) run
  | .claimed requirePermission, .cleanup args =>
    match assertMcpActiveScope run.plan.targetProjectId run.plan.targetServiceId run.plan.identity,
      inspectAppCleanup s.db args run.plan.identity with
    | .ok _, .ok (roots, _) =>
      s.setRun id { run with progress := .cleaning requirePermission false roots }
    | _, _ => s.finish id .failed run
  | _, _ => s

/-- A root that fails does not keep the next one from its turn. -/
def continueCleanup (s : State ι) (id : ι) (ready : Bool) (run : ActionRun) : State ι :=
  match run.progress, run.plan.work with
  | .cleaning requirePermission failed (root :: roots), .cleanup args =>
    let result := cleanupRoot s.db ready requirePermission args run.plan.identity root
    (s.carry args.operation.action result).setRun id
      { run with progress := .cleaning requirePermission (failed || !result.isOk) roots }
  | .cleaning _ failed [], _ => s.finish id (if failed then .failed else .succeeded) run
  | _, _ => s

def next (s : State ι) : Event ι → Option (State ι)
  | .edit db => some { s with db }
  | .call action args identity id ready =>
    if (s.runs id).isNone then some (call s action args identity id ready) else none
  | .cleanupApps args identity id =>
    if (s.runs id).isNone then some (cleanupApps s args identity id) else none
  | .approve id => (s.runs id).map fun run =>
      let run := { run with row :=
        ActionRun.updateApproval .approved (some ActionRun.destructiveMcp) run.row }
      (s.setRun id run).claim id false run
  | .resume id identity => (s.runs id).map (resume s id identity)
  | .execute id ready => (s.runs id).map (execute s id ready)
  | .cleanupRoot id ready => (s.runs id).map (continueCleanup s id ready)
  | .restart => some { s with runs := fun id => (s.runs id).map fun run =>
      { run with
        row := ActionRun.rejectPending (ActionRun.failStale (ActionRun.failApproved run.row))
        progress := .waiting } }

end

/-! ## The claim -/

/-- Neither the service nor one below it is blocked. -/
def NothingBlocked (db : Database) (permission : PermissionKey) (root : ServiceRow) : Prop :=
  ∀ row ∈ db.services, db.Below root.id row.id → ¬db.Blocked permission row

/-- No action has been carried out on a Compose service while it or one below it was blocked. -/
def NeverBlocked {ι : Type*} (s : State ι) : Prop :=
  ∀ c ∈ s.carried, c.root.kind = .compose → NothingBlocked c.db c.action.permissionKey c.root

/-- No other service below it is blocked. -/
def NoChildBlocked (db : Database) (permission : PermissionKey) (root : ServiceRow) : Prop :=
  ∀ row ∈ db.services, db.Below root.id row.id → row.id ≠ root.id → ¬db.Blocked permission row

/-- The plan names the service. -/
def Plan.Targets (plan : Plan) (root : ServiceRow) : Prop :=
  plan.targetProjectId = some root.projectId ∧ plan.targetServiceId = some root.id

/-- Where an `archive_service` of a Compose service is carried out after its approval, nothing below the
service is blocked, and neither is the service itself unless the plan names it. Where it is carried out
at once, the gate has evaluated this service, or nothing is blocked. -/
def ArchivesAllowed {ι : Type*} (s : State ι) : Event ι → Prop
  | .call .archiveService args identity _ _ =>
    ∀ root project, resolveDeployableService s.db args Action.archiveService.name = .ok (root, project) →
      root.kind = .compose →
      (∃ target, resolveMcpScopeTarget s.db args identity = .ok (some target) ∧
        target.serviceId = some root.id) ∨ NothingBlocked s.db .destructiveActions root
  | .execute id _ => ∀ run, s.runs id = some run → ∀ args, run.plan.work = .tool .archiveService args →
    ∀ root project, resolveDeployableService s.db args Action.archiveService.name = .ok (root, project) →
      root.kind = .compose →
      (run.plan.Targets root ∨ ¬s.db.Blocked .destructiveActions root) ∧
        NoChildBlocked s.db .destructiveActions root
  | _ => True

/-! ## The pipeline and the gate -/

section
variable {db : Database} {root : ServiceRow}

theorem not_blocked_of_assertServiceAllowed
    (h : assertServiceAllowed db permission row = .ok ()) : ¬db.Blocked permission row := by
  unfold assertServiceAllowed at h
  split at h
  · exact nomatch h
  next hallowed => exact not_blocks_of_assertAllowed hallowed

theorem nothingBlocked_of_forM {ids : List String}
    (h : (db.services.filter (·.id ∈ ids)).forM (assertServiceAllowed db permission) = .ok ())
    (hids : ∀ id, db.Below root.id id → id ∈ ids) : NothingBlocked db permission root := by
  intro row hrow hbelow
  refine not_blocked_of_assertServiceAllowed (forM_eq_ok.mp h row ?_)
  exact List.mem_filter.mpr ⟨hrow, decide_eq_true (hids row.id hbelow)⟩

theorem nothingBlocked_of_noChildBlocked (hroot : root ∈ db.services)
    (h : ¬db.Blocked permission root) (hchildren : NoChildBlocked db permission root) :
    NothingBlocked db permission root := by
  intro row hrow hbelow
  by_cases hid : row.id = root.id
  · rw [List.inj_on_of_nodup_map db.nodup_serviceIds hrow hroot hid]
    exact h
  · exact hchildren row hrow hbelow hid

/-- `stopService` checks all services below. -/
theorem stopService_ok (h : stopService db ready serviceId = .ok root) (hkind : root.kind = .compose) :
    NothingBlocked db .appLifecycle root := by
  unfold stopService at h
  split at h
  · exact nomatch h
  next service hservice =>
    split at h
    · exact nomatch h
    split at h
    · exact nomatch h
    split at h
    · exact nomatch h
    obtain ⟨-, -, h⟩ := bind_eq_ok.mp h
    obtain ⟨_, hforM, h⟩ := bind_eq_ok.mp h
    obtain rfl := Except.ok.inj h
    rw [stopTargets, if_pos hkind] at hforM
    exact nothingBlocked_of_forM hforM fun id hid => Database.mem_expandedIds.mpr hid

/-- `deleteService` checks all services below. -/
theorem deleteService_ok (h : deleteService db ready serviceId = .ok root)
    (hkind : root.kind = .compose) : NothingBlocked db .appLifecycle root := by
  unfold deleteService at h
  split at h
  · exact nomatch h
  next service hservice =>
    split at h
    · exact nomatch h
    split at h
    · exact nomatch h
    split at h
    · exact nomatch h
    obtain ⟨_, hforM, h⟩ := bind_eq_ok.mp h
    obtain rfl := Except.ok.inj h
    rw [deleteTargets, if_pos hkind] at hforM
    exact nothingBlocked_of_forM hforM fun id hid => Database.mem_descendantIds.mpr hid

theorem not_blocked_of_checkChild
    (h : checkChild db permission required child = .ok (.inl required')) :
    ¬db.Blocked permission child := by
  unfold checkChild at h
  split at h
  · exact nomatch h
  next permissions hpermissions =>
    split at h
    · exact nomatch Except.ok.inj h
    next hblock =>
      refine not_blocks_iff.mpr fun snapshot hsnapshot => ?_
      obtain rfl := Except.ok.inj (hpermissions.symm.trans hsnapshot)
      exact hblock

theorem not_blocked_of_checkChildren {children : List ServiceRow}
    (h : checkChildren db permission required children = .ok (.inl required')) :
    ∀ child ∈ children, ¬db.Blocked permission child := by
  induction children generalizing required with
  | nil => exact nofun
  | cons child children ih =>
    unfold checkChildren at h
    split at h
    next hchild =>
      intro row hrow
      cases hrow with
      | head => exact not_blocked_of_checkChild hchild
      | tail _ hrow => exact ih h row hrow
    next hnot => exact absurd h (hnot required')

/-- Where the gate lets a tool pass on a Compose service, it has checked all services below. -/
theorem handleSafety_ok {action : Action}
    (h : handleSafety db action.tool targetProjectId (some root.id) = .ok none)
    (hroot : root ∈ db.services) (hkind : root.kind = .compose) :
    NothingBlocked db action.permissionKey root := by
  have haffected : affected db action.tool (some root.id) =
      db.services.filter (·.id ∈ db.expandedIds root.id) := by
    rw [affected, Option.bind_some, Database.getService_of_mem hroot]
    cases action <;> exact if_pos (Bool.and_eq_true_iff.mpr ⟨rfl, decide_eq_true hkind⟩)
  unfold handleSafety at h
  split at h
  · exact nomatch h
  next permissions hpermissions =>
    rw [if_neg (by cases action <;> decide), haffected] at h
    split at h
    · exact nomatch h
    · exact nomatch Except.ok.inj h
    · exact nomatch Except.ok.inj h
    next required hchildren =>
      intro row hrow hbelow
      refine not_blocked_of_checkChildren hchildren row (List.mem_filter.mpr ⟨hrow, ?_⟩)
      exact decide_eq_true (Database.mem_expandedIds.mpr hbelow)

/-- The handlers of `stop_app` and `delete_app` check what they act on themselves. -/
theorem executeTool_ok {action : Action}
    (harchive : action = .archiveService → ∀ root project,
      resolveDeployableService db args Action.archiveService.name = .ok (root, project) →
      root.kind = .compose → NothingBlocked db .destructiveActions root)
    (h : executeTool db ready action args = .ok root) (hkind : root.kind = .compose) :
    NothingBlocked db action.permissionKey root := by
  unfold executeTool at h
  split at h
  · exact nomatch h
  next service project hresolve =>
    cases action with
    | stopApp => exact stopService_ok h hkind
    | deleteApp => exact deleteService_ok h hkind
    | archiveService =>
      dsimp only at h
      split at h
      · exact nomatch h
      split at h
      · exact nomatch h
      obtain rfl := Except.ok.inj h
      exact harchive rfl service project hresolve hkind

theorem cleanupRoot_ok {args : AppCleanupArgs}
    (h : cleanupRoot db ready requirePermission args identity serviceId = .ok root)
    (hkind : root.kind = .compose) :
    NothingBlocked db args.operation.action.permissionKey root := by
  obtain ⟨rejection, -, h⟩ := bind_eq_ok.mp h
  have haction (h : (match args.operation with
      | .stop => stopService db ready serviceId
      | .delete => deleteService db ready serviceId) = .ok root) :
      NothingBlocked db args.operation.action.permissionKey root := by
    cases hoperation : args.operation with
    | stop =>
      rw [hoperation] at h
      exact stopService_ok h hkind
    | delete =>
      rw [hoperation] at h
      exact deleteService_ok h hkind
  split at h
  · exact haction h
  · exact haction h
  · exact nomatch h

/-- Where the gate lets `archive_service` pass and has evaluated the service that it names, nothing is
blocked. -/
theorem maybeHandleMcpSafety_ok {action : Action}
    (h : maybeHandleMcpSafety db action.tool args identity = .ok none)
    (htarget : resolveMcpScopeTarget db args identity = .ok (some target))
    (hid : target.serviceId = some root.id) (hroot : root ∈ db.services)
    (hkind : root.kind = .compose) : NothingBlocked db action.permissionKey root := by
  obtain ⟨target', htarget', h⟩ := bind_eq_ok.mp h
  obtain rfl := Except.ok.inj (htarget.symm.trans htarget')
  obtain ⟨-, -, h⟩ := bind_eq_ok.mp h
  rw [Option.bind_some, Option.bind_some, hid] at h
  exact handleSafety_ok h hroot hkind

end

/-! ## Steps -/

section
variable {ι : Type*} {s t : State ι} {e : Event ι} {id : ι}

theorem neverBlocked_carry {action : Action} {result : Except Error ServiceRow} (h : NeverBlocked s)
    (hresult : ∀ root, result = .ok root → root.kind = .compose →
      NothingBlocked s.db action.permissionKey root) : NeverBlocked (s.carry action result) := by
  cases result with
  | error => exact h
  | ok root =>
    intro c hc hkind
    obtain hc | hc := List.mem_append.mp hc
    · exact h c hc hkind
    · obtain rfl := List.mem_singleton.mp hc
      exact hresult root rfl hkind

theorem neverBlocked_of_carried (h : NeverBlocked s) (ht : t.carried = s.carried) :
    NeverBlocked t := by
  rw [NeverBlocked, ht]
  exact h

variable [DecidableEq ι]

@[simp] theorem setRun_carried : (s.setRun id run).carried = s.carried := rfl

@[simp] theorem claim_carried : (s.claim id permissionGranted run).carried = s.carried := by
  unfold State.claim
  split <;> rfl

@[simp] theorem finish_carried : (s.finish id status run).carried = s.carried := rfl

theorem neverBlocked_call (h : NeverBlocked s)
    (hallowed : ArchivesAllowed s (.call action args identity id ready)) :
    NeverBlocked (call s action args identity id ready) := by
  unfold call
  split
  next =>
    split
    next hsafety =>
      refine neverBlocked_carry h fun root hroot hkind => executeTool_ok ?_ hroot hkind
      rintro rfl service project hresolve hcompose
      obtain ⟨target, htarget, hid⟩ | hnothing := hallowed service project hresolve hcompose
      · have hmem := lookupDeployable_mem (resolveDeployableService_ok hresolve).1
        exact maybeHandleMcpSafety_ok hsafety htarget hid hmem hcompose
      · exact hnothing
    · exact neverBlocked_of_carried h setRun_carried
    · exact h
  · exact h

theorem cleanupApps_carried : (cleanupApps s args identity id).carried = s.carried := by
  unfold cleanupApps
  split
  · dsimp only
    split
    · rfl
    split
    · rfl
    · rw [claim_carried, setRun_carried]
  · rfl

theorem resume_carried : (resume s id identity run).carried = s.carried := by
  unfold resume
  split
  · rfl
  split
  · rfl
  · split
    · exact claim_carried
    · rfl
  · split
    · split
      · rfl
      · exact claim_carried
    · rfl

/-- What a plan carries out is what the handler of its tool acts on, where the target of the plan is not
blocked. -/
theorem executePlan_ok {db : Database}
    (h : executePlan db ready requirePermission plan action args = .ok root) :
    executeTool db ready action args = .ok root ∧
      ∀ service, plan.Targets service → ¬db.Blocked action.permissionKey service := by
  obtain ⟨-, -, h⟩ := bind_eq_ok.mp h
  split at h
  · exact nomatch h
  next hallowed =>
    constructor
    · split at h
      · obtain ⟨rejection, -, h⟩ := bind_eq_ok.mp h
        split at h
        · exact nomatch h
        · exact h
      · exact h
    · intro service ⟨hproject, hservice⟩
      rw [hproject, hservice] at hallowed
      exact not_blocks_of_assertAllowed hallowed

theorem neverBlocked_execute (h : NeverBlocked s)
    (harchive : ∀ args, run.plan.work = .tool .archiveService args → ∀ root project,
      resolveDeployableService s.db args Action.archiveService.name = .ok (root, project) →
      root.kind = .compose →
      (run.plan.Targets root ∨ ¬s.db.Blocked .destructiveActions root) ∧
        NoChildBlocked s.db .destructiveActions root) :
    NeverBlocked (execute s id ready run) := by
  unfold execute
  split
  next requirePermission action args hprogress hwork =>
    refine neverBlocked_of_carried (neverBlocked_carry h ?_) finish_carried
    intro root hroot hkind
    refine executeTool_ok ?_ (executePlan_ok hroot).1 hkind
    rintro rfl service project hresolve hcompose
    obtain ⟨htarget, hchildren⟩ := harchive args hwork service project hresolve hcompose
    have hmem := lookupDeployable_mem (resolveDeployableService_ok hresolve).1
    refine nothingBlocked_of_noChildBlocked hmem ?_ hchildren
    exact htarget.elim ((executePlan_ok hroot).2 service) fun hnot => hnot
  · split
    · exact neverBlocked_of_carried h setRun_carried
    · exact neverBlocked_of_carried h finish_carried
  · exact h

theorem neverBlocked_continueCleanup (h : NeverBlocked s) :
    NeverBlocked (continueCleanup s id ready run) := by
  unfold continueCleanup
  split
  · refine neverBlocked_of_carried (neverBlocked_carry h ?_) setRun_carried
    intro root hroot hkind
    exact cleanupRoot_ok hroot hkind
  · exact neverBlocked_of_carried h finish_carried
  · exact h

/-- One case for each kind of event. -/
theorem neverBlocked_next (hnext : next s e = some t) (hallowed : ArchivesAllowed s e)
    (h : NeverBlocked s) : NeverBlocked t := by
  cases e with
  | edit | restart =>
    obtain rfl := Option.some.inj hnext
    exact h
  | call action args identity id ready =>
    obtain ⟨-, ht⟩ := Option.ite_none_right_eq_some.mp hnext
    obtain rfl := Option.some.inj ht
    exact neverBlocked_call h hallowed
  | cleanupApps args identity id =>
    obtain ⟨-, ht⟩ := Option.ite_none_right_eq_some.mp hnext
    obtain rfl := Option.some.inj ht
    exact neverBlocked_of_carried h cleanupApps_carried
  | approve id =>
    obtain ⟨run, -, rfl⟩ := Option.map_eq_some_iff.mp hnext
    exact neverBlocked_of_carried h (claim_carried.trans setRun_carried)
  | resume id identity =>
    obtain ⟨run, -, rfl⟩ := Option.map_eq_some_iff.mp hnext
    exact neverBlocked_of_carried h resume_carried
  | execute id ready =>
    obtain ⟨run, hrun, rfl⟩ := Option.map_eq_some_iff.mp hnext
    exact neverBlocked_execute h (hallowed run hrun)
  | cleanupRoot id ready =>
    obtain ⟨run, -, rfl⟩ := Option.map_eq_some_iff.mp hnext
    exact neverBlocked_continueCleanup h

/-- What is blocked is never stopped or deleted, and never archived in a run that keeps to
`ArchivesAllowed`. -/
theorem neverBlocked_of_archivesAllowed {db : Database} {es : List (Event ι)}
    (h : Run (Guarded (Fires next) ArchivesAllowed) { db } es s) : NeverBlocked s := by
  have hstart : NeverBlocked ({ db } : State ι) := fun _ hmem => absurd hmem List.not_mem_nil
  refine h.invariant (fun s e t hstep hs => ?_) hstart
  obtain ⟨hnext, hallowed⟩ := hstep
  exact neverBlocked_next hnext hallowed hs

end

/-! ## A Compose service with a child that is blocked after the request -/

section

def shop : ServiceRow where
  id := "shop__svc"
  projectId := "shop"
  name := "shop"
  kind := .compose

def web : ServiceRow where
  id := "web__svc"
  projectId := "shop"
  name := "web"
  kind := .composeChild
  parentServiceId := some "shop__svc"

theorem nodup_shop : (([{ id := "shop", name := "shop" }] : List ProjectRow).map (·.id)).Nodup := by
  decide

def shopTables (settings : Settings) : Database where
  services := [web, shop]
  projects := [{ id := "shop", name := "shop" }]
  settings
  nodup_serviceIds := by decide
  nodup_projectIds := nodup_shop

/-- The service `web` may neither be archived nor be stopped. -/
def webBlocked : Settings
  | .service "web__svc" => some (some { destructiveActions := some .block })
  | _ => none

def archiveShop : List (Event Nat) :=
  [.call .archiveService { serviceName := some "shop" } none 0 true,
    .edit (shopTables webBlocked), .approve 0, .execute 0 true]

/-- No service may be blocked from being archived. -/
def Unblocked (s : State Nat) : Prop :=
  ∀ row ∈ s.db.services, ¬s.db.Blocked .destructiveActions row

instance : DecidablePred Unblocked := fun _ => inferInstanceAs (Decidable (∀ row ∈ _, _))

theorem archivesAllowed_of_unblocked {s : State Nat} {e : Event Nat} (h : Unblocked s) :
    ArchivesAllowed s e := by
  unfold ArchivesAllowed
  split
  · intro root project _ _
    exact .inr fun row hrow _ => h row hrow
  · intro run _ args _ root project hresolve _
    have hmem := lookupDeployable_mem (resolveDeployableService_ok hresolve).1
    exact ⟨.inr (h root hmem), fun row hrow _ _ => h row hrow⟩
  · trivial

/-- Where nothing changes in between, the service is archived after its approval. -/
theorem neverBlocked_archiveShop : ∃ s : State Nat, s.carried.length = 1 ∧ NeverBlocked s := by
  obtain ⟨s, hs, hcarried⟩ :
      ∃ s ∈ exec (guardedNext next fun s _ => Unblocked s)
        ({ db := shopTables fun _ => none } : State Nat)
        [.call .archiveService { serviceName := some "shop" } none 0 true, .approve 0,
          .execute 0 true], s.carried.length = 1 := by
    decide
  have hrun := Run.of_exec_guardedNext hs
  refine ⟨s, hcarried, neverBlocked_of_archivesAllowed (hrun.mono ?_)⟩
  intro s e t ⟨hstep, hunblocked⟩
  exact ⟨hstep, archivesAllowed_of_unblocked hunblocked⟩

theorem not_neverBlocked : ¬∀ (db : Database) (es : List (Event Nat)) (s : State Nat),
    Run (Fires next) { db } es s → NeverBlocked s := by
  intro h
  obtain ⟨s, hs, c, hc, hkind, row, hrow, hchild, hblocked⟩ :
      ∃ s ∈ exec next ({ db := shopTables fun _ => none } : State Nat) archiveShop,
        ∃ c ∈ s.carried, c.root.kind = .compose ∧
          ∃ row ∈ c.db.services, c.db.Child c.root.id row.id ∧
            c.db.Blocked c.action.permissionKey row := by
    decide
  exact h _ archiveShop s (.of_exec hs) c hc hkind row hrow (.single hchild) hblocked

end

end OpenLander.Mcp.Executor
