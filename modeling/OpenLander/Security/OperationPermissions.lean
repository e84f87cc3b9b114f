/-! # Operation permissions

`getOperationPermissionSnapshot` (`src/security/operation-permissions.ts`) reads the effective
permissions of a target from the settings, where a service overrides its project and a project
overrides what is set for all. -/

namespace OpenLander.Security

inductive DestructiveActionPermission
  | allow
  | approvalRequired
  | block
  deriving DecidableEq, Repr

inductive DatabaseAccessPermission
  | allow
  | block
  deriving DecidableEq, Repr

inductive OperationPermissionSource
  | global
  | project
  | service
  deriving DecidableEq, Repr

structure OperationPermissionValues where
  appLifecycle : DestructiveActionPermission := .approvalRequired
  destructiveActions : DestructiveActionPermission := .allow
  databaseAccess : DatabaseAccessPermission := .allow
  deriving DecidableEq, Repr

structure OperationPermissionOverride where
  appLifecycle : Option DestructiveActionPermission := none
  destructiveActions : Option DestructiveActionPermission := none
  databaseAccess : Option DatabaseAccessPermission := none
  deriving DecidableEq, Repr

structure OperationPermissionSources where
  appLifecycle : OperationPermissionSource := .global
  destructiveActions : OperationPermissionSource := .global
  databaseAccess : OperationPermissionSource := .global
  deriving DecidableEq, Repr

structure OperationPermissionSnapshot where
  global : OperationPermissionValues
  projectOverride : Option OperationPermissionOverride
  serviceOverride : Option OperationPermissionOverride
  effective : OperationPermissionValues
  sources : OperationPermissionSources
  deriving DecidableEq, Repr

/-- `security.operation_permissions.…` -/
inductive SettingKey
  | global
  | project (projectId : String)
  | service (serviceId : String)
  deriving DecidableEq, Repr

/-- What is stored under a key is an override, or text that is none. -/
abbrev Settings := SettingKey → Option (Option OperationPermissionOverride)

/-- `OperationPermissionTarget`. An empty id is none. -/
structure OperationPermissionTarget where
  projectId : Option String := none
  serviceId : Option String := none
  deriving DecidableEq, Repr

inductive PermissionKey
  | appLifecycle
  | destructiveActions
  deriving DecidableEq, Repr

inductive PermissionError
  /-- `OperationPermissionConfigurationError` -/
  | configuration (key : SettingKey)
  /-- `OperationPermissionDeniedError` -/
  | denied (permission : PermissionKey) (target : OperationPermissionTarget)
  deriving DecidableEq, Repr

def readOverride (settings : Settings) (key : SettingKey) :
    Except PermissionError (Option OperationPermissionOverride) :=
  match settings key with
  | none => .ok none
  | some none => .error (.configuration key)
  | some (some value) => .ok (some value)

def applyOverride (source : OperationPermissionSource)
    (current : OperationPermissionValues × OperationPermissionSources) :
    Option OperationPermissionOverride → OperationPermissionValues × OperationPermissionSources
  | none => current
  | some override =>
    let appPermission := override.appLifecycle.or override.destructiveActions
    ({ appLifecycle := appPermission.getD current.1.appLifecycle
       destructiveActions := override.destructiveActions.getD current.1.destructiveActions
       databaseAccess := override.databaseAccess.getD current.1.databaseAccess },
     { appLifecycle := if appPermission.isSome then source else current.2.appLifecycle
       destructiveActions :=
         if override.destructiveActions.isSome then source else current.2.destructiveActions
       databaseAccess := if override.databaseAccess.isSome then source else current.2.databaseAccess })

def globalPermissions (globalOverride : Option OperationPermissionOverride) :
    OperationPermissionValues :=
  let default : OperationPermissionValues := {}
  { appLifecycle := (globalOverride.bind (·.appLifecycle)).getD
      (if globalOverride.bind (·.destructiveActions) = some .block then .block
        else .approvalRequired)
    destructiveActions :=
      (globalOverride.bind (·.destructiveActions)).getD default.destructiveActions
    databaseAccess := (globalOverride.bind (·.databaseAccess)).getD default.databaseAccess }

def getOperationPermissionSnapshot (settings : Settings) (target : OperationPermissionTarget) :
    Except PermissionError OperationPermissionSnapshot := do
  let globalOverride ← readOverride settings .global
  let projectOverride ← match target.projectId.filter (· ≠ "") with
    | some projectId => readOverride settings (.project projectId)
    | none => .ok none
  let serviceOverride ← match target.serviceId.filter (· ≠ "") with
    | some serviceId => readOverride settings (.service serviceId)
    | none => .ok none
  let global := globalPermissions globalOverride
  let (effective, sources) := applyOverride .service
    (applyOverride .project (global, {}) projectOverride) serviceOverride
  return { global, projectOverride, serviceOverride, effective, sources }

def OperationPermissionValues.get (values : OperationPermissionValues) :
    PermissionKey → DestructiveActionPermission
  | .appLifecycle => values.appLifecycle
  | .destructiveActions => values.destructiveActions

def OperationPermissionSources.get (sources : OperationPermissionSources) :
    PermissionKey → OperationPermissionSource
  | .appLifecycle => sources.appLifecycle
  | .destructiveActions => sources.destructiveActions

/-- `assertAppLifecycleAllowed` and `assertDestructiveActionAllowed` -/
def assertAllowed (permission : PermissionKey) (settings : Settings)
    (target : OperationPermissionTarget) : Except PermissionError OperationPermissionSnapshot := do
  let snapshot ← getOperationPermissionSnapshot settings target
  if snapshot.effective.get permission = .block then .error (.denied permission target)
  else .ok snapshot

def assertAppLifecycleAllowed := assertAllowed .appLifecycle

def assertDestructiveActionAllowed := assertAllowed .destructiveActions

/-- The effective permission of the target is `block`. -/
def Blocks (permission : PermissionKey) (settings : Settings) (target : OperationPermissionTarget) :
    Prop :=
  ∃ snapshot, getOperationPermissionSnapshot settings target = .ok snapshot ∧
    snapshot.effective.get permission = .block

variable {permission : PermissionKey} {settings : Settings} {target : OperationPermissionTarget}

theorem not_blocks_iff : ¬Blocks permission settings target ↔
    ∀ snapshot, getOperationPermissionSnapshot settings target = .ok snapshot →
      snapshot.effective.get permission ≠ .block := by
  rw [Blocks, not_exists]
  exact forall_congr' fun snapshot => not_and

instance : Decidable (Blocks permission settings target) :=
  match h : getOperationPermissionSnapshot settings target with
  | .error _ => .isFalse fun ⟨_, hsnapshot, _⟩ => nomatch h.symm.trans hsnapshot
  | .ok snapshot =>
    if hblock : snapshot.effective.get permission = .block then .isTrue ⟨snapshot, h, hblock⟩
    else .isFalse (not_blocks_iff.mpr fun _ hsnapshot =>
      Except.ok.inj (h.symm.trans hsnapshot) ▸ hblock)

theorem not_blocks_of_assertAllowed
    (h : assertAllowed permission settings target = .ok snapshot) :
    ¬Blocks permission settings target := by
  rintro ⟨blocked, hsnapshot, hblock⟩
  rw [assertAllowed, hsnapshot] at h
  change (if blocked.effective.get permission = .block then _ else _) = _ at h
  rw [if_pos hblock] at h
  exact nomatch h

end OpenLander.Security
