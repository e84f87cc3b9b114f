import OpenLander.Pipeline.ResolveEnv

/-! # The ways to read the environment of a project

`EnvManager` (`src/pipeline/env.ts`) merges the scopes of a project in three ways, next to that of
`resolveEnvVars`: without the global secrets, with them, and with the source of each value. -/

namespace OpenLander.Pipeline.EnvManager
open ResolveEnv

inductive Source
  | global | project | production | environment
  deriving DecidableEq, Repr

/-- What `getInheritanceInfo` says of a key. -/
structure Inherited where
  value : String
  source : Source
  isOverride : Option Bool := none
  deriving DecidableEq, Repr

abbrev InheritanceInfo := String → Option Inherited

def InheritanceInfo.empty : InheritanceInfo := fun _ => none

/-- The column of the values. -/
def InheritanceInfo.values (inherited : InheritanceInfo) : Record :=
  fun key => (inherited key).map (·.value)

/-- The keys that `in` finds in every object. -/
def objectPrototypeKeys : List String :=
  ["constructor", "hasOwnProperty", "isPrototypeOf", "propertyIsEnumerable", "toLocaleString",
    "toString", "valueOf", "__defineGetter__", "__defineSetter__", "__lookupGetter__",
    "__lookupSetter__", "__proto__"]

/-- `for (const [key, value] of Object.entries(vars)) inherited[key] = …`. -/
def InheritanceInfo.assign (inherited : InheritanceInfo) (vars : Record)
    (info : String → String → Inherited) : InheritanceInfo :=
  fun key => ((vars key).map (info key)).or (inherited key)

variable (decrypt : String → String → String) (store : Store)

/-- The rows of the production environment, if the project has one. -/
def productionVars (projectId : String) : Record :=
  match store.productionEnvironment projectId with
  | none => .empty
  | some production => store.getEnvVars projectId (some production.id)

/-- The rows of the environment, unless it is that of production. -/
def environmentVars (projectId environmentId : String) : Record :=
  if (store.productionEnvironment projectId).map (·.id) = some environmentId then .empty
  else store.getEnvVars projectId (some environmentId)

def getInheritanceInfo (projectId environmentId : String) : InheritanceInfo :=
  let inherited := InheritanceInfo.empty
    |>.assign (store.getGlobalSecrets decrypt) (fun _ value => { value, source := .global })
    |>.assign (store.getEnvVars projectId none) (fun _ value => { value, source := .project })
    |>.assign (productionVars store projectId) (fun _ value => { value, source := .production })
  inherited.assign (environmentVars store projectId environmentId) fun key value =>
    { value
      source := .environment
      isOverride := some ((inherited key).isSome || key ∈ objectPrototypeKeys) }

def getMergedForDeploy (projectId : String) (environmentId : Option String) : Record :=
  let projectVars := match environmentId with
    | none => store.getEnvVars projectId none
    | some environmentId => store.getAllWithInheritance projectId environmentId
  (store.getGlobalSecrets decrypt).spread projectVars

/-! ## One environment -/

theorem values_assign (inherited : InheritanceInfo) (vars : Record)
    {info : String → String → Inherited} (h : ∀ key value, (info key value).value = value) :
    (inherited.assign vars info).values = inherited.values.spread vars := by
  funext key
  rw [InheritanceInfo.values, InheritanceInfo.assign, Record.spread_apply]
  cases vars key with
  | none => rfl
  | some value => exact congrArg some (h key value)

theorem getAllWithInheritance_eq (projectId environmentId : String) :
    store.getAllWithInheritance projectId environmentId =
      ((store.getEnvVars projectId none).spread (productionVars store projectId)).spread
        (environmentVars store projectId environmentId) := by
  unfold Store.getAllWithInheritance productionVars environmentVars
  cases store.productionEnvironment projectId with
  | none => rfl
  | some production =>
    by_cases h : production.id = environmentId
    · simp [h]
    · simp [h]

theorem values_getInheritanceInfo (projectId environmentId : String) :
    (getInheritanceInfo decrypt store projectId environmentId).values =
      (store.getGlobalSecrets decrypt).spread
        (store.getAllWithInheritance projectId environmentId) := by
  have hnone : InheritanceInfo.empty.values = .empty := rfl
  rw [getInheritanceInfo, getAllWithInheritance_eq]
  rw [values_assign _ _ fun _ _ => rfl, values_assign _ _ fun _ _ => rfl,
    values_assign _ _ fun _ _ => rfl, values_assign _ _ fun _ _ => rfl, hnone,
    Record.empty_spread, Record.spread_assoc, Record.spread_assoc, Record.spread_assoc]

/-- The variables that a service adds, over those of its project. -/
theorem resolveEnvVars_service (projectId serviceId environmentId : String) :
    resolveEnvVars decrypt store
        { projectId, serviceId := some serviceId, environmentId := some environmentId } =
      ((resolveEnvVars decrypt store { projectId, environmentId := some environmentId }).spread
        (store.getEnvVarsForService projectId serviceId none)).spread
          (store.getEnvVarsForService projectId serviceId (some environmentId)) := by
  simp only [resolveEnvVars, resolveProjectEnvVars, serviceSharedEnvVars,
    serviceEnvironmentEnvVars, Record.spread_empty]

/-- **One notion of the effective environment**: the values that are shown, those that are merged for
a deploy and those that are resolved are the global secrets under the variables of the project and
the environment, which do not depend on the secrets; a service lays its own over them, those of the
environment last. -/
theorem effectiveEnvironment (projectId environmentId : String) :
    let effective :=
      (store.getGlobalSecrets decrypt).spread (store.getAllWithInheritance projectId environmentId)
    (getInheritanceInfo decrypt store projectId environmentId).values = effective ∧
      getMergedForDeploy decrypt store projectId (some environmentId) = effective ∧
      resolveEnvVars decrypt store { projectId, environmentId := some environmentId } = effective ∧
      (∀ globalSecrets, { store with globalSecrets }.getAllWithInheritance projectId environmentId =
        store.getAllWithInheritance projectId environmentId) ∧
      ∀ serviceId, resolveEnvVars decrypt store
          { projectId, serviceId := some serviceId, environmentId := some environmentId } =
        (effective.spread (store.getEnvVarsForService projectId serviceId none)).spread
          (store.getEnvVarsForService projectId serviceId (some environmentId)) := by
  have hresolve : resolveEnvVars decrypt store { projectId, environmentId := some environmentId } =
      (store.getGlobalSecrets decrypt).spread
        (store.getAllWithInheritance projectId environmentId) := by
    simp only [resolveEnvVars, resolveProjectEnvVars, serviceSharedEnvVars,
      serviceEnvironmentEnvVars, Record.spread_empty, Record.empty_spread]
  refine ⟨values_getInheritanceInfo .., rfl, hresolve, fun _ => rfl, fun serviceId => ?_⟩
  rw [resolveEnvVars_service, hresolve]

end OpenLander.Pipeline.EnvManager
