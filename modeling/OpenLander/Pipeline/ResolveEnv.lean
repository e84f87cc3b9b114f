import OpenLander.Theory.Collections

/-! # The environment of a container

`resolveEnvVars` (`src/pipeline/resolve-env.ts`) layers the stored variables of a service, through
`EnvManager` and the `env_vars` table. The four ways to start a container of a service call it with
different scopes, and a rollback reads the table itself. -/

namespace OpenLander.Pipeline.ResolveEnv
open Theory

/-! ## Records -/

/-- A `Record<string, string>`. -/
abbrev Record := String → Option String

def Record.empty : Record := fun _ => none

/-- `{ ...lo, ...hi }`. -/
def Record.spread (lo hi : Record) : Record := fun key => (hi key).or (lo key)

theorem Record.spread_apply (lo hi : Record) (key : String) :
    lo.spread hi key = (hi key).or (lo key) := rfl

@[simp] theorem Record.spread_empty (r : Record) : r.spread .empty = r := rfl

@[simp] theorem Record.empty_spread (r : Record) : Record.empty.spread r = r := by
  funext key
  exact Option.or_none

theorem Record.spread_assoc (a b c : Record) : (a.spread b).spread c = a.spread (b.spread c) := by
  funext key
  exact Option.or_assoc.symm

/-- A record that is laid over another leaves it as it is where it only repeats it. -/
theorem Record.spread_eq_left_iff {lo hi : Record} :
    lo.spread hi = lo ↔ ∀ key value, hi key = some value → lo key = some value := by
  constructor
  · intro h key value hvalue
    rw [← h, Record.spread_apply, hvalue, Option.some_or]
  · intro h
    funext key
    rw [Record.spread_apply]
    cases hvalue : hi key with
    | none => rfl
    | some value => exact (h key value hvalue).symm

/-- A record hides all that it is laid over where it has all its keys. -/
theorem Record.spread_eq_right_iff {lo hi : Record} :
    lo.spread hi = hi ↔ ∀ key, (lo key).isSome → (hi key).isSome := by
  constructor
  · intro h key hkey
    have hor := congrFun h key
    rw [Record.spread_apply] at hor
    cases hvalue : hi key with
    | none =>
      rw [hvalue, Option.none_or] at hor
      rw [hor] at hkey
      cases hkey
    | some => rfl
  · intro h
    funext key
    rw [Record.spread_apply]
    cases hvalue : hi key with
    | some => rfl
    | none =>
      cases hlo : lo key with
      | none => rfl
      | some => exact absurd (h key (by rw [hlo]; rfl)) (by rw [hvalue]; exact Bool.false_ne_true)

/-! ## The store -/

structure EnvVarRow where
  projectId : String
  serviceId : Option String := none
  environmentId : Option String := none
  key : String
  value : String
  deriving DecidableEq, Repr

structure EnvironmentRow where
  id : String
  projectId : String
  type : String
  deriving DecidableEq, Repr

structure GlobalSecretRow where
  key : String
  encryptedValue : String
  iv : String
  deriving DecidableEq, Repr

structure Store where
  envVars : List EnvVarRow := []
  environments : List EnvironmentRow := []
  globalSecrets : List GlobalSecretRow := []
  deriving DecidableEq, Repr

-- `decrypt` is that of `src/env/crypto.ts`.
variable (decrypt : String → String → String) (store : Store)

namespace Store

/-- The rows that a query selects, as a record. -/
def select (p : EnvVarRow → Bool) : Record :=
  fromEntries ((store.envVars.filter p).map fun row => (row.key, row.value))

def getEnvVars (projectId : String) (environmentId : Option String) : Record :=
  store.select fun row =>
    row.projectId == projectId && row.serviceId == none && row.environmentId == environmentId

/-- The project is not part of the condition. -/
def getEnvVarsForService (_projectId serviceId : String) (environmentId : Option String) : Record :=
  store.select fun row => row.serviceId == some serviceId && row.environmentId == environmentId

def getGlobalSecrets : Record :=
  fromEntries (store.globalSecrets.map fun row => (row.key, decrypt row.encryptedValue row.iv))

def getEnvironmentsByProject (projectId : String) : List EnvironmentRow :=
  store.environments.filter (·.projectId == projectId)

/-- `find((environment) => environment.type === 'production')`. -/
def productionEnvironment (projectId : String) : Option EnvironmentRow :=
  (store.getEnvironmentsByProject projectId).find? (·.type == "production")

def getAllWithInheritance (projectId environmentId : String) : Record :=
  let projectVars := store.getEnvVars projectId none
  let productionEnvironmentId := (store.productionEnvironment projectId).map (·.id)
  let productionVars := match productionEnvironmentId with
    | none => .empty
    | some id => store.getEnvVars projectId (some id)
  if productionEnvironmentId = some environmentId then projectVars.spread productionVars
  else (projectVars.spread productionVars).spread (store.getEnvVars projectId (some environmentId))

end Store

/-! ## The resolution -/

structure ResolveEnvParams where
  projectId : String
  serviceId : Option String := none
  environmentId : Option String := none
  autoEnvVars : Record := .empty
  serviceEnvVars : Record := .empty
  inlineEnvVars : Record := .empty
  runtimeEnvVars : Record := .empty

def resolveProjectEnvVars (params : ResolveEnvParams) : Record :=
  match params.environmentId with
  | none => store.getEnvVars params.projectId none
  | some environmentId => store.getAllWithInheritance params.projectId environmentId

def serviceSharedEnvVars (params : ResolveEnvParams) : Record :=
  match params.serviceId with
  | none => .empty
  | some serviceId => store.getEnvVarsForService params.projectId serviceId none

def serviceEnvironmentEnvVars (params : ResolveEnvParams) : Record :=
  match params.serviceId, params.environmentId with
  | some serviceId, some environmentId =>
    store.getEnvVarsForService params.projectId serviceId (some environmentId)
  | _, _ => .empty

def resolveEnvVars (params : ResolveEnvParams) : Record :=
  params.autoEnvVars
    |>.spread (store.getGlobalSecrets decrypt)
    |>.spread (resolveProjectEnvVars store params)
    |>.spread (serviceSharedEnvVars store params)
    |>.spread (serviceEnvironmentEnvVars store params)
    |>.spread params.serviceEnvVars
    |>.spread params.inlineEnvVars
    |>.spread params.runtimeEnvVars

/-! ## The ways to start a container -/

/-- `config._serviceId` is the service in a redeploy; a deploy from `startDeploy` has none. -/
def runAndVerify (projectId environmentId : String) (serviceId : Option String)
    (envVars : Record) : Record :=
  resolveEnvVars decrypt store
    { projectId, serviceId, environmentId := some environmentId, inlineEnvVars := envVars }

/-- `deployConfig._serviceId` is that of `buildDeployConfig`, the deployable service. -/
def blueGreenRedeployInner (projectId serviceId : String) : Record :=
  let environmentId := (store.productionEnvironment projectId).map (·.id)
  resolveEnvVars decrypt store { projectId, serviceId := some serviceId, environmentId }

def recreateServiceRuntime (projectId environmentId serviceId : String) : Record :=
  resolveEnvVars decrypt store
    { projectId, serviceId := some serviceId, environmentId := some environmentId }

def rollbackToImage (projectId : String) : Record :=
  store.getEnvVars projectId ((store.productionEnvironment projectId).map (·.id))

/-- Each way to start a container of the service gives it the same environment. -/
def SameEnvironment (projectId environmentId serviceId : String) : Prop :=
  let env := recreateServiceRuntime decrypt store projectId environmentId serviceId
  blueGreenRedeployInner decrypt store projectId serviceId = env ∧
    (∀ deployServiceId, deployServiceId = some serviceId ∨ deployServiceId = none →
      runAndVerify decrypt store projectId environmentId deployServiceId .empty = env) ∧
    rollbackToImage store projectId = env

/-! ## When they agree -/

/-- The rows below those of the project environment: the global secrets and the shared rows of the
project. -/
def base (projectId : String) : Record :=
  (store.getGlobalSecrets decrypt).spread (store.getEnvVars projectId none)

/-- The rows above them: those of the service. -/
def serviceVars (projectId environmentId serviceId : String) : Record :=
  (store.getEnvVarsForService projectId serviceId none).spread
    (store.getEnvVarsForService projectId serviceId (some environmentId))

variable {decrypt store}

theorem getAllWithInheritance_production (h : store.productionEnvironment projectId = some E) :
    store.getAllWithInheritance projectId E.id =
      (store.getEnvVars projectId none).spread (store.getEnvVars projectId (some E.id)) := by
  rw [Store.getAllWithInheritance, h]
  exact if_pos rfl

theorem runAndVerify_none (h : store.productionEnvironment projectId = some E) :
    runAndVerify decrypt store projectId E.id none .empty =
      (base decrypt store projectId).spread (store.getEnvVars projectId (some E.id)) := by
  simp only [runAndVerify, resolveEnvVars, resolveProjectEnvVars, serviceSharedEnvVars,
    serviceEnvironmentEnvVars, getAllWithInheritance_production h, base, Record.spread_empty,
    Record.empty_spread, Record.spread_assoc]

theorem recreateServiceRuntime_eq (h : store.productionEnvironment projectId = some E) :
    recreateServiceRuntime decrypt store projectId E.id serviceId =
      ((base decrypt store projectId).spread (store.getEnvVars projectId (some E.id))).spread
        (serviceVars store projectId E.id serviceId) := by
  simp only [recreateServiceRuntime, resolveEnvVars, resolveProjectEnvVars, serviceSharedEnvVars,
    serviceEnvironmentEnvVars, getAllWithInheritance_production h, base, serviceVars,
    Record.spread_empty, Record.empty_spread, Record.spread_assoc]

theorem blueGreenRedeployInner_eq (h : store.productionEnvironment projectId = some E) :
    blueGreenRedeployInner decrypt store projectId serviceId =
      recreateServiceRuntime decrypt store projectId E.id serviceId := by
  rw [blueGreenRedeployInner, h]
  rfl

/-- What is laid over and under a record leaves it as it is exactly if the one repeats it and the
other has no further keys. -/
theorem spread_spread_eq_iff {lo mid hi : Record} :
    (lo.spread mid).spread hi = mid ↔
      (∀ key value, hi key = some value → mid key = some value) ∧
      ∀ key, (lo key).isSome → (mid key).isSome := by
  constructor
  · intro h
    have hhi : ∀ key value, hi key = some value → mid key = some value := by
      intro key value hvalue
      rw [← h, Record.spread_apply, hvalue, Option.some_or]
    refine ⟨hhi, fun key hkey => ?_⟩
    have hor := congrFun h key
    rw [Record.spread_apply, Record.spread_apply] at hor
    rw [← hor]
    cases hi key <;> cases mid key <;> simp [hkey]
  · rintro ⟨hhi, hlo⟩
    have hmid : lo.spread mid = mid := Record.spread_eq_right_iff.mpr hlo
    rw [hmid, Record.spread_eq_left_iff.mpr hhi]

/-- The four environments are the same exactly when the rows of the service repeat those of the
project in production, and these have all the keys of the global secrets and the shared rows. -/
theorem sameEnvironment_iff (h : store.productionEnvironment projectId = some E) :
    SameEnvironment decrypt store projectId E.id serviceId ↔
      (∀ key value, serviceVars store projectId E.id serviceId key = some value →
        store.getEnvVars projectId (some E.id) key = some value) ∧
      ∀ key, (base decrypt store projectId key).isSome →
        (store.getEnvVars projectId (some E.id) key).isSome := by
  have hrollback : rollbackToImage store projectId = store.getEnvVars projectId (some E.id) := by
    rw [rollbackToImage, h]
    rfl
  constructor
  · rintro ⟨-, -, heq⟩
    rw [hrollback, recreateServiceRuntime_eq h] at heq
    exact spread_spread_eq_iff.mp heq.symm
  · intro H
    have hrecreate : recreateServiceRuntime decrypt store projectId E.id serviceId =
        store.getEnvVars projectId (some E.id) := by
      rw [recreateServiceRuntime_eq h, spread_spread_eq_iff.mpr H]
    refine ⟨blueGreenRedeployInner_eq h, ?_, hrollback.trans hrecreate.symm⟩
    rintro _ (rfl | rfl)
    · rfl
    · rw [runAndVerify_none h, Record.spread_eq_right_iff.mpr H.2, hrecreate]

/-- A variable that the project and the service share, in production. -/
def repeated : Store where
  envVars := [{ projectId := "p", environmentId := some "e", key := "PORT", value := "80" },
    { projectId := "p", serviceId := some "s", key := "PORT", value := "80" }]
  environments := [⟨"e", "p", "production"⟩]

theorem sameEnvironment_repeated :
    SameEnvironment (fun value _ => value) repeated "p" "e" "s" := by
  have hproduction : repeated.productionEnvironment "p" = some ⟨"e", "p", "production"⟩ := rfl
  refine (sameEnvironment_iff hproduction).mpr ⟨fun key value hvalue => ?_, fun key hkey => ?_⟩
  · by_cases hkey : key = "PORT"
    · subst hkey
      cases hvalue
      rfl
    · simp [serviceVars, repeated, Store.getEnvVarsForService, Store.select, Record.spread,
        fromEntries, hkey] at hvalue
  · simp [base, repeated, Store.getGlobalSecrets, Store.getEnvVars, Store.select, Record.spread,
      fromEntries] at hkey

/-- A rollback loses the global secrets. -/
theorem not_sameEnvironment : ¬∀ (decrypt : String → String → String) (store : Store)
    (projectId serviceId : String) (E : EnvironmentRow),
    store.productionEnvironment projectId = some E →
      SameEnvironment decrypt store projectId E.id serviceId := by
  intro h
  let store : Store := {
    environments := [⟨"e", "p", "production"⟩]
    globalSecrets := [⟨"TOKEN", "secret", "iv"⟩] }
  obtain ⟨-, -, heq⟩ := h (fun value _ => value) store "p" "s" ⟨"e", "p", "production"⟩ rfl
  exact absurd (congrFun heq "TOKEN") (by decide)

end OpenLander.Pipeline.ResolveEnv
