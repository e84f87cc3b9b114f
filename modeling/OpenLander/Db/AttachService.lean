import OpenLander.Pipeline.EnvManager

/-! # Attaching a service to a project

`attachServiceToProject` (`src/db/repos/project.repo.ts`) moves a service under another project. The
variables of the project that it leaves become variables of the service, except where the service has
one of its own in the same scope. The project that it leaves stays the one that the variables of the
service are resolved for. -/

namespace OpenLander.Db.AttachService
open Theory
open Pipeline.ResolveEnv (Record Store EnvVarRow resolveEnvVars resolveProjectEnvVars
  serviceSharedEnvVars serviceEnvironmentEnvVars)
open Pipeline.EnvManager (productionVars environmentVars getAllWithInheritance_eq)

def ORPHAN_MANAGED_GROUP_ID : String := "__orphan_managed"

inductive ServiceKind
  | git | image | compose | composeChild | managed
  deriving DecidableEq, Repr

structure ServiceRow where
  id : String
  projectId : Option String
  kind : ServiceKind
  parentServiceId : Option String := none
  deriving DecidableEq, Repr

structure SecretFileRow where
  projectId : Option String
  filename : String
  encryptedContent : String
  iv : String
  mountPath : String := "/run/secrets"
  deriving DecidableEq, Repr

structure Tables extends Store where
  projects : List String := []
  services : List ServiceRow := []
  secretFiles : List SecretFileRow := []

inductive AttachError
  /-- `RepoPersistenceError` of the service, or of its project. -/
  | serviceNotPersisted
  | projectNotPersisted
  /-- `ProjectNotFoundError` of the target. -/
  | projectNotFound
  deriving DecidableEq, Repr

structure AttachResult where
  sourceProjectId : String
  targetProjectId : String
  droppedEnvVarKeys : List String := []
  droppedSecretFiles : List String := []
  deriving DecidableEq, Repr

/-! ## The transaction -/

section
variable (sourceProjectId targetProjectId serviceId : String)

/-- The service, and the children of a Compose stack. -/
def attachedServiceIds (db : Tables) (svc : ServiceRow) : List String :=
  svc.id :: if svc.kind = .compose then
    (db.services.filter (·.parentServiceId = some svc.id)).map (·.id)
  else []

def moveServices (attached : List String) (services : List ServiceRow) : List ServiceRow :=
  services.map fun row =>
    if row.id ∈ attached then { row with projectId := some targetProjectId } else row

/-- The rows of a service are keyed by the service. -/
def moveServiceEnvVars (attached : List String) (envVars : List EnvVarRow) : List EnvVarRow :=
  envVars.map fun row =>
    if row.serviceId.any (· ∈ attached) then { row with projectId := targetProjectId } else row

/-- The scopes and keys that the service has rows for. -/
def existingServiceScopes (envVars : List EnvVarRow) : List (Option String × String) :=
  (envVars.filter (·.serviceId = some serviceId)).map fun row => (row.environmentId, row.key)

def isPromotable (envVars : List EnvVarRow) (row : EnvVarRow) : Bool :=
  row.projectId = sourceProjectId ∧ row.serviceId = none ∧
    (row.environmentId, row.key) ∉ existingServiceScopes serviceId envVars

/-- The rows of the project become rows of the service. -/
def promoteEnvVars (envVars : List EnvVarRow) : List EnvVarRow :=
  envVars.map fun row =>
    if isPromotable sourceProjectId serviceId envVars row then
      { row with projectId := targetProjectId, serviceId := some serviceId }
    else row

/-- The files that the target has no file of the same name for move there, the others are deleted. -/
def moveSecretFiles (secretFiles : List SecretFileRow) : List SecretFileRow × List String :=
  let targetFilenames :=
    (secretFiles.filter (·.projectId = some targetProjectId)).map (·.filename)
  let isDropped (row : SecretFileRow) : Bool :=
    row.projectId = some sourceProjectId ∧ row.filename ∈ targetFilenames
  ((secretFiles.filter (!isDropped ·)).map fun row =>
      if row.projectId = some sourceProjectId then { row with projectId := some targetProjectId }
      else row,
    (secretFiles.filter isDropped).map (·.filename))

def attachServiceToProject (db : Tables) : Except AttachError (AttachResult × Tables) :=
  match db.services.find? (·.id = serviceId) with
  | none => .error .serviceNotPersisted
  | some svc =>
    match svc.projectId.filter (· ≠ "") with
    | none => .error .projectNotPersisted
    | some sourceProjectId =>
      if sourceProjectId = targetProjectId then .ok ({ sourceProjectId, targetProjectId }, db)
      else if targetProjectId ∉ db.projects then .error .projectNotFound
      else
        let attached := attachedServiceIds db svc
        let services := moveServices targetProjectId attached db.services
        -- The rows of the pool belong to other services as well.
        if sourceProjectId = ORPHAN_MANAGED_GROUP_ID then
          .ok ({ sourceProjectId, targetProjectId }, { db with services })
        else
          let envVars := promoteEnvVars sourceProjectId targetProjectId serviceId
            (moveServiceEnvVars targetProjectId attached db.envVars)
          let (secretFiles, droppedSecretFiles) :=
            moveSecretFiles sourceProjectId targetProjectId db.secretFiles
          .ok ({ sourceProjectId, targetProjectId, droppedSecretFiles },
            { db with services, envVars, secretFiles })

end

/-! ## What it does to the scopes -/

variable {sourceProjectId targetProjectId serviceId : String} {db db' : Tables}

/-- The value of a key in a scope is that of its last row. -/
theorem select_apply (store : Store) (p : EnvVarRow → Bool) (key : String) :
    store.select p key =
      ((store.envVars.filter fun row => p row && row.key == key).getLast?).map (·.value) := by
  rw [Store.select, fromEntries, ← List.map_reverse, ← List.filter_reverse,
    List.getLast?_eq_head?_reverse, ← List.filter_reverse]
  generalize store.envVars.reverse = rows
  induction rows with
  | nil => rfl
  | cons row rows ih =>
    by_cases hp : p row
    · by_cases hkey : row.key = key
      · rw [List.filter_cons_of_pos hp, List.filter_cons_of_pos (by simp [hp, hkey])]
        simp [hkey]
      · have hne : (key == row.key) = false := by simpa using Ne.symm hkey
        rw [List.filter_cons_of_pos hp, List.filter_cons_of_neg (by simp [hkey]), List.map_cons,
          List.lookup_cons, hne]
        exact ih
    · rw [List.filter_cons_of_neg hp, List.filter_cons_of_neg (by simp [hp])]
      exact ih

/-- An update that leaves keys and values alone changes which rows are selected. -/
theorem select_map {store store' : Store} {f : EnvVarRow → EnvVarRow} {p q : EnvVarRow → Bool}
    (hrows : store'.envVars = store.envVars.map f) (hkey : ∀ row, (f row).key = row.key)
    (hvalue : ∀ row, (f row).value = row.value)
    (h : ∀ row ∈ store.envVars, row.key = key → p (f row) = q row) :
    store'.select p key = store.select q key := by
  rw [select_apply, select_apply, hrows, List.filter_map, List.getLast?_map, Option.map_map]
  have hfilter : (store.envVars.filter ((fun row => p row && row.key == key) ∘ f)) =
      store.envVars.filter fun row => q row && row.key == key := by
    refine List.filter_congr fun row hrow => ?_
    simp only [Function.comp, hkey]
    by_cases hk : row.key = key
    · rw [h row hrow hk]
    · rw [beq_false_of_ne hk, Bool.and_false, Bool.and_false]
  have hvalues : (fun row => row.value) ∘ f = fun row : EnvVarRow => row.value := funext hvalue
  rw [hfilter, hvalues]

/-- A key that the service has a row for in a scope. -/
theorem mem_existingServiceScopes {envVars : List EnvVarRow} :
    (environmentId, key) ∈ existingServiceScopes serviceId envVars ↔
      ∃ row ∈ envVars, row.serviceId = some serviceId ∧ row.environmentId = environmentId ∧
        row.key = key := by
  simp [existingServiceScopes, and_assoc]

/-- What becomes of a row. -/
def movedRow (sourceProjectId targetProjectId serviceId : String) (attached : List String)
    (envVars : List EnvVarRow) (row : EnvVarRow) : EnvVarRow :=
  if isPromotable sourceProjectId serviceId envVars row then
    { row with projectId := targetProjectId, serviceId := some serviceId }
  else if row.serviceId.any (· ∈ attached) then { row with projectId := targetProjectId }
  else row

theorem movedRow_key : (movedRow src tgt serviceId attached envVars row).key = row.key := by
  unfold movedRow
  split
  · rfl
  · split <;> rfl

theorem movedRow_value : (movedRow src tgt serviceId attached envVars row).value = row.value := by
  unfold movedRow
  split
  · rfl
  · split <;> rfl

theorem movedRow_environmentId :
    (movedRow src tgt serviceId attached envVars row).environmentId = row.environmentId := by
  unfold movedRow
  split
  · rfl
  · split <;> rfl

theorem movedRow_serviceId :
    (movedRow src tgt serviceId attached envVars row).serviceId =
      if isPromotable src serviceId envVars row then some serviceId else row.serviceId := by
  unfold movedRow
  split
  · rfl
  · split <;> rfl

/-- A row of a project that is not promoted stays. -/
theorem movedRow_of_none (hpromotable : isPromotable src serviceId envVars row = false)
    (hnone : row.serviceId = none) :
    movedRow src tgt serviceId attached envVars row = row := by
  rw [movedRow, hpromotable, hnone]
  rfl

theorem promoteEnvVars_moveServiceEnvVars (attached : List String) (envVars : List EnvVarRow) :
    promoteEnvVars sourceProjectId targetProjectId serviceId
        (moveServiceEnvVars targetProjectId attached envVars) =
      envVars.map (movedRow sourceProjectId targetProjectId serviceId attached envVars) := by
  have hscopes : ∀ scope,
      scope ∈ existingServiceScopes serviceId (moveServiceEnvVars targetProjectId attached envVars)
        ↔ scope ∈ existingServiceScopes serviceId envVars := by
    intro scope
    obtain ⟨environmentId, key⟩ := scope
    rw [mem_existingServiceScopes, mem_existingServiceScopes, moveServiceEnvVars]
    simp only [List.mem_map, exists_exists_and_eq_and]
    refine exists_congr fun row => and_congr_right fun _ => ?_
    split <;> rfl
  rw [promoteEnvVars, moveServiceEnvVars, List.map_map]
  refine List.map_congr_left fun row _ => ?_
  obtain ⟨projectId, owner, environmentId, key, value⟩ := row
  simp only [Function.comp, movedRow, isPromotable]
  rw [← moveServiceEnvVars]
  simp only [hscopes]
  cases owner with
  | none => simp
  | some owner => by_cases howner : owner ∈ attached <;> simp [howner]

/-! ## The scopes afterwards -/

section
variable {store store' : Store} {attached : List String}

/-- The service has a row for the key in the scope. -/
theorem getEnvVarsForService_isSome {p : String} {environmentId : Option String} :
    (store.getEnvVarsForService p serviceId environmentId key).isSome ↔
      (environmentId, key) ∈ existingServiceScopes serviceId store.envVars := by
  rw [mem_existingServiceScopes, Store.getEnvVarsForService, Store.select, fromEntries_isSome]
  simp [and_assoc]

variable (hrows : store'.envVars = store.envVars.map
    (movedRow sourceProjectId targetProjectId serviceId attached store.envVars))
include hrows

/-- A scope of the service gets the rows of that of the project, where it has none. -/
theorem getEnvVarsForService_moved (environmentId : Option String) (key : String) :
    store'.getEnvVarsForService projectId serviceId environmentId key =
      (store.getEnvVarsForService projectId serviceId environmentId key).or
        (store.getEnvVars sourceProjectId environmentId key) := by
  have hselect : (store.getEnvVarsForService projectId serviceId environmentId key).isSome ↔
      (environmentId, key) ∈ existingServiceScopes serviceId store.envVars :=
    getEnvVarsForService_isSome
  by_cases hmem : (environmentId, key) ∈ existingServiceScopes serviceId store.envVars
  · rw [Option.or_of_isSome (hselect.mpr hmem)]
    refine select_map hrows (fun _ => movedRow_key) (fun _ => movedRow_value) fun row _ hkey => ?_
    rw [movedRow_serviceId, movedRow_environmentId]
    by_cases henv : row.environmentId = environmentId
    · have hpromotable : isPromotable sourceProjectId serviceId store.envVars row = false := by
        simp [isPromotable, henv, hkey, hmem]
      rw [hpromotable, if_neg Bool.false_ne_true]
    · rw [beq_false_of_ne henv, Bool.and_false, Bool.and_false]
  · have hnone : store.getEnvVarsForService projectId serviceId environmentId key = none := by
      rw [← Option.not_isSome_iff_eq_none, hselect]
      exact hmem
    rw [hnone, Option.none_or]
    refine select_map hrows (fun _ => movedRow_key) (fun _ => movedRow_value)
      fun row hrow hkey => ?_
    rw [movedRow_serviceId, movedRow_environmentId]
    by_cases henv : row.environmentId = environmentId
    · have hother : row.serviceId ≠ some serviceId := fun howner =>
        hmem (mem_existingServiceScopes.mpr ⟨row, hrow, howner, henv, hkey⟩)
      have hscope : (row.environmentId, row.key) ∉ existingServiceScopes serviceId store.envVars := by
        rw [henv, hkey]
        exact hmem
      simp only [isPromotable, hscope, not_false_eq_true, and_true, decide_eq_true_eq]
      by_cases hgroup : row.projectId = sourceProjectId ∧ row.serviceId = none
      · simp [hgroup]
      · rw [if_neg hgroup, beq_false_of_ne hother]
        by_cases hproject : row.projectId = sourceProjectId
        · have howner : row.serviceId ≠ none := fun howner => hgroup ⟨hproject, howner⟩
          rw [beq_false_of_ne howner, Bool.and_false, Bool.false_and]
        · rw [beq_false_of_ne hproject, Bool.false_and]
          rfl
    · rw [beq_false_of_ne henv, Bool.and_false, Bool.and_false]

/-- A scope of the project keeps its rows where the service has its own. -/
theorem getEnvVars_moved (environmentId : Option String) (key : String) :
    store'.getEnvVars sourceProjectId environmentId key =
      if (environmentId, key) ∈ existingServiceScopes serviceId store.envVars then
        store.getEnvVars sourceProjectId environmentId key
      else none := by
  split
  next hmem =>
    refine select_map hrows (fun _ => movedRow_key) (fun _ => movedRow_value) fun row _ hkey => ?_
    by_cases henv : row.environmentId = environmentId
    · have hpromotable : isPromotable sourceProjectId serviceId store.envVars row = false := by
        simp [isPromotable, henv, hkey, hmem]
      cases howner : row.serviceId with
      | none => rw [movedRow_of_none hpromotable howner, howner]
      | some owner =>
        rw [movedRow_serviceId, hpromotable, howner]
        simp
    · rw [movedRow_environmentId, beq_false_of_ne henv, Bool.and_false, Bool.and_false]
  next hmem =>
    have hempty : store'.getEnvVars sourceProjectId environmentId key =
        store.select (fun _ => false) key := by
      refine select_map hrows (fun _ => movedRow_key) (fun _ => movedRow_value)
        fun row _ hkey => ?_
      by_cases henv : row.environmentId = environmentId
      · have hscope :
            (row.environmentId, row.key) ∉ existingServiceScopes serviceId store.envVars := by
          rw [henv, hkey]
          exact hmem
        cases howner : row.serviceId with
        | some owner =>
          rw [movedRow_serviceId]
          simp [isPromotable, howner]
        | none =>
          by_cases hproject : row.projectId = sourceProjectId
          · rw [movedRow_serviceId]
            simp [isPromotable, howner, hproject, hscope]
          · have hpromotable : isPromotable sourceProjectId serviceId store.envVars row = false := by
              simp [isPromotable, hproject]
            rw [movedRow_of_none hpromotable howner, beq_false_of_ne hproject, Bool.false_and,
              Bool.false_and]
      · rw [movedRow_environmentId, beq_false_of_ne henv, Bool.and_false]
    rw [hempty, select_apply]
    simp

end

/-! ## The environment afterwards -/

variable (decrypt : String → String → String)

/-- What a key resolves to for the service, in an environment. -/
def resolved (store : Store) (projectId serviceId environmentId : String) : Record :=
  resolveEnvVars decrypt store
    { projectId, serviceId := some serviceId, environmentId := some environmentId }

/-- The scopes of a key, by precedence. -/
theorem resolved_apply (store : Store) (projectId serviceId environmentId key : String) :
    resolved decrypt store projectId serviceId environmentId key =
      (store.getEnvVarsForService projectId serviceId (some environmentId) key).or
        ((store.getEnvVarsForService projectId serviceId none key).or
          ((store.getEnvVars projectId (some environmentId) key).or
            ((productionVars store projectId key).or
              ((store.getEnvVars projectId none key).or (store.getGlobalSecrets decrypt key))))) := by
  have hinherited : store.getAllWithInheritance projectId environmentId key =
      (store.getEnvVars projectId (some environmentId) key).or
        ((productionVars store projectId key).or (store.getEnvVars projectId none key)) := by
    rw [getAllWithInheritance_eq]
    simp only [Record.spread_apply, environmentVars, productionVars]
    cases store.productionEnvironment projectId with
    | none => simp [Record.empty]
    | some production =>
      by_cases h : production.id = environmentId
      · subst h
        simp [Record.empty, ← Option.or_assoc]
      · simp [h]
  simp only [resolved, resolveEnvVars, Record.spread_empty, Record.empty_spread,
    Record.spread_apply, resolveProjectEnvVars, serviceSharedEnvVars, serviceEnvironmentEnvVars,
    hinherited, Record.empty, Option.none_or, Option.or_assoc]

/-- The value of a key outlasts the move. -/
def Kept (store : Store) (projectId serviceId environmentId key : String) : Prop :=
  store.getEnvVarsForService projectId serviceId (some environmentId) key = none →
    match store.getEnvVarsForService projectId serviceId none key,
      store.getEnvVars projectId (some environmentId) key with
    | some shared, some own => own = shared
    | none, none => ∀ inherited, productionVars store projectId key = some inherited →
      match store.getEnvVars projectId none key with
      | some shared => shared = inherited
      | none => (∃ production, store.productionEnvironment projectId = some production ∧
          (store.getEnvVarsForService projectId serviceId (some production.id) key).isSome) ∨
        store.getGlobalSecrets decrypt key = some inherited
    | _, _ => True

section
variable {decrypt} {store store' : Store} {attached : List String} {environmentId key : String}
  (hrows : store'.envVars = store.envVars.map
    (movedRow sourceProjectId targetProjectId serviceId attached store.envVars))
  (henvironments : store'.environments = store.environments)
  (hsecrets : store'.globalSecrets = store.globalSecrets)
include hrows henvironments

/-- The variables of production are inherited no longer where the service has none of its own. -/
theorem productionVars_moved :
    productionVars store' sourceProjectId key =
      if ∃ production, store.productionEnvironment sourceProjectId = some production ∧
          (store.getEnvVarsForService sourceProjectId serviceId (some production.id) key).isSome
      then productionVars store sourceProjectId key else none := by
  have hproduction : store'.productionEnvironment sourceProjectId =
      store.productionEnvironment sourceProjectId := by
    rw [Store.productionEnvironment, Store.getEnvironmentsByProject, henvironments]
    rfl
  rw [productionVars, productionVars, hproduction]
  cases store.productionEnvironment sourceProjectId with
  | none => simp [Record.empty]
  | some production =>
    simp only [getEnvVars_moved hrows, ← getEnvVarsForService_isSome (p := sourceProjectId),
      Option.some.injEq, exists_eq_left']

include hsecrets

theorem kept_iff :
    (∀ value, resolved decrypt store sourceProjectId serviceId environmentId key = some value →
      resolved decrypt store' sourceProjectId serviceId environmentId key = some value) ↔
    Kept decrypt store sourceProjectId serviceId environmentId key := by
  have hglobal : store'.getGlobalSecrets decrypt = store.getGlobalSecrets decrypt := by
    rw [Store.getGlobalSecrets, hsecrets]
    rfl
  rw [resolved_apply, resolved_apply, getEnvVarsForService_moved hrows,
    getEnvVarsForService_moved hrows, getEnvVars_moved hrows, getEnvVars_moved hrows,
    productionVars_moved hrows henvironments, hglobal, Kept]
  simp only [← getEnvVarsForService_isSome (p := sourceProjectId)]
  generalize store.getEnvVarsForService sourceProjectId serviceId (some environmentId) key =
    serviceOwn
  generalize store.getEnvVarsForService sourceProjectId serviceId none key = serviceShared
  generalize store.getEnvVars sourceProjectId (some environmentId) key = own
  generalize productionVars store sourceProjectId key = inherited
  generalize store.getEnvVars sourceProjectId none key = shared
  cases serviceOwn with
  | some value => simp
  | none =>
    cases serviceShared with
    | some value => cases own <;> simp
    | none =>
      cases own with
      | some value => simp
      | none =>
        cases inherited with
        | none => cases shared <;> simp
        | some value =>
          cases shared with
          | some value' => simp
          | none =>
            by_cases hown : ∃ production,
                store.productionEnvironment sourceProjectId = some production ∧
                  (store.getEnvVarsForService sourceProjectId serviceId (some production.id)
                    key).isSome
            · rw [if_pos hown]
              exact iff_of_true (by simp) fun _ _ _ => .inl hown
            · rw [if_neg hown]
              simp only [or_iff_right hown]
              simp

end

/-- **Attaching a service preserves its environment** exactly where, for every key that the service
has no variable for in the environment, its shared variable is not hidden by another value that the
project has for the environment, and a value that is inherited from production comes out of another
scope as well, or stays because the service has one of its own in production.  A service of the pool,
and one that is in the project already, keeps its environment in any case. -/
theorem attached_resolved_iff {result : AttachResult} (environmentId : String)
    (h : attachServiceToProject targetProjectId serviceId db = .ok (result, db')) :
    (∀ key value,
      resolved decrypt db.toStore result.sourceProjectId serviceId environmentId key = some value →
        resolved decrypt db'.toStore result.sourceProjectId serviceId environmentId key =
          some value) ↔
    result.sourceProjectId = targetProjectId ∨
      result.sourceProjectId = ORPHAN_MANAGED_GROUP_ID ∨
      ∀ key, Kept decrypt db.toStore result.sourceProjectId serviceId environmentId key := by
  simp only [attachServiceToProject] at h
  split at h
  · cases h
  next svc hsvc =>
  split at h
  · cases h
  next sourceProjectId hsource =>
  split at h
  next hsame =>
    cases h
    exact iff_of_true (fun _ _ hvalue => hvalue) (.inl hsame)
  next hne =>
  split at h
  · cases h
  split at h
  next hpool =>
    cases h
    exact iff_of_true (fun _ _ hvalue => hvalue) (.inr (.inl hpool))
  next hpool =>
  cases h
  dsimp only
  rw [or_iff_right hne, or_iff_right hpool]
  exact forall_congr' fun key =>
    kept_iff (promoteEnvVars_moveServiceEnvVars _ _) rfl rfl

/-- An application in a project of its own, and another project. -/
def standalone (envVars : List EnvVarRow) : Tables where
  envVars := envVars
  environments := [⟨"e", "app", "production"⟩]
  projects := ["app", "shop"]
  services := [{ id := "app__svc", projectId := some "app", kind := .git }]

/-- A variable of the project in production. -/
def promoted : Tables :=
  standalone [{ projectId := "app", environmentId := some "e", key := "PORT", value := "80" }]

theorem attached_resolved_promoted :
    ∃ result db', attachServiceToProject "shop" "app__svc" promoted = .ok (result, db') ∧
      ∀ key value,
        resolved (fun value _ => value) promoted.toStore result.sourceProjectId "app__svc" "e" key =
          some value →
        resolved (fun value _ => value) db'.toStore result.sourceProjectId "app__svc" "e" key =
          some value := by
  have hattach : attachServiceToProject "shop" "app__svc" promoted =
      .ok ({ sourceProjectId := "app", targetProjectId := "shop" }, _) := rfl
  refine ⟨_, _, hattach, (attached_resolved_iff _ "e" hattach).mpr (.inr (.inr fun key => ?_))⟩
  by_cases hkey : key = "PORT"
  · subst hkey
    exact fun _ => trivial
  · have hnone : ∀ p, promoted.toStore.select p key = none := by
      intro p
      simp [select_apply, promoted, standalone, Ne.symm hkey]
    have hproduction : productionVars promoted.toStore "app" key = none := hnone _
    intro _
    simp only [Store.getEnvVarsForService, Store.getEnvVars, hnone, hproduction]
    exact fun _ hinherited => by cases hinherited

/-- A shared variable of the service is hidden by what the project had in production. -/
theorem not_attached_resolved :
    ¬∀ (decrypt : String → String → String) (db db' : Tables) (result : AttachResult)
      (targetProjectId serviceId environmentId : String),
      attachServiceToProject targetProjectId serviceId db = .ok (result, db') →
      ∀ key value,
        resolved decrypt db.toStore result.sourceProjectId serviceId environmentId key =
          some value →
        resolved decrypt db'.toStore result.sourceProjectId serviceId environmentId key =
          some value := by
  intro h
  have hvalue := h (fun value _ => value) (standalone
    [{ projectId := "app", environmentId := some "e", key := "PORT", value := "80" },
      { projectId := "app", serviceId := some "app__svc", key := "PORT", value := "8080" }])
    _ _ "shop" "app__svc" "e" rfl "PORT" "8080" (by decide)
  exact absurd hvalue (by decide)

end OpenLander.Db.AttachService
