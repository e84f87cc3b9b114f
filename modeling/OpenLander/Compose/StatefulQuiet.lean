import OpenLander.Compose.StatefulUpdate

/-! # When the classification is quiet

A resource that the pipeline has created, classified by the definition that it was created from. -/

namespace OpenLander.Compose.DeployedResource
open StatefulUpdate (StatefulBackupVolume StatefulError desiredVolumeContracts)

variable {N : Numbers} (d : DeployedResource N)

/-- The definition as `prepareStatefulComposeUpdate` hands it on, with the image resolved. -/
def desired : ComposeService :=
  { d.service with
    image := if d.service.image.any (!·.isEmpty) then some d.imageTag else d.service.image }

def mountPoints : List MountPoint := (d.config.inspect N).mounts

/-- The volumes that the definition is read to have. -/
def desiredVolumes : Except StatefulError (List StatefulBackupVolume) :=
  desiredVolumeContracts d.world.host d.projectName d.projectPath d.desired

end OpenLander.Compose.DeployedResource

namespace OpenLander.Compose.StatefulUpdate
open Theory

section
variable {N : Numbers} {φ : Type}

/-- The classification of the definition that a resource was created from, with equal fingerprints. -/
structure Reclassified (d : DeployedResource N) (params : ClassifyParams N φ)
    (existing : ExistingStatefulComposeService N φ) : Prop where
  host : params.host = d.world.host
  projectName : params.projectName = d.projectName
  projectPath : params.projectPath = d.projectPath
  service : serviceByName params.services d.service.name = some d.desired
  role : params.runtimeRoles d.service.name = some .resource
  desiredEnv : params.desiredEnvByService d.service.name = some (recordEntries d.envVars)
  serviceName : existing.serviceName = d.service.name
  runtimeRole : existing.runtimeRole = .resource
  containerId : (existing.containerId.filter (!·.isEmpty)).isSome
  inspection : existing.inspection = some (d.config.inspect N)
  fingerprint : existing.previousFingerprint = params.currentFingerprints d.service.name

/-- No migration of the service is required, and no change of it is reported. -/
def QuietFor (serviceName : String) :
    Except StatefulError (List (StatefulComposeChange φ)) → Prop
  | .ok changes => ∀ change ∈ changes, change.serviceName ≠ serviceName
  | .error (.StatefulMigrationRequiredError name _) => name ≠ serviceName
  | .error (.StatefulBackupUnsupportedError ..) => True

/-! ## The condition -/

/-- The volumes of the container cannot be backed up: it has another mount, or no volume, or the
definition has an absolute source. -/
inductive NoBackup (d : DeployedResource N) : Prop
  | otherMount (h : ∃ mount ∈ d.mountPoints, mount.isVolume = false)
  | noVolume (h : namedVolumes d.mountPoints = [])
  | absoluteSource (h : ∃ e, d.desiredVolumes = .error e)

/-- Both durations are the same number of nanoseconds. -/
def DurationKept (N : Numbers) (value : Option String) : Prop :=
  N.equal ((dockerDuration N value).getD (N.ofNat 0)) (composeDurationNanoseconds N value) = true

/-- The fields that the classification reads off the definition are those that the container was
created with. -/
structure Kept (d : DeployedResource N) : Prop where
  /-- Docker has the variable under its own name. -/
  environment : ∀ entry ∈ recordEntries d.envVars, entry.1 ≠ "" ∧ '=' ∉ entry.1.toList
  declared : d.service.environment.isSome → recordEntries d.envVars ≠ []
  /-- The command is run by a shell otherwise. -/
  command : ∀ text, d.service.command ≠ some (.string text)
  entrypoint : ∀ text, d.service.entrypoint = some (.string text) → text = ""
  restart : ∀ policy, d.service.restart = some policy → policy ∈ restartPolicies
  ports : d.service.ports.getD [] ++ d.service.expose.getD [] ≠ [] →
    desiredContainerPorts N d.service =
      ((internalContainerPort d.service d.portValues).filter (· ≠ 0)).toList
  healthcheck : ∀ healthcheck, d.service.healthcheck = some healthcheck →
    DurationKept N healthcheck.interval ∧ DurationKept N healthcheck.timeout ∧
      DurationKept N healthcheck.start_period

/-- So are the volumes. -/
structure Stable (d : DeployedResource N) : Prop extends Kept d where
  volumes : ∃ volumes, d.desiredVolumes = .ok volumes ∧
    sameVolumes volumes (namedVolumes d.mountPoints) = true

/-! ## Fields -/

theorem foldl_insertLast_eq_nil {l : List String} : l.foldl insertLast [] = [] ↔ l = [] := by
  rw [List.eq_nil_iff_forall_not_mem, List.eq_nil_iff_forall_not_mem]
  simp only [mem_foldl_insertLast, List.not_mem_nil, false_or]

theorem sortedFields_eq_nil {fields : List (String × Bool)} :
    sortedFields fields = [] ↔ ∀ field ∈ fields, field.2 = false := by
  rw [sortedFields, ← List.length_eq_zero_iff, List.length_mergeSort, List.length_eq_zero_iff,
    foldl_insertLast_eq_nil, List.map_eq_nil_iff, List.filter_eq_nil_iff]
  simp only [Bool.not_eq_true]

theorem config_eq (d : DeployedResource N) : d.config =
    { image := d.imageTag
      env := (recordEntries d.envVars).map fun (key, value) => key ++ "=" ++ value
      exposedPorts := ((internalContainerPort d.service d.portValues).filter (· ≠ 0)).toList
      cmd := dockerCommand d.service.command
      entrypoint := d.service.entrypoint
      healthcheck := d.service.healthcheck.map (dockerHealthcheck N)
      binds := d.secretBinds ++ d.volumeBinds ++ bindMappings d.mounts
      restartPolicy := restartPolicyName d.service.restart
      memory := d.service.memoryLimitBytes.filter (· ≠ 0) } := by
  have h := d.config_eq
  rw [createOptions] at h
  split at h
  · exact nomatch h
  · exact (Except.ok.inj h).symm

/-! ### The image -/

theorem changedImage_desired (d : DeployedResource N) :
    changedImage d.desired.image d.imageTag = none := by
  rw [changedImage, DeployedResource.desired, Option.filter_eq_none_iff]
  intro image himage
  rw [Bool.not_eq_true, Bool.and_eq_false_iff]
  by_cases hgiven : d.service.image.any (!·.isEmpty) = true
  · rw [if_pos hgiven] at himage
    exact .inr (decide_eq_false (not_not.mpr (Option.some.inj himage).symm))
  · rw [if_neg hgiven] at himage
    rw [himage, Option.any_some] at hgiven
    rw [Bool.not_eq_true] at hgiven
    exact .inl (by rw [hgiven, Bool.false_and])

/-! ### The environment -/

theorem splitEnv_append {key : String} (hkey : key ≠ "") (h : '=' ∉ key.toList) (value : String) :
    splitEnv (key ++ "=" ++ value) = some (key, value) := by
  have hlist : (key ++ "=" ++ value).toList = key.toList ++ '=' :: value.toList := by
    rw [String.toList_append, String.toList_append, List.append_assoc]
    rfl
  have hall : ∀ c ∈ key.toList, decide (c ≠ '=') = true :=
    fun c hc => decide_eq_true fun heq => h (heq ▸ hc)
  have htake : (key ++ "=" ++ value).toList.takeWhile (· ≠ '=') = key.toList := by
    rw [hlist, List.takeWhile_append_of_pos hall, List.takeWhile_cons_of_neg (by decide),
      List.append_nil]
  have hdrop : (key ++ "=" ++ value).toList.dropWhile (· ≠ '=') = '=' :: value.toList := by
    rw [hlist, List.dropWhile_append_of_pos hall, List.dropWhile_cons_of_neg (by decide)]
  have hempty : key.toList.isEmpty = false := by
    rwa [List.isEmpty_eq_false_iff, ne_eq, String.toList_eq_nil_iff]
  have hmem : '=' ∈ (key ++ "=" ++ value).toList := by
    rw [hlist]
    exact List.mem_append_right _ (.head _)
  rw [splitEnv, htake, hdrop, hempty, Bool.false_or, decide_eq_false (not_not.mpr hmem),
    if_neg Bool.false_ne_true, List.drop_one, List.tail_cons, String.ofList_toList,
    String.ofList_toList]

theorem key_of_splitEnv (h : splitEnv line = some (key, value)) :
    key ≠ "" ∧ '=' ∉ key.toList := by
  rw [splitEnv] at h
  split at h
  · exact nomatch h
  · next hline =>
    obtain ⟨rfl, -⟩ := Prod.mk.inj (Option.some.inj h)
    rw [Bool.or_eq_true, not_or] at hline
    refine ⟨fun hempty => hline.1 ?_, fun hmem => ?_⟩
    · rw [String.ofList_eq_empty_iff] at hempty
      rw [hempty]
      rfl
    · rw [String.toList_ofList] at hmem
      have hne := List.all_eq_true.mp List.all_takeWhile _ hmem
      exact absurd rfl (of_decide_eq_true hne)

/-- The variables of a container are those that it was given just where their names have no equals
sign and are not empty. -/
theorem envRecord_iff {entries : List (String × String)} (hnodup : (entries.map (·.1)).Nodup) :
    (∀ entry ∈ entries, envRecord (entries.map fun (key, value) => key ++ "=" ++ value) entry.1 =
      some entry.2) ↔ ∀ entry ∈ entries, entry.1 ≠ "" ∧ '=' ∉ entry.1.toList := by
  constructor
  · intro h entry hentry
    obtain ⟨line, -, hline⟩ := List.mem_filterMap.mp (mem_of_fromEntries (h entry hentry))
    exact key_of_splitEnv hline
  · intro h entry hentry
    have hall : (entries.map fun (key, value) => key ++ "=" ++ value).filterMap splitEnv =
        entries := by
      rw [List.filterMap_map]
      refine (List.filterMap_congr fun entry hentry => ?_).trans List.filterMap_some
      exact splitEnv_append (h entry hentry).1 (h entry hentry).2 entry.2
    rw [envRecord, hall]
    exact fromEntries_of_nodup hnodup hentry

theorem environmentChanged_eq_false (d : DeployedResource N) :
    environmentChanged d.desired (recordEntries d.envVars) d.config.env = false ↔
      (∀ entry ∈ recordEntries d.envVars, entry.1 ≠ "" ∧ '=' ∉ entry.1.toList) ∧
        (d.service.environment.isSome → recordEntries d.envVars ≠ []) := by
  rw [← envRecord_iff (nodup_recordEntries d.envVars), environmentChanged, config_eq,
    Bool.or_eq_false_iff, List.any_eq_false, Bool.and_eq_false_imp]
  simp only [decide_eq_true_eq, not_not, ne_eq, List.isEmpty_eq_false_iff]
  rfl

/-! ### The other fields -/

theorem command_kept_iff (command : Option StringOrList) :
    (command.isSome && decide (normalizeCommand command ≠ (dockerCommand command).getD [])) = false ↔
      ∀ text, command ≠ some (.string text) := by
  match command with
  | none => exact iff_of_true rfl nofun
  | some (.list words) => exact iff_of_true (by simp [normalizeCommand, dockerCommand]) nofun
  | some (.string text) =>
    refine iff_of_false ?_ fun h => h text rfl
    rw [normalizeCommand, dockerCommand]
    split <;> simp

theorem entrypoint_kept_iff (entrypoint : Option StringOrList) :
    (entrypoint.isSome && decide (normalizeCommand entrypoint ≠ runtimeWords entrypoint)) = false ↔
      ∀ text, entrypoint = some (.string text) → text = "" := by
  match entrypoint with
  | none => exact iff_of_true rfl nofun
  | some (.list words) => exact iff_of_true (by simp [normalizeCommand, runtimeWords]) nofun
  | some (.string text) =>
    by_cases htext : text = ""
    · rw [htext]
      exact iff_of_true rfl fun other hother => (StringOrList.string.inj (Option.some.inj hother)).symm
    · have hempty : text.isEmpty = false := by
        rwa [Bool.eq_false_iff, ne_eq, String.isEmpty_iff]
      refine iff_of_false ?_ fun h => htext (h text rfl)
      simp [normalizeCommand, runtimeWords, hempty]

theorem restart_kept_iff (restart : Option String) :
    decide (restart.getD "unless-stopped" ≠ restartPolicyName restart) = false ↔
      ∀ policy, restart = some policy → policy ∈ restartPolicies := by
  rw [decide_eq_false_iff_not, not_not, restartPolicyName]
  cases restart with
  | none => exact iff_of_true rfl nofun
  | some policy =>
    simp only [Option.getD_some, Option.some_inj, forall_eq']
    by_cases hpolicy : policy ∈ restartPolicies
    · simp [Option.filter, hpolicy]
    · simp only [Option.filter, hpolicy, decide_false, Bool.false_eq_true, if_false,
        Option.getD_none, iff_false]
      intro h
      exact hpolicy (h ▸ by decide)

theorem memory_kept (memory : Option Nat) : (memory.filter (· ≠ 0)).getD 0 = memory.getD 0 := by
  match memory with
  | none | some 0 | some (_ + 1) => rfl

theorem durationChanged_eq_false (value : Option String) :
    durationChanged N (dockerDuration N value) value = false ↔ DurationKept N value := by
  rw [durationChanged, Bool.not_eq_false', DurationKept]

theorem healthcheck_kept_iff (healthcheck : Option ComposeHealthcheck) :
    healthcheckChanged N healthcheck (healthcheck.map (dockerHealthcheck N)) = false ↔
      ∀ h, healthcheck = some h → DurationKept N h.interval ∧ DurationKept N h.timeout ∧
        DurationKept N h.start_period := by
  cases healthcheck with
  | none => exact iff_of_true rfl nofun
  | some h =>
    simp only [Option.some_inj, forall_eq', ← durationChanged_eq_false]
    simp [healthcheckChanged, dockerHealthcheck, and_assoc]

/-- One port at the most. -/
theorem ports_kept_iff (service : ComposeService) (port : Option Nat) :
    (!(service.ports.getD [] ++ service.expose.getD []).isEmpty &&
      decide (desiredContainerPorts N service ≠
        (((port.filter (· ≠ 0)).toList).filter (0 < ·)).mergeSort)) = false ↔
      (service.ports.getD [] ++ service.expose.getD [] ≠ [] →
        desiredContainerPorts N service = (port.filter (· ≠ 0)).toList) := by
  have hsorted : (((port.filter (· ≠ 0)).toList).filter (0 < ·)).mergeSort =
      (port.filter (· ≠ 0)).toList := by
    match port with
    | none | some 0 => exact List.mergeSort_nil
    | some (_ + 1) => exact List.mergeSort_singleton _
  rw [hsorted, Bool.and_eq_false_imp, Bool.not_eq_true', List.isEmpty_eq_false_iff,
    decide_eq_false_iff_not, not_not]

theorem approvable_eq_nil (d : DeployedResource N) :
    (changedRuntimeFields N d.desired d.config (recordEntries d.envVars)).approvable = [] ↔
      Kept d := by
  have himage : (changedImage d.desired.image d.config.image).any
      (isCompatible · d.config.image) = false := by
    rw [config_eq, changedImage_desired]
    rfl
  have hmemory : decide (d.desired.memoryLimitBytes.getD 0 ≠ d.config.memory.getD 0) = false := by
    rw [config_eq, memory_kept]
    exact decide_eq_false (not_not.mpr rfl)
  rw [changedRuntimeFields, sortedFields_eq_nil]
  simp only [List.forall_mem_cons, environmentChanged_eq_false]
  rw [and_iff_right himage, and_iff_right hmemory, config_eq]
  constructor
  · rintro ⟨⟨henvironment, hdeclared⟩, hcommand, hentrypoint, hrestart, hports, hhealthcheck, -⟩
    exact ⟨henvironment, hdeclared, (command_kept_iff _).mp hcommand,
      (entrypoint_kept_iff _).mp hentrypoint, (restart_kept_iff _).mp hrestart,
      (ports_kept_iff _ _).mp hports, (healthcheck_kept_iff _).mp hhealthcheck⟩
  · intro h
    exact ⟨⟨h.environment, h.declared⟩, (command_kept_iff _).mpr h.command,
      (entrypoint_kept_iff _).mpr h.entrypoint, (restart_kept_iff _).mpr h.restart,
      (ports_kept_iff d.service _).mpr h.ports, (healthcheck_kept_iff _).mpr h.healthcheck,
      List.forall_mem_nil _⟩

theorem migration_eq_nil (d : DeployedResource N) :
    (changedRuntimeFields N d.desired d.config (recordEntries d.envVars)).migration = [] := by
  rw [changedRuntimeFields, sortedFields_eq_nil, config_eq, changedImage_desired]
  exact List.forall_mem_singleton.mpr rfl

/-! ## Errors -/

/-- What the loop says of a service is about that service, or it is that there is no backup. -/
def About (serviceName : String) :
    Except StatefulError (List (StatefulComposeChange φ)) → Prop
  | .ok changes => ∀ change ∈ changes, change.serviceName = serviceName
  | .error (.StatefulMigrationRequiredError name _) => name = serviceName
  | .error (.StatefulBackupUnsupportedError ..) => True

theorem quietFor_of_about {r : Except StatefulError (List (StatefulComposeChange φ))}
    (h : About other r) (hne : other ≠ name) : QuietFor name r := by
  match r with
  | .ok changes => exact fun change hchange => h change hchange ▸ hne
  | .error (.StatefulMigrationRequiredError ..) => exact h ▸ hne
  | .error (.StatefulBackupUnsupportedError ..) => trivial

theorem QuietFor.append {first : Except StatefulError (List (StatefulComposeChange φ))}
    (hfirst : QuietFor name first) (hrest : QuietFor name rest) :
    QuietFor name (first.bind fun changes => rest.map (changes ++ ·)) := by
  match first, rest with
  | .error _, _ => exact hfirst
  | .ok _, .error _ => exact hrest
  | .ok _, .ok _ => exact List.forall_mem_append.mpr ⟨hfirst, hrest⟩

theorem desiredVolumeContract_error
    (h : desiredVolumeContract host projectName projectPath service mapping = .error e) :
    e = .StatefulBackupUnsupportedError service.name ["bind"] := by
  rw [desiredVolumeContract] at h
  split at h
  · exact nomatch h
  · split at h
    · exact (Except.error.inj h).symm
    · split at h
      · split at h <;> exact nomatch h
      · exact nomatch h

/-- The error of a list is that of a member. -/
theorem mapM_error {f : α → Except ε β} {l : List α} (h : l.mapM f = .error e) :
    ∃ a ∈ l, f a = .error e := by
  induction l with
  | nil => exact nomatch h
  | cons a l ih =>
    rw [List.mapM_cons] at h
    cases ha : f a with
    | error e' =>
      rw [ha] at h
      obtain rfl : e' = e := Except.error.inj h
      exact ⟨a, .head _, ha⟩
    | ok b =>
      rw [ha] at h
      cases hl : l.mapM f with
      | error e' =>
        rw [hl] at h
        obtain rfl : e' = e := Except.error.inj h
        obtain ⟨a', ha', he⟩ := ih hl
        exact ⟨a', .tail _ ha', he⟩
      | ok bs =>
        rw [hl] at h
        exact nomatch h

theorem desiredVolumeContracts_error
    (h : desiredVolumeContracts host projectName projectPath service = .error e) :
    e = .StatefulBackupUnsupportedError service.name ["bind"] := by
  rw [desiredVolumeContracts] at h
  cases hcontracts : (service.volumes.getD []).zipIdx.mapM
      (desiredVolumeContract host projectName projectPath service) with
  | error e' =>
    rw [hcontracts] at h
    obtain rfl : e' = e := Except.error.inj h
    obtain ⟨mapping, -, hmapping⟩ := mapM_error hcontracts
    exact desiredVolumeContract_error hmapping
  | ok contracts =>
    rw [hcontracts] at h
    exact nomatch h

theorem runtimeBackupVolumes_error (h : runtimeBackupVolumes name mounts = .error e) :
    ∃ types, e = .StatefulBackupUnsupportedError name types := by
  rw [runtimeBackupVolumes] at h
  split at h
  · exact ⟨_, (Except.error.inj h).symm⟩
  · split at h
    · exact ⟨_, (Except.error.inj h).symm⟩
    · exact nomatch h

theorem desiredVolumeContracts_desired {params : ClassifyParams N φ}
    (h : Reclassified d params existing) :
    desiredVolumeContracts params.host params.projectName params.projectPath d.desired =
      d.desiredVolumes := by
  rw [h.host, h.projectName, h.projectPath]
  rfl

section
variable [DecidableEq φ] {params : ClassifyParams N φ}
  {existing : ExistingStatefulComposeService N φ}

theorem classifyFields_about (containerId : String) (backupVolumes : List StatefulBackupVolume)
    (fields : ChangedFields) : About existing.serviceName
      (classifyFields params existing containerId backupVolumes fields) := by
  rw [classifyFields]
  split
  · rfl
  · split
    · exact nofun
    · exact List.forall_mem_singleton.mpr rfl

theorem classifyResource_about (containerId : String) (inspection : ContainerInspection N)
    (backupVolumes : List StatefulBackupVolume) (desired : ComposeService) :
    About existing.serviceName
      (classifyResource params existing containerId inspection backupVolumes desired) := by
  rw [classifyResource]
  split
  · rfl
  · cases hvolumes : desiredVolumeContracts params.host params.projectName params.projectPath
      desired with
    | error e =>
      rw [desiredVolumeContracts_error hvolumes]
      trivial
    | ok volumes =>
      change About _ (if _ then _ else _)
      split
      · rfl
      · exact classifyFields_about containerId backupVolumes _

theorem classifyExisting_about : About existing.serviceName (classifyExisting params existing) := by
  rw [classifyExisting]
  split
  · rfl
  · split
    · exact List.forall_mem_nil _
    · split
      · next containerId inspection _ _ =>
        cases hvolumes : runtimeBackupVolumes existing.serviceName inspection.mounts with
        | error e =>
          obtain ⟨types, rfl⟩ := runtimeBackupVolumes_error hvolumes
          trivial
        | ok volumes =>
          cases serviceByName params.services existing.serviceName with
          | some service => exact classifyResource_about containerId inspection volumes service
          | none => exact List.forall_mem_singleton.mpr rfl
      · rfl

/-! ## A deployed resource -/

variable {d : DeployedResource N}

theorem quietFor_classifyFields (h : Reclassified d params existing) (containerId : String)
    (backupVolumes : List StatefulBackupVolume) :
    QuietFor d.service.name (classifyFields params existing containerId backupVolumes
      (changedRuntimeFields N d.desired d.config (recordEntries d.envVars))) ↔ Kept d := by
  have hsame : (existing.previousFingerprint.isSome &&
      (params.currentFingerprints existing.serviceName).isSome &&
      decide (existing.previousFingerprint ≠ params.currentFingerprints existing.serviceName)) =
        false := by
    rw [h.fingerprint, h.serviceName, decide_eq_false (not_not.mpr rfl), Bool.and_false]
  rw [← approvable_eq_nil, classifyFields, hsame, migration_eq_nil]
  by_cases hfields :
      (changedRuntimeFields N d.desired d.config (recordEntries d.envVars)).approvable = []
  · rw [hfields]
    exact iff_of_true nofun rfl
  · refine iff_of_false (fun hquiet => ?_) hfields
    rw [List.isEmpty_eq_false_iff.mpr hfields] at hquiet
    exact hquiet _ (.head _) h.serviceName

theorem classifyResource_error (h : Reclassified d params existing)
    (hvolumes : d.desiredVolumes = .error e) (containerId : String)
    (inspection : ContainerInspection N) (backupVolumes : List StatefulBackupVolume) :
    classifyResource params existing containerId inspection backupVolumes d.desired =
      .error e := by
  rw [classifyResource, h.serviceName, h.role, desiredVolumeContracts_desired h, hvolumes]
  rfl

theorem quietFor_classifyResource (h : Reclassified d params existing) (containerId : String)
    (backupVolumes : List StatefulBackupVolume) (hvolumes : d.desiredVolumes = .ok volumes) :
    QuietFor d.service.name (classifyResource params existing containerId (d.config.inspect N)
      backupVolumes d.desired) ↔ sameVolumes volumes backupVolumes = true ∧ Kept d := by
  rw [classifyResource, h.serviceName, h.role, h.desiredEnv, desiredVolumeContracts_desired h,
    hvolumes]
  by_cases hsame : sameVolumes volumes backupVolumes = true
  · rw [and_iff_right hsame, ← quietFor_classifyFields h containerId backupVolumes]
    change QuietFor _ (if _ then _ else if _ then _ else _) ↔ _
    rw [if_neg (by decide), hsame]
    rfl
  · refine iff_of_false (fun hquiet => ?_) fun hboth => hsame hboth.1
    change QuietFor _ (if _ then _ else if _ then _ else _) at hquiet
    rw [if_neg (by decide), Bool.eq_false_iff.mpr hsame] at hquiet
    exact hquiet rfl

theorem classifyExisting_reclassified (h : Reclassified d params existing) :
    ∃ containerId, classifyExisting params existing =
      (runtimeBackupVolumes d.service.name d.mountPoints).bind fun backupVolumes =>
        classifyResource params existing containerId (d.config.inspect N) backupVolumes
          d.desired := by
  have hrole : roleChanged params existing = false := by
    rw [roleChanged, h.serviceName, h.role, h.runtimeRole, Option.any_some,
      decide_eq_false (not_not.mpr rfl), Bool.false_and, Bool.and_false]
  obtain ⟨containerId, hcontainer⟩ := Option.isSome_iff_exists.mp h.containerId
  refine ⟨containerId, ?_⟩
  rw [classifyExisting, hrole, h.runtimeRole, hcontainer, h.inspection, h.serviceName, h.service]
  rfl

theorem quietFor_classifyExisting (h : Reclassified d params existing) :
    QuietFor d.service.name (classifyExisting params existing) ↔ NoBackup d ∨ Stable d := by
  obtain ⟨containerId, hstep⟩ := classifyExisting_reclassified h
  rw [hstep, runtimeBackupVolumes]
  by_cases hother : (d.mountPoints.any fun mount => !mount.isVolume) = true
  · rw [if_pos hother]
    obtain ⟨mount, hmount, hkind⟩ := List.any_eq_true.mp hother
    exact iff_of_true trivial (.inl (.otherMount ⟨mount, hmount, (Bool.not_eq_true' _).mp hkind⟩))
  rw [if_neg hother]
  by_cases hnone : namedVolumes d.mountPoints = []
  · rw [hnone]
    exact iff_of_true trivial (.inl (.noVolume hnone))
  rw [if_neg (mt List.isEmpty_iff.mp hnone)]
  change QuietFor _ (classifyResource ..) ↔ _
  cases hvolumes : d.desiredVolumes with
  | error e =>
    refine iff_of_true ?_ (.inl (.absoluteSource ⟨e, hvolumes⟩))
    rw [classifyResource_error h hvolumes, desiredVolumeContracts_error hvolumes]
    trivial
  | ok volumes =>
    rw [quietFor_classifyResource h containerId _ hvolumes]
    constructor
    · rintro ⟨hsame, hkept⟩
      exact .inr ⟨hkept, volumes, hvolumes, hsame⟩
    · rintro ((⟨mount, hmount, hkind⟩ | hempty | ⟨e, he⟩) | hstable)
      · exact absurd (List.any_eq_true.mpr ⟨mount, hmount, (Bool.not_eq_true' _).mpr hkind⟩) hother
      · exact absurd hempty hnone
      · exact nomatch hvolumes.symm.trans he
      · obtain ⟨volumes', hvolumes', hsame⟩ := hstable.volumes
        obtain rfl := Except.ok.inj (hvolumes.symm.trans hvolumes')
        exact ⟨hsame, hstable.toKept⟩

/-! ## All services -/

theorem classify_cons (params : ClassifyParams N φ) (existing : ExistingStatefulComposeService N φ)
    (others : List (ExistingStatefulComposeService N φ)) :
    classifyStatefulComposeChanges params (existing :: others) =
      (classifyExisting params existing).bind fun changes =>
        (classifyStatefulComposeChanges params others).map (changes ++ ·) := by
  rw [classifyStatefulComposeChanges, List.mapM_cons, classifyStatefulComposeChanges]
  cases classifyExisting params existing with
  | error e => rfl
  | ok changes =>
    cases others.mapM (classifyExisting params) with
    | error e => rfl
    | ok changes' => rfl

theorem quietFor_classify {services : List (ExistingStatefulComposeService N φ)}
    (h : ∀ existing ∈ services, QuietFor name (classifyExisting params existing)) :
    QuietFor name (classifyStatefulComposeChanges params services) := by
  induction services with
  | nil => exact nofun
  | cons existing services ih =>
    rw [classify_cons]
    rw [List.forall_mem_cons] at h
    exact h.1.append (ih h.2)

theorem quietFor_singleton (h : QuietFor name (classifyStatefulComposeChanges params [existing])) :
    QuietFor name (classifyExisting params existing) := by
  rw [classify_cons] at h
  cases hexisting : classifyExisting params existing with
  | error e =>
    rw [hexisting] at h
    exact h
  | ok changes =>
    rw [hexisting] at h
    exact fun change hchange => h change (List.mem_append_left _ hchange)

/-- The classification is quiet about a service that was created from the same definition, whatever
other services there are, just if there is no backup of it or it is stable. -/
theorem classify_quiet_iff (h : Reclassified d params existing) :
    (∀ before after, (∀ other ∈ before ++ after, other.serviceName ≠ d.service.name) →
      QuietFor d.service.name
        (classifyStatefulComposeChanges params (before ++ existing :: after))) ↔
      NoBackup d ∨ Stable d := by
  rw [← quietFor_classifyExisting h]
  constructor
  · intro hquiet
    exact quietFor_singleton (hquiet [] [] (List.forall_mem_nil _))
  · intro hquiet before after hothers
    refine quietFor_classify fun other hother => ?_
    have habout : About other.serviceName (classifyExisting params other) := classifyExisting_about
    rw [List.mem_append, List.mem_cons] at hother
    rcases hother with hbefore | rfl | hafter
    · exact quietFor_of_about habout (hothers other (List.mem_append_left _ hbefore))
    · exact hquiet
    · exact quietFor_of_about habout (hothers other (List.mem_append_right _ hafter))

end

end

/-! ## A cache -/

/-- Numbers without a fraction. -/
def integers : Numbers where
  Num := Option Nat
  ofNat := some
  parse text := if text.toList.all (·.isDigit) then some (Nat.ofDigitChars 10 text.toList 0) else none
  add a b := a.bind fun a => b.map (a + ·)
  mul a b := a.bind fun a => b.map (a * ·)
  div a b := a.bind fun a => b.bind fun b => if b ∣ a then some (a / b) else none
  isFinite := Option.isSome
  equal a b := a.isSome && a = b
  positive a := a.filter (0 < ·)

def cacheService (command : Option StringOrList) : ComposeService where
  name := "cache"
  image := some "redis:7"
  expose := some ["6379"]
  volumes := some ["data:/data"]
  command
  environment := some (.list ["TZ=UTC"])
  restart := some "always"
  memoryLimitBytes := some 268435456
  healthcheck := some { test := .list ["CMD", "redis-cli", "ping"], interval := some "30s" }

/-- A cache that was created with a command. -/
def cache (command : Option StringOrList) (h : hasShellMetacharacters command = false) :
    DeployedResource integers where
  env := {}
  outcomes _ := none
  world := { host := { node := fun _ => none } }
  projectName := "shop"
  projectPath := ["clone"]
  service := cacheService command
  imageTag := "redis:7"
  portValues := ["6379"]
  envVars := [("TZ", "UTC")]
  mounts := [.bind "ol-shop-volume-data:/data"]
  secretBinds := []
  volumeBinds := []
  config :=
    { image := "redis:7"
      env := ["TZ=UTC"]
      exposedPorts := [6379]
      cmd := dockerCommand command
      entrypoint := none
      healthcheck := some
        { test := ["CMD", "redis-cli", "ping"]
          interval := some (integers.ofNat 30000000000)
          timeout := none
          retries := none
          startPeriod := none }
      binds := ["ol-shop-volume-data:/data"]
      restartPolicy := "always"
      memory := some 268435456 }
  imageTag_eq := by rfl
  portValues_eq := by rfl
  envVars_eq := by rfl
  mounts_eq := by rfl
  config_eq := (if_neg (Bool.eq_false_iff.mp h)).trans rfl

/-- Its definition, classified. -/
def cacheParams (command : Option StringOrList) : ClassifyParams integers Nat where
  host := { node := fun _ => none }
  projectName := "shop"
  projectPath := ["clone"]
  services := [cacheService command]
  runtimeRoles name := if name = "cache" then some .resource else none
  currentFingerprints name := if name = "cache" then some 7 else none
  desiredEnvByService name := if name = "cache" then some [("TZ", "UTC")] else none

def existingCache (command : Option StringOrList) (h : hasShellMetacharacters command = false) :
    ExistingStatefulComposeService integers Nat where
  serviceName := "cache"
  serviceId := "svc-1"
  runtimeRole := .resource
  containerId := some "c1"
  previousFingerprint := some 7
  inspection := some ((cache command h).config.inspect integers)

theorem reclassified_cache (command : Option StringOrList)
    (h : hasShellMetacharacters command = false) :
    Reclassified (cache command h) (cacheParams command) (existingCache command h) where
  host := rfl
  projectName := rfl
  projectPath := rfl
  service := rfl
  role := rfl
  desiredEnv := rfl
  serviceName := rfl
  runtimeRole := rfl
  containerId := rfl
  inspection := rfl
  fingerprint := rfl

theorem desiredVolumes_cache (command : Option StringOrList)
    (h : hasShellMetacharacters command = false) :
    (cache command h).desiredVolumes = .ok (namedVolumes (cache command h).mountPoints) := rfl

theorem tz_kept : (∀ entry ∈ recordEntries [("TZ", "UTC")], entry.1 ≠ "" ∧ '=' ∉ entry.1.toList) ∧
    recordEntries [("TZ", "UTC")] ≠ [] := by decide

theorem stable_cache (words : List String) : Stable (cache (some (.list words)) rfl) where
  environment := tz_kept.1
  declared _ := tz_kept.2
  command := nofun
  entrypoint := nofun
  restart policy hpolicy := by
    obtain rfl := Option.some.inj hpolicy
    decide
  ports _ := List.mergeSort_singleton _
  healthcheck healthcheck h := by
    obtain rfl := Option.some.inj h
    exact ⟨rfl, rfl, rfl⟩
  volumes := ⟨_, desiredVolumes_cache _ rfl, decide_eq_true rfl⟩

/-- A cache with the words of its command is stable. -/
theorem quietFor_cache : QuietFor "cache" (classifyStatefulComposeChanges
    (cacheParams (some (.list ["redis-server", "--appendonly", "yes"])))
    [existingCache (some (.list ["redis-server", "--appendonly", "yes"])) rfl]) :=
  (classify_quiet_iff (reclassified_cache _ rfl)).mpr (.inr (stable_cache _)) [] []
    (List.forall_mem_nil _)

/-- The same command in one text counts as changed. -/
theorem not_forall_quietFor : ¬∀ (d : DeployedResource integers) (params : ClassifyParams integers Nat)
    (existing : ExistingStatefulComposeService integers Nat), Reclassified d params existing →
      ∀ before after, (∀ other ∈ before ++ after, other.serviceName ≠ d.service.name) →
        QuietFor d.service.name
          (classifyStatefulComposeChanges params (before ++ existing :: after)) := by
  intro h
  have hreclassified := reclassified_cache (some (.string "redis-server --appendonly yes"))
    (by decide)
  have hquiet := quietFor_singleton (h _ _ _ hreclassified [] [] (List.forall_mem_nil _))
  rw [quietFor_classifyExisting hreclassified] at hquiet
  rcases hquiet with (hother | hnone | herror) | hstable
  · exact absurd hother (by decide)
  · exact nomatch hnone
  · obtain ⟨e, he⟩ := herror
    exact nomatch (desiredVolumes_cache _ _).symm.trans he
  · exact hstable.command _ rfl

end OpenLander.Compose.StatefulUpdate
