import OpenLander.Theory.Pool
import OpenLander.Pipeline.RunStep
import OpenLander.Pipeline.RecreateRuntime
import OpenLander.Pipeline.BlueGreen
import OpenLander.Pipeline.Rollback
import OpenLander.Pipeline.Lifecycle

/-! # What the operations do to the port reservations

Only `allocatePort` and `releasePortReservation` touch the reservations. The blue-green redeploy, the
rollback and the restore never release a port, and the run step does not where its preparations
fail; the recreation of a runtime releases what it reserves, and so does the run step where they
succeed. -/

namespace OpenLander.Pipeline
open Theory Prog

/-- No port is reserved or released. -/
def SamePorts (w w' : World) : Prop := w'.reservedPorts = w.reservedPorts

/-- No port is released. -/
def KeepsPorts (w w' : World) : Prop := w.reservedPorts ⊆ w'.reservedPorts

theorem keepsPorts {p : Async α} (h : p.Steps SamePorts) : p.Steps KeepsPorts :=
  h.mono fun _ _ heq => (show _ = _ from heq).superset

/-! ## Calls -/

section
variable {w : World}

@[simp] theorem updateService_reservedPorts :
    (w.updateService serviceId f).reservedPorts = w.reservedPorts := rfl

@[simp] theorem updateProject_reservedPorts :
    (w.updateProject projectId f).reservedPorts = w.reservedPorts := rfl

@[simp] theorem updateEnvironment_reservedPorts :
    (w.updateEnvironment projectId f).reservedPorts = w.reservedPorts := rfl

@[simp] theorem updateEnvironmentAt_reservedPorts :
    (w.updateEnvironmentAt f ref).reservedPorts = w.reservedPorts := by
  cases ref <;> rfl

@[simp] theorem setStatus_reservedPorts :
    (w.setStatus projectId status).reservedPorts = w.reservedPorts := rfl

@[simp] theorem createContainer_reservedPorts :
    (w.createContainer name port).reservedPorts = w.reservedPorts := rfl

@[simp] theorem removeContainer_reservedPorts :
    (w.removeContainer ref).reservedPorts = w.reservedPorts := rfl

@[simp] theorem setRunning_reservedPorts :
    (w.setRunning containerId running).reservedPorts = w.reservedPorts := rfl

@[simp] theorem renameContainer_reservedPorts :
    (w.renameContainer containerId name).reservedPorts = w.reservedPorts := rfl

@[simp] theorem clearArchivedAt_reservedPorts :
    (Lifecycle.clearArchivedAt projectId w).reservedPorts = w.reservedPorts := rfl

end

theorem steps_read (g : World → α) : (read g : Async α).Steps SamePorts :=
  Steps.read (R := SamePorts) (fun _ => rfl) g

theorem steps_modify {f : World → World} (h : ∀ w, (f w).reservedPorts = w.reservedPorts) :
    (modify f : Async PUnit).Steps SamePorts :=
  Steps.modify h

theorem steps_await (resolves : Bool) {effect : World → World}
    (h : ∀ w, (effect w).reservedPorts = w.reservedPorts) :
    (await resolves effect).Steps SamePorts := by
  cases resolves with
  | false => exact .throw _
  | true => exact .modify h

theorem steps_await_id (resolves : Bool) : (await resolves).Steps SamePorts :=
  steps_await resolves fun _ => rfl

theorem steps_call (failure : Option Failure) {effect : World → World}
    (h : ∀ w, (effect w).reservedPorts = w.reservedPorts) :
    (call failure effect).Steps SamePorts := by
  cases failure with
  | none => exact .modify h
  | some failure => exact .throw _

theorem steps_call_id (failure : Option Failure) : (call failure).Steps SamePorts :=
  steps_call failure fun _ => rfl

theorem steps_awaitAll (calls : List Bool) : (awaitAll calls).Steps SamePorts := by
  induction calls with
  | nil => exact .pure _
  | cons resolves calls ih => exact .bind (steps_await_id _) fun _ => ih

theorem steps_updateService : (updateService resolves serviceId f).Steps SamePorts :=
  steps_await _ fun _ => rfl

theorem steps_updateProject : (updateProject resolves projectId f).Steps SamePorts :=
  steps_await _ fun _ => rfl

theorem steps_updateEnvironment : (updateEnvironment resolves projectId f).Steps SamePorts :=
  steps_await _ fun _ => rfl

theorem steps_transition : (transition c projectId targetStatus).Steps SamePorts := by
  refine .bind (steps_await_id _) fun _ => .bind (steps_read _) fun allowed => ?_
  cases allowed with
  | false => exact .pure _
  | true => exact steps_await _ fun _ => rfl

theorem steps_safeRemoveContainer : (safeRemoveContainer resolves ref).Steps SamePorts :=
  steps_await _ fun _ => rfl

/-- The creation of a container. -/
theorem steps_createContainer :
    (.step (fun w => if w.nameTaken name then w else w.createContainer name port)
      fun w => if w.nameTaken name then throw .other else pure w.nextContainerId :
      Async ContainerId).Steps SamePorts := by
  intro w
  dsimp only
  split
  · exact ⟨rfl, .throw _⟩
  · exact ⟨rfl, .pure _⟩

theorem steps_runContainer : (runContainer outcome name port).Steps SamePorts := by
  cases outcome with
  | createFails failure => exact .throw _
  | startFails failure => exact steps_createContainer.bind fun _ => .throw _
  | runs =>
    exact steps_createContainer.bind fun _ => .bind (.modify fun _ => rfl) fun _ => .pure _

theorem steps_changeRunning : (changeRunning resolves containerId running).Steps SamePorts := by
  refine .bind (steps_await_id _) fun _ => .bind (steps_read _) fun container => ?_
  split
  · exact .bind (.throw _) fun _ => steps_modify fun _ => rfl
  · exact steps_modify fun _ => rfl

theorem steps_startContainer : (startContainer resolves containerId).Steps SamePorts :=
  steps_changeRunning

theorem steps_stopContainer : (stopContainer resolves containerId).Steps SamePorts :=
  steps_changeRunning

theorem steps_restartContainer : (restartContainer resolves containerId).Steps SamePorts :=
  steps_changeRunning

theorem steps_inspectContainer : (inspectContainer resolves containerId).Steps SamePorts := by
  refine .bind (steps_await_id _) fun _ => .bind (steps_read _) fun container => ?_
  cases container with
  | none => exact .throw _
  | some container => exact .pure _

theorem steps_allocatePort : (allocatePort scan options).Steps KeepsPorts := by
  cases scan with
  | none => exact .throw _
  | some usedPorts =>
    intro w
    cases h : choosePort options usedPorts w.reservedPorts with
    | none => exact ⟨by simp [KeepsPorts, h], by simpa [h] using .throw _⟩
    | some port => exact ⟨by simp [KeepsPorts, h], by simpa [h] using .pure _⟩

/-- An allocation takes one port, if it succeeds. -/
theorem owns_allocatePort :
    (allocatePort scan options).Owns (·.reservedPorts) ∅ fun r part =>
      match r with
      | .ok port => part = {port}
      | .error _ => part = ∅ := by
  cases scan with
  | none => exact rfl
  | some usedPorts =>
    intro w _
    cases h : choosePort options usedPorts w.reservedPorts with
    | none =>
      simp only [h, Finset.sdiff_self, Finset.empty_subset, true_and]
      ext port
      simp
    | some port =>
      have hfree := (choosePort_free h).2
      simp only [h]
      refine ⟨fun port' hport' => ?_, ?_⟩
      · simp only [Finset.mem_sdiff, Finset.mem_insert, not_or] at hport'
        exact absurd hport'.1 hport'.2.2
      · show ownPart ∅ w.reservedPorts (insert port w.reservedPorts) = {port}
        ext port'
        simp only [mem_ownPart, Finset.mem_insert, Finset.notMem_empty, false_or,
          Finset.mem_singleton]
        constructor
        · rintro ⟨hport', hnot⟩
          exact hport'.resolve_right hnot
        · intro heq
          rw [heq]
          exact ⟨.inl rfl, hfree⟩

theorem owns_releasePortReservation :
    (releasePortReservation port).Owns (·.reservedPorts) {port} fun r part =>
      r = .ok ⟨⟩ ∧ part = ∅ := by
  intro w hport
  refine ⟨fun port' hport' => ?_, rfl, ?_⟩
  · simp only [Finset.mem_sdiff, Finset.mem_erase, not_and, not_imp_not] at hport'
    exact Finset.mem_singleton.mpr (hport'.2 hport'.1)
  · show ownPart {port} w.reservedPorts (w.reservedPorts.erase port) = ∅
    ext port'
    simp only [mem_ownPart, Finset.mem_erase, Finset.mem_singleton, Finset.notMem_empty, iff_false]
    tauto

/-! ## Calls next to variables -/

theorem steps_lift {p : Async α} (h : p.Steps SamePorts) :
    (liftM p : Prog (World × τ) Failure α).Steps (onStore KeepsPorts) :=
  .lift (keepsPorts h)

theorem steps_readVars (g : World × τ → α) :
    (read g : Prog (World × τ) Failure α).Steps (onStore KeepsPorts) :=
  Steps.read (R := onStore KeepsPorts) (fun _ => Finset.Subset.refl _) g

theorem steps_assign (f : τ → τ) :
    (assign f : Prog (World × τ) Failure PUnit).Steps (onStore KeepsPorts) :=
  Steps.assign (R := KeepsPorts) (fun _ => Finset.Subset.refl _) f

/-! ## The run step -/

theorem returns_call : (call none effect).Returns := fun _ => ⟨(), rfl⟩

theorem fails_call {failure : Option Failure} (h : failure.isNone = false) : (call failure effect).Fails := by
  cases failure with
  | none => cases h
  | some failure => exact .throw _

namespace RunStep

variable (c : Calls) (config : RunConfig)

theorem steps_loadLimits : (loadLimits c).Steps SamePorts := by
  unfold loadLimits
  split
  · exact .throw _
  · exact .pure _
  · exact steps_awaitAll _

theorem steps_removeExisting : (removeExisting c config).Steps SamePorts := by
  unfold removeExisting
  split
  · exact steps_call _ fun _ => rfl
  · exact .pure _

theorem steps_prepare : (prepare c config).Steps SamePorts := by
  refine .bind (steps_loadLimits c) fun _ => .bind (steps_removeExisting c config) fun _ => ?_
  exact .bind (steps_call_id _) fun _ => steps_call_id _

theorem returns_loadLimits (h : c.loadsLimits = true) : (loadLimits c).Returns := by
  unfold Calls.loadsLimits at h
  unfold loadLimits
  split at h
  · cases h
  · exact .pure _
  · obtain ⟨hload, hsave⟩ := Bool.and_eq_true_iff.mp h
    rw [hload, hsave]
    exact fun _ _ => ⟨(), rfl⟩

theorem fails_loadLimits (h : c.loadsLimits = false) : (loadLimits c).Fails := by
  unfold Calls.loadsLimits at h
  unfold loadLimits
  split at h
  · exact .throw _
  · cases h
  · obtain hload | hsave := Bool.and_eq_false_iff.mp h
    · rw [hload]
      exact .throw _
    · rw [hsave]
      exact .bind_right _ fun _ => .throw _

/-- Between the allocation of its port and the start of its container a run step fails or not,
whatever it finds. -/
theorem returns_prepare (h : c.prepares config = true) : (prepare c config).Returns := by
  simp only [Calls.prepares, Bool.and_eq_true, Option.isNone_iff_eq_none] at h
  obtain ⟨⟨⟨hlimits, hremove⟩, hproject⟩, htraefik⟩ := h
  have hremoves : (removeExisting c config).Returns := by
    unfold removeExisting
    split
    · next hexisting =>
      rw [hexisting, Bool.not_true, Bool.false_or, Option.isNone_iff_eq_none] at hremove
      rw [hremove]
      exact returns_call
    · exact .pure _
  refine .bind (returns_loadLimits c hlimits) fun _ => .bind hremoves fun _ => ?_
  rw [hproject, htraefik]
  exact .bind returns_call fun _ => returns_call

theorem fails_prepare (h : c.prepares config = false) : (prepare c config).Fails := by
  simp only [Calls.prepares, Bool.and_eq_false_iff, Bool.or_eq_false_iff, Bool.not_eq_false'] at h
  obtain ((hlimits | ⟨hexisting, hremove⟩) | hproject) | htraefik := h
  · exact .bind_left (fails_loadLimits c hlimits)
  · refine .bind_right _ fun _ => .bind_left ?_
    rw [removeExisting, if_pos hexisting]
    exact fails_call hremove
  · exact .bind_right _ fun _ => .bind_right _ fun _ => .bind_left (fails_call hproject)
  · exact .bind_right _ fun _ => .bind_right _ fun _ => .bind_right _ fun _ => fails_call htraefik

/-- A turn of the loop releases its port, unless the container is not started. -/
theorem owns_attempt (outcome : RunOutcome) (port : Nat) :
    (attempt config outcome port).Owns (·.reservedPorts) {port} fun r part =>
      match r with
      | .ok _ => part = ∅
      | .error _ => part = {port} := by
  refine steps_runContainer.owns_part.bind (fun containerId part hpart => ?_)
    fun failure part hpart => hpart
  rw [hpart]
  refine owns_releasePortReservation.bind (fun _ part hpart => hpart.2) ?_
  exact fun failure part hpart => nomatch hpart.1

theorem tidy_retry : (retry c config).Tidy (·.reservedPorts) := by
  refine owns_allocatePort.bind (fun port part hpart => ?_) fun failure part hpart => hpart
  obtain rfl : part = {port} := hpart
  refine (owns_attempt config c.runContainer₂ port).onThrow (fun result part hpart => hpart) ?_
  intro failure part hpart
  obtain rfl : part = {port} := hpart
  exact owns_releasePortReservation.mono fun _ _ hpart _ => hpart.2

theorem owns_start (port : Nat) :
    (start c config port).Owns (·.reservedPorts) {port} fun _ part => part = ∅ := by
  refine (owns_attempt config c.runContainer port).tryCatch (fun result part hpart => hpart) ?_
  intro failure part hpart
  obtain rfl : part = {port} := hpart
  refine owns_releasePortReservation.bind (fun _ part hpart => ?_) fun _ _ hpart => hpart.2
  obtain rfl : part = ∅ := hpart.2
  split
  · exact tidy_retry c config
  · exact rfl

/-- A run step whose preparations succeed ends with no port. -/
theorem tidy_run (h : c.prepares config = true) : (run c config).Tidy (·.reservedPorts) := by
  refine owns_allocatePort.bind (fun port part hpart => ?_) fun failure part hpart => hpart
  obtain rfl : part = {port} := hpart
  refine ((steps_prepare c config).owns (returns_prepare c config h)).bind
    (fun _ part hpart => ?_) fun failure part hpart => nomatch hpart.1
  rw [hpart.2]
  exact owns_start c config port

/-- One whose preparations fail releases no port. -/
theorem steps_run (h : c.prepares config = false) : (run c config).Steps KeepsPorts :=
  .bind steps_allocatePort fun _ =>
    .bind_of_fails (keepsPorts (steps_prepare c config)) (fails_prepare c config h)

end RunStep

/-! ## The recreation of a runtime -/

namespace RecreateRuntime

variable (c : Calls) (params : Params) (t : Target)

theorem steps_resolveRuntimeProjectForService (service : ServiceRow) :
    (resolveRuntimeProjectForService c params service).Steps SamePorts := by
  refine .bind (steps_await_id _) fun _ => .bind (steps_read _) fun ownerProject => ?_
  cases ownerProject with
  | none => exact .throw _
  | some ownerProject =>
    exact .bind (steps_await_id _) fun _ => .bind (steps_read _) fun _ => .pure _

theorem steps_findEnvironment (projectId : String) :
    (findEnvironment c projectId).Steps SamePorts := by
  refine .bind (steps_await_id _) fun _ => .bind (steps_read _) fun environment => ?_
  cases environment with
  | none => exact .bind (steps_await _ fun _ => rfl) fun _ => .pure _
  | some environment => exact .pure _

theorem steps_restorePrevious : (restorePrevious c params t).Steps SamePorts :=
  .bind steps_updateService fun _ => .bind steps_updateEnvironment fun _ =>
    .bind steps_transition fun _ => steps_updateProject

theorem steps_verifyRoute (tempPort : Nat) (tempContainerId : ContainerId) :
    (verifyRoute c params t tempPort tempContainerId).Steps SamePorts := by
  unfold verifyRoute
  split
  · exact .throw _
  · refine .bind (steps_restorePrevious c params t) fun _ => ?_
    exact .bind steps_safeRemoveContainer.settle fun _ => .pure _
  · split
    · exact .bind steps_safeRemoveContainer.settle fun _ => .pure _
    · exact .bind steps_safeRemoveContainer.settle fun _ => .pure _
    · exact .pure _

theorem steps_switchOver (tempPort : Nat) (tempContainerId : ContainerId) :
    (switchOver c params t tempPort tempContainerId).Steps SamePorts :=
  .bind steps_updateService fun _ => .bind steps_updateEnvironment fun _ =>
    .bind steps_transition fun _ => .bind steps_updateProject fun _ => steps_verifyRoute ..

theorem steps_replaceBy (tempPort : Nat) (tempContainerId : ContainerId) :
    (replaceBy c params t tempPort tempContainerId).Steps SamePorts := by
  unfold replaceBy
  split
  · exact .throw _
  · exact .bind steps_safeRemoveContainer.settle fun _ => .pure _
  · exact steps_switchOver ..

theorem tidy_attempt (scan : Option (List Nat)) (outcome : RunOutcome) (name : String) :
    (attempt scan outcome name).Tidy (·.reservedPorts) := by
  refine owns_allocatePort.bind (fun port part hpart => ?_) fun failure part hpart => hpart
  obtain rfl : part = {port} := hpart
  have hrun : ((runContainer outcome name port).onThrow (releasePortReservation port)).Owns
      (·.reservedPorts) {port} fun r part =>
        match r with
        | .ok _ => part = {port}
        | .error _ => part = ∅ := by
    refine steps_runContainer.owns_part.onThrow (fun containerId part hpart => hpart) ?_
    intro failure part hpart
    rw [hpart]
    exact owns_releasePortReservation.mono fun _ _ hpart _ => hpart.2
  refine hrun.bind (fun containerId part hpart => ?_) fun failure part hpart => hpart
  obtain rfl : part = {port} := hpart
  exact owns_releasePortReservation.bind (fun _ part hpart => hpart.2) fun _ _ hpart => hpart.2

theorem tidy_startReplacement (name : String) :
    (startReplacement c name).Tidy (·.reservedPorts) := by
  refine .tryCatch (tidy_attempt ..) fun failure => ?_
  split
  · exact tidy_attempt ..
  · exact rfl

theorem tidy_replaceRuntime : (replaceRuntime c params t).Tidy (·.reservedPorts) := by
  have hremove : ∀ ref, (safeRemoveContainer c.removeTemp ref).settle.Tidy (·.reservedPorts) :=
    fun ref => steps_safeRemoveContainer.settle.tidy
  refine .bind (.tryCatch (tidy_startReplacement ..) fun failure => ?_) fun replacement => ?_
  · exact (hremove _).bind fun _ => rfl
  · refine .tryCatch (steps_replaceBy c params t _ _).tidy fun failure => ?_
    exact (hremove _).bind fun _ => rfl

theorem tidy_recreateLocked (project : Project) (service : ServiceRow) :
    (recreateLocked c params project service).Tidy (·.reservedPorts) := by
  unfold recreateLocked
  dsimp only
  split
  · exact rfl
  · refine .bind (steps_findEnvironment ..).tidy fun environment => ?_
    exact .bind (steps_awaitAll _).tidy fun _ => tidy_replaceRuntime ..

/-- A recreation ends with no port. -/
theorem tidy_recreateServiceRuntime :
    (recreateServiceRuntime c params).Tidy (·.reservedPorts) := by
  refine .bind (steps_await_id _).tidy fun _ => .bind (steps_read _).tidy fun service => ?_
  cases service with
  | none => exact rfl
  | some service =>
    dsimp only
    split
    · refine .bind (steps_resolveRuntimeProjectForService ..).tidy fun projects => ?_
      refine .bind (steps_awaitAll _).tidy fun _ => ?_
      exact .andFinally (tidy_recreateLocked ..) (steps_await_id _).tidy
    · exact rfl

end RecreateRuntime

/-! ## The blue-green redeploy -/

namespace BlueGreen

variable (c : Calls) (params : Params)

theorem steps_getBlueGreenEligibility : (getBlueGreenEligibility c params).Steps SamePorts := by
  refine .bind (steps_await_id _) fun _ => .bind (steps_read _) fun project => ?_
  have hrest : ∀ _ : Unit, (Prog.read (·.services (projectIdToDeployableServiceId params.projectId))
      >>= fun deployable => pure (eligibilityReasons params project
        (if project.isSome then deployable else none)) : Async (List Reason)).Steps SamePorts :=
    fun _ => .bind (steps_read _) fun _ => .pure _
  cases project with
  | none => exact hrest ()
  | some project => exact .bind (steps_await_id _) hrest

theorem steps_resolveNetworkProject (service : Option ServiceRow) :
    (resolveNetworkProject c service).Steps SamePorts := by
  cases service with
  | none => exact .pure _
  | some service =>
    refine .bind (steps_await_id _) fun _ => .bind (steps_read _) fun project => ?_
    split
    · exact .bind (.throw _) fun _ => steps_await_id _
    · exact steps_await_id _

theorem steps_writeEnvironment (hasEnvironment resolves : Bool)
    (f : EnvironmentRow → EnvironmentRow) :
    (writeEnvironment params hasEnvironment resolves f).Steps SamePorts := by
  cases hasEnvironment with
  | false => exact .pure _
  | true => exact steps_updateEnvironment

theorem steps_restoreBlueState (calls : RestoreCalls) (hasEnvironment : Bool) (blue : BlueState) :
    (restoreBlueState params calls hasEnvironment blue).Steps SamePorts :=
  .bind steps_transition fun _ =>
    .bind steps_updateProject fun _ => steps_writeEnvironment params ..

theorem steps_cleanupGreenContainer (stop remove : Bool) (containerId : ContainerId) :
    (cleanupGreenContainer stop remove containerId).Steps SamePorts :=
  .bind steps_stopContainer.settle fun _ => steps_safeRemoveContainer.settle

theorem steps_cleanupStaleGreenContainers (activeContainerId : ContainerId)
    (staleGreens : List StaleGreen) :
    (cleanupStaleGreenContainers activeContainerId staleGreens).Steps SamePorts := by
  induction staleGreens with
  | nil => exact .pure _
  | cons stale staleGreens ih =>
    rw [cleanupStaleGreenContainers]
    split
    · exact .bind (steps_cleanupGreenContainer ..) fun _ => ih
    · exact ih

theorem steps_prepareImage (blue : Blue) (config : DeployConfig) :
    (prepareImage c params blue config).Steps SamePorts := by
  refine .bind (steps_await_id _) fun _ => ?_
  split
  · split
    · exact .throw _
    · exact .bind (steps_await_id _) fun _ => .pure _
  · split
    · exact .throw _
    · split
      · exact .pure _
      · exact .throw _
      · exact .throw _

theorem steps_demand (probe : Probe) : (demand probe).Steps SamePorts := by
  cases probe with
  | passes => exact .pure _
  | fails | rejects => exact .throw _

theorem steps_checkGreen : (checkGreen c).Steps SamePorts :=
  .bind (steps_demand _) fun _ => .bind (steps_demand _) fun _ => steps_awaitAll _

theorem steps_finishRedeploy (blue : Blue) (config : DeployConfig)
    (gitCredentialId : Option String) (green : Green) :
    (finishRedeploy c params blue config gitCredentialId green).Steps SamePorts := by
  have hcredential : (saveGitCredential c params config gitCredentialId).Steps SamePorts := by
    unfold saveGitCredential
    split
    · exact steps_updateService
    · exact .pure _
  refine .bind steps_safeRemoveContainer.settle fun _ => .bind (steps_await_id _) fun _ => ?_
  exact .bind hcredential fun _ => .pure _

theorem steps_runGreen (blue : Blue) (imageTag : String) :
    (runGreen c params blue imageTag).Steps (onStore KeepsPorts) := by
  refine .bind (.lift steps_allocatePort) fun _ => .bind (steps_assign _) fun _ => ?_
  cases c.getImageExposedPort with
  | none => exact .throw _
  | some exposedPort =>
    refine .bind (steps_lift (steps_awaitAll _)) fun _ => ?_
    exact .bind (steps_lift steps_runContainer) fun _ => .bind (steps_assign _) fun _ => .pure _

theorem steps_switchRoute (blue : Blue) (prodEnv : Option EnvironmentRow) (green : Green) :
    (switchRoute c params blue prodEnv green).Steps (onStore KeepsPorts) := by
  refine .bind (steps_lift steps_transition) fun _ => ?_
  refine .bind (steps_lift steps_updateProject) fun _ => ?_
  exact .bind (steps_lift (steps_writeEnvironment ..)) fun _ => steps_assign _

theorem steps_probeRoute (blue : Blue) (prodEnv : Option EnvironmentRow) :
    (probeRoute c params blue prodEnv).Steps (onStore KeepsPorts) := by
  unfold probeRoute
  split
  · exact .pure _
  · exact .throw _
  · refine .bind (steps_lift (steps_restoreBlueState ..)) fun _ => ?_
    exact .bind (steps_assign _) fun _ => .throw _

theorem steps_stopBlue (blue : Blue) : (stopBlue c blue).Steps (onStore KeepsPorts) :=
  .bind (steps_lift steps_stopContainer) fun _ =>
    .bind (steps_lift (steps_demand _)) fun _ => steps_assign _

theorem steps_switchOver (blue : Blue) (config : DeployConfig) (prodEnv : Option EnvironmentRow)
    (gitCredentialId : Option String) (green : Green) :
    (switchOver c params blue config prodEnv gitCredentialId green).Steps
      (onStore KeepsPorts) := by
  refine .bind (steps_lift (steps_checkGreen c)) fun _ => .bind (steps_switchRoute ..) fun _ => ?_
  refine .bind (steps_probeRoute ..) fun _ => .bind (steps_stopBlue c blue) fun _ => ?_
  exact steps_lift (steps_finishRedeploy ..)

theorem steps_promote (blue : Blue) (config : DeployConfig) (prodEnv : Option EnvironmentRow) :
    (promote c params blue config prodEnv).Steps (onStore KeepsPorts) := by
  refine .bind (steps_lift (steps_writeEnvironment ..)) fun _ => ?_
  refine .bind (steps_lift (steps_prepareImage ..)) fun _ => ?_
  exact .bind (steps_runGreen ..) fun _ => steps_switchOver ..

theorem steps_replaceBlue (blue : Blue) :
    (replaceBlue c params blue).Steps (onStore KeepsPorts) := by
  refine .bind (steps_assign _) fun _ => ?_
  refine .bind (steps_lift (steps_cleanupStaleGreenContainers _ _)) fun _ => ?_
  refine .bind (steps_lift (steps_await_id _)) fun _ => .bind (steps_readVars _) fun prodEnv => ?_
  refine .bind (steps_assign _) fun _ => ?_
  cases c.buildDeployConfig with
  | none => exact .throw _
  | some config => exact .bind (steps_lift steps_transition) fun _ => steps_promote ..

theorem steps_redeploy : (redeploy c params).Steps (onStore KeepsPorts) := by
  refine .bind (steps_lift (steps_await_id _)) fun _ => .bind (steps_readVars _) fun project => ?_
  cases project with
  | none => exact .pure _
  | some project =>
    refine .bind (steps_assign _) fun _ => .bind (steps_lift (steps_await_id _)) fun _ => ?_
    refine .bind (steps_lift (steps_await_id _)) fun _ => .bind (steps_readVars _) fun deployable => ?_
    refine .bind (steps_lift (steps_resolveNetworkProject _ _)) fun _ => ?_
    refine .bind (steps_lift (steps_getBlueGreenEligibility _ _)) fun reasons => ?_
    split
    · exact steps_replaceBlue c params _
    · exact .pure _
    · exact .pure _

theorem steps_rollBack (vars : Vars) : (rollBack c params vars).Steps SamePorts := by
  unfold rollBack
  split
  · exact .pure _
  · split
    · exact (steps_restoreBlueState ..).settle
    · exact .pure _

theorem steps_recoverBlue (isCancelled : Bool) (blue : Option BlueState) :
    (recoverBlue c isCancelled blue).Steps SamePorts := by
  cases blue with
  | none => exact .pure _
  | some blue =>
    refine .bind (.tryCatch steps_inspectContainer fun _ => .pure _) fun serving => ?_
    split
    · exact .tryCatch (.bind steps_restartContainer fun _ => .pure _) fun _ => .pure _
    · exact .pure _

theorem steps_abandon (isCancelled hasEnvironment : Bool) :
    (abandon c params isCancelled hasEnvironment).Steps SamePorts := by
  refine .bind steps_transition fun _ => ?_
  split
  · refine .bind (steps_await_id _) fun _ => .bind (steps_read _) fun environment => ?_
    split
    · exact steps_updateEnvironment
    · exact .pure _
  · exact .pure _

theorem steps_recordFailure (isCancelled blueStillServing : Bool) (vars : Vars) :
    (recordFailure c params isCancelled blueStillServing vars).Steps SamePorts := by
  unfold recordFailure
  split
  · exact steps_restoreBlueState ..
  · exact steps_abandon ..

theorem steps_handleFailure (failure : Failure) :
    (handleFailure c params failure).Steps (onStore KeepsPorts) := by
  refine .bind (steps_readVars _) fun vars => .bind (steps_lift (steps_rollBack ..)) fun _ => ?_
  refine .bind (steps_lift (steps_recoverBlue ..)) fun blueStillServing => ?_
  refine .bind (steps_lift (steps_recordFailure ..)) fun _ => ?_
  exact .bind (steps_lift (steps_await_id _)) fun _ => .pure _

theorem steps_cleanup : (cleanup c).Steps (onStore KeepsPorts) := by
  refine .bind (steps_readVars _) fun vars => ?_
  split
  · exact steps_lift (steps_cleanupGreenContainer ..)
  · exact .pure _

/-- A blue-green redeploy releases no port. -/
theorem steps_blueGreenRedeployInner :
    (blueGreenRedeployInner c params).Steps KeepsPorts :=
  .withVars (.andFinally (.tryCatch (steps_redeploy c params) (steps_handleFailure c params))
    (steps_cleanup c)) {}

end BlueGreen

/-! ## The rollback -/

namespace Rollback

variable (c : Calls) (params : Params) (t : Target)

theorem steps_resolveTarget : (resolveTarget c params).Steps SamePorts := by
  unfold resolveTarget
  split
  · exact .bind (steps_await_id _) fun _ => .bind (steps_read _) fun _ => .pure _
  · refine .bind (steps_await_id _) fun _ => .bind (steps_read _) fun environment => ?_
    cases environment with
    | none => exact .pure _
    | some environment => exact .pure _

theorem steps_resolveContainerRuntime : (resolveContainerRuntime c t).Steps KeepsPorts := by
  unfold resolveContainerRuntime
  split
  · exact .pure _
  · exact steps_allocatePort

theorem steps_writeEnvironment (failure : Option Failure) (f : EnvironmentRow → EnvironmentRow) :
    (writeEnvironment t failure f).Steps SamePorts := by
  unfold writeEnvironment
  split
  · exact .pure _
  · exact steps_call _ fun _ => updateEnvironmentAt_reservedPorts

theorem steps_stopRef (resolves : Bool) (ref : ContainerRef) :
    (stopRef resolves ref).Steps SamePorts := by
  cases ref with
  | id containerId => exact steps_stopContainer
  | name name => exact .pure _

theorem steps_cleanupRunningContainer (refs : List ContainerRef) :
    (cleanupRunningContainer c t refs).Steps SamePorts := by
  induction refs with
  | nil => exact .pure _
  | cons ref refs ih =>
    have hrest : ∀ _ : Unit, (call (c.safeRemoveContainer ref) (·.removeContainer ref) >>= fun _ =>
        cleanupRunningContainer c t refs).Steps SamePorts :=
      fun _ => .bind (steps_call _ fun _ => rfl) fun _ => ih
    rw [cleanupRunningContainer]
    split
    · exact .bind (steps_stopRef ..).settle hrest
    · exact hrest ()

theorem steps_replaceContainer (port : Nat) : (replaceContainer c t port).Steps SamePorts := by
  refine .bind (steps_cleanupRunningContainer ..) fun _ => .bind (steps_call_id _) fun _ => ?_
  refine .bind (steps_call_id _) fun _ => .bind (steps_call_id _) fun _ => ?_
  exact .bind (steps_call_id _) fun _ => steps_runContainer

theorem steps_recordFailure (error : Failure) :
    (recordFailure c params t error).Steps SamePorts := by
  unfold recordFailure
  split
  · exact .pure _
  · exact .bind steps_transition fun _ => .bind (steps_writeEnvironment ..) fun _ => .pure _

theorem steps_rollBack : (rollBack c params t).Steps KeepsPorts := by
  refine .bind (keepsPorts steps_transition) fun _ => ?_
  refine .bind (steps_resolveContainerRuntime _ _) fun port => ?_
  refine .bind (keepsPorts (steps_replaceContainer ..)) fun containerId => keepsPorts ?_
  refine .bind steps_transition fun _ => .bind (steps_call _ fun _ => rfl) fun _ => ?_
  exact .bind (steps_writeEnvironment ..) fun _ => .bind (steps_call_id _) fun _ => .pure _

/-- A rollback releases no port. -/
theorem steps_rollbackToImage : (rollbackToImage c params).Steps KeepsPorts := by
  refine .bind (keepsPorts (steps_await_id _)) fun _ => .bind (keepsPorts (steps_read _)) fun p => ?_
  cases p with
  | none => exact .pure _
  | some project =>
    refine .bind (keepsPorts (steps_resolveTarget ..)) fun target => ?_
    cases target with
    | none => exact .pure _
    | some environment =>
      refine .bind (keepsPorts (steps_await_id _)) fun _ => ?_
      refine .bind (keepsPorts (steps_read _)) fun service => ?_
      dsimp only
      split
      · exact .pure _
      · split
        · exact .pure _
        · split
          · exact .pure _
          · exact .tryCatch (steps_rollBack ..) fun _ => keepsPorts (steps_recordFailure ..)

end Rollback

/-! ## The restore -/

namespace Lifecycle

variable (c : UnarchiveCalls) (projectId : String)

theorem steps_unarchiveProject : (unarchiveProject c projectId).Steps SamePorts :=
  .bind (steps_await _ fun _ => rfl) fun _ => steps_updateProject

theorem steps_checkContainerName (name : String) (containerId : ContainerId) :
    (checkContainerName c name containerId).Steps SamePorts := by
  refine .bind (steps_call_id _) fun _ => .bind (steps_read _) fun conflicting => ?_
  cases conflicting with
  | none => exact .throw _
  | some conflicting =>
    dsimp only
    split
    · exact .throw _
    · exact .pure _

theorem steps_checkNameFree (name : String) (containerId : ContainerId) :
    (checkNameFree c name containerId).Steps SamePorts := by
  refine .tryCatch (steps_checkContainerName ..) fun error => ?_
  split
  · exact .throw _
  · exact .pure _

theorem steps_takeName (name preservedName : String) (containerId : ContainerId) :
    (takeName c name preservedName containerId).Steps (onStore KeepsPorts) := by
  unfold takeName
  split
  · exact .bind (steps_lift (steps_call _ fun _ => rfl)) fun _ => steps_assign _
  · exact .pure _

theorem steps_restoreContainer (name preservedName : String) (containerId : ContainerId) :
    (restoreContainer c projectId name preservedName containerId).Steps (onStore KeepsPorts) := by
  refine .bind (steps_lift (steps_checkNameFree ..)) fun _ => ?_
  refine .bind (steps_takeName ..) fun _ => ?_
  refine .bind (steps_lift (steps_call_id _)) fun _ => ?_
  refine .bind (steps_lift (steps_call_id _)) fun _ => .bind (steps_assign _) fun _ => ?_
  refine .bind (steps_lift steps_startContainer) fun _ => ?_
  exact .bind (steps_lift (steps_unarchiveProject ..)) fun _ => steps_lift steps_updateService

theorem steps_undoRestore (preservedName : String) (containerId : ContainerId) (error : Failure) :
    (undoRestore c preservedName containerId error).Steps (onStore KeepsPorts) := by
  refine .bind (steps_readVars _) fun vars => ?_
  have hconnect : (undoConnect c vars).Steps SamePorts := by
    unfold undoConnect
    split
    · exact steps_call_id _
    · exact .pure _
  have hrename : (undoRename c preservedName containerId vars).Steps SamePorts := by
    unfold undoRename
    split
    · exact steps_call _ fun _ => rfl
    · exact .pure _
  exact .bind (steps_lift hconnect) fun _ => .bind (steps_lift hrename) fun _ => .throw _

theorem steps_restoreComposeChild (project : Project) (preservedName : String)
    (containerId : ContainerId) :
    (restoreComposeChild c projectId project preservedName containerId).Steps KeepsPorts :=
  .withVars (.tryCatch (steps_restoreContainer ..) (steps_undoRestore c _ _)) {}

theorem steps_restoreRecord (service : Option ServiceRow) :
    (restoreRecord c projectId service).Steps KeepsPorts := by
  refine .bind (keepsPorts (steps_unarchiveProject ..)) fun _ => ?_
  split
  · exact .bind steps_allocatePort fun _ => keepsPorts steps_updateProject
  · exact .pure _

theorem steps_restoreSelf (project : Project) (service : Option ServiceRow) :
    (restoreSelf c projectId project service).Steps KeepsPorts := by
  unfold restoreSelf
  split
  · exact steps_restoreComposeChild ..
  · exact steps_restoreRecord ..

mutual

/-- A restore releases no port. -/
theorem steps_unarchiveRuntimeProject :
    (tree : ProjectTree UnarchiveCalls) → (unarchiveRuntimeProject tree).Steps KeepsPorts
  | .node projectId c children => by
    rw [unarchiveRuntimeProject]
    refine .bind (keepsPorts (steps_await_id _)) fun _ => ?_
    refine .bind (keepsPorts (steps_read _)) fun project => ?_
    cases project with
    | none => exact .pure _
    | some project =>
      refine .bind (keepsPorts (steps_await_id _)) fun _ => ?_
      refine .bind (keepsPorts (steps_read _)) fun service => ?_
      split
      · exact .pure _
      · refine .bind (keepsPorts (steps_await_id _)) fun _ => ?_
        refine .bind (keepsPorts (steps_read _)) fun projects => ?_
        exact .bind (steps_unarchiveChildren _ _ children) fun _ => steps_restoreSelf ..

theorem steps_unarchiveChildren (projects : String → Option ProjectRow) (restoreMarker : String) :
    (trees : List (ProjectTree UnarchiveCalls)) →
      (unarchiveChildren projects restoreMarker trees).Steps KeepsPorts
  | [] => by
    rw [unarchiveChildren]
    exact .pure _
  | child :: children => by
    rw [unarchiveChildren]
    have hrest := steps_unarchiveChildren projects restoreMarker children
    split
    · exact .bind (steps_unarchiveRuntimeProject child) fun _ => hrest
    · exact hrest

end

end Lifecycle

end OpenLander.Pipeline
