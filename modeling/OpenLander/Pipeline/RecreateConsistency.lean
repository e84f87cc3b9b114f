import OpenLander.Pipeline.RecreateRuntime

/-! # Failed recreations

How a call of `recreateServiceRuntime` ends, by the calls it awaits and the rows it reads, and what
it leaves in the rows and in Docker. Between the update of the service and the end of the probe the
replacement is the recorded container, and the `catch` removes it all the same. -/

namespace OpenLander.Pipeline.RecreateRuntime
open Theory
open GreenCleanup (CONTAINER_PREFIX containerName)

section
variable (c : Calls) (params : Params)

/-! ## What becomes of a call -/

/-- What the attempts to start the replacement leave. -/
inductive Replacement
  | absent
  /-- Docker has a container that it could not start. -/
  | created
  | running
  deriving DecidableEq, Repr

/-- A second attempt finds the name taken if the first one has created the container. -/
def Calls.replacement (reserved : Finset Nat) : Replacement :=
  match c.scanUsedPorts.bind (choosePort {} · reserved), c.runContainer with
  | none, _ => .absent
  | some _, .runs => .running
  | some _, .startFails _ => .created
  | some _, .createFails failure =>
    if failure ≠ .portConflict then .absent
    else match c.scanUsedPorts₂.bind (choosePort {} · reserved), c.runContainer₂ with
      | none, _ => .absent
      | some _, .runs => .running
      | some _, .startFails _ => .created
      | some _, .createFails _ => .absent

/-- The rows under which the body runs; none if the call ends before it has the deploy lock. -/
def located (w : World) : Option (Project × ServiceRow) :=
  match w.services params.serviceId with
  | none => none
  | some service =>
    match w.getProject service.projectId with
    | none => none
    | some ownerProject =>
      let project :=
        (w.getProject (deployableServiceIdToProjectId params.serviceId)).getD ownerProject
      if c.getService ∧ isDeployableService service ∧ c.getOwnerProject ∧ c.getRuntimeProject ∧
          (admissions c ownerProject project).all id then
        some (project, service)
      else none

/-- What the body has read when it turns to Docker; none if it ends before. -/
def prepared (w : World) (project : Project) (service : ServiceRow) : Option Target :=
  let view := serviceViewFromRows project (some service)
  match runtimeImage view with
  | none => none
  | some imageTag =>
    if c.getEnvironmentsByProject ∧ ((w.environments project.id).isNone → c.createEnvironment) ∧
        (preparations c view).all id then
      some { project, view, imageTag, environment := (w.environments project.id).getD {} }
    else none

def target (w : World) : Option Target :=
  (located c params w).bind fun (project, service) => prepared c w project service

/-- How a call ends. -/
inductive Fate
  /-- It fails before Docker has created a container. -/
  | untouched
  /-- It fails with a container of its own that it has not recorded. -/
  | unrecorded
  /-- It fails while the replacement is recorded. -/
  | recorded
  /-- The route did not answer, and the previous container is recorded again. -/
  | restored
  | succeeds
  deriving DecidableEq, Repr

def Target.fate (t : Target) (w : World) : Fate :=
  let running := w.updateService params.serviceId ({ · with status := .running })
  match c.replacement w.reservedPorts with
  | .absent => .untouched
  | .created => .unrecorded
  | .running =>
    if c.waitForHealthy ≠ .passes ∨ !c.updateService then .unrecorded
    else if !c.updateEnvironment ∨ !c.transition.resolves running t.project.id .running ∨
        !c.updateProject then .recorded
    else match routeProbe c params t with
      | .passes => .succeeds
      | .rejects => .recorded
      | .fails => if c.restoreService then .restored else .recorded

end

variable {c : Calls} {params : Params} {t : Target} {failure : Failure}
variable {scan : Option (List Nat)} {run : RunOutcome} {w w₁ w₂ : World} {name : String}

/-! ## The replacement -/

theorem run_attempt_none (run : RunOutcome) (name : String)
    (h : scan.bind (choosePort {} · w.reservedPorts) = none) :
    ∃ failure, (attempt scan run name).run w = (.error failure, w) ∧ failure ≠ .portConflict := by
  have halloc := run_allocatePort {} scan w
  rw [h] at halloc
  cases scan with
  | none => exact ⟨_, Prog.run_bind_error halloc, by decide⟩
  | some usedPorts => exact ⟨_, Prog.run_bind_error halloc, by decide⟩

theorem run_attempt (run : RunOutcome) (hname : w.nameTaken name = false)
    (h : scan.bind (choosePort {} · w.reservedPorts) = some port) :
    (attempt scan run name).run w =
      match run with
      | .runs => (.ok (port, w.nextContainerId),
          (w.createContainer name port).setRunning w.nextContainerId true)
      | .createFails failure => (.error failure, w)
      | .startFails failure => (.error failure, w.createContainer name port) := by
  have halloc := run_allocatePort {} scan w
  rw [h] at halloc
  cases scan with
  | none => cases h
  | some usedPorts =>
    have hfree : port ∉ w.reservedPorts := (choosePort_free (by simpa using h)).2
    have hrun := run_runContainer (w := { w with reservedPorts := insert port w.reservedPorts })
      run port hname
    cases run with
    | runs =>
      rw [attempt, Prog.run_bind_ok halloc, Prog.run_bind_ok (Prog.run_onThrow_ok hrun)]
      simp [releasePortReservation, World.createContainer, World.setRunning,
        Finset.erase_insert hfree]
    | createFails failure =>
      rw [attempt, Prog.run_bind_ok halloc, Prog.run_bind_error (Prog.run_onThrow_error hrun rfl)]
      simp [Finset.erase_insert hfree]
    | startFails failure =>
      rw [attempt, Prog.run_bind_ok halloc, Prog.run_bind_error (Prog.run_onThrow_error hrun rfl)]
      simp [World.createContainer, Finset.erase_insert hfree]

theorem run_attempt_taken (scan : Option (List Nat)) (run : RunOutcome)
    (hname : w.nameTaken name = true) :
    ∃ failure, (attempt scan run name).run w = (.error failure, w) := by
  have halloc := run_allocatePort {} scan w
  cases h : scan.bind (choosePort {} · w.reservedPorts) with
  | none =>
    obtain ⟨failure, h, -⟩ := run_attempt_none run name h
    exact ⟨failure, h⟩
  | some port =>
    rw [h] at halloc
    cases scan with
    | none => cases h
    | some usedPorts =>
      have hfree : port ∉ w.reservedPorts := (choosePort_free (by simpa using h)).2
      obtain ⟨failure, hrun⟩ := run_runContainer_taken
        (w := { w with reservedPorts := insert port w.reservedPorts }) run port hname
      refine ⟨failure, ?_⟩
      rw [attempt, Prog.run_bind_ok halloc, Prog.run_bind_error (Prog.run_onThrow_error hrun rfl)]
      simp [Finset.erase_insert hfree]

theorem run_startReplacement (hname : w.nameTaken name = false) :
    match c.replacement w.reservedPorts with
    | .absent => ∃ failure, (startReplacement c name).run w = (.error failure, w)
    | .created => ∃ failure port,
        (startReplacement c name).run w = (.error failure, w.createContainer name port)
    | .running => ∃ port, (startReplacement c name).run w = (.ok (port, w.nextContainerId),
        (w.createContainer name port).setRunning w.nextContainerId true) := by
  simp only [Calls.replacement, startReplacement, Prog.run_tryCatch]
  cases h : c.scanUsedPorts.bind (choosePort {} · w.reservedPorts) with
  | none =>
    obtain ⟨failure, hrun, hne⟩ := run_attempt_none c.runContainer name h
    exact ⟨failure, by simp [hrun, hne]⟩
  | some port =>
    have hrun := run_attempt c.runContainer hname h
    cases ho : c.runContainer with
    | runs => 
      rw [ho] at hrun
      exact ⟨port, by simp [hrun]⟩
    | startFails failure =>
      rw [ho] at hrun
      simp only [hrun, Prog.onError_error]
      split
      · have htaken : (w.createContainer name port).nameTaken name = true := by
          simp [World.nameTaken, World.createContainer]
        obtain ⟨failure', hrun'⟩ := run_attempt_taken c.scanUsedPorts₂ c.runContainer₂ htaken
        exact ⟨failure', port, hrun'⟩
      · exact ⟨failure, port, rfl⟩
    | createFails failure =>
      rw [ho] at hrun
      simp only [hrun, Prog.onError_error]
      by_cases hconflict : failure = .portConflict
      · simp only [hconflict, if_true, ne_eq, not_true_eq_false, if_false]
        cases h₂ : c.scanUsedPorts₂.bind (choosePort {} · w.reservedPorts) with
        | none =>
          obtain ⟨failure, hrun, -⟩ := run_attempt_none c.runContainer₂ name h₂
          exact ⟨failure, hrun⟩
        | some port =>
          have hrun := run_attempt c.runContainer₂ hname h₂
          cases ho : c.runContainer₂ <;> rw [ho] at hrun
          · exact ⟨port, hrun⟩
          · exact ⟨_, hrun⟩
          · exact ⟨_, port, hrun⟩
      · simp only [hconflict, if_false, ne_eq, not_false_eq_true, if_true]
        exact ⟨failure, rfl⟩

/-! ## Once the replacement is healthy -/

/-- The call returns a failure, or throws. -/
def Fails (r : Except Failure RuntimeRecreateResult) : Prop :=
  ∀ result, r = .ok result → result.success = false

@[simp] theorem fails_error (failure : Failure) : Fails (.error failure) := by simp [Fails]

@[simp] theorem fails_ok : Fails (.ok result) ↔ result.success = false := by simp [Fails]

/-- Once the replacement is recorded it stays so until the route is asked. -/
theorem run_switchOver (port : Nat) (tempContainerId : ContainerId)
    (hrow : (w.services params.serviceId).isSome) :
    ∃ w', w'.containers = w.containers ∧
      w'.recordedContainer params.serviceId = some tempContainerId ∧
      (switchOver c params t port tempContainerId).run w =
        if !c.updateService then (.error .other, w)
        else if !c.updateEnvironment ∨
            !c.transition.resolves
              (w.updateService params.serviceId ({ · with status := .running }))
              t.project.id .running ∨
            !c.updateProject then (.error .other, w')
        else (verifyRoute c params t port tempContainerId).run w' := by
  obtain ⟨row, hrow⟩ := Option.isSome_iff_exists.mp hrow
  let columns := replacementColumns c params t port tempContainerId
  let w₁ := w.updateService params.serviceId fun row => { columns row with status := .running }
  let w₂ := w₁.updateEnvironment t.project.id (replacementEnvironment c t port tempContainerId)
  let w₃ := w₂.transitioned t.project.id .running
  have hw₁ : w₁.recordedContainer params.serviceId = some tempContainerId := by
    simp [w₁, updateService_recordedContainer, hrow, columns, replacementColumns]
  have hw₃ : w₃.recordedContainer params.serviceId = some tempContainerId := by
    simp [w₃, w₂, hw₁]
  have hresolves : c.transition.resolves w₂ t.project.id .running = c.transition.resolves
      (w.updateService params.serviceId ({ · with status := .running })) t.project.id .running := by
    have hallows : w₁.allows t.project.id .running =
        (w.updateService params.serviceId ({ · with status := .running })).allows t.project.id
          .running := allows_updateService fun _ => rfl
    rw [TransitionCalls.resolves, TransitionCalls.resolves, ← hallows]
    rfl
  have htransition :=
    run_transition c.transition w₂ t.project.id .running
  rw [hresolves] at htransition
  simp only [switchOver, updateService, updateEnvironment, updateProject]
  cases c.updateService with
  | false => exact ⟨w₁, rfl, hw₁, rfl⟩
  | true =>
    cases c.updateEnvironment with
    | false => exact ⟨w₁, rfl, hw₁, rfl⟩
    | true =>
      rw [Prog.run_bind_ok (run_await_true _ _), Prog.run_bind_ok (run_await_true _ _)]
      split at htransition
      · rename_i hok
        rw [Prog.run_bind_ok htransition]
        cases c.updateProject with
        | false =>
          rw [Prog.run_bind_error (run_await_false _ _)]
          exact ⟨w₃, by simp [w₃, w₂, w₁], hw₃, by simp [hok, w₃]⟩
        | true =>
          rw [Prog.run_bind_ok (run_await_true _ _)]
          exact ⟨w₃.updateProject t.project.id columns, by simp [w₃, w₂, w₁],
            updateService_recordedContainer_of_eq (fun _ => rfl) hw₃, by simp [hok, w₃, columns]⟩
      · rename_i hno
        rw [Prog.run_bind_error htransition]
        exact ⟨w₂, rfl, hw₁, by simp [hno]⟩

/-- The previous container stays recorded once it is put back, whatever fails then. -/
theorem run_restorePrevious (hrow : (w.services params.serviceId).isSome)
    (hrestore : c.restoreService = true) :
    ((restorePrevious c params t).run w).2.containers = w.containers ∧
      ((restorePrevious c params t).run w).2.recordedContainer params.serviceId =
        t.view.containerId := by
  obtain ⟨row, hrow⟩ := Option.isSome_iff_exists.mp hrow
  let Restored (w' : World) : Prop := w'.containers = w.containers ∧
    w'.recordedContainer params.serviceId = t.view.containerId
  have hkeeps : Prog.Keeps Restored (do
      updateEnvironment c.restoreEnvironment t.project.id fun _ => t.environment
      transition c.restoreTransition t.project.id .running
      updateProject c.restoreProject t.project.id (previousColumns t)) := by
    refine .bind (keeps_await _ fun _ hw => hw) fun _ => .bind (keeps_transition _ ?_) fun _ =>
      keeps_await _ ?_
    · intro w' hw
      exact ⟨hw.1, setStatus_recordedContainer.trans hw.2⟩
    · intro w' hw
      exact ⟨hw.1, updateService_recordedContainer_of_eq (fun _ => rfl) hw.2⟩
  rw [restorePrevious, updateService, hrestore, Prog.run_bind_ok (run_await_true _ _)]
  refine hkeeps _ ⟨rfl, ?_⟩
  simp [updateService_recordedContainer, hrow, previousColumns]

/-- The call has created one container, which stays if its removal fails. -/
def LeavesTemp (c : Calls) (w w' : World) : Prop :=
  ∃ temp : Container, temp.id = w.nextContainerId ∧
    w'.containers = if c.removeTemp then w.containers else temp :: w.containers

/-- The rows and Docker where a call has ended, next to those where it has turned to Docker. -/
def Fate.Outcome (c : Calls) (params : Params) (t : Target) (w : World)
    (r : Except Failure RuntimeRecreateResult) (w' : World) (fate : Fate) : Prop :=
  match fate with
  | .untouched => Fails r ∧ w'.containers = w.containers ∧
      w'.recordedContainer params.serviceId = w.recordedContainer params.serviceId
  | .unrecorded => Fails r ∧ LeavesTemp c w w' ∧
      w'.recordedContainer params.serviceId = w.recordedContainer params.serviceId
  | .recorded => Fails r ∧ LeavesTemp c w w' ∧
      w'.recordedContainer params.serviceId = some w.nextContainerId
  | .restored => Fails r ∧ LeavesTemp c w w' ∧
      w'.recordedContainer params.serviceId = t.view.containerId
  | .succeeds => (∃ temp ∈ w'.containers, temp.id = w.nextContainerId) ∧
      (∀ container ∈ w'.containers, w.nextContainerId ≤ container.id →
        container.id = w.nextContainerId) ∧
      w'.recordedContainer params.serviceId = some w.nextContainerId

/-- A failure stays one if the release of the lock throws. -/
theorem Fails.finish {r : Except Failure RuntimeRecreateResult} (h : Fails r) (r') :
    Fails (Prog.finish r r') := by
  cases r' with
  | ok _ => exact h
  | error failure => exact fails_error failure

theorem Fate.Outcome.finish {fate : Fate} (h : fate.Outcome c params t w r w') (r') :
    fate.Outcome c params t w (Prog.finish r r') w' := by
  cases fate with
  | untouched | unrecorded | recorded | restored => exact ⟨h.1.finish r', h.2⟩
  | succeeds => exact h

/-- The removal of the container that was created last. -/
theorem containers_removeTemp {temp : Container} (hw : w.Minted)
    (htemp : temp.id = w.nextContainerId) (h : w₁.containers = temp :: w.containers) :
    (w₁.removeContainer (.id w.nextContainerId)).containers = w.containers := by
  simp only [World.removeContainer, h, Container.answersTo, htemp, List.filter_cons, decide_true,
    Bool.not_true, Bool.false_eq_true, if_false, List.filter_eq_self]
  intro container hmem
  simp [(hw.containers container hmem).ne]

/-- The `catch` of the source, once the replacement has its id. -/
theorem run_onThrow_removeTemp {p : Async RuntimeRecreateResult} {temp : Container} (hw : w.Minted)
    (htemp : temp.id = w.nextContainerId) (hrun : p.run w₁ = (.error failure, w₂))
    (h : w₂.containers = temp :: w.containers) :
    ∃ r w', (p.onThrow (safeRemoveContainer c.removeTemp (.id w.nextContainerId)).settle).run w₁ =
        (r, w') ∧ Fails r ∧ LeavesTemp c w w' ∧
      ∀ serviceId, w'.recordedContainer serviceId = w₂.recordedContainer serviceId := by
  refine ⟨_, _, Prog.run_onThrow_error hrun (run_settle_safeRemoveContainer _ _ _),
    fails_error failure, ⟨temp, htemp, ?_⟩, fun serviceId => ?_⟩
  · split
    · exact containers_removeTemp hw htemp h
    · exact h
  · split <;> rfl

/-- A failure that is returned, after the removal of the replacement. -/
theorem leavesTemp_removeTemp {temp : Container} (hw : w.Minted)
    (htemp : temp.id = w.nextContainerId) (h : w₁.containers = temp :: w.containers) :
    LeavesTemp c w (if c.removeTemp then w₁.removeContainer (.id w.nextContainerId) else w₁) ∧
      ∀ serviceId, (if c.removeTemp then w₁.removeContainer (.id w.nextContainerId) else w₁
        ).recordedContainer serviceId = w₁.recordedContainer serviceId := by
  cases hremove : c.removeTemp with
  | false => exact ⟨⟨temp, htemp, by simp [hremove, h]⟩, fun _ => rfl⟩
  | true =>
    exact ⟨⟨temp, htemp, by simp [hremove, containers_removeTemp hw htemp h]⟩, fun _ => rfl⟩

theorem outcome_succeeds {temp : Container} (hw : w.Minted) (htemp : temp.id = w.nextContainerId)
    (hmem : temp ∈ w₁.containers) (hsub : w₁.containers ⊆ temp :: w.containers)
    (hrecorded : w₁.recordedContainer params.serviceId = some w.nextContainerId)
    (r : Except Failure RuntimeRecreateResult) :
    Fate.succeeds.Outcome c params t w r w₁ := by
  refine ⟨⟨temp, hmem, htemp⟩, fun container hc hle => ?_, hrecorded⟩
  rcases List.mem_cons.mp (hsub hc) with rfl | hold
  · exact htemp
  · exact absurd (hw.containers container hold) hle.not_gt

/-- The removal of the previous container leaves the replacement. -/
theorem outcome_removePrevious {temp : Container} (hw : w.Minted)
    (htemp : temp.id = w.nextContainerId) (h : w₁.containers = temp :: w.containers)
    (hrecorded : w₁.recordedContainer params.serviceId = some w.nextContainerId)
    (href : temp.answersTo ref = false) (resolves : Bool)
    (r : Except Failure RuntimeRecreateResult) :
    Fate.succeeds.Outcome c params t w r
      (if resolves then w₁.removeContainer ref else w₁) := by
  cases resolves with
  | false => exact outcome_succeeds hw htemp (by simp [h]) (by simp [h]) hrecorded r
  | true =>
    suffices Fate.succeeds.Outcome c params t w r (w₁.removeContainer ref) by simpa using this
    refine outcome_succeeds hw htemp ?_ ?_ ?_ r
    · simp [World.removeContainer, h, href]
    · simp only [World.removeContainer, h]
      exact List.filter_subset_self _
    · exact hrecorded

theorem outcome_verifyRoute_passes {temp : Container} (port : Nat) (hw : w.Minted)
    (htemp : temp.id = w.nextContainerId) (h : w₁.containers = temp :: w.containers)
    (hrecorded : w₁.recordedContainer params.serviceId = some w.nextContainerId)
    (hview : ∀ id, t.view.containerId = some id → id < w.nextContainerId)
    (hname : t.view.containerName ≠ some temp.name)
    (hprobe : routeProbe c params t = .passes) :
    ∃ result w', (verifyRoute c params t port w.nextContainerId).run w₁ = (.ok result, w') ∧
      Fate.succeeds.Outcome c params t w (.ok result) w' := by
  simp only [verifyRoute, hprobe]
  cases hid : t.view.containerId with
  | some previousContainerId =>
    have href : temp.answersTo (.id previousContainerId) = false := by
      simpa [Container.answersTo, htemp] using (hview _ hid).ne'
    rw [Prog.run_bind_ok (run_settle_safeRemoveContainer _ _ _)]
    exact ⟨_, _, rfl, outcome_removePrevious hw htemp h hrecorded href _ _⟩
  | none =>
    cases hn : t.view.containerName with
    | some previousContainerName =>
      have href : temp.answersTo (.name previousContainerName) = false := by
        rw [hn] at hname
        simpa [Container.answersTo, eq_comm] using hname
      rw [Prog.run_bind_ok (run_settle_safeRemoveContainer _ _ _)]
      exact ⟨_, _, rfl, outcome_removePrevious hw htemp h hrecorded href _ _⟩
    | none => exact ⟨_, _, rfl, outcome_succeeds hw htemp (by simp [h]) (by simp [h]) hrecorded _⟩

/-- What is returned or thrown once the route does not answer. -/
theorem run_verifyRoute_restored (port : Nat) {tempContainerId : ContainerId}
    (hprobe : routeProbe c params t = .fails)
    (hrow : (w₁.services params.serviceId).isSome) (hrestore : c.restoreService = true) :
    ∃ w₂, w₂.containers = w₁.containers ∧
      w₂.recordedContainer params.serviceId = t.view.containerId ∧
      ((∃ failure, (verifyRoute c params t port tempContainerId).run w₁ = (.error failure, w₂)) ∨
        ∃ result, result.success = false ∧ (verifyRoute c params t port tempContainerId).run w₁ =
          (.ok result, if c.removeTemp then w₂.removeContainer (.id tempContainerId) else w₂)) := by
  obtain ⟨hc, hr⟩ := run_restorePrevious (t := t) hrow hrestore
  simp only [verifyRoute, hprobe]
  generalize hrun : (restorePrevious c params t).run w₁ = end₁ at hc hr
  obtain ⟨r, w₂⟩ := end₁
  refine ⟨w₂, hc, hr, ?_⟩
  cases r with
  | error failure => exact .inl ⟨failure, Prog.run_bind_error hrun⟩
  | ok _ =>
    rw [Prog.run_bind_ok hrun, Prog.run_bind_ok (run_settle_safeRemoveContainer _ _ _)]
    exact .inr ⟨_, rfl, rfl⟩

theorem outcome_replaceBy (temp : Container) (hw : w.Minted)
    (hrow : (w.services params.serviceId).isSome)
    (htemp : temp.id = w.nextContainerId) (h : w₁.containers = temp :: w.containers)
    (hservices : w₁.services = w.services) (hprojects : w₁.projects = w.projects)
    (hview : ∀ id, t.view.containerId = some id → id < w.nextContainerId)
    (hname : t.view.containerName ≠ some temp.name)
    (hrunning : c.replacement w.reservedPorts = .running) :
    ∃ r w', ((replaceBy c params t port w.nextContainerId).onThrow
        (safeRemoveContainer c.removeTemp (.id w.nextContainerId)).settle).run w₁ = (r, w') ∧
      (t.fate c params w).Outcome c params t w r w' := by
  have hrecord : ∀ serviceId, w₁.recordedContainer serviceId = w.recordedContainer serviceId := by
    simp [World.recordedContainer, hservices]
  simp only [Target.fate, hrunning]
  cases hhealthy : c.waitForHealthy with
  | rejects =>
    rw [if_pos (.inl (by rintro ⟨⟩))]
    have hrun : (replaceBy c params t port w.nextContainerId).run w₁ = (.error .other, w₁) := by
      simp [replaceBy, hhealthy]
    obtain ⟨r, w', hrun', hf, hl, hr⟩ := run_onThrow_removeTemp hw htemp hrun h
    exact ⟨r, w', hrun', hf, hl, (hr _).trans (hrecord _)⟩
  | fails =>
    rw [if_pos (.inl (by rintro ⟨⟩))]
    obtain ⟨hl, hr⟩ := leavesTemp_removeTemp (c := c) hw htemp h
    obtain ⟨result, hf, hrun⟩ : ∃ result, result.success = false ∧
        (replaceBy c params t port w.nextContainerId).run w₁ = (.ok result,
          if c.removeTemp then w₁.removeContainer (.id w.nextContainerId) else w₁) := by
      simp only [replaceBy, hhealthy]
      rw [Prog.run_bind_ok (run_settle_safeRemoveContainer _ _ _)]
      exact ⟨_, rfl, rfl⟩
    exact ⟨_, _, Prog.run_onThrow_ok hrun, fails_ok.mpr hf, hl, (hr _).trans (hrecord _)⟩
  | passes =>
    obtain ⟨w₂, hc, hr, hswitch⟩ := run_switchOver (c := c) (t := t) (w := w₁) port
      w.nextContainerId (by rwa [hservices])
    have hresolves : c.transition.resolves
          (w₁.updateService params.serviceId ({ · with status := .running })) t.project.id
            .running =
        c.transition.resolves
          (w.updateService params.serviceId ({ · with status := .running })) t.project.id
            .running := by
      simp only [TransitionCalls.resolves, World.allows, World.getProject, World.updateService,
        hservices, hprojects]
    rw [hresolves] at hswitch
    have hreplaceBy : (replaceBy c params t port w.nextContainerId).run w₁ =
        (switchOver c params t port w.nextContainerId).run w₁ := by rw [replaceBy, hhealthy]
    rw [← hreplaceBy] at hswitch
    cases hservice : c.updateService with
    | false =>
      rw [if_pos (.inr rfl)]
      simp only [hservice, Bool.not_false, if_true] at hswitch
      obtain ⟨r, w', hrun', hf, hl, hr⟩ := run_onThrow_removeTemp hw htemp hswitch h
      exact ⟨r, w', hrun', hf, hl, (hr _).trans (hrecord _)⟩
    | true =>
      rw [if_neg (by simp)]
      simp only [hservice, Bool.not_true, Bool.false_eq_true, if_false] at hswitch
      split
      · rename_i hno
        rw [if_pos hno] at hswitch
        obtain ⟨r, w', hrun', hf, hl, hr'⟩ := run_onThrow_removeTemp hw htemp hswitch (hc.trans h)
        exact ⟨r, w', hrun', hf, hl, (hr' _).trans hr⟩
      · rename_i hyes
        rw [if_neg hyes] at hswitch
        have hrow₂ : (w₂.services params.serviceId).isSome := by
          obtain ⟨row, hrow₂, -⟩ := Option.bind_eq_some_iff.mp hr
          simp [hrow₂]
        cases hprobe : routeProbe c params t with
        | passes =>
          obtain ⟨result, w', hrun, ho⟩ :=
            outcome_verifyRoute_passes port hw htemp (hc.trans h) hr hview hname hprobe
          exact ⟨_, w', Prog.run_onThrow_ok (hswitch.trans hrun), ho⟩
        | rejects =>
          simp only [verifyRoute, hprobe, Prog.run_throw] at hswitch
          obtain ⟨r, w', hrun', hf, hl, hr'⟩ := run_onThrow_removeTemp hw htemp hswitch (hc.trans h)
          exact ⟨r, w', hrun', hf, hl, (hr' _).trans hr⟩
        | fails =>
          cases hrestore : c.restoreService with
          | false =>
            simp only [verifyRoute, hprobe, restorePrevious, updateService, hrestore] at hswitch
            rw [Prog.run_bind_error (Prog.run_bind_error (run_await_false _ _))] at hswitch
            obtain ⟨r, w', hrun', hf, hl, hr'⟩ :=
              run_onThrow_removeTemp hw htemp hswitch (hc.trans h)
            exact ⟨r, w', hrun', hf, hl, (hr' _).trans hr⟩
          | true =>
            obtain ⟨w₃, hc₃, hr₃, ⟨failure, hrun⟩ | ⟨result, hf, hrun⟩⟩ :=
              run_verifyRoute_restored port hprobe hrow₂ hrestore
            · obtain ⟨r, w', hrun', hf, hl, hr'⟩ := run_onThrow_removeTemp hw htemp
                (hswitch.trans hrun) (hc₃.trans (hc.trans h))
              exact ⟨r, w', hrun', hf, hl, (hr' _).trans hr₃⟩
            · obtain ⟨hl, hr'⟩ := leavesTemp_removeTemp (c := c) hw htemp (hc₃.trans (hc.trans h))
              exact ⟨_, _, Prog.run_onThrow_ok (hswitch.trans hrun), fails_ok.mpr hf, hl,
                (hr' _).trans hr₃⟩

/-- `nanoid` has not made the suffix before. -/
structure Params.Fresh (params : Params) (w : World) : Prop where
  nameTaken : ∀ project, w.nameTaken (tempContainerName params project) = false
  recorded : ∀ serviceId row, w.services serviceId = some row →
    ∀ project, row.containerName ≠ some (tempContainerName params project)

theorem removeContainer_of_not_nameTaken (h : w.nameTaken name = false) :
    (w.removeContainer (.name name)).containers = w.containers := by
  simpa [World.removeContainer, World.nameTaken, Container.answersTo] using h

theorem outcome_replaceRuntime (hw : w.Minted) (hrow : (w.services params.serviceId).isSome)
    (hname : w.nameTaken (tempContainerName params t.project) = false)
    (hview : ∀ id, t.view.containerId = some id → id < w.nextContainerId)
    (hfresh : t.view.containerName ≠ some (tempContainerName params t.project)) :
    ∃ r w', (replaceRuntime c params t).run w = (r, w') ∧
      (t.fate c params w).Outcome c params t w r w' := by
  have hstart := run_startReplacement (c := c) hname
  simp only [replaceRuntime]
  cases hrun : c.replacement w.reservedPorts with
  | absent =>
    rw [hrun] at hstart
    obtain ⟨failure, hstart⟩ := hstart
    rw [Prog.run_bind_error
      (Prog.run_onThrow_error hstart (run_settle_safeRemoveContainer _ _ _))]
    simp only [Target.fate, hrun]
    refine ⟨_, _, rfl, fails_error failure, ?_, ?_⟩
    · split
      · exact removeContainer_of_not_nameTaken hname
      · rfl
    · split <;> rfl
  | created =>
    rw [hrun] at hstart
    obtain ⟨failure, port, hstart⟩ := hstart
    rw [Prog.run_bind_error
      (Prog.run_onThrow_error hstart (run_settle_safeRemoveContainer _ _ _))]
    simp only [Target.fate, hrun]
    refine ⟨_, _, rfl, fails_error failure,
      ⟨⟨w.nextContainerId, tempContainerName params t.project, port, false⟩, rfl, ?_⟩, ?_⟩
    · split
      · simpa [World.removeContainer, World.createContainer, Container.answersTo] using
          removeContainer_of_not_nameTaken hname
      · rfl
    · split <;> rfl
  | running =>
    rw [hrun] at hstart
    obtain ⟨port, hstart⟩ := hstart
    rw [Prog.run_bind_ok (Prog.run_onThrow_ok hstart)]
    exact outcome_replaceBy ⟨w.nextContainerId, _, port, true⟩ hw hrow rfl
      hw.setRunning_createContainer rfl rfl hview hfresh hrun

/-- The rows of the services and Docker have not been touched. -/
structure Same (w w' : World) : Prop where
  containers : w'.containers = w.containers
  nextContainerId : w'.nextContainerId = w.nextContainerId
  reservedPorts : w'.reservedPorts = w.reservedPorts
  projects : w'.projects = w.projects
  services : w'.services = w.services

theorem Same.refl : Same w w := ⟨rfl, rfl, rfl, rfl, rfl⟩

theorem run_findEnvironment (c : Calls) (projectId : String) (w : World) :
    ∃ w', Same w w' ∧ (findEnvironment c projectId).run w =
      if c.getEnvironmentsByProject ∧ ((w.environments projectId).isNone → c.createEnvironment) then
        (.ok ((w.environments projectId).getD {}), w')
      else (.error .other, w) := by
  simp only [findEnvironment, run_await_bind, Prog.run_read_bind]
  cases c.getEnvironmentsByProject with
  | false => exact ⟨w, .refl, by simp⟩
  | true =>
    cases henv : w.environments projectId with
    | some environment => exact ⟨w, .refl, by simp [henv]⟩
    | none =>
      cases c.createEnvironment with
      | false => exact ⟨w, .refl, by simp [henv, run_await_bind]⟩
      | true =>
        refine ⟨{ w with environments := Function.update w.environments projectId (some {}) },
          ⟨rfl, rfl, rfl, rfl, rfl⟩, ?_⟩
        simp [henv, run_await_bind]

theorem run_recreateLocked (c : Calls) (params : Params) (w : World) (project : Project)
    (service : ServiceRow) :
    match prepared c w project service with
    | none => ∃ r w', (recreateLocked c params project service).run w = (r, w') ∧ Fails r ∧
        Same w w'
    | some t => ∃ w₁, Same w w₁ ∧
        (recreateLocked c params project service).run w = (replaceRuntime c params t).run w₁ := by
  simp only [prepared, recreateLocked]
  cases himage : runtimeImage (serviceViewFromRows project (some service)) with
  | none => exact ⟨_, w, rfl, fails_ok.mpr rfl, .refl⟩
  | some imageTag =>
    obtain ⟨w₁, hsame, henv⟩ := run_findEnvironment c project.id w
    split at henv
    · rename_i hok
      rw [Prog.run_bind_ok henv, run_awaitAll_bind]
      cases hcalls : (preparations c (serviceViewFromRows project (some service))).all id with
      | true =>
        dsimp only
        rw [if_pos ⟨hok.1, hok.2, rfl⟩, if_pos rfl]
        exact ⟨w₁, hsame, rfl⟩
      | false =>
        dsimp only
        rw [if_neg (by simp), if_neg (by simp)]
        exact ⟨_, w₁, rfl, fails_error _, hsame⟩
    · rename_i hno
      simp only
      rw [if_neg fun h => hno ⟨h.1, h.2.1⟩, Prog.run_bind_error henv]
      exact ⟨_, w, rfl, fails_error _, .refl⟩

theorem run_resolveRuntimeProjectForService (c : Calls) (params : Params) (w : World)
    (service : ServiceRow) :
    (resolveRuntimeProjectForService c params service).run w =
      match w.getProject service.projectId with
      | none => (.error .other, w)
      | some ownerProject =>
        if c.getOwnerProject ∧ c.getRuntimeProject then
          (.ok (ownerProject, (w.getProject (deployableServiceIdToProjectId params.serviceId)).getD
            ownerProject), w)
        else (.error .other, w) := by
  simp only [resolveRuntimeProjectForService, run_await_bind, Prog.run_read_bind, id_eq]
  cases c.getOwnerProject <;> cases w.getProject service.projectId <;> cases c.getRuntimeProject <;>
    simp [run_await_bind]

/-- The call ends before it has turned to Docker, or goes on with what it has read. -/
theorem run_recreateServiceRuntime (c : Calls) (params : Params) (w : World) :
    match target c params w with
    | none => ∃ r w', (recreateServiceRuntime c params).run w = (r, w') ∧ Fails r ∧ Same w w'
    | some t => ∃ w₁, ∃ r : Except Failure Unit, Same w w₁ ∧
        (recreateServiceRuntime c params).run w =
        (Prog.finish ((replaceRuntime c params t).run w₁).1 r,
          ((replaceRuntime c params t).run w₁).2) := by
  -- Under the lock the end of the body stays, unless the release throws.
  have hlocked : ∀ project service, match prepared c w project service with
      | none => ∃ r w', ((recreateLocked c params project service).andFinally
          (await c.releaseDeployLock)).run w = (r, w') ∧ Fails r ∧ Same w w'
      | some t => ∃ w₁, ∃ r : Except Failure Unit, Same w w₁ ∧
          ((recreateLocked c params project service).andFinally (await c.releaseDeployLock)).run w =
          (Prog.finish ((replaceRuntime c params t).run w₁).1 r,
            ((replaceRuntime c params t).run w₁).2) := by
    intro project service
    have hrun := run_recreateLocked c params w project service
    rw [Prog.run_andFinally]
    have hrelease : ∀ w : World, ((await c.releaseDeployLock).run w).2 = w := by
      intro w
      cases c.releaseDeployLock <;> rfl
    cases hprepared : prepared c w project service with
    | none =>
      rw [hprepared] at hrun
      obtain ⟨r, w', hrun, hf, hsame⟩ := hrun
      rw [hrun, hrelease]
      exact ⟨_, _, rfl, hf.finish _, hsame⟩
    | some t =>
      rw [hprepared] at hrun
      obtain ⟨w₁, hsame, hrun⟩ := hrun
      exact ⟨w₁, _, hsame, by rw [hrun, hrelease]⟩
  simp only [target, located, recreateServiceRuntime, run_await_bind, Prog.run_read_bind, id_eq]
  cases hrow : w.services params.serviceId with
  | none =>
    cases c.getService with
    | true => exact ⟨_, w, rfl, fails_ok.mpr rfl, .refl⟩
    | false => exact ⟨_, w, rfl, fails_error _, .refl⟩
  | some service =>
    have hresolve := run_resolveRuntimeProjectForService c params w service
    dsimp only
    cases howner : w.getProject service.projectId with
    | none =>
      rw [howner] at hresolve
      cases c.getService with
      | false => exact ⟨_, w, rfl, fails_error _, .refl⟩
      | true =>
        cases isDeployableService service with
        | false => exact ⟨_, w, rfl, fails_ok.mpr rfl, .refl⟩
        | true => exact ⟨_, w, Prog.run_bind_error hresolve, fails_error _, .refl⟩
    | some ownerProject =>
      rw [howner] at hresolve
      dsimp only at hresolve ⊢
      split at hresolve
      · rename_i hcalls
        cases c.getService with
        | false => exact ⟨_, w, rfl, fails_error _, .refl⟩
        | true =>
          cases isDeployableService service with
          | false => exact ⟨_, w, rfl, fails_ok.mpr rfl, .refl⟩
          | true =>
            rw [if_pos rfl, if_pos rfl, Prog.run_bind_ok hresolve, run_awaitAll_bind]
            cases (admissions c ownerProject ((w.getProject (deployableServiceIdToProjectId
              params.serviceId)).getD ownerProject)).all id with
            | false =>
              rw [if_neg (by simp)]
              exact ⟨_, w, rfl, fails_error _, .refl⟩
            | true =>
              rw [if_pos ⟨rfl, rfl, hcalls.1, hcalls.2, rfl⟩]
              exact hlocked _ service
      · rename_i hcalls
        rw [if_neg fun h => hcalls ⟨h.2.2.1, h.2.2.2.1⟩]
        cases c.getService with
        | false => exact ⟨_, w, rfl, fails_error _, .refl⟩
        | true =>
          cases isDeployableService service with
          | false => exact ⟨_, w, rfl, fails_ok.mpr rfl, .refl⟩
          | true => exact ⟨_, w, Prog.run_bind_error hresolve, fails_error _, .refl⟩

/-- If the call fails, the container that the service records is there, and no container that the
call created is left, except the recorded one. -/
def FailureConsistent (params : Params) (w : World) (r : Except Failure RuntimeRecreateResult)
    (w' : World) : Prop :=
  Fails r → w'.Stands (w'.recordedContainer params.serviceId) ∧
    ∀ container ∈ w'.containers, w.nextContainerId ≤ container.id →
      w'.recordedContainer params.serviceId = some container.id

/-- When a call that ends so leaves the record and Docker in agreement. -/
def Fate.Agrees (c : Calls) (params : Params) (t : Target) (w : World) : Fate → Prop
  | .untouched => w.Stands (w.recordedContainer params.serviceId)
  | .unrecorded => w.Stands (w.recordedContainer params.serviceId) ∧ c.removeTemp = true
  | .recorded => c.removeTemp = false
  | .restored => w.Stands t.view.containerId ∧ c.removeTemp = true
  | .succeeds => True

def Agrees (c : Calls) (params : Params) (w : World) : Prop :=
  match target c params w with
  | none => w.Stands (w.recordedContainer params.serviceId)
  | some t => (t.fate c params w).Agrees c params t w

/-- A container of its own that is not recorded must be gone. -/
theorem stands_of_leavesTemp {recorded : Option ContainerId} (hw : w.Minted)
    (hl : LeavesTemp c w w₁) (hrecorded : ∀ id, recorded = some id → id < w.nextContainerId) :
    (w₁.Stands recorded ∧ ∀ container ∈ w₁.containers, w.nextContainerId ≤ container.id →
      recorded = some container.id) ↔ w.Stands recorded ∧ c.removeTemp = true := by
  obtain ⟨temp, htemp, hc⟩ := hl
  cases hremove : c.removeTemp with
  | true =>
    simp only [hremove, if_true] at hc
    simp only [World.Stands, hc, and_true]
    refine ⟨And.left, fun h => ⟨h, fun container hmem hle => ?_⟩⟩
    exact absurd (hw.containers container hmem) hle.not_gt
  | false =>
    simp only [hremove, Bool.false_eq_true, if_false] at hc
    refine iff_of_false (fun h => ?_) (by simp)
    have hlt := hrecorded _ (h.2 temp (by simp [hc]) htemp.ge)
    exact absurd htemp hlt.ne

theorem failureConsistent_of_untouched (hw : w.Minted) (hf : Fails r)
    (hc : w₁.containers = w.containers)
    (hr : w₁.recordedContainer params.serviceId = w.recordedContainer params.serviceId) :
    FailureConsistent params w r w₁ ↔ w.Stands (w.recordedContainer params.serviceId) := by
  simp only [FailureConsistent, hf, true_imp_iff, hr, World.Stands, hc]
  refine ⟨And.left, fun h => ⟨h, fun container hmem hle => ?_⟩⟩
  exact absurd (hw.containers container hmem) hle.not_gt

theorem failureConsistent_of_outcome {fate : Fate} (hw : w.Minted)
    (hview : ∀ id, t.view.containerId = some id → id < w.nextContainerId)
    (h : fate.Outcome c params t w r w₁) :
    FailureConsistent params w r w₁ ↔ fate.Agrees c params t w := by
  cases fate with
  | untouched =>
    obtain ⟨hf, hc, hr⟩ := h
    exact failureConsistent_of_untouched hw hf hc hr
  | unrecorded =>
    obtain ⟨hf, hl, hr⟩ := h
    simp only [FailureConsistent, Fate.Agrees, hf, true_imp_iff, hr]
    exact stands_of_leavesTemp hw hl (hw.recorded _)
  | recorded =>
    obtain ⟨hf, ⟨temp, htemp, hc⟩, hr⟩ := h
    simp only [FailureConsistent, Fate.Agrees, hf, true_imp_iff, hr, World.Stands, hc]
    cases c.removeTemp with
    | true =>
      refine iff_of_false (fun h => ?_) (by simp)
      obtain ⟨container, hmem, hid⟩ := h.1 _ rfl
      exact absurd hid (hw.containers container hmem).ne
    | false =>
      refine iff_of_true ⟨fun id hid => ⟨temp, .head _, by simpa [htemp] using hid⟩, ?_⟩ rfl
      intro container hmem hle
      rcases List.mem_cons.mp hmem with rfl | hmem
      · rw [htemp]
      · exact absurd (hw.containers container hmem) hle.not_gt
  | restored =>
    obtain ⟨hf, hl, hr⟩ := h
    simp only [FailureConsistent, Fate.Agrees, hf, true_imp_iff, hr]
    exact stands_of_leavesTemp hw hl hview
  | succeeds =>
    obtain ⟨⟨temp, hmem, htemp⟩, hnew, hr⟩ := h
    refine iff_of_true (fun _ => ?_) trivial
    rw [hr]
    refine ⟨fun id hid => ⟨temp, hmem, by simpa [htemp] using hid⟩, fun container hc hle => ?_⟩
    rw [hnew container hc hle]

theorem Same.eq (h : Same w w₁) :
    w₁ = { w with
      images := w₁.images
      environments := w₁.environments
      otherEnvironments := w₁.otherEnvironments } := by
  obtain ⟨h₁, h₂, h₃, h₄, h₅⟩ := h
  rw [← h₁, ← h₂, ← h₃, ← h₄, ← h₅]

/-- What the code has read of the containers is recorded. -/
theorem read_of_target (hw : w.Minted) (hfresh : params.Fresh w) (h : target c params w = some t) :
    (w.services params.serviceId).isSome ∧
      (∀ id, t.view.containerId = some id → id < w.nextContainerId) ∧
      t.view.containerName ≠ some (tempContainerName params t.project) := by
  obtain ⟨⟨project, service⟩, hlocated, hprepared⟩ := Option.bind_eq_some_iff.mp h
  simp only [located] at hlocated
  cases hrow : w.services params.serviceId with
  | none => simp [hrow] at hlocated
  | some row =>
    cases howner : w.getProject row.projectId with
    | none => simp [hrow, howner] at hlocated
    | some ownerProject =>
      simp only [hrow, howner, Option.ite_none_right_eq_some, Option.some.injEq,
        Prod.mk.injEq] at hlocated
      obtain ⟨-, hproject, rfl⟩ := hlocated
      obtain ⟨projectId, hread⟩ : ∃ projectId, w.getProject projectId = some project := by
        cases hruntime : w.getProject (deployableServiceIdToProjectId params.serviceId) with
        | none => exact ⟨_, by rw [howner, ← hproject, hruntime, Option.getD_none]⟩
        | some runtimeProject => exact ⟨_, by rw [hruntime, ← hproject, hruntime, Option.getD_some]⟩
      simp only [prepared] at hprepared
      split at hprepared
      · cases hprepared
      · simp only [Option.ite_none_right_eq_some, Option.some.injEq] at hprepared
        obtain ⟨-, rfl⟩ := hprepared
        exact ⟨rfl, fun id hid => hw.view hrow hread hid, hfresh.recorded _ _ hrow _⟩

/-- **A failed recreation leaves the record and Docker in agreement** exactly if it fails before it
has recorded the replacement, or after it has recorded the previous container again, and the removal
of the replacement succeeds, or fails in between and that removal fails too.  The container that
was recorded before has to be there in the first place. -/
theorem failureConsistent_iff (hw : w.Minted) (hfresh : params.Fresh w) :
    FailureConsistent params w ((recreateServiceRuntime c params).run w).1
      ((recreateServiceRuntime c params).run w).2 ↔ Agrees c params w := by
  have hrun := run_recreateServiceRuntime c params w
  simp only [Agrees]
  cases htarget : target c params w with
  | none =>
    rw [htarget] at hrun
    obtain ⟨r, w', hrun, hf, hsame⟩ := hrun
    rw [hrun, hsame.eq]
    exact failureConsistent_of_untouched hw hf rfl rfl
  | some t =>
    rw [htarget] at hrun
    obtain ⟨w₁, r, hsame, hrun⟩ := hrun
    obtain ⟨hrow, hview, hname⟩ := read_of_target hw hfresh htarget
    rw [hsame.eq] at hrun
    obtain ⟨r', w', hrun', ho⟩ := outcome_replaceRuntime (c := c) (t := t)
      (w := { w with
        images := w₁.images
        environments := w₁.environments
        otherEnvironments := w₁.otherEnvironments })
      ⟨hw.containers, hw.recorded⟩ hrow (hfresh.nameTaken _) hview hname
    rw [hrun'] at hrun
    rw [hrun]
    exact failureConsistent_of_outcome hw hview (ho.finish r)

/-- A service with its container. -/
def exampleWorld : World where
  containers := [⟨0, "ol-app", 10001, true⟩]
  nextContainerId := 1
  projects := Function.update (fun _ => none) "app" (some { name := "app" })
  services := Function.update (fun _ => none) "app__svc" (some {
    projectId := "app"
    kind := .git
    source := some .git
    status := .running
    containerId := some 0
    containerName := some "ol-app"
    assignedPort := some 10001
    imageTag := some "openlander/app:1" })
  environments := Function.update (fun _ => none) "app" (some {
    status := .running
    containerId := some 0
    assignedPort := some 10001
    imageTag := some "openlander/app:1" })

def exampleParams : Params := { serviceId := "app__svc", suffix := "abc123" }

theorem minted_exampleWorld : exampleWorld.Minted where
  containers := by simp [exampleWorld]
  recorded := by
    intro serviceId id h
    simp only [World.recordedContainer, exampleWorld, Function.update_apply] at h
    split at h <;> simp_all [exampleWorld]

theorem fresh_exampleParams : exampleParams.Fresh exampleWorld := by
  have hne : ∀ project, tempContainerName exampleParams project ≠ "ol-app" := by
    intro project h
    have hlength := congrArg (·.toList.length) h
    simp only [tempContainerName, containerName, CONTAINER_PREFIX, exampleParams,
      String.toList_append, List.length_append] at hlength
    have h₁ : "abc123".toList.length = 6 := by decide
    have h₂ : "ol-app".toList.length = 6 := by decide
    have h₃ : "ol-".toList.length = 3 := by decide
    omega
  refine ⟨fun project => ?_, fun serviceId row hrow project => ?_⟩
  · simpa [World.nameTaken, exampleWorld] using (hne project).symm
  · simp only [exampleWorld, Function.update_apply] at hrow
    split at hrow
    · cases hrow
      simpa using (hne project).symm
    · cases hrow

/-- The replacement is started and found unhealthy, and removed. -/
theorem failureConsistent_unhealthy :
    FailureConsistent exampleParams exampleWorld
      ((recreateServiceRuntime { waitForHealthy := .fails } exampleParams).run exampleWorld).1
      ((recreateServiceRuntime { waitForHealthy := .fails } exampleParams).run exampleWorld).2 := by
  refine (failureConsistent_iff minted_exampleWorld fresh_exampleParams).mpr ?_
  have hfate : (target { waitForHealthy := .fails } exampleParams exampleWorld).map
      (·.fate { waitForHealthy := .fails } exampleParams exampleWorld) = some .unrecorded := by
    decide
  obtain ⟨t, htarget, hfate⟩ := Option.map_eq_some_iff.mp hfate
  simp only [Agrees, htarget, hfate, Fate.Agrees]
  refine ⟨fun id hid => ⟨⟨0, "ol-app", 10001, true⟩, by simp [exampleWorld], ?_⟩, trivial⟩
  have hrecorded : exampleWorld.recordedContainer exampleParams.serviceId = some 0 := by decide
  rw [hrecorded] at hid
  exact Option.some.inj hid

/-- The update of the environment rejects: the replacement stays recorded, and is removed. -/
theorem not_failureConsistent :
    ¬ FailureConsistent exampleParams exampleWorld
      ((recreateServiceRuntime { updateEnvironment := false } exampleParams).run exampleWorld).1
      ((recreateServiceRuntime { updateEnvironment := false } exampleParams).run
        exampleWorld).2 := by
  generalize hcall : (recreateServiceRuntime { updateEnvironment := false } exampleParams).run
    exampleWorld = call
  have hfails : call.1.isOk = false := by rw [← hcall]; decide
  have hrecorded : call.2.recordedContainer "app__svc" = some 1 := by rw [← hcall]; decide
  have hcontainers : call.2.containers = [⟨0, "ol-app", 10001, true⟩] := by rw [← hcall]; decide
  intro h
  have hcall : Fails call.1 := by
    intro result hok
    simp [hok, Except.isOk, Except.toBool] at hfails
  obtain ⟨container, hmem, hid⟩ := (h hcall).1 1 hrecorded
  rw [hcontainers, List.mem_singleton] at hmem
  simp [hmem] at hid

end OpenLander.Pipeline.RecreateRuntime
