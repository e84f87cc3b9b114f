import Mathlib.Data.List.Nodup
import OpenLander.Pipeline.BlueGreenRecovery

/-! # One version in service

Whether a blue-green redeploy ends with one version that runs and is recorded is decided by the
stage at which it fails. The steps before the rows change leave nothing to put right; from then on
the `catch` has to write the rows again, and where its own calls fail it may not. -/

namespace OpenLander.Pipeline.BlueGreen
open Theory
open ProjectStateManager (ProjectStatus VALID_TRANSITIONS)
open GreenCleanup (PROJECT_NAME_REGEX makeGreenContainerName)

/-! ## The property -/

/-- Of blue and the containers of the call only `live` runs, the rows record it, and the result says
whether it is blue. -/
structure Serves (projectId : String) (blue first : ContainerId) (live : Container)
    (outcome : Except Failure DeployResult × World) : Prop where
  mem : live ∈ outcome.2.containers
  running : live.running = true
  followed : live.id = blue ∨ first ≤ live.id
  only : ∀ c ∈ outcome.2.containers, c.running = true → c.id = blue ∨ first ≤ c.id → c = live
  recorded : ∃ row, outcome.2.services (projectIdToDeployableServiceId projectId) = some row ∧
    row.status = .running ∧ row.containerId = some live.id ∧ row.assignedPort = some live.port
  reported : ∀ result, outcome.1 = .ok result →
    (result.previousVersionStillServing = some true ↔ live.id = blue)

def OneVersion (projectId : String) (blue first : ContainerId)
    (outcome : Except Failure DeployResult × World) : Prop :=
  ∃ live, Serves projectId blue first live outcome

/-! ## Stages -/

def failing (resolves : Bool) : Option Failure := if resolves then none else some .other

section
variable (c : Calls) (params : Params) (blue : Blue) (config : DeployConfig)

def usesImage : Bool := config.source = some .image ∨ blue.view.source = some .image

/-- The failure of `prepareImage`. -/
def Calls.imageFailure : Option Failure :=
  (failing c.preflightProjectNetwork).or <|
    if usesImage blue config then
      match (config.imageUrl.or blue.view.imageUrl).filter (· ≠ "") with
      | none => some .other
      | some _ => failing c.pullImage
    else
      match c.cloneRepo, c.build with
      | none, _ => some .other
      | some _, .succeeds => none
      | some _, .fails => some .other
      | some _, .cancelled => some .buildCancelled

def Calls.gitCredentialId : Option String :=
  if usesImage blue config then config.gitCredentialId else c.cloneRepo.join

/-- The failure of `runContainer`, given whether the name is taken. -/
def startFailure (outcome : RunOutcome) (taken : Bool) : Option Failure :=
  match outcome with
  | .createFails failure => some failure
  | .runs => if taken then some .other else none
  | .startFails failure => some (if taken then .other else failure)

/-- The failure of `allocatePort`. -/
def allocationFailure (scan : Option (List Nat)) (reserved : Finset Nat) : Option Failure :=
  match scan with
  | none => some .other
  | some usedPorts =>
    if (choosePort {} usedPorts reserved).isNone then some .portExhausted else none

/-- The failure of `runGreen`. -/
def Calls.greenFailure (w : World) : Option Failure :=
  (allocationFailure c.scanUsedPorts w.reservedPorts).or <|
    (failing c.getImageExposedPort.isSome).or <|
    (failing ([c.resolveEnvVars, c.getSecretFilesForDeploy, c.ensureProjectNetwork,
      c.ensureManagedTraefikNetwork, c.loadResourceLimits].all id)).or <|
    startFailure c.runContainer
      (w.nameTaken (makeGreenContainerName blue.project.name params.suffix))

/-- Green is checked and joins the network of blue. -/
def Calls.checks : Bool :=
  c.waitForBlueGreenHealth = .passes && c.observeBlueGreenStability = .passes &&
    [c.disconnectContainerFromNetwork, c.connectContainerToNetwork].all id

/-- The first failure while the status is `building`. -/
def Calls.buildingFailure (hasEnvironment : Bool) (w : World) : Option Failure :=
  (failing (!hasEnvironment || c.buildingEnvironment)).or <| (c.imageFailure blue config).or <|
    (c.greenFailure params blue w).or <| (failing c.checks).or <|
      failing (c.switchTransition.getProject && c.switchTransition.updateProject)

/-- The route is verified, with blue stopped. -/
def Calls.verifies (hasEnvironment : Bool) : Bool :=
  (!hasEnvironment || c.switchEnvironment) && c.waitForManagedTraefikRoute = .passes &&
    c.stopBlue && c.postBlueStopRouteProbe = .passes

def Calls.finishes : Bool :=
  c.createDeployLog && ((c.gitCredentialId blue config).isNone || c.updateGitCredential)

/-- Where a call fails. -/
inductive Stage
  /-- Before blue is known. -/
  | reading
  /-- Before the status says `building`. -/
  | preparing
  /-- While it does. -/
  | building (failure : Failure)
  /-- The status says `running` again, and the rows still name blue. -/
  | switching
  /-- The rows name green, and the route is not verified. -/
  | switched
  /-- Blue is retired. -/
  | retired
  | done
  deriving DecidableEq

/-- The stage, once the status may be `running` again. -/
def Calls.stageSwitched (hasEnvironment : Bool) : Stage :=
  if !c.switchProject then .switching
  else if !c.verifies hasEnvironment then .switched
  else if !c.finishes blue config then .retired
  else .done

def Calls.stageFrom (hasEnvironment : Bool) (w : World) : Stage :=
  match c.buildingFailure params blue config hasEnvironment w with
  | some failure => .building failure
  | none => c.stageSwitched blue config hasEnvironment

/-- The stage, once blue is known. -/
def Calls.stagePrepared (w : World) : Stage :=
  match c.buildDeployConfig with
  | none => .preparing
  | some config =>
    if c.getEnvironmentsByProject && c.buildingTransition.getProject &&
        c.buildingTransition.updateProject then
      c.stageFrom params blue config (w.environments params.projectId).isSome
        (cleaned blue.containerId c.staleGreens w)
    else .preparing

/-- Blue, as the rows have it. -/
def located (w : World) : Option Blue :=
  match w.getProject params.projectId,
    w.services (projectIdToDeployableServiceId params.projectId) with
  | some project, some service =>
    let view := serviceViewFromRows project (some service)
    view.containerId.map fun containerId => { project, service, view, containerId }
  | _, _ => none

/-- The lookups that come before `blueState`. -/
def Calls.reads (w : World) : Bool :=
  c.getProject && PROJECT_NAME_REGEX blue.project.name && c.loadServiceViewRecord &&
    (c.getOwnerProject && (w.getProject blue.service.projectId).isSome && c.getRuntimeProject) &&
    (c.getEligibleProject && c.loadEligibleRecord)

end

def stage (c : Calls) (params : Params) (w : World) : Stage :=
  match located params w with
  | none => .reading
  | some blue => if c.reads blue w then c.stagePrepared params blue w else .reading

/-- A restore points the rows of a running project at blue. -/
def RestoreCalls.records (calls : RestoreCalls) : Bool :=
  calls.transition.getProject && calls.updateProject

/-- One version is in service after a failure at the stage. -/
def Stage.Recoverable (c : Calls) (hasEnvironment : Bool) : Stage → Prop
  | .reading => ¬(c.finalTransition.getProject ∧ c.createFailedLog)
  | .preparing | .switching | .done => True
  | .building failure => (failure = .buildCancelled → c.inspectBlue) ∧
      c.finalRestore.transition.getProject ∧ c.finalRestore.transition.updateProject
  | .switched => c.finalRestore.records ∨ (hasEnvironment → c.switchEnvironment) ∧
      (c.restoreInCatch.records ∨
        c.waitForManagedTraefikRoute = .fails ∧ c.restoreAfterProbe.records)
  | .retired => c.removeBlue

/-! ## The ends of a call -/

variable {x : Scene} {greens : List Container} {rows : Rows} {w : World} {c : Calls}
variable {blue? : Option Bool} {r : Except Failure DeployResult}

/-- The rows record blue as running. -/
def Rows.Names (rows : Rows) (blue : Container) : Prop :=
  rows.status = .running ∧ rows.recorded.id = blue.id ∧ rows.recorded.port = blue.port

/-- What is left is in service if and only if the condition holds. -/
def Scene.Left (x : Scene) (cond : Prop) (r : Except Failure DeployResult) (w : World) : Prop :=
  OneVersion x.params.projectId x.blue.id x.first (r, w) ↔ cond

namespace Scene.At

theorem mem_iff (h : x.At greens blue? rows w) {container : Container} :
    container ∈ w.containers ∧ (container.id = x.blue.id ∨ x.first ≤ container.id) ↔
      container ∈ greens ∨ ∃ running, blue? = some running ∧
        container = { x.blue with running } := by
  have hfollows : (container.id = x.blue.id ∨ x.first ≤ container.id) ↔
      x.follows container = true := decide_eq_true_iff.symm
  rw [hfollows, ← List.mem_filter, h.containers, List.mem_append]
  refine or_congr_right ?_
  cases blue? with
  | none => simp
  | some running => simp

/-- Blue runs, and no green does. -/
theorem left_blue (h : x.At greens (some true) rows w)
    (hidle : ∀ green ∈ greens, green.running = false)
    (hreport : ∀ result, r = .ok result → result.previousVersionStillServing = some true) :
    x.Left (rows.Names x.blue) r w := by
  have hblue := h.mem_iff.mpr (.inr ⟨true, rfl, rfl⟩)
  constructor
  · rintro ⟨live, hlive⟩
    obtain rfl := hlive.only _ hblue.1 rfl hblue.2
    obtain ⟨row, hrow, hstatus, hid, hport⟩ := hlive.recorded
    obtain ⟨row', hrow', hstatus', hid', hport'⟩ := h.service
    obtain rfl : row = row' := Option.some.inj (hrow.symm.trans hrow')
    exact ⟨hstatus'.symm.trans hstatus, Option.some.inj (hid'.symm.trans hid),
      Option.some.inj (hport'.symm.trans hport)⟩
  · rintro ⟨hstatus, hid, hport⟩
    obtain ⟨row, hrow, hstatus', hid', hport'⟩ := h.service
    refine ⟨_, hblue.1, rfl, hblue.2, ?_, ⟨row, hrow, ?_, ?_, ?_⟩, ?_⟩
    · intro container hmem hrunning hfollowed
      rcases h.mem_iff.mp ⟨hmem, hfollowed⟩ with hgreen | ⟨running, hsome, rfl⟩
      · cases hrunning.symm.trans (hidle container hgreen)
      · obtain rfl := Option.some.inj hsome
        rfl
    · exact hstatus'.trans hstatus
    · exact hid'.trans (congrArg some hid)
    · exact hport'.trans (congrArg some hport)
    · exact fun result hresult => ⟨fun _ => rfl, fun _ => hreport result hresult⟩

/-- Green runs, is recorded, and blue does not. -/
theorem left_green (h : x.At [green] blue? ⟨.running, green⟩ w) (hgreen : green.running = true)
    (hblue : blue? ≠ some true)
    (hreport : ∀ result, r = .ok result → result.previousVersionStillServing = some false) :
    x.Left True r w := by
  refine iff_of_true ?_ trivial
  have hmem := h.mem_iff.mpr (.inl (.head _))
  refine ⟨green, hmem.1, hgreen, hmem.2, ?_, h.service, ?_⟩
  · intro container hmem hrunning hfollowed
    rcases h.mem_iff.mp ⟨hmem, hfollowed⟩ with hgreen | ⟨running, hsome, rfl⟩
    · exact List.mem_singleton.mp hgreen
    · exact absurd (hsome.trans (congrArg some hrunning)) hblue
  · intro result hresult
    rw [hreport result hresult]
    exact iff_of_false nofun (h.ne_blue green (.head _))

/-- Both run. -/
theorem left_both (h : x.At [green] (some true) rows w) (hgreen : green.running = true) :
    x.Left False r w := by
  refine iff_of_false ?_ id
  rintro ⟨live, hlive⟩
  have hblue := h.mem_iff.mpr (.inr ⟨true, rfl, rfl⟩)
  have hmem := h.mem_iff.mpr (.inl (.head _))
  have hgreen' := hlive.only _ hmem.1 hgreen hmem.2
  have hblue' := hlive.only _ hblue.1 rfl hblue.2
  have hid := congrArg Container.id hblue'
  exact h.ne_blue green (.head _) (hgreen' ▸ hid.symm)

/-- The status is not `running`. -/
theorem left_of_status (h : x.At greens blue? rows w) (hstatus : rows.status ≠ .running) :
    x.Left False r w := by
  refine iff_of_false ?_ id
  rintro ⟨live, hlive⟩
  obtain ⟨row, hrow, hrunning, -⟩ := hlive.recorded
  obtain ⟨row', hrow', hstatus', -⟩ := h.service
  obtain rfl : row = row' := Option.some.inj (hrow.symm.trans hrow')
  exact hstatus (hstatus'.symm.trans hrunning)

/-- Blue runs, and the result denies it. -/
theorem left_misreported (h : x.At greens (some true) rows w) (hr : r = .ok result)
    (hreport : result.previousVersionStillServing = some false) : x.Left False r w := by
  refine iff_of_false ?_ id
  rintro ⟨live, hlive⟩
  have hblue := h.mem_iff.mpr (.inr ⟨true, rfl, rfl⟩)
  have hblue' := hlive.only _ hblue.1 rfl hblue.2
  have hid := congrArg Container.id hblue'
  exact absurd (hreport.symm.trans ((hlive.reported result hr).mpr hid.symm)) nofun

end Scene.At

/-! ## Failures, stage by stage -/

/-- What the claim supposes of Docker: the calls of the recovery resolve. -/
structure Calls.Recovers (c : Calls) : Prop where
  restartBlue : c.restartBlue = true
  stopGreen : c.stopGreen = true
  removeGreen : c.removeGreen = true

/-- What the `finally` leaves. -/
def Scene.Final (x : Scene) (c : Calls) (cond : Prop) (r : Except Failure DeployResult)
    (s : World × Vars) : Prop :=
  (cleanup c).Ends s fun r' s' => r' = .ok () ∧ x.Left cond r s'.1

/-- What the `catch` and the `finally` leave. -/
def Scene.After (x : Scene) (c : Calls) (cond : Prop) :
    Except Failure DeployResult → World × Vars → Prop
  | .ok result, s => x.Final c cond (.ok result) s
  | .error failure, s => (handleFailure c x.params failure).Ends s (x.Final c cond)

/-- The `catch` knows blue, and the `finally` the green that runs. -/
structure Scene.Knows (x : Scene) (greens : List Container) (vars : Vars) : Prop where
  covers : x.Covers greens vars
  blueState : ∃ state, vars.blueState = some state ∧ x.Describes state

section
variable {vars : Vars} {failure : Failure} {cond : Prop} {running : Bool}

theorem Scene.Left.congr {cond' : Prop} (h : x.Left cond r w) (hcond : cond ↔ cond') :
    x.Left cond' r w := h.trans hcond

theorem Scene.At.final_blue (h : x.At greens (some true) rows w) (hc : c.Recovers)
    (hcovers : x.Covers greens vars) (hcond : rows.Names x.blue ↔ cond)
    (hreport : ∀ result, r = .ok result → result.previousVersionStillServing = some true) :
    x.Final c cond r (w, vars) := by
  refine (h.cleanup hc.removeGreen hcovers).mono ?_
  rintro _ s ⟨hok, greens', h', hidle⟩
  exact ⟨hok, (h'.left_blue hidle hreport).congr hcond⟩

/-- A failure that is no cancellation, while blue is there. -/
theorem Scene.At.after_failure (h : x.At greens (some running) rows w) (hc : c.Recovers)
    (hknows : x.Knows greens vars) (hfailure : failure ≠ .buildCancelled)
    (hcond : (c.finalRestore.apply x.blue (c.rolledBack x.blue vars rows)).Names x.blue ↔ cond) :
    x.After c cond (.error failure) (w, vars) := by
  obtain ⟨state, hvars, hstate⟩ := hknows.blueState
  rw [Scene.After]
  refine (h.handleFailure hc.restartBlue hvars hstate hfailure).mono ?_
  rintro r ⟨w', _⟩ ⟨rfl, h', hreport⟩
  exact h'.final_blue hc hknows.covers hcond hreport

theorem names_apply_building (calls : RestoreCalls) (blue : Container) :
    (calls.apply blue ⟨.building, blue⟩).Names blue ↔
      calls.transition.getProject = true ∧ calls.transition.updateProject = true := by
  obtain ⟨⟨getProject, updateStatus⟩, updateProject, -⟩ := calls
  cases getProject <;> cases updateStatus <;> cases updateProject <;>
    simp [RestoreCalls.apply, TransitionCalls.moves, VALID_TRANSITIONS, Rows.Names]

/-- A restore of a running project writes the rows or leaves them. -/
theorem apply_running (calls : RestoreCalls) (blue recorded : Container) :
    calls.apply blue ⟨.running, recorded⟩ =
      ⟨.running, if calls.records then blue else recorded⟩ := by
  obtain ⟨⟨getProject, -⟩, updateProject, -⟩ := calls
  cases getProject <;> cases updateProject <;>
    simp [RestoreCalls.apply, RestoreCalls.records, TransitionCalls.moves]

/-- The rows name blue all along. -/
theorem Scene.At.after_unchanged (h : x.At greens (some running) ⟨.running, x.blue⟩ w)
    (hc : c.Recovers) (hknows : x.Knows greens vars) (hfailure : failure ≠ .buildCancelled)
    (hcond : cond) : x.After c cond (.error failure) (w, vars) := by
  refine h.after_failure hc hknows hfailure (iff_of_true ?_ hcond)
  rw [Calls.rolledBack, apply_running, ite_self]
  split <;> rw [apply_running, ite_self] <;> exact ⟨rfl, rfl, rfl⟩

theorem Scene.At.after_building (h : x.At greens (some true) ⟨.building, x.blue⟩ w)
    (hc : c.Recovers) (hknows : x.Knows greens vars) (hupdated : vars.routeTargetUpdated = false)
    (hcond : Stage.Recoverable c hasEnvironment (.building failure) ↔ cond) :
    x.After c cond (.error failure) (w, vars) := by
  by_cases hfailure : failure = .buildCancelled
  · subst hfailure
    obtain ⟨state, hvars, hstate⟩ := hknows.blueState
    rw [Scene.After]
    refine (h.handleFailure_cancelled c rfl hvars hstate hupdated).mono ?_
    rintro r ⟨w', _⟩ ⟨rfl, h', hreport⟩
    cases hinspect : c.inspectBlue with
    | true =>
      rw [hinspect] at h' hreport
      refine h'.final_blue hc hknows.covers (.trans ?_ hcond) hreport
      rw [if_pos rfl, names_apply_building]
      exact ⟨fun hnames => ⟨fun _ => hinspect, hnames⟩, fun hrecoverable => hrecoverable.2⟩
    | false =>
      rw [hinspect] at h'
      have hnot : ¬cond := fun hcond' =>
        absurd (hinspect.symm.trans ((hcond.mpr hcond').1 rfl)) nofun
      refine (h'.cleanup hc.removeGreen hknows.covers).mono ?_
      rintro _ s ⟨hok, greens', h'', -⟩
      exact ⟨hok, (h''.left_of_status nofun).congr (iff_of_false id hnot)⟩
  · refine h.after_failure hc hknows hfailure (.trans ?_ hcond)
    rw [Calls.rolledBack, hupdated, Bool.false_and, if_neg Bool.false_ne_true, names_apply_building]
    exact ⟨fun hnames => ⟨(absurd · hfailure), hnames⟩, fun hrecoverable => hrecoverable.2⟩

/-- Blue is gone, and green is recorded. -/
theorem Scene.At.after_retired (h : x.At [green] none ⟨.running, green⟩ w)
    (hgreen : green.running = true) (hswitched : vars.routeSwitched = true)
    (hcleanup : vars.shouldCleanupGreen = false)
    (hvars : vars.blueState = some state) (hstate : x.Describes state)
    (hfailure : failure ≠ .buildCancelled) (hcond : cond) :
    x.After c cond (.error failure) (w, vars) := by
  rw [Scene.After]
  refine (h.handleFailure_none c rfl hvars hstate hswitched hfailure).mono ?_
  rintro r ⟨w', _⟩ ⟨rfl, h', hreport⟩
  refine (h'.cleanup_of_switched c hcleanup).mono ?_
  rintro _ s ⟨hok, h''⟩
  exact ⟨hok, (h''.left_green hgreen nofun hreport).congr (iff_of_true trivial hcond)⟩

/-- Blue could not be removed, and is started again. -/
theorem Scene.At.after_unremoved (h : x.At [green] (some running) rows w) (hc : c.Recovers)
    (hgreen : green.running = true) (hcleanup : vars.shouldCleanupGreen = false)
    (hvars : vars.blueState = some state) (hstate : x.Describes state)
    (hfailure : failure ≠ .buildCancelled) (hcond : ¬cond) :
    x.After c cond (.error failure) (w, vars) := by
  rw [Scene.After]
  refine (h.handleFailure hc.restartBlue hvars hstate hfailure).mono ?_
  rintro r ⟨w', _⟩ ⟨rfl, h', -⟩
  refine (h'.cleanup_of_switched c hcleanup).mono ?_
  rintro _ s ⟨hok, h''⟩
  exact ⟨hok, (h''.left_both hgreen).congr (iff_of_false id hcond)⟩

/-- The failure comes before blue is known. -/
theorem Scene.At.after_unread (h : x.At [] (some true) ⟨.running, x.blue⟩ w) (projectName : String)
    (hfailure : failure ≠ .buildCancelled)
    (hcond : Stage.Recoverable c hasEnvironment .reading ↔ cond) :
    x.After c cond (.error failure) (w, { projectName }) := by
  rw [Scene.After]
  refine (h.handleFailure_unread c rfl rfl rfl hfailure).mono ?_
  rintro r ⟨w', _⟩ ⟨rfl, h', hreport, hok⟩
  refine (h'.cleanup_of_switched c rfl).mono ?_
  rintro _ s ⟨hdone, h''⟩
  refine ⟨hdone, ?_⟩
  cases r with
  | ok result =>
    have hnot : ¬cond := fun hcond' => hcond.mpr hcond' (hok.mp rfl)
    exact (h''.left_misreported rfl (hreport result rfl)).congr (iff_of_false id hnot)
  | error =>
    have hcond' : cond := hcond.mp fun hends => absurd (hok.mpr hends) nofun
    refine (h''.left_blue ?_ ?_).congr (iff_of_true ⟨rfl, rfl, rfl⟩ hcond')
    · rintro _ ⟨⟩
    · rintro _ ⟨⟩

end

/-! ## The steps of a call -/

section
variable {b : Blue} {config : DeployConfig} {prodEnv : Option EnvironmentRow} {vars : Vars}
variable {failure : Failure} {running : Bool} {cond : Prop}

theorem ends_await (resolves : Bool) (w : World) :
    (await resolves).Ends w (Prog.Yields (failing resolves) (fun _ w' => w' = w) (· = w)) := by
  cases resolves <;> exact ⟨rfl, rfl⟩

theorem ends_awaitAll (calls : List Bool) (w : World) :
    (awaitAll calls).Ends w
      (Prog.Yields (failing (calls.all id)) (fun _ w' => w' = w) (· = w)) := by
  rw [Prog.Ends, run_awaitAll]
  cases calls.all id <;> exact ⟨rfl, rfl⟩

theorem ends_demand (probe : Probe) (w : World) :
    (demand probe).Ends w
      (Prog.Yields (failing (probe = .passes)) (fun _ w' => w' = w) (· = w)) := by
  cases probe <;> exact ⟨rfl, rfl⟩

theorem failing_eq_none : failing resolves = none ↔ resolves = true := by
  cases resolves <;> simp [failing]

theorem failing_eq_some :
    failing resolves = some failure ↔ resolves = false ∧ failure = .other := by
  cases resolves <;> simp [failing, eq_comm]

theorem failing_and (a b : Bool) : failing (a && b) = (failing a).or (failing b) := by
  cases a <;> rfl

theorem Scene.At.ends_writeEnvironment (h : x.At greens blue? rows w)
    (hasEnvironment resolves : Bool) (f : EnvironmentRow → EnvironmentRow) :
    (writeEnvironment x.params hasEnvironment resolves f).Ends w
      (Prog.Yields (failing (!hasEnvironment || resolves))
        (fun _ w' => x.At greens blue? rows w' ∧ w'.containers = w.containers ∧
          w'.reservedPorts = w.reservedPorts)
        (· = w)) := by
  cases hasEnvironment with
  | false => exact ⟨rfl, h, rfl, rfl⟩
  | true =>
    cases resolves with
    | false => exact ⟨rfl, rfl⟩
    | true => exact ⟨rfl, h.updateEnvironment f, rfl, rfl⟩

theorem ends_prepareImage (c : Calls) (params : Params) (b : Blue) (config : DeployConfig)
    (w : World) :
    (prepareImage c params b config).Ends w
      (Prog.Yields (c.imageFailure b config)
        (fun image w' => w' = w ∧ image.2 = c.gitCredentialId b config) (· = w)) := by
  refine .bind_yields (ends_await _ w) ?_ fun _ hw => hw
  rintro _ w rfl
  rw [Calls.gitCredentialId]
  by_cases himage : config.source = some .image ∨ b.view.source = some .image
  · rw [if_pos himage, usesImage, decide_eq_true himage, if_pos rfl, if_pos rfl]
    cases (config.imageUrl.or b.view.imageUrl).filter (· ≠ "") with
    | none => exact ⟨rfl, rfl⟩
    | some imageUrl =>
      exact (ends_await c.pullImage w).bind (fun _ _ ⟨hok, hw⟩ => ⟨hok, hw, rfl⟩)
        fun _ _ herror => herror
  · rw [if_neg himage, usesImage, decide_eq_false himage, if_neg Bool.false_ne_true,
      if_neg Bool.false_ne_true]
    cases c.cloneRepo with
    | none => exact ⟨rfl, rfl⟩
    | some gitCredentialId =>
      cases c.build with
      | succeeds => exact ⟨rfl, rfl, rfl⟩
      | fails | cancelled => exact ⟨rfl, rfl⟩

theorem ends_allocatePort (scan : Option (List Nat)) (w : World) :
    (allocatePort scan).Ends w (Prog.Yields (allocationFailure scan w.reservedPorts)
      (fun _ w' => ∃ reservedPorts, w' = { w with reservedPorts }) (· = w)) := by
  rw [Prog.Ends, run_allocatePort]
  cases scan with
  | none => exact ⟨rfl, rfl⟩
  | some usedPorts =>
    simp only [allocationFailure, Option.bind_some]
    cases choosePort {} usedPorts w.reservedPorts with
    | none => exact ⟨rfl, rfl⟩
    | some port => exact ⟨rfl, _, rfl⟩

theorem Scene.At.ends_runContainer (h : x.At [] (some true) rows w) (outcome : RunOutcome)
    (name : String) (port : Nat) :
    (runContainer outcome name port).Ends w (Prog.Yields (startFailure outcome (w.nameTaken name))
      (fun containerId w' => x.At [⟨containerId, name, port, true⟩] (some true) rows w')
      (fun w' => ∃ greens, x.At greens (some true) rows w' ∧
        ∀ green ∈ greens, green.running = false)) := by
  have hidle : ∃ greens, x.At greens (some true) rows w ∧
      ∀ green ∈ greens, green.running = false := ⟨[], h, nofun⟩
  cases htaken : w.nameTaken name with
  | true =>
    cases outcome <;> simpa [Prog.Ends, Prog.Yields, runContainer, htaken, startFailure] using hidle
  | false =>
    rw [Prog.Ends, run_runContainer outcome port htaken]
    have hcreated := h.createContainer name port
    cases outcome with
    | createFails failure => exact ⟨rfl, hidle⟩
    | startFails failure => exact ⟨rfl, _, hcreated, by simp⟩
    | runs =>
      have hne : w.nextContainerId ≠ x.blue.id := (x.lt.trans_le h.next).ne'
      have hrunning := hcreated.setRunning true hne
      rw [List.map_cons, if_pos rfl, List.map_nil] at hrunning
      exact ⟨rfl, hrunning⟩

theorem Scene.At.ends_runGreen (h : x.At [] (some true) rows w) (c : Calls) (b : Blue)
    (imageTag : String) :
    (runGreen c x.params b imageTag).Ends (w, vars)
      (Prog.Yields (c.greenFailure x.params b w)
        (fun green s =>
          (∃ name, x.At [⟨green.containerId, name, green.port, true⟩] (some true) rows s.1) ∧
            s.2 = { vars with
              newPort := some green.port
              greenContainerId := some green.containerId
              shouldCleanupGreen := true })
        (fun s => (∃ greens, x.At greens (some true) rows s.1 ∧
            ∀ green ∈ greens, green.running = false) ∧
          ∃ newPort, s.2 = { vars with newPort })) := by
  refine .lift_bind_yields (ends_allocatePort _ w) ?_ ?_
  · rintro port _ ⟨reservedPorts, rfl⟩
    rw [Prog.ends_assign_bind]
    have hreserved := h.reserve reservedPorts
    cases c.getImageExposedPort with
    | none => exact ⟨rfl, ⟨[], hreserved, nofun⟩, _, rfl⟩
    | some exposedPort =>
      rw [show failing (some exposedPort).isSome = none from rfl, Option.none_or]
      refine .lift_bind_yields (ends_awaitAll _ _) ?_ ?_
      · rintro _ _ rfl
        refine (hreserved.ends_runContainer _ _ _).lift_bind ?_ ?_
        · rintro containerId w' ⟨hok, hat⟩
          exact ⟨hok, ⟨_, hat⟩, rfl⟩
        · rintro failure w' ⟨hfail, hidle⟩
          exact ⟨hfail, hidle, _, rfl⟩
      · rintro _ rfl
        exact ⟨⟨[], hreserved, nofun⟩, _, rfl⟩
  · rintro _ rfl
    exact ⟨⟨[], h, nofun⟩, vars.newPort, rfl⟩

theorem ends_checkGreen (c : Calls) (w : World) :
    (checkGreen c).Ends w (Prog.Yields (failing c.checks) (fun _ w' => w' = w) (· = w)) := by
  rw [Calls.checks, failing_and, failing_and, Option.or_assoc]
  refine .bind_yields (ends_demand _ w) ?_ fun _ hw => hw
  rintro _ w rfl
  refine .bind_yields (ends_demand _ w) ?_ fun _ hw => hw
  rintro _ w rfl
  exact ends_awaitAll _ w

/-- The rows go to green, as far as the calls resolve. -/
theorem Scene.At.ends_switchRoute (h : x.At [green] (some true) ⟨.building, x.blue⟩ w) (c : Calls)
    (b : Blue) (prodEnv : Option EnvironmentRow) (vars : Vars) {g : Green}
    (hid : g.containerId = green.id) (hport : g.port = green.port) :
    (switchRoute c x.params b prodEnv g).Ends (w, vars) fun r s =>
      match c.switchTransition.getProject && c.switchTransition.updateProject, c.switchProject,
        !prodEnv.isSome || c.switchEnvironment with
      | false, _, _ =>
        r = .error .other ∧ x.At [green] (some true) ⟨.building, x.blue⟩ s.1 ∧ s.2 = vars
      | true, false, _ =>
        r = .error .other ∧ x.At [green] (some true) ⟨.running, x.blue⟩ s.1 ∧ s.2 = vars
      | true, true, false =>
        r = .error .other ∧ x.At [green] (some true) ⟨.running, green⟩ s.1 ∧ s.2 = vars
      | true, true, true =>
        r = .ok () ∧ x.At [green] (some true) ⟨.running, green⟩ s.1 ∧
          s.2 = { vars with routeTargetUpdated := true } := by
  have hmoves := c.switchTransition.moves_of_allows .running .building nofun (.head _)
  refine (h.transition c.switchTransition .running).lift_bind ?_ ?_
  · rintro _ w' hmoved
    rw [hmoves] at hmoved
    cases hswitch : c.switchTransition.getProject && c.switchTransition.updateProject with
    | false => exact absurd (hswitch ▸ hmoved).1 nofun
    | true =>
      have hat : x.At [green] (some true) ⟨.running, x.blue⟩ w' := (hswitch ▸ hmoved).2
      cases c.switchProject with
      | false => exact ⟨rfl, hat, rfl⟩
      | true =>
        have hgreen : x.At [green] (some true) ⟨.running, green⟩
            (w'.updateProject x.params.projectId
              (g.columns b (makeGreenContainerName b.project.name x.params.suffix))) :=
          hat.of_service fun row hrow _ _ => ⟨hrow, congrArg some hid, congrArg some hport⟩
        cases prodEnv with
        | none => exact ⟨rfl, hgreen, rfl⟩
        | some _ =>
          cases c.switchEnvironment with
          | false => exact ⟨rfl, hgreen, rfl⟩
          | true => exact ⟨rfl, hgreen.updateEnvironment _, rfl⟩
  · rintro _ w' hmoved
    rw [hmoves] at hmoved
    cases hswitch : c.switchTransition.getProject && c.switchTransition.updateProject with
    | false => exact ⟨congrArg _ (Except.error.inj (hswitch ▸ hmoved).1), (hswitch ▸ hmoved).2, rfl⟩
    | true => exact absurd (hswitch ▸ hmoved).1 nofun

/-- Where the probe fails, the rows may name blue again. -/
theorem Scene.At.ends_probeRoute (h : x.At greens (some true) ⟨.running, green⟩ w) (c : Calls)
    (hstate : x.Describes b.state) (hne : green ≠ x.blue)
    (hupdated : vars.routeTargetUpdated = true) (prodEnv : Option EnvironmentRow) :
    (probeRoute c x.params b prodEnv).Ends (w, vars)
      (Prog.Yields (failing (c.waitForManagedTraefikRoute = .passes)) (fun _ s => s = (w, vars))
        fun s => ∃ updated,
          (updated = false → c.waitForManagedTraefikRoute = .fails ∧ c.restoreAfterProbe.records) ∧
          s.2 = { vars with routeTargetUpdated := updated } ∧
          x.At greens (some true) ⟨.running,
            if c.waitForManagedTraefikRoute = .fails ∧ c.restoreAfterProbe.records then x.blue
            else green⟩ s.1) := by
  rw [probeRoute]
  have hvars : vars = { vars with routeTargetUpdated := true } := by rw [← hupdated]
  cases hprobe : c.waitForManagedTraefikRoute with
  | passes => exact ⟨rfl, rfl⟩
  | rejects => exact ⟨rfl, true, (by rintro ⟨⟩), hvars, h⟩
  | fails =>
    have hrestore := h.restore c.restoreAfterProbe prodEnv.isSome hstate
    rw [apply_running] at hrestore
    simp only [true_and]
    refine hrestore.lift_bind ?_ ?_
    · rintro _ w' ⟨hat, ⟨-, hrecorded⟩ | hfailure⟩
      · refine ⟨rfl, false, fun _ => ?_, rfl, hat⟩
        by_contra hnot
        exact hne ((if_neg hnot).symm.trans hrecorded)
      · cases hfailure
    · rintro _ w' ⟨hat, ⟨hok, -⟩ | hfailure⟩
      · cases hok
      · cases hfailure
        exact ⟨rfl, true, (by rintro ⟨⟩), hvars, hat⟩

theorem Scene.At.ends_stopBlue (h : x.At greens (some true) rows w) (c : Calls)
    (hstate : x.Describes b.state) :
    (stopBlue c b).Ends (w, vars)
      (Prog.Yields (failing (c.stopBlue && c.postBlueStopRouteProbe = .passes))
        (fun _ s => x.At greens (some false) rows s.1 ∧
          s.2 = { vars with routeSwitched := true, shouldCleanupGreen := false })
        fun s => (∃ running, x.At greens (some running) rows s.1) ∧ s.2 = vars) := by
  rw [failing_and]
  have hstop : (stopContainer c.stopBlue b.containerId).Ends w (Prog.Yields (failing c.stopBlue)
      (fun _ w' => x.At greens (some false) rows w') (· = w)) := by
    rw [Prog.Ends, stopContainer, run_changeRunning, show b.containerId = _ from hstate.containerId,
      h.findContainer_blue]
    cases c.stopBlue with
    | false => exact ⟨rfl, rfl⟩
    | true => exact ⟨rfl, h.setRunning_blue false⟩
  refine .lift_bind_yields hstop ?_ ?_
  · rintro _ w' hat
    refine (ends_demand _ w').lift_bind ?_ ?_
    · rintro _ _ ⟨hok, rfl⟩
      exact ⟨hok, hat, rfl⟩
    · rintro _ _ ⟨hfail, rfl⟩
      exact ⟨hfail, ⟨false, hat⟩, rfl⟩
  · rintro _ rfl
    exact ⟨⟨true, h⟩, rfl⟩

/-- A failure while the rows name green, or blue again. -/
theorem Scene.At.after_switched (h : x.At [green] (some running) ⟨.running, recorded⟩ w)
    (hc : c.Recovers) (hknows : x.Knows [green] vars) (hfailure : failure ≠ .buildCancelled)
    {p : Prop} [Decidable p] (hrecorded : recorded = if p then x.blue else green)
    (hswitched : vars.routeSwitched = false)
    (hcond : c.finalRestore.records = true ∨
      vars.routeTargetUpdated = true ∧ c.restoreInCatch.records = true ∨ p ↔ cond) :
    x.After c cond (.error failure) (w, vars) := by
  refine h.after_failure hc hknows hfailure (.trans ?_ hcond)
  have hnames : ∀ {q : Prop} [Decidable q],
      Rows.Names ⟨.running, if q then x.blue else green⟩ x.blue ↔ q := by
    intro q _
    split
    · exact iff_of_true ⟨rfl, rfl, rfl⟩ ‹q›
    · exact iff_of_false (fun hnames => h.ne_blue green (.head _) hnames.2.1) ‹¬q›
  have hrolled : c.rolledBack x.blue vars ⟨.running, recorded⟩ = ⟨.running,
      if vars.routeTargetUpdated = true ∧ c.restoreInCatch.records = true ∨ p then x.blue
      else green⟩ := by
    rw [Calls.rolledBack, hswitched, Bool.not_false, Bool.and_true, apply_running, hrecorded]
    cases vars.routeTargetUpdated <;> cases c.restoreInCatch.records <;> simp
  rw [hrolled, apply_running]
  cases c.finalRestore.records with
  | true => exact iff_of_true ⟨rfl, rfl, rfl⟩ (.inl rfl)
  | false => exact hnames.trans (by simp)

theorem ends_saveGitCredential (c : Calls) (params : Params) (config : DeployConfig)
    (gitCredentialId : Option String) (w : World) :
    (saveGitCredential c params config gitCredentialId).Ends w
      (Prog.Yields (failing (gitCredentialId.isNone || c.updateGitCredential))
        (fun _ w' => ∃ serviceId, w' = w ∨ w' = w.updateService serviceId id) (· = w)) := by
  cases gitCredentialId with
  | none => exact ⟨rfl, "", .inl rfl⟩
  | some _ =>
    rw [saveGitCredential, if_pos Option.isSome_some]
    cases c.updateGitCredential with
    | false => exact ⟨rfl, rfl⟩
    | true => exact ⟨rfl, _, .inr rfl⟩

/-- The route is verified, and blue has stopped. -/
theorem Scene.At.ends_finishRedeploy (h : x.At [green] (some false) ⟨.running, green⟩ w)
    (hc : c.Recovers) (hgreen : green.running = true) (hswitched : vars.routeSwitched = true)
    (hcleanup : vars.shouldCleanupGreen = false) (hvars : vars.blueState = some b.state)
    (hstate : x.Describes b.state) (g : Green)
    (hcond : (c.finishes b config = true ∨ c.removeBlue = true) ↔ cond) :
    (liftM (finishRedeploy c x.params b config (c.gitCredentialId b config) g) :
      Body DeployResult).Ends (w, vars) (x.After c cond) := by
  have hremoved : x.At [green] (if c.removeBlue then none else some false) ⟨.running, green⟩
      (if c.removeBlue then w.removeContainer (.id b.containerId) else w) := by
    cases c.removeBlue with
    | false => exact h
    | true =>
      rw [show b.containerId = x.blue.id from hstate.containerId]
      exact h.removeContainer_blue
  have hfail : ∀ {w'}, x.At [green] (if c.removeBlue then none else some false)
      ⟨.running, green⟩ w' → c.finishes b config = false →
      x.After c cond (.error .other) (w', vars) := by
    intro w' h' hfinishes
    cases hremove : c.removeBlue with
    | false =>
      rw [hremove] at h'
      refine h'.after_unremoved hc hgreen hcleanup hvars hstate nofun fun hcond' => ?_
      rcases hcond.mpr hcond' with hfinished | hremoved
      · exact absurd (hfinishes.symm.trans hfinished) nofun
      · exact absurd (hremove.symm.trans hremoved) nofun
    | true =>
      rw [hremove] at h'
      exact h'.after_retired hgreen hswitched hcleanup hvars hstate nofun (hcond.mp (.inr hremove))
  refine .lift (.bind (R := fun r w' => r = .ok () ∧ x.At [green]
    (if c.removeBlue then none else some false) ⟨.running, green⟩ w')
    (.of_run (run_settle_safeRemoveContainer _ _ w) ⟨rfl, hremoved⟩) ?_ ?_)
  · rintro _ w₁ ⟨-, h₁⟩
    refine (ends_await c.createDeployLog w₁).bind ?_ ?_
    · rintro _ _ ⟨hlog, rfl⟩
      rw [failing_eq_none] at hlog
      refine (ends_saveGitCredential c x.params config _ _).bind ?_ ?_
      · rintro _ w' ⟨hsaved, serviceId, hw'⟩
        have h' : x.At [green] (if c.removeBlue then none else some false)
            ⟨.running, green⟩ w' := by
          rcases hw' with rfl | rfl
          · exact h₁
          · exact h₁.updateService_id serviceId
        have hcond' : cond := by
          refine hcond.mp (.inl ?_)
          rw [Calls.finishes, hlog, failing_eq_none.mp hsaved]
          rfl
        rw [Prog.ends_pure, Scene.After, Scene.Final]
        refine (h'.cleanup_of_switched c hcleanup).mono ?_
        rintro _ s ⟨hok, h''⟩
        refine ⟨hok, (h''.left_green hgreen ?_ ?_).congr (iff_of_true trivial hcond')⟩
        · split <;> exact nofun
        · rintro _ ⟨⟩
          rfl
      · rintro failure _ ⟨hsaved, rfl⟩
        obtain ⟨hfailed, rfl⟩ := failing_eq_some.mp hsaved
        exact hfail h₁ (by rw [Calls.finishes, hlog, hfailed]; rfl)
    · rintro failure _ ⟨hlog, rfl⟩
      obtain ⟨hfailed, rfl⟩ := failing_eq_some.mp hlog
      exact hfail h₁ (by rw [Calls.finishes, hfailed]; rfl)
  · rintro _ _ ⟨hok, -⟩
    cases hok

/-- From the probe of the route on. -/
theorem Scene.At.ends_verify (h : x.At [green] (some true) ⟨.running, green⟩ w)
    (hc : c.Recovers) (hgreen : green.running = true) (hstate : x.Describes b.state)
    (prodEnv : Option EnvironmentRow) (g : Green) (hvars : vars.blueState = some b.state)
    (hupdated : vars.routeTargetUpdated = true) (hswitched : vars.routeSwitched = false)
    (hcovers : x.Covers [green] vars)
    (henvironment : (!prodEnv.isSome || c.switchEnvironment) = true)
    (hcond : (if !c.verifies prodEnv.isSome then Stage.switched
      else if !c.finishes b config then .retired else .done).Recoverable c prodEnv.isSome ↔ cond) :
    (do
      probeRoute c x.params b prodEnv
      stopBlue c b
      finishRedeploy c x.params b config (c.gitCredentialId b config) g :
      Body DeployResult).Ends (w, vars) (x.After c cond) := by
  rw [Calls.verifies, henvironment, Bool.true_and] at hcond
  have hne : green ≠ x.blue := fun heq => h.ne_blue green (.head _) (heq ▸ rfl)
  have hrecoverable : Stage.Recoverable c prodEnv.isSome .switched ↔
      c.finalRestore.records = true ∨ c.restoreInCatch.records = true ∨
        c.waitForManagedTraefikRoute = .fails ∧ c.restoreAfterProbe.records = true := by
    refine or_congr_right (and_iff_right fun hsome => ?_)
    rwa [hsome, Bool.not_true, Bool.false_or] at henvironment
  refine (h.ends_probeRoute c hstate hne hupdated prodEnv).bind ?_ ?_
  · rintro _ _ ⟨hprobe, rfl⟩
    rw [failing_eq_none] at hprobe
    rw [hprobe, Bool.true_and] at hcond
    refine (h.ends_stopBlue c hstate).bind ?_ ?_
    · rintro _ ⟨w₁, _⟩ ⟨hstop, hat, rfl⟩
      rw [failing_eq_none] at hstop
      rw [hstop] at hcond
      refine hat.ends_finishRedeploy hc hgreen ?_ ?_ ?_ hstate g (.trans ?_ hcond)
      · rfl
      · rfl
      · exact hvars
      · cases c.finishes b config <;> simp [Stage.Recoverable]
    · rintro failure ⟨w₁, vars₁⟩ ⟨hstop, ⟨running, hat⟩, hsame⟩
      obtain rfl : vars₁ = vars := hsame
      obtain ⟨hfailed, rfl⟩ := failing_eq_some.mp hstop
      rw [hfailed] at hcond
      refine hat.after_switched hc ⟨hcovers, _, hvars, hstate⟩ nofun (p := False) (if_neg id).symm
        hswitched (.trans ?_ (hrecoverable.symm.trans hcond))
      simp [of_decide_eq_true hprobe, hupdated]
  · rintro failure ⟨w₁, _⟩ ⟨hprobe, updated, hrestored, rfl, hat⟩
    obtain ⟨hfailed, rfl⟩ := failing_eq_some.mp hprobe
    rw [hfailed] at hcond
    refine hat.after_switched hc ⟨⟨hcovers.running, hcovers.fresh⟩, _, hvars, hstate⟩ nofun rfl
      hswitched (.trans ?_ (hrecoverable.symm.trans hcond))
    cases updated with
    | true => simp
    | false => simp [hrestored rfl]

/-- From the checks of green on. -/
theorem Scene.At.ends_switchOver (h : x.At [green] (some true) ⟨.building, x.blue⟩ w)
    (hc : c.Recovers) (hgreen : green.running = true) (hstate : x.Describes b.state)
    (prodEnv : Option EnvironmentRow) {g : Green} (hid : g.containerId = green.id)
    (hport : g.port = green.port) (hvars : vars.blueState = some b.state)
    (hupdated : vars.routeTargetUpdated = false) (hswitched : vars.routeSwitched = false)
    (hcovers : x.Covers [green] vars)
    (hbuilding : ∀ failure, (failing c.checks).or (failing
        (c.switchTransition.getProject && c.switchTransition.updateProject)) = some failure →
      (Stage.Recoverable c prodEnv.isSome (.building failure) ↔ cond))
    (hcond : (failing c.checks).or (failing
        (c.switchTransition.getProject && c.switchTransition.updateProject)) = none →
      ((c.stageSwitched b config prodEnv.isSome).Recoverable c prodEnv.isSome ↔ cond)) :
    (switchOver c x.params b config prodEnv (c.gitCredentialId b config) g).Ends (w, vars)
      (x.After c cond) := by
  have hknows : x.Knows [green] vars := ⟨hcovers, _, hvars, hstate⟩
  refine (ends_checkGreen c w).lift_bind ?_ ?_
  · rintro _ w ⟨hchecks, rfl⟩
    rw [hchecks, Option.none_or] at hbuilding hcond
    have hroute := h.ends_switchRoute c b prodEnv vars hid hport
    cases hswitch : c.switchTransition.getProject && c.switchTransition.updateProject with
    | false =>
      rw [hswitch] at hroute hbuilding
      refine hroute.bind (fun _ _ hend => nomatch hend.1) ?_
      rintro failure ⟨w₁, _⟩ ⟨hfailure, hat, rfl⟩
      cases hfailure
      exact hat.after_building hc hknows hupdated (hbuilding _ rfl)
    | true =>
      rw [hswitch] at hroute hcond
      have hcond := hcond rfl
      rw [Calls.stageSwitched] at hcond
      cases hproject : c.switchProject with
      | false =>
        rw [hproject] at hroute hcond
        refine hroute.bind (fun _ _ hend => nomatch hend.1) ?_
        rintro failure ⟨w₁, _⟩ ⟨hfailure, hat, rfl⟩
        cases hfailure
        exact hat.after_unchanged hc hknows nofun (hcond.mp trivial)
      | true =>
        rw [hproject] at hroute hcond
        cases henvironment : !prodEnv.isSome || c.switchEnvironment with
        | false =>
          rw [henvironment] at hroute
          refine hroute.bind (fun _ _ hend => nomatch hend.1) ?_
          rintro failure ⟨w₁, vars₁⟩ ⟨hfailure, hat, hsame⟩
          obtain rfl : vars₁ = vars := hsame
          cases hfailure
          rw [Calls.verifies, henvironment] at hcond
          refine hat.after_switched hc hknows nofun (p := False) (if_neg id).symm hswitched
            (.trans ?_ hcond)
          have hnot : ¬(prodEnv.isSome = true → c.switchEnvironment = true) := by
            simpa using henvironment
          simp [Stage.Recoverable, hupdated, hnot]
        | true =>
          rw [henvironment] at hroute
          refine hroute.bind ?_ fun _ _ hend => nomatch hend.1
          rintro _ ⟨w₁, _⟩ ⟨-, hat, rfl⟩
          refine hat.ends_verify hc hgreen hstate prodEnv g ?_ ?_ ?_ ?_ henvironment hcond
          · exact hvars
          · rfl
          · exact hswitched
          · exact ⟨hcovers.running, hcovers.fresh⟩
  · rintro failure w ⟨hchecks, rfl⟩
    exact h.after_building hc hknows hupdated (hbuilding failure (by rw [hchecks, Option.some_or]))

/-- From the update of the environment on. -/
theorem Scene.At.ends_promote (h : x.At [] (some true) ⟨.building, x.blue⟩ w) (hc : c.Recovers)
    (hstate : x.Describes b.state) (prodEnv : Option EnvironmentRow) (projectName : String)
    (hcond : (c.stageFrom x.params b config prodEnv.isSome w).Recoverable c prodEnv.isSome ↔ cond) :
    (promote c x.params b config prodEnv).Ends
      (w, { projectName, hasEnvironment := prodEnv.isSome, blueState := some b.state })
      (x.After c cond) := by
  have hbuilding : ∀ {failure greens w' vars'}, x.At greens (some true) ⟨.building, x.blue⟩ w' →
      vars'.blueState = some b.state → vars'.routeTargetUpdated = false → x.Covers greens vars' →
      c.buildingFailure x.params b config prodEnv.isSome w = some failure →
      x.After c cond (.error failure) (w', vars') := by
    intro failure greens w' vars' hat hvars hupdated hcovers hfailure
    rw [Calls.stageFrom, hfailure] at hcond
    exact hat.after_building hc ⟨hcovers, _, hvars, hstate⟩ hupdated hcond
  have hidle : ∀ {greens} {vars' : Vars}, (∀ green ∈ greens, green.running = false) →
      vars'.greenContainerId = none → x.Covers greens vars' := by
    intro greens vars' hidle hnone
    refine ⟨fun green hgreen hrunning => ?_, fun id hid => ?_⟩
    · cases hrunning.symm.trans (hidle green hgreen)
    · cases hnone.symm.trans hid
  rw [Calls.buildingFailure] at hbuilding
  refine (h.ends_writeEnvironment _ _ _).lift_bind ?_ ?_
  · rintro _ w₁ ⟨henv, h₁, hcontainers, hreserved⟩
    rw [henv, Option.none_or] at hbuilding
    refine (ends_prepareImage c x.params b config w₁).lift_bind ?_ ?_
    · rintro ⟨imageTag, gitCredentialId⟩ w₁ ⟨himage, rfl, hcredential⟩
      rw [himage, Option.none_or] at hbuilding
      have hsame : c.greenFailure x.params b w₁ = c.greenFailure x.params b w := by
        simp only [Calls.greenFailure, World.nameTaken, hcontainers, hreserved]
      rw [← hsame] at hbuilding
      refine (h₁.ends_runGreen c b imageTag).bind ?_ ?_
      · rintro g ⟨w₂, vars₂⟩ ⟨hgreen, ⟨name, h₂⟩, rfl⟩
        rw [hgreen, Option.none_or] at hbuilding
        have hbuild : c.buildingFailure x.params b config prodEnv.isSome w =
            (failing c.checks).or (failing
              (c.switchTransition.getProject && c.switchTransition.updateProject)) := by
          rw [Calls.buildingFailure, henv, himage, ← hsame, hgreen]
          rfl
        rw [show gitCredentialId = _ from hcredential]
        refine h₂.ends_switchOver hc rfl hstate prodEnv rfl rfl rfl rfl rfl ?_ ?_ ?_
        · refine ⟨fun green hgreen _ => ?_, fun id hid => ?_⟩
          · cases List.mem_singleton.mp hgreen
            exact ⟨rfl, rfl⟩
          · cases hid
            exact h₂.fresh _ (.head _)
        · intro failure hfailure
          rwa [Calls.stageFrom, hbuild, hfailure] at hcond
        · intro hnone
          rwa [Calls.stageFrom, hbuild, hnone] at hcond
      · rintro failure ⟨w₂, vars₂⟩ ⟨hgreen, ⟨greens, h₂, hoff⟩, newPort, rfl⟩
        exact hbuilding h₂ rfl rfl (hidle hoff rfl) (by rw [hgreen, Option.some_or])
    · rintro failure _ ⟨himage, rfl⟩
      exact hbuilding h₁ rfl rfl (hidle (List.forall_mem_nil _) rfl) (by rw [himage, Option.some_or])
  · rintro failure _ ⟨henv, rfl⟩
    exact hbuilding h rfl rfl (hidle (List.forall_mem_nil _) rfl) (by rw [henv, Option.some_or])

theorem stageFrom_congr {w' : World} (hcontainers : w'.containers = w.containers)
    (hreserved : w'.reservedPorts = w.reservedPorts) (c : Calls) (params : Params) (b : Blue)
    (config : DeployConfig) (hasEnvironment : Bool) :
    c.stageFrom params b config hasEnvironment w' =
      c.stageFrom params b config hasEnvironment w := by
  simp only [Calls.stageFrom, Calls.buildingFailure, Calls.greenFailure, World.nameTaken,
    hcontainers, hreserved]

theorem Scene.At.ends_building (h : x.At greens blue? ⟨.running, recorded⟩ w)
    (calls : TransitionCalls) :
    (Pipeline.transition calls x.params.projectId .building).Ends w
      (Prog.Yields (failing (calls.getProject && calls.updateProject))
        (fun _ w' => x.At greens blue? ⟨.building, recorded⟩ w' ∧
          w'.containers = w.containers ∧ w'.reservedPorts = w.reservedPorts)
        (x.At greens blue? ⟨.running, recorded⟩)) := by
  have hkeeps : Prog.Keeps
      (fun w' => w'.containers = w.containers ∧ w'.reservedPorts = w.reservedPorts)
      (Pipeline.transition calls x.params.projectId .building) :=
    keeps_transition calls fun _ hw => hw
  have hmoves := calls.moves_of_allows .building .running nofun (by decide)
  have hmoved := h.transition calls .building
  rw [hmoves] at hmoved
  have hkept := hkeeps w ⟨rfl, rfl⟩
  rw [Prog.Ends] at hmoved ⊢
  cases hboth : calls.getProject && calls.updateProject with
  | false =>
    rw [hboth] at hmoved
    obtain ⟨hr, hat⟩ := hmoved
    rw [hr]
    exact ⟨rfl, hat⟩
  | true =>
    rw [hboth] at hmoved
    obtain ⟨hr, hat⟩ := hmoved
    rw [hr]
    exact ⟨rfl, hat, hkept⟩

/-- From the moment that blue is known. -/
theorem Scene.At.ends_replaceBlue (h : x.At [] (some true) ⟨.running, x.blue⟩ w) (hc : c.Recovers)
    (hstate : x.Describes b.state) (projectName : String)
    (hcond : (c.stagePrepared x.params b w).Recoverable c
      (w.environments x.params.projectId).isSome ↔ cond) :
    (replaceBlue c x.params b).Ends (w, { projectName }) (x.After c cond) := by
  have hcleaned := h.cleanedUp c.staleGreens
  have hcovers : ∀ hasEnvironment,
      x.Covers [] { projectName, hasEnvironment, blueState := some b.state } :=
    fun _ => ⟨nofun, nofun⟩
  have hprepare : ∀ {w' hasEnvironment}, x.At [] (some true) ⟨.running, x.blue⟩ w' →
      c.stagePrepared x.params b w = .preparing → x.After c cond (.error .other)
        (w', { projectName, hasEnvironment, blueState := some b.state }) := by
    intro w' hasEnvironment hat hstage
    rw [hstage] at hcond
    exact hat.after_unchanged hc ⟨hcovers _, _, rfl, hstate⟩ nofun (hcond.mp trivial)
  rw [Calls.stagePrepared] at hcond hprepare
  rw [replaceBlue, Prog.ends_assign_bind, show b.containerId = _ from hstate.containerId]
  refine .lift_bind (R := fun r w' => r = .ok () ∧ w' = cleaned x.blue.id c.staleGreens w)
    (.of_run (run_cleanupStaleGreenContainers _ _ w) ⟨rfl, rfl⟩) ?_ fun _ _ hend => nomatch hend.1
  rintro _ _ ⟨-, rfl⟩
  refine (ends_await c.getEnvironmentsByProject _).lift_bind ?_ ?_
  · rintro _ _ ⟨henvironments, rfl⟩
    rw [failing_eq_none] at henvironments
    rw [Prog.ends_read_bind, Prog.ends_assign_bind]
    cases hconfig : c.buildDeployConfig with
    | none => exact hprepare hcleaned (by rw [hconfig])
    | some config =>
      rw [hconfig] at hcond hprepare
      simp only [henvironments, Bool.true_and, show b.containerId = _ from hstate.containerId]
        at hcond hprepare
      refine (hcleaned.ends_building c.buildingTransition).lift_bind ?_ ?_
      · rintro _ w' ⟨hbuilding, hat, hcontainers, hreserved⟩
        rw [failing_eq_none] at hbuilding
        rw [hbuilding, if_pos rfl, ← stageFrom_congr hcontainers hreserved] at hcond
        rw [← cleaned_environments] at hcond
        exact hat.ends_promote hc hstate _ projectName hcond
      · rintro _ w' ⟨hfailed, hat⟩
        obtain ⟨hrejected, rfl⟩ := failing_eq_some.mp hfailed
        exact hprepare hat (by rw [hrejected, if_neg Bool.false_ne_true])
  · rintro _ _ ⟨hfailed, rfl⟩
    obtain ⟨hrejected, rfl⟩ := failing_eq_some.mp hfailed
    refine hprepare hcleaned ?_
    rw [hrejected, Bool.false_and, Bool.false_and]
    split <;> rfl

/-- A call that changes nothing. -/
theorem ends_await_bind {k : Unit → Body α} {Q : Except Failure α → World × Vars → Prop}
    (ok : resolves = true → (k ()).Ends (w, vars) Q)
    (error : resolves = false → Q (.error .other) (w, vars)) :
    ((liftM (await resolves) : Body Unit) >>= k).Ends (w, vars) Q := by
  cases resolves with
  | false => exact error rfl
  | true => exact ok rfl

theorem ends_resolveNetworkProject (c : Calls) (service : ServiceRow) (w : World) :
    (resolveNetworkProject c (some service)).Ends w
      (Prog.Yields (failing (c.getOwnerProject && (w.getProject service.projectId).isSome &&
        c.getRuntimeProject)) (fun _ w' => w' = w) (· = w)) := by
  rw [failing_and, failing_and, Option.or_assoc]
  refine .bind_yields (ends_await _ w) ?_ fun _ hw => hw
  rintro _ w rfl
  rw [Prog.ends_read_bind]
  cases w.getProject service.projectId with
  | none => exact ⟨rfl, rfl⟩
  | some _ => exact ends_await c.getRuntimeProject w

theorem ends_getBlueGreenEligibility (c : Calls) (params : Params)
    (hproject : w.getProject params.projectId = some project) :
    (getBlueGreenEligibility c params).Ends w
      (Prog.Yields (failing (c.getEligibleProject && c.loadEligibleRecord))
        (fun reasons w' => w' = w ∧ reasons = eligibilityReasons params (some project)
          (w.services (projectIdToDeployableServiceId params.projectId))) (· = w)) := by
  rw [failing_and]
  refine .bind_yields (ends_await _ w) ?_ fun _ hw => hw
  rintro _ w rfl
  rw [Prog.ends_read_bind, hproject]
  cases c.loadEligibleRecord with
  | false => exact ⟨rfl, rfl⟩
  | true => exact ⟨rfl, rfl, rfl⟩

theorem Scene.At.ends_redeploy (h : x.At [] (some true) ⟨.running, x.blue⟩ w) (hc : c.Recovers)
    (hproject : w.getProject x.params.projectId = some b.project)
    (hservice : w.services (projectIdToDeployableServiceId x.params.projectId) = some b.service)
    (hview : b.view = serviceViewFromRows b.project (some b.service))
    (hid : b.view.containerId = some b.containerId) (hstate : x.Describes b.state)
    (heligible : eligibilityReasons x.params (some b.project) (some b.service) = [])
    (hcond : (if c.reads b w then c.stagePrepared x.params b w else .reading).Recoverable c
      (w.environments x.params.projectId).isSome ↔ cond) :
    (redeploy c x.params).Ends (w, {}) (x.After c cond) := by
  have hread : ∀ projectName, c.reads b w = false →
      x.After c cond (.error .other) (w, { projectName }) := by
    intro projectName hreads
    rw [hreads] at hcond
    exact h.after_unread projectName nofun hcond
  rw [Calls.reads] at hread
  refine ends_await_bind (fun hget => ?_) fun hget => hread _ (by simp [hget])
  rw [Prog.ends_read_bind, hproject, Prog.ends_assign_bind]
  refine ends_await_bind (fun hvalid => ?_) fun hvalid => hread _ (by simp [hvalid])
  refine ends_await_bind (fun hload => ?_) fun hload => hread _ (by simp [hload])
  rw [Prog.ends_read_bind, hservice]
  refine (ends_resolveNetworkProject c b.service w).lift_bind ?_ ?_
  · rintro _ w ⟨hnetwork, rfl⟩
    refine (ends_getBlueGreenEligibility c x.params hproject).lift_bind ?_ ?_
    · rintro _ w ⟨heligibility, rfl, rfl⟩
      rw [hservice, heligible, ← hview, hid]
      rw [Calls.reads, hget, hvalid, hload, failing_eq_none.mp hnetwork,
        failing_eq_none.mp heligibility] at hcond
      exact h.ends_replaceBlue hc hstate b.project.name hcond
    · rintro failure w ⟨hfailed, rfl⟩
      obtain ⟨hrejected, rfl⟩ := failing_eq_some.mp hfailed
      exact hread _ (by rw [hrejected, Bool.and_false])
  · rintro failure w ⟨hfailed, rfl⟩
    obtain ⟨hrejected, rfl⟩ := failing_eq_some.mp hfailed
    exact hread _ (by rw [hrejected, Bool.and_false, Bool.false_and])

end

/-! ## Whole calls -/

/-- An eligible project whose rows record a container that runs. -/
structure Start (params : Params) (blue : Container) (w : World) : Prop where
  eligible : eligibilityReasons params (w.getProject params.projectId)
    (w.services (projectIdToDeployableServiceId params.projectId)) = []
  minted : w.Minted
  distinct : (w.containers.map (·.id)).Nodup
  mem : blue ∈ w.containers
  running : blue.running = true
  containerId : (w.services (projectIdToDeployableServiceId params.projectId)).bind
    (·.containerId) = some blue.id
  assignedPort : (w.services (projectIdToDeployableServiceId params.projectId)).bind
    (·.assignedPort) = some blue.port

theorem exists_of_eligible {params : Params} {project : Option Project}
    {deployable : Option ServiceRow} (h : eligibilityReasons params project deployable = []) :
    ∃ project' service, project = some project' ∧ deployable = some service ∧
      service.status = .running := by
  cases project with
  | none => simp [eligibilityReasons] at h
  | some project =>
    cases deployable with
    | none => simp [eligibilityReasons] at h
    | some service =>
      refine ⟨project, service, rfl, rfl, ?_⟩
      by_contra hstatus
      simp [eligibilityReasons, serviceViewFromRows, hstatus] at h

section
variable {params : Params} {live : Container}

def Start.scene (h : Start params live w) (row : ProjectRow) : Scene where
  params := params
  row := row
  blue := live
  first := w.nextContainerId
  lt := h.minted.containers live h.mem

/-- Of the containers that are followed, a call finds blue alone. -/
theorem Start.followed (h : Start params live w) (row : ProjectRow) :
    w.containers.filter (h.scene row).follows = [{ live with running := true }] := by
  have hsame : ∀ c ∈ w.containers, (h.scene row).follows c = decide (c = live) := by
    intro c hmem
    refine decide_eq_decide.mpr ⟨?_, fun heq => .inl (congrArg _ heq)⟩
    rintro (hid | hle)
    · exact List.inj_on_of_nodup_map h.distinct hmem h.mem hid
    · exact absurd (h.minted.containers c hmem) hle.not_gt
  have hcount := List.count_eq_one_of_mem (.of_map _ h.distinct) h.mem
  rw [List.filter_congr hsame, List.filter_eq, hcount, ← h.running]
  rfl

theorem Start.at (h : Start params live w) (hproject : w.projects params.projectId = some row)
    (hservice : w.services (projectIdToDeployableServiceId params.projectId) = some service)
    (hstatus : service.status = .running) :
    (h.scene row).At [] (some true) ⟨.running, live⟩ w where
  project := hproject
  next := le_rfl
  fresh := nofun
  containers := h.followed row
  service := by
    have hid := h.containerId
    have hport := h.assignedPort
    rw [hservice] at hid hport
    exact ⟨service, hservice, hstatus, hid, hport⟩

/-- A redeploy ends with one version in service exactly when the stage at which it fails, if it
does, can be recovered from. -/
theorem oneVersion_iff (c : Calls) (params : Params) (blue : Container) (w : World)
    (hstart : Start params blue w) (hc : c.Recovers) :
    OneVersion params.projectId blue.id w.nextContainerId
        ((blueGreenRedeployInner c params).run w) ↔
      (stage c params w).Recoverable c (w.environments params.projectId).isSome := by
  obtain ⟨project, service, hproject, hservice, hstatus⟩ := exists_of_eligible hstart.eligible
  obtain ⟨row, hrow, rfl⟩ := Option.map_eq_some_iff.mp hproject
  have hid := hstart.containerId
  have hport := hstart.assignedPort
  have heligible := hstart.eligible
  rw [hservice] at hid hport heligible hproject
  rw [hproject] at heligible
  let b : Blue := {
    project := ⟨row, params.projectId, some service⟩
    service
    view := serviceViewFromRows ⟨row, params.projectId, some service⟩ (some service)
    containerId := blue.id }
  have hview : b.view.containerId = some blue.id := Option.or_eq_some_iff.mpr (.inl hid)
  have hdescribes : (hstart.scene row).Describes b.state :=
    ⟨rfl, Option.or_eq_some_iff.mpr (.inl hport)⟩
  have hlocated : located params w = some b := by
    rw [located, hproject, hservice]
    exact Option.map_eq_some_iff.mpr ⟨blue.id, hview, rfl⟩
  have hends := (hstart.at hrow hservice hstatus).ends_redeploy (b := b) hc hproject hservice rfl
    hview hdescribes heligible .rfl
  have hinner : (blueGreenRedeployInner c params).Ends w ((hstart.scene row).Left _) :=
    .withVars (.andFinally (hends.tryCatch (Q := (hstart.scene row).Final c _)
      (fun _ _ hafter => hafter) fun _ _ hafter => hafter) fun _ _ hfinal => hfinal)
  rw [stage, hlocated]
  exact hinner

end

/-- A service with its container. -/
def exampleWorld : World where
  containers := [⟨0, "ol-app", 10001, true⟩]
  nextContainerId := 1
  projects := Function.update (fun _ => none) "app" (some { name := "app" })
  services := Function.update (fun _ => none) "app__svc" (some {
    projectId := "app"
    kind := .git
    source := some .git
    status := .running
    containerId := some 0
    assignedPort := some 10001
    imageTag := some "openlander/app:1"
    healthCheckPath := some "/health" })

def exampleParams : Params := { projectId := "app", suffix := "m1", buildTag := "2" }

theorem start_exampleWorld : Start exampleParams ⟨0, "ol-app", 10001, true⟩ exampleWorld where
  eligible := by decide
  minted := {
    containers := by simp [exampleWorld]
    recorded := by
      intro serviceId id h
      simp only [World.recordedContainer, exampleWorld, Function.update_apply] at h
      split at h <;> simp_all [exampleWorld] }
  distinct := by decide
  mem := by decide
  running := rfl
  containerId := by decide
  assignedPort := by decide

/-- Green is unhealthy, and blue stays. -/
theorem oneVersion_unhealthy :
    OneVersion "app" 0 1 ((blueGreenRedeployInner
      { scanUsedPorts := some [10001], waitForBlueGreenHealth := .fails } exampleParams).run
        exampleWorld) := by
  refine (oneVersion_iff _ _ _ _ start_exampleWorld ⟨rfl, rfl, rfl⟩).mpr ?_
  have hstage : stage { scanUsedPorts := some [10001], waitForBlueGreenHealth := .fails }
      exampleParams exampleWorld = .building .other := by decide
  rw [hstage]
  exact ⟨nofun, rfl, rfl⟩

/-- Blue cannot be removed, and then the log cannot be written: the `catch` starts blue again next
to green. -/
theorem not_oneVersion :
    Start exampleParams ⟨0, "ol-app", 10001, true⟩ exampleWorld ∧
      ¬OneVersion "app" 0 1 ((blueGreenRedeployInner
        { scanUsedPorts := some [10001], removeBlue := false, createDeployLog := false }
        exampleParams).run exampleWorld) := by
  refine ⟨start_exampleWorld, fun ⟨live, hlive⟩ => ?_⟩
  have hcontainers : ((blueGreenRedeployInner
      { scanUsedPorts := some [10001], removeBlue := false, createDeployLog := false }
      exampleParams).run exampleWorld).2.containers =
      [⟨1, "ol-app-green-m1", 10002, true⟩, ⟨0, "ol-app", 10001, true⟩] := by decide
  have hgreen := hlive.only ⟨1, "ol-app-green-m1", 10002, true⟩ (by simp [hcontainers]) rfl
    (by decide)
  have hblue := hlive.only ⟨0, "ol-app", 10001, true⟩ (by simp [hcontainers]) rfl (by decide)
  exact absurd (hgreen.trans hblue.symm) (by decide)

end OpenLander.Pipeline.BlueGreen
