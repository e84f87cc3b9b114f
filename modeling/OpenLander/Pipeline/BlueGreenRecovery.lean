import OpenLander.Pipeline.BlueGreen

/-! # The recovery of a blue-green redeploy

A call is followed by the containers it may touch, which are blue and those it creates, and by the
status and the container that the rows record. This is what the `catch` and the `finally` make of
them. -/

namespace OpenLander.Pipeline.BlueGreen
open Theory
open ProjectStateManager (ProjectStatus VALID_TRANSITIONS)

/-- What the rows of a project record. -/
structure Rows where
  status : ProjectStatus
  recorded : Container

/-- What stays the same in a call. -/
structure Scene where
  params : Params
  row : ProjectRow
  /-- The container that serves when the call begins. -/
  blue : Container
  /-- The containers from here on are those of the call. -/
  first : ContainerId
  lt : blue.id < first

def Scene.follows (x : Scene) (c : Container) : Bool := c.id = x.blue.id ∨ x.first ≤ c.id

/-- The state names blue, with the port that is bound to it. -/
structure Scene.Describes (x : Scene) (state : BlueState) : Prop where
  containerId : state.containerId = x.blue.id
  assignedPort : state.assignedPort = some x.blue.port

/-- The greens and blue, if it is there, are the containers that are followed. -/
structure Scene.At (x : Scene) (greens : List Container) (blue : Option Bool) (rows : Rows)
    (w : World) : Prop where
  project : w.projects x.params.projectId = some x.row
  next : x.first ≤ w.nextContainerId
  fresh : ∀ green ∈ greens, x.first ≤ green.id
  containers : w.containers.filter x.follows =
    greens ++ (blue.map ({ x.blue with running := · })).toList
  service : ∃ row, w.services (projectIdToDeployableServiceId x.params.projectId) = some row ∧
    row.status = rows.status ∧ row.containerId = some rows.recorded.id ∧
    row.assignedPort = some rows.recorded.port

variable {x : Scene} {greens : List Container} {blue : Option Bool} {rows : Rows} {w : World}

namespace Scene.At

theorem ne_blue (h : x.At greens blue rows w) : ∀ green ∈ greens, green.id ≠ x.blue.id :=
  fun green hgreen heq => (h.fresh green hgreen).not_gt (heq ▸ x.lt)

/-! ## Rows -/

theorem of_service (h : x.At greens blue rows w) {f : ServiceRow → ServiceRow} {rows' : Rows}
    (hf : ∀ row, row.status = rows.status → row.containerId = some rows.recorded.id →
      row.assignedPort = some rows.recorded.port → (f row).status = rows'.status ∧
        (f row).containerId = some rows'.recorded.id ∧
        (f row).assignedPort = some rows'.recorded.port) :
    x.At greens blue rows' (w.updateProject x.params.projectId f) := by
  obtain ⟨row, hrow, hstatus, hid, hport⟩ := h.service
  refine { h with service := ⟨f row, ?_, hf row hstatus hid hport⟩ }
  simp [World.updateProject, World.updateService, hrow]

theorem setStatus (h : x.At greens blue rows w) (status : ProjectStatus) :
    x.At greens blue { rows with status } (w.setStatus x.params.projectId status) :=
  h.of_service fun _ _ hid hport => ⟨rfl, hid, hport⟩

theorem updateEnvironment (h : x.At greens blue rows w) (f : EnvironmentRow → EnvironmentRow) :
    x.At greens blue rows (w.updateEnvironment x.params.projectId f) :=
  { h with }

theorem reserve (h : x.At greens blue rows w) (reservedPorts : Finset Nat) :
    x.At greens blue rows { w with reservedPorts } :=
  { h with }

theorem updateService_id (h : x.At greens blue rows w) (serviceId : String) :
    x.At greens blue rows (w.updateService serviceId id) := by
  have heq : w.updateService serviceId id = w := by simp [World.updateService]
  rwa [heq]

/-! ## Containers -/

theorem createContainer (h : x.At greens blue rows w) (name : String) (port : Nat) :
    x.At (⟨w.nextContainerId, name, port, false⟩ :: greens) blue rows
      (w.createContainer name port) where
  project := h.project
  next := h.next.trans (Nat.le_succ _)
  fresh := by
    rintro green (_ | ⟨_, hgreen⟩)
    · exact h.next
    · exact h.fresh green hgreen
  containers := by
    have hfollows : x.follows ⟨w.nextContainerId, name, port, false⟩ = true :=
      decide_eq_true (.inr h.next)
    rw [World.createContainer, List.filter_cons_of_pos hfollows, h.containers, List.cons_append]
  service := h.service

private theorem follows_setRunning (i : ContainerId) (running : Bool) (c : Container) :
    x.follows (if c.id = i then { c with running } else c) = x.follows c := by
  split <;> rfl

private theorem filter_setRunning (i : ContainerId) (running : Bool) :
    (w.setRunning i running).containers.filter x.follows =
      (w.containers.filter x.follows).map fun c => if c.id = i then { c with running } else c := by
  rw [World.setRunning, List.filter_map]
  congr 2
  exact funext fun c => follows_setRunning i running c

theorem setRunning (h : x.At greens blue rows w) (running : Bool) (hi : i ≠ x.blue.id) :
    x.At (greens.map fun c => if c.id = i then { c with running } else c) blue rows
      (w.setRunning i running) where
  project := h.project
  next := h.next
  fresh := by
    rintro _ hmem
    obtain ⟨green, hgreen, rfl⟩ := List.mem_map.mp hmem
    have hid := h.fresh green hgreen
    split <;> exact hid
  containers := by
    rw [filter_setRunning, h.containers, List.map_append]
    cases blue with
    | none => rfl
    | some _ => simp [hi.symm]
  service := h.service

theorem setRunning_blue (h : x.At greens blue rows w) (running : Bool) :
    x.At greens (blue.map fun _ => running) rows (w.setRunning x.blue.id running) where
  project := h.project
  next := h.next
  fresh := h.fresh
  containers := by
    rw [filter_setRunning, h.containers, List.map_append]
    congr 1
    · exact (List.map_congr_left fun green hgreen => if_neg (h.ne_blue green hgreen)).trans
        (List.map_id _)
    · cases blue with
      | none => rfl
      | some _ => simp
  service := h.service

private theorem filter_removeContainer (i : ContainerId) :
    (w.removeContainer (.id i)).containers.filter x.follows =
      (w.containers.filter x.follows).filter (·.id ≠ i) := by
  rw [World.removeContainer, List.filter_filter, List.filter_filter]
  refine List.filter_congr fun c _ => ?_
  rw [Bool.and_comm]
  simp [Container.answersTo]

theorem removeContainer (h : x.At greens blue rows w) (hi : i ≠ x.blue.id) :
    x.At (greens.filter (·.id ≠ i)) blue rows (w.removeContainer (.id i)) where
  project := h.project
  next := h.next
  fresh := fun green hgreen => h.fresh green (List.mem_of_mem_filter hgreen)
  containers := by
    rw [filter_removeContainer, h.containers, List.filter_append]
    congr 1
    cases blue with
    | none => rfl
    | some _ => simp [hi.symm]
  service := h.service

theorem removeContainer_blue (h : x.At greens blue rows w) :
    x.At greens none rows (w.removeContainer (.id x.blue.id)) where
  project := h.project
  next := h.next
  fresh := h.fresh
  containers := by
    rw [filter_removeContainer, h.containers, List.filter_append]
    congr 1
    · exact List.filter_eq_self.mpr fun green hgreen => decide_eq_true (h.ne_blue green hgreen)
    · cases blue with
      | none => rfl
      | some _ => simp
  service := h.service

theorem findContainer_blue (h : x.At greens blue rows w) :
    w.findContainer x.blue.id = blue.map ({ x.blue with running := · }) := by
  have hfind : w.findContainer x.blue.id =
      (w.containers.filter x.follows).find? (·.id = x.blue.id) := by
    rw [World.findContainer, List.find?_filter]
    congr 1
    funext c
    by_cases hid : c.id = x.blue.id <;> simp [Scene.follows, hid]
  rw [hfind, h.containers, List.find?_append,
    List.find?_eq_none.mpr fun green hgreen => by simpa using h.ne_blue green hgreen,
    Option.none_or]
  cases blue with
  | none => rfl
  | some _ => simp

end Scene.At

/-! ## The calls of the recovery -/

/-- The rows that `restoreBlueState` leaves. -/
def RestoreCalls.apply (calls : RestoreCalls) (blue : Container) (rows : Rows) : Rows :=
  match calls.transition.moves .running rows.status with
  | none => rows
  | some status => ⟨status, if calls.updateProject then blue else rows.recorded⟩

namespace Scene.At

theorem transition (h : x.At greens blue rows w) (calls : TransitionCalls)
    (targetStatus : ProjectStatus) :
    (transition calls x.params.projectId targetStatus).Ends w fun r w' =>
      match calls.moves targetStatus rows.status with
      | none => r = .error .other ∧ x.At greens blue rows w'
      | some status => r = .ok () ∧ x.At greens blue { rows with status } w' := by
  obtain ⟨row, hrow, hstatus, -⟩ := h.service
  have hproject : (w.getProject x.params.projectId).bind (·.status) = some rows.status := by
    simp [World.getProject, h.project, hrow, Project.status, hstatus]
  rw [Prog.Ends, run_transition_of_status calls targetStatus hproject]
  cases calls.moves targetStatus rows.status with
  | none => exact ⟨rfl, h⟩
  | some status =>
    refine ⟨rfl, ?_⟩
    by_cases hsame : status = rows.status
    · subst hsame
      simpa using h
    · simpa [hsame] using h.setStatus status

theorem keeps_writeEnvironment (hasEnvironment resolves : Bool)
    (f : EnvironmentRow → EnvironmentRow) :
    Prog.Keeps (x.At greens blue rows) (writeEnvironment x.params hasEnvironment resolves f) := by
  cases hasEnvironment with
  | false => exact .ret _
  | true => exact keeps_await _ fun _ h => h.updateEnvironment f

theorem restore (h : x.At greens blue rows w) (calls : RestoreCalls) (hasEnvironment : Bool)
    {state : BlueState} (hstate : x.Describes state) :
    (restoreBlueState x.params calls hasEnvironment state).Ends w fun r w' =>
      x.At greens blue (calls.apply x.blue rows) w' ∧
        (r = .ok () ∧ (calls.apply x.blue rows).recorded = x.blue ∨ r = .error .other) := by
  rw [RestoreCalls.apply]
  refine .bind (h.transition calls.transition .running) ?_ ?_
  · rintro _ w' hmoved
    cases hmoves : calls.transition.moves .running rows.status with
    | none => exact absurd (hmoves ▸ hmoved).1 nofun
    | some status =>
      have hat : x.At greens blue ⟨status, rows.recorded⟩ w' := (hmoves ▸ hmoved).2
      cases hproject : calls.updateProject with
      | false => exact ⟨hat, .inr rfl⟩
      | true =>
        have hat' : x.At greens blue ⟨status, x.blue⟩
            (w'.updateProject x.params.projectId state.columns) :=
          hat.of_service fun row hrow _ _ =>
            ⟨hrow, congrArg some hstate.containerId, hstate.assignedPort⟩
        refine ⟨keeps_writeEnvironment _ _ _ _ hat', ?_⟩
        cases hasEnvironment with
        | false => exact .inl ⟨rfl, rfl⟩
        | true =>
          cases calls.updateEnvironment with
          | false => exact .inr rfl
          | true => exact .inl ⟨rfl, rfl⟩
  · rintro _ w' hmoved
    cases hmoves : calls.transition.moves .running rows.status with
    | none => exact ⟨(hmoves ▸ hmoved).2, .inr (hmoves ▸ hmoved).1⟩
    | some status => exact absurd (hmoves ▸ hmoved).1 nofun

theorem run_restart (h : x.At greens (some running) rows w) :
    (restartContainer true x.blue.id).run w = (.ok (), w.setRunning x.blue.id true) := by
  rw [restartContainer, run_changeRunning, h.findContainer_blue]
  rfl

theorem run_isBlueServing (h : x.At greens blue rows w) (c : Calls) {state : BlueState}
    (hstate : x.Describes state) :
    (isBlueServing c state).run w = (.ok (c.inspectBlue && blue == some true), w) := by
  rw [isBlueServing, hstate.containerId, Prog.run_tryCatch, inspectContainer, run_await_bind]
  cases c.inspectBlue with
  | false => rfl
  | true =>
    rw [if_pos rfl, Prog.run_read_bind, id, h.findContainer_blue]
    cases blue with
    | none => rfl
    | some running => cases running <;> rfl

/-- A blue that is there runs once it is recovered. -/
theorem recover (h : x.At greens (some running) rows w) {c : Calls} (hrestart : c.restartBlue)
    {state : BlueState} (hstate : x.Describes state) :
    (recoverBlue c false (some state)).Ends w fun r w' =>
      r = .ok true ∧ x.At greens (some true) rows w' := by
  refine .of_run (Prog.run_bind_ok (h.run_isBlueServing c hstate)) ?_
  cases hserving : c.inspectBlue && some running == some true with
  | true =>
    obtain rfl : running = true := by simpa using (Bool.and_eq_true_iff.mp hserving).2
    exact ⟨rfl, h⟩
  | false =>
    rw [if_pos (by rfl), Prog.run_tryCatch, hrestart, hstate.containerId,
      Prog.run_bind_ok h.run_restart]
    exact ⟨rfl, h.setRunning_blue true⟩

/-- A blue that is gone stays so. -/
theorem recover_none (h : x.At greens none rows w) (c : Calls) {state : BlueState}
    (hstate : x.Describes state) :
    (recoverBlue c false (some state)).run w = (.ok false, w) := by
  rw [recoverBlue, Prog.run_bind_ok (h.run_isBlueServing c hstate)]
  have hgone : (restartContainer c.restartBlue state.containerId).run w =
      (.error (if c.restartBlue then .dockerNotFound else .other), w) := by
    rw [restartContainer, run_changeRunning, hstate.containerId, h.findContainer_blue]
    cases c.restartBlue <;> rfl
  have hserving : (c.inspectBlue && (none : Option Bool) == some true) = false := Bool.and_false _
  rw [hserving, if_pos (by rfl), Prog.run_tryCatch, Prog.run_bind_error hgone]
  rfl

theorem recover_cancelled (h : x.At greens (some true) rows w) (c : Calls) {state : BlueState}
    (hstate : x.Describes state) :
    (recoverBlue c true (some state)).run w = (.ok c.inspectBlue, w) := by
  rw [recoverBlue, Prog.run_bind_ok (h.run_isBlueServing c hstate)]
  simp

theorem keeps_abandonEnvironment (c : Calls) (isCancelled : Bool) :
    Prog.Keeps (x.At greens blue rows) (abandonEnvironment c x.params isCancelled) := by
  refine .bind (keeps_await _ fun _ h => h) fun _ => .bind (.read _) fun environment => ?_
  cases environment with
  | none => exact .ret _
  | some _ => exact keeps_await _ fun _ h => h.updateEnvironment _

/-- The table ignores the status. -/
theorem abandon (h : x.At greens blue rows w) (c : Calls) (isCancelled hasEnvironment : Bool)
    (hdrop : (if isCancelled then ProjectStatus.stopped else .error) ∉
      VALID_TRANSITIONS rows.status) :
    (abandon c x.params isCancelled hasEnvironment).Ends w fun r w' =>
      x.At greens blue rows w' ∧
        (hasEnvironment = false →
          r = if c.finalTransition.getProject then .ok () else .error .other) := by
  refine .bind (h.transition c.finalTransition _) ?_ ?_
  · rintro _ w' hmoved
    rw [TransitionCalls.moves_of_drops _ hdrop] at hmoved
    cases hget : c.finalTransition.getProject with
    | false => exact absurd (hget ▸ hmoved).1 (by rintro ⟨⟩)
    | true =>
      have hat : x.At greens blue rows w' := (hget ▸ hmoved).2
      cases hasEnvironment with
      | false => exact ⟨hat, fun _ => rfl⟩
      | true =>
        exact ⟨keeps_abandonEnvironment c isCancelled w' hat, (by rintro ⟨⟩)⟩
  · rintro _ w' hmoved
    rw [TransitionCalls.moves_of_drops _ hdrop] at hmoved
    cases hget : c.finalTransition.getProject with
    | false => exact ⟨(hget ▸ hmoved).2, fun _ => (hget ▸ hmoved).1⟩
    | true => exact absurd (hget ▸ hmoved).1 (by rintro ⟨⟩)

end Scene.At

/-! ## The end of a failed call -/

/-- A green that runs is the one that the `finally` cleans up. -/
structure Scene.Covers (x : Scene) (greens : List Container) (vars : Vars) : Prop where
  running : ∀ green ∈ greens, green.running = true →
    vars.shouldCleanupGreen = true ∧ vars.greenContainerId = some green.id
  fresh : ∀ containerId, vars.greenContainerId = some containerId → x.first ≤ containerId

/-- The rows that the `catch` leaves to the last restore. -/
def Calls.rolledBack (c : Calls) (blue : Container) (vars : Vars) (rows : Rows) : Rows :=
  if vars.routeTargetUpdated && !vars.routeSwitched then c.restoreInCatch.apply blue rows else rows

/-- How the `catch` ends, by the end of its last update of the rows. -/
def Calls.report (c : Calls) (result : DeployResult) :
    Except Failure Unit → Except Failure DeployResult
  | .error failure => .error failure
  | .ok () => if c.createFailedLog then .ok result else .error .other

theorem Calls.eq_of_report {c : Calls} (h : c.report result r = .ok result') :
    result' = result := by
  cases r with
  | error => cases h
  | ok =>
    rw [Calls.report] at h
    split at h
    · exact (Except.ok.inj h).symm
    · cases h

/-- The `catch`, step by step. -/
theorem ends_handleFailure {c : Calls} {params : Params} {failure : Failure} {vars : Vars}
    {isCancelled : Bool} {R : World → Prop} (serving : Bool) (S : World → Prop)
    (T : Except Failure Unit → World → Prop)
    (hfailure : decide (failure = .buildCancelled) = isCancelled)
    (hroll : (rollBack c params vars).Ends w fun r w' => r = .ok () ∧ R w')
    (hrecover : ∀ w', R w' → (recoverBlue c isCancelled vars.blueState).Ends w' fun r w'' =>
      r = .ok serving ∧ S w'')
    (hrecord : ∀ w', S w' → (recordFailure c params isCancelled serving vars).Ends w' T) :
    (handleFailure c params failure).Ends (w, vars) fun r s => s.2 = vars ∧
      ∃ r', T r' s.1 ∧ r = c.report (failureResult params isCancelled serving vars) r' := by
  rw [handleFailure, hfailure, Prog.ends_read_bind]
  refine .lift_bind hroll ?_ nofun
  rintro _ w₁ ⟨-, h₁⟩
  refine .lift_bind (hrecover w₁ h₁) ?_ nofun
  rintro _ w₂ ⟨hserving, h₂⟩
  cases hserving
  refine .lift_bind (hrecord w₂ h₂) ?_ fun _ _ h₃ => ⟨rfl, _, h₃, rfl⟩
  rintro _ w₃ h₃
  have hreport : ∀ result, (do await c.createFailedLog; return result : Body DeployResult).Ends
      (w₃, vars) fun r s => s = (w₃, vars) ∧ r = c.report result (.ok ()) := by
    intro result
    rw [Calls.report]
    cases c.createFailedLog <;> exact ⟨rfl, rfl⟩
  refine (hreport _).mono ?_
  rintro _ _ ⟨rfl, rfl⟩
  exact ⟨rfl, .ok (), h₃, rfl⟩

namespace Scene.At
variable {c : Calls} {state : BlueState} {failure : Failure} {vars : Vars}

theorem rollBack (h : x.At greens blue rows w) (c : Calls) (hvars : vars.blueState = some state)
    (hstate : x.Describes state) :
    (rollBack c x.params vars).Ends w fun r w' =>
      r = .ok () ∧ x.At greens blue (c.rolledBack x.blue vars rows) w' := by
  rw [BlueGreen.rollBack, Calls.rolledBack, hvars]
  cases vars.routeTargetUpdated && !vars.routeSwitched with
  | false => exact ⟨rfl, h⟩
  | true => exact .of_run (Prog.run_settle _ w) ⟨rfl, (h.restore _ _ hstate).1⟩

/-- The `catch`, while blue is there. -/
theorem handleFailure (h : x.At greens (some running) rows w) (hrestart : c.restartBlue)
    (hvars : vars.blueState = some state) (hstate : x.Describes state)
    (hfailure : failure ≠ .buildCancelled) :
    (handleFailure c x.params failure).Ends (w, vars) fun r s => s.2 = vars ∧
      x.At greens (some true) (c.finalRestore.apply x.blue (c.rolledBack x.blue vars rows)) s.1 ∧
        ∀ result, r = .ok result → result.previousVersionStillServing = some true := by
  refine (ends_handleFailure true (x.At greens (some true) (c.rolledBack x.blue vars rows))
    (fun _ => x.At greens (some true) (c.finalRestore.apply x.blue (c.rolledBack x.blue vars rows)))
    (decide_eq_false hfailure) (h.rollBack c hvars hstate)
    (fun w' h' => hvars ▸ h'.recover hrestart hstate) fun w' h' => ?_).mono ?_
  · unfold recordFailure
    rw [hvars]
    exact (h'.restore _ _ hstate).1
  · rintro _ s ⟨hsame, r', hat, rfl⟩
    refine ⟨hsame, hat, fun result hresult => ?_⟩
    rw [Calls.eq_of_report hresult]
    rfl

/-- The `catch`, once blue is gone. -/
theorem handleFailure_none (h : x.At greens none rows w) (c : Calls)
    (hstatus : rows.status = .running) (hvars : vars.blueState = some state)
    (hstate : x.Describes state)
    (hswitched : vars.routeSwitched = true) (hfailure : failure ≠ .buildCancelled) :
    (BlueGreen.handleFailure c x.params failure).Ends (w, vars) fun r s => s.2 = vars ∧
      x.At greens none rows s.1 ∧
        ∀ result, r = .ok result → result.previousVersionStillServing = some false := by
  have hdrop : ProjectStatus.error ∉ VALID_TRANSITIONS rows.status := by rw [hstatus]; decide
  refine (ends_handleFailure false (x.At greens none rows) (fun _ => x.At greens none rows)
    (decide_eq_false hfailure) (h.rollBack c hvars hstate) (fun w' h' => ?_)
    fun w' h' => (h'.abandon c false _ hdrop).1).mono ?_
  · rw [Calls.rolledBack, hswitched, Bool.not_true, Bool.and_false] at h'
    exact .of_run (hvars ▸ h'.recover_none c hstate) ⟨rfl, h'⟩
  · rintro _ s ⟨hsame, r', hat, rfl⟩
    refine ⟨hsame, hat, fun result hresult => ?_⟩
    rw [Calls.eq_of_report hresult]
    rfl

/-- The `catch` of a build that the user has cancelled. -/
theorem handleFailure_cancelled (h : x.At greens (some true) rows w) (c : Calls)
    (hstatus : rows.status = .building) (hvars : vars.blueState = some state)
    (hstate : x.Describes state) (hupdated : vars.routeTargetUpdated = false) :
    (BlueGreen.handleFailure c x.params .buildCancelled).Ends (w, vars) fun r s => s.2 = vars ∧
      x.At greens (some true)
        (if c.inspectBlue then c.finalRestore.apply x.blue rows else rows) s.1 ∧
        ∀ result, r = .ok result → result.previousVersionStillServing = some c.inspectBlue := by
  have hdrop : ProjectStatus.stopped ∉ VALID_TRANSITIONS rows.status := by rw [hstatus]; decide
  refine (ends_handleFailure c.inspectBlue (x.At greens (some true) rows)
    (fun _ => x.At greens (some true)
      (if c.inspectBlue then c.finalRestore.apply x.blue rows else rows))
    (decide_eq_true rfl) (h.rollBack c hvars hstate) (fun w' h' => ?_) fun w' h' => ?_).mono ?_
  · rw [Calls.rolledBack, hupdated, Bool.false_and] at h'
    exact .of_run (hvars ▸ h'.recover_cancelled c hstate) ⟨rfl, h'⟩
  · cases c.inspectBlue with
    | false => exact (h'.abandon c true _ hdrop).1
    | true =>
      unfold recordFailure
      rw [hvars]
      exact (h'.restore _ _ hstate).1
  · rintro _ s ⟨hsame, r', hat, rfl⟩
    refine ⟨hsame, hat, fun result hresult => ?_⟩
    rw [Calls.eq_of_report hresult]
    rfl

/-- The `catch`, before blue is known. -/
theorem handleFailure_unread (h : x.At greens blue rows w) (c : Calls)
    (hstatus : rows.status = .running) (hvars : vars.blueState = none)
    (henvironment : vars.hasEnvironment = false) (hfailure : failure ≠ .buildCancelled) :
    (BlueGreen.handleFailure c x.params failure).Ends (w, vars) fun r s => s.2 = vars ∧
      x.At greens blue rows s.1 ∧
        (∀ result, r = .ok result → result.previousVersionStillServing = some false) ∧
        (r.isOk = true ↔ c.finalTransition.getProject = true ∧ c.createFailedLog = true) := by
  have hdrop : ProjectStatus.error ∉ VALID_TRANSITIONS rows.status := by rw [hstatus]; decide
  refine (ends_handleFailure (R := x.At greens blue rows) false (x.At greens blue rows) _
    (decide_eq_false hfailure) ?_ (fun w' h' => ?_) fun w' h' => h'.abandon c false _ hdrop).mono ?_
  · rw [BlueGreen.rollBack, hvars]
    exact ⟨rfl, h⟩
  · rw [hvars]
    exact ⟨rfl, h'⟩
  · rintro _ s ⟨hsame, r', ⟨hat, hr'⟩, rfl⟩
    refine ⟨hsame, hat, fun result hresult => ?_, ?_⟩
    · rw [Calls.eq_of_report hresult]
      rfl
    · rw [hr' henvironment]
      cases c.finalTransition.getProject with
      | false => simp [Calls.report, Except.isOk, Except.toBool]
      | true =>
        cases hlog : c.createFailedLog <;> simp [Calls.report, hlog, Except.isOk, Except.toBool]

end Scene.At

/-! ## The cleanups -/

theorem keeps_changeRunning {I : World → Prop} (resolves : Bool) (containerId : ContainerId)
    (running : Bool) (h : ∀ w, I w → I (w.setRunning containerId running)) :
    Prog.Keeps I (changeRunning resolves containerId running) := by
  refine .bind (keeps_await _ fun _ hw => hw) fun _ => .bind (.read _) fun container => ?_
  cases container with
  | none => exact .ret _
  | some _ => exact .step h fun _ => .ret _

theorem keeps_cleanupGreenContainer {I : World → Prop} (stop remove : Bool)
    (containerId : ContainerId) (hstop : ∀ w, I w → I (w.setRunning containerId false))
    (hremove : ∀ w, I w → I (w.removeContainer (.id containerId))) :
    Prog.Keeps I (cleanupGreenContainer stop remove containerId) :=
  .bind (.handle (keeps_changeRunning _ _ _ hstop) fun _ => .ret _) fun _ =>
    .handle (keeps_await _ hremove) fun _ => .ret _

theorem keeps_cleanupStaleGreenContainers {I : World → Prop} {active : ContainerId}
    (hstop : ∀ w i, i ≠ active → I w → I (w.setRunning i false))
    (hremove : ∀ w i, i ≠ active → I w → I (w.removeContainer (.id i)))
    (staleGreens : List StaleGreen) :
    Prog.Keeps I (cleanupStaleGreenContainers active staleGreens) := by
  induction staleGreens with
  | nil => exact .ret _
  | cons stale staleGreens ih =>
    rw [cleanupStaleGreenContainers]
    split
    · rename_i hne
      exact .bind (keeps_cleanupGreenContainer _ _ _ (hstop · _ hne) (hremove · _ hne)) fun _ => ih
    · exact ih

theorem run_cleanupGreenContainer (stop remove : Bool) (containerId : ContainerId) (w : World) :
    ((cleanupGreenContainer stop remove containerId).run w).1 = .ok () := by
  rw [cleanupGreenContainer, Prog.run_bind_ok (Prog.run_settle _ w), Prog.run_settle]

/-- The world that the cleanup of stale greens leaves. -/
def cleaned (active : ContainerId) (staleGreens : List StaleGreen) (w : World) : World :=
  ((cleanupStaleGreenContainers active staleGreens).run w).2

theorem run_cleanupStaleGreenContainers (active : ContainerId) (staleGreens : List StaleGreen)
    (w : World) :
    (cleanupStaleGreenContainers active staleGreens).run w =
      (.ok (), cleaned active staleGreens w) := by
  have hok : ((cleanupStaleGreenContainers active staleGreens).run w).1 = .ok () := by
    induction staleGreens generalizing w with
    | nil => rfl
    | cons stale staleGreens ih =>
      rw [cleanupStaleGreenContainers]
      split
      · rw [Prog.run_bind, run_cleanupGreenContainer]
        exact ih _
      · exact ih w
  rw [cleaned, ← hok]

@[simp] theorem cleaned_environments (active : ContainerId) (staleGreens : List StaleGreen) :
    (cleaned active staleGreens w).environments = w.environments :=
  keeps_cleanupStaleGreenContainers (I := fun w' => w'.environments = w.environments)
    (fun _ _ _ h => h) (fun _ _ _ h => h) staleGreens w rfl

@[simp] theorem cleaned_reservedPorts (active : ContainerId) (staleGreens : List StaleGreen) :
    (cleaned active staleGreens w).reservedPorts = w.reservedPorts :=
  keeps_cleanupStaleGreenContainers (I := fun w' => w'.reservedPorts = w.reservedPorts)
    (fun _ _ _ h => h) (fun _ _ _ h => h) staleGreens w rfl

namespace Scene.At
variable {c : Calls} {vars : Vars}

theorem cleanedUp (h : x.At [] blue rows w) (staleGreens : List StaleGreen) :
    x.At [] blue rows (cleaned x.blue.id staleGreens w) :=
  keeps_cleanupStaleGreenContainers (I := x.At [] blue rows)
    (fun _ _ hi h => h.setRunning false hi) (fun _ _ hi h => h.removeContainer hi) staleGreens w h

/-- To stop a container of the call changes no other one. -/
theorem stop (h : x.At greens blue rows w) (resolves : Bool) (hi : i ≠ x.blue.id) :
    ∃ stopped, x.At stopped blue rows ((stopContainer resolves i).run w).2 ∧
      ∀ green ∈ stopped, green.id ≠ i → green ∈ greens := by
  rw [stopContainer, run_changeRunning]
  cases resolves with
  | false => exact ⟨greens, h, fun _ hgreen _ => hgreen⟩
  | true =>
    cases w.findContainer i with
    | none => exact ⟨greens, h, fun _ hgreen _ => hgreen⟩
    | some _ =>
      refine ⟨_, h.setRunning false hi, fun green hgreen hne => ?_⟩
      obtain ⟨green', hgreen', rfl⟩ := List.mem_map.mp hgreen
      split at hne
      · contradiction
      · rwa [if_neg ‹_›]

/-- The `finally` leaves no green that runs. -/
theorem cleanup (h : x.At greens blue rows w) (hremove : c.removeGreen)
    (hcovers : x.Covers greens vars) :
    (cleanup c).Ends (w, vars) fun r s => r = .ok () ∧
      ∃ greens', x.At greens' blue rows s.1 ∧ ∀ green ∈ greens', green.running = false := by
  rw [BlueGreen.cleanup, Prog.ends_read_bind]
  have hidle : (vars.shouldCleanupGreen = false ∨ vars.greenContainerId = none) →
      ∀ green ∈ greens, green.running = false := by
    intro hnot green hgreen
    rw [← Bool.not_eq_true]
    intro hrunning
    obtain ⟨hshould, hid⟩ := hcovers.running green hgreen hrunning
    rcases hnot with hnot | hnot
    · cases hshould.symm.trans hnot
    · cases hid.symm.trans hnot
  cases hshould : vars.shouldCleanupGreen with
  | false => exact ⟨rfl, greens, h, hidle (.inl hshould)⟩
  | true =>
    cases hid : vars.greenContainerId with
    | none => exact ⟨rfl, greens, h, hidle (.inr hid)⟩
    | some i =>
      have hi : i ≠ x.blue.id := fun heq => (hcovers.fresh i hid).not_gt (heq ▸ x.lt)
      obtain ⟨stopped, hat, hstopped⟩ := h.stop c.stopGreen hi
      refine .lift ⟨run_cleanupGreenContainer _ _ _ _, stopped.filter (·.id ≠ i), ?_, ?_⟩
      · rw [cleanupGreenContainer, Prog.run_bind_ok (Prog.run_settle _ w),
          run_settle_safeRemoveContainer, if_pos hremove]
        exact hat.removeContainer hi
      · intro green hgreen
        obtain ⟨hmem, hne⟩ := List.mem_filter.mp hgreen
        rw [← Bool.not_eq_true]
        intro hrunning
        have hne := of_decide_eq_true hne
        have hown := (hcovers.running green (hstopped green hmem hne) hrunning).2
        exact hne (Option.some.inj (hown.symm.trans hid))

/-- The `finally`, once the route is switched. -/
theorem cleanup_of_switched (h : x.At greens blue rows w) (c : Calls)
    (hswitched : vars.shouldCleanupGreen = false) :
    (BlueGreen.cleanup c).Ends (w, vars) fun r s => r = .ok () ∧ x.At greens blue rows s.1 := by
  rw [BlueGreen.cleanup, Prog.ends_read_bind, hswitched]
  exact ⟨rfl, h⟩

end Scene.At

end OpenLander.Pipeline.BlueGreen
