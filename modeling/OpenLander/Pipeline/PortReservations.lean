import OpenLander.Pipeline.PortSteps

/-! # Which port reservations are returned

The operations of the pipeline that reserve ports run side by side on one server. The recreation of a
runtime returns what it reserves, and so does the run step of a deploy unless it fails between the
allocation and the start of its container; the blue-green redeploy, the rollback and the restore keep
what they reserve for as long as the server runs. -/

namespace OpenLander.Pipeline
open Theory

/-- An operation that reserves ports, with how its calls end. -/
inductive Operation
  | run (c : RunStep.Calls) (config : RunStep.RunConfig)
  | recreateServiceRuntime (c : RecreateRuntime.Calls) (params : RecreateRuntime.Params)
  | blueGreenRedeploy (c : BlueGreen.Calls) (params : BlueGreen.Params)
  | rollbackToImage (c : Rollback.Calls) (params : Rollback.Params)
  | unarchive (tree : Lifecycle.ProjectTree Lifecycle.UnarchiveCalls)

namespace Operation

/-- The operation, whatever it returns. -/
def program : Operation → Async Unit
  | .run c config => do
    let _ ← RunStep.run c config
  | .recreateServiceRuntime c params => do
    let _ ← RecreateRuntime.recreateServiceRuntime c params
  | .blueGreenRedeploy c params => do
    let _ ← BlueGreen.blueGreenRedeployInner c params
  | .rollbackToImage c params => do
    let _ ← Rollback.rollbackToImage c params
  | .unarchive tree => Lifecycle.unarchiveRuntimeProject tree

/-- The operations that return what they reserve. -/
def Returns : Operation → Prop
  | .run c config => c.prepares config = true
  | .recreateServiceRuntime _ _ => True
  | .blueGreenRedeploy _ _ | .rollbackToImage _ _ | .unarchive _ => False

theorem behaves (operation : Operation) :
    Pool.Behaves (·.reservedPorts) Returns operation operation.program ∅ := by
  cases operation with
  | run c config =>
    cases h : c.prepares config with
    | true => exact .inl ⟨h, (RunStep.tidy_run c config h).bind fun _ => rfl⟩
    | false =>
      exact .inr ⟨by simp [Returns, h], .bind (RunStep.steps_run c config h) fun _ => .pure _⟩
  | recreateServiceRuntime c params =>
    exact .inl ⟨trivial,
      (RecreateRuntime.tidy_recreateServiceRuntime c params).bind fun _ => rfl⟩
  | blueGreenRedeploy c params =>
    exact .inr ⟨id, .bind (BlueGreen.steps_blueGreenRedeployInner c params) fun _ => .pure _⟩
  | rollbackToImage c params =>
    exact .inr ⟨id, .bind (Rollback.steps_rollbackToImage c params) fun _ => .pure _⟩
  | unarchive tree => exact .inr ⟨id, Lifecycle.steps_unarchiveRuntimeProject tree⟩

end Operation

/-! ## The server -/

/-- The operations of a server, by numbers, on its world. -/
abbrev Server := Pool Nat Operation World Failure Unit Nat

namespace Server

abbrev Event := Pool.Event Nat Operation

/-- An operation is started, or one that has been started takes a step. -/
def next : Server → Event → Option Server := Pool.next (·.reservedPorts) Operation.program

/-- No operation reserves a port that it will not return. -/
def Admits : Server → Event → Prop := Pool.Admits (·.reservedPorts) Operation.Returns

/-- No operation is in progress. -/
def Idle (s : Server) : Prop := ∀ i, ¬s.InProgress i

/-- An operation that has returned or rejected has none of the ports it reserved, nothing is reserved
while no operation is in progress, and a port that no operation in progress has can be allocated. -/
structure Returned (s : Server) : Prop where
  finished : ∀ i, s.Finished i → s.part i = ∅
  idle : s.Idle → s.store.reservedPorts = ∅
  again : ∀ (port : Nat) (usedPorts : List Nat) (options : AllocatePortOptions), port ≠ 0 →
    port ∉ usedPorts → (∀ i, s.InProgress i → port ∉ s.part i) →
    choosePort { options with preferredPort := some port } usedPorts s.store.reservedPorts =
      some port

variable {s : Server}

theorem finished_or_inProgress (hjob : s.jobs i = some (operation, p)) :
    s.Finished i ∨ s.InProgress i := by
  cases p with
  | ret r => exact .inl ⟨operation, r, hjob⟩
  | step f k => exact .inr ⟨operation, f, k, hjob⟩

/-- What an operation has that has finished, it did not return. -/
theorem returned_of_clean (h : s.Divided (·.reservedPorts) Operation.Returns)
    (hclean : s.Clean Operation.Returns) : s.Returned := by
  have hfinished : ∀ i, s.Finished i → s.part i = ∅ := by
    intro i ⟨operation, r, hjob⟩
    by_cases hreturns : operation.Returns
    · exact h.part_eq_empty hjob hreturns
    · exact hclean i operation _ hjob hreturns
  have hreserved : ∀ port ∈ s.store.reservedPorts, ∃ i, s.InProgress i ∧ port ∈ s.part i := by
    intro port hport
    obtain ⟨i, hi⟩ := (h.covers port).mp hport
    cases hjob : s.jobs i with
    | none =>
      rw [h.unstarted i hjob] at hi
      exact absurd hi (Finset.notMem_empty _)
    | some job =>
      refine ⟨i, (finished_or_inProgress hjob).resolve_left fun hfin => ?_, hi⟩
      rw [hfinished i hfin] at hi
      exact Finset.notMem_empty _ hi
  refine ⟨hfinished, fun hidle => ?_, fun port usedPorts options h0 hused hfree => ?_⟩
  · refine Finset.eq_empty_of_forall_notMem fun port hport => ?_
    obtain ⟨i, hi, -⟩ := hreserved port hport
    exact hidle i hi
  · refine choosePort_preferred h0 hused fun hport => ?_
    obtain ⟨i, hi, hmem⟩ := hreserved port hport
    exact hfree i hi hmem

/-- Where all operations have finished, those have nothing that do not return it. -/
theorem clean_of_returned (hidle : s.Idle) (h : s.Returned) : s.Clean Operation.Returns :=
  fun i _ _ hjob _ => h.finished i ((finished_or_inProgress hjob).resolve_right (hidle i))

/-- **Every port reservation is returned** in the runs in which ports are reserved by no other
operations than recreations of a runtime and run steps whose preparations succeed.  Once all
operations of a run have finished, it is returned in no other runs. -/
theorem returned_of_admitted (hw : w.reservedPorts = ∅)
    (h : Run (Fires next) (Pool.init w) es s) :
    (Run (Guarded (Fires next) Admits) (Pool.init w) es s → s.Returned) ∧
      (s.Idle → s.Returned → Run (Guarded (Fires next) Admits) (Pool.init w) es s) := by
  have hinit : (Pool.init w : Server).Divided (·.reservedPorts) Operation.Returns := .init hw
  have hclean := Pool.clean_iff Operation.behaves h hinit .init
  have hdivided := h.invariant (Pool.Divided.next Operation.behaves) hinit
  exact ⟨fun hadmitted => returned_of_clean hdivided (hclean.mpr hadmitted),
    fun hidle hreturned => hclean.mp (clean_of_returned hidle hreturned)⟩

/-- A run step that succeeds. -/
def deployRun : List Event :=
  .start 0 (.run { loadResourceLimits := some true } { projectName := "app" }) ::
    .replicate 7 (.step 0)

theorem returned_of_admitted_deployRun :
    ∃ s : Server, Run (Fires next) (Pool.init {}) deployRun s ∧
      (Run (Guarded (Fires next) Admits) (Pool.init {}) deployRun s → s.Returned) ∧
      (s.Idle → s.Returned → Run (Guarded (Fires next) Admits) (Pool.init {}) deployRun s) :=
  ⟨_, .of_exec rfl, returned_of_admitted rfl (.of_exec rfl)⟩

/-- The project of a service that is archived. -/
def archivedWorld : World where
  projects := Function.update (fun _ => none) "app"
    (some { name := "app", archivedAt := some "2025-01-01" })
  services := Function.update (fun _ => none) "app__svc"
    (some { projectId := "app", kind := .git, source := some .git, status := .stopped,
            archivedAt := some "2025-01-01" })

/-- Its restore, which succeeds. -/
def restoreRun : List Event :=
  .start 0 (.unarchive (.node "app" {} [])) :: .replicate 10 (.step 0)

/-- A restore leaves its port reserved. -/
theorem not_returned :
    ¬∀ (w : World) (es : List Event) (s : Server), w.reservedPorts = ∅ →
      Run (Fires next) (Pool.init w) es s → s.Returned := by
  intro h
  have hreturned := h archivedWorld restoreRun _ rfl (.of_exec rfl)
  have hpart : ({10001} : Finset Nat) = ∅ := hreturned.finished 0 ⟨_, _, rfl⟩
  exact Finset.singleton_ne_empty _ hpart

end Server

end OpenLander.Pipeline
