import OpenLander.Theory.Run
import OpenLander.Theory.Versioned
import Mathlib.Logic.Function.Basic

/-! # The project state machine

`ProjectStateManager.transition` (`src/monitor/project-state-manager.ts`) reads the project,
checks the requested status against the one it read, and writes it. The read and the write are
separate database calls, so that other calls run between them; nothing compares the row at the
write with the row that was read. -/

namespace OpenLander.ProjectStateManager
open Theory

inductive ProjectStatus
  | stopped | building | running | recovering | error
  deriving DecidableEq, Repr

def VALID_TRANSITIONS : ProjectStatus → List ProjectStatus
  | .stopped => [.building]
  | .building => [.running, .error]
  | .running => [.recovering, .stopped, .building]
  | .recovering => [.running, .error]
  | .error => [.building, .stopped, .recovering, .running]

def RECONCILIATION_TRANSITIONS : List ProjectStatus := [.running, .stopped]

/-- The columns that `transition` reads and writes. -/
structure Project where
  status : ProjectStatus
  recoveringStartedAt : Option Nat
  deriving DecidableEq, Repr

/-- The arguments of a call. -/
structure Call where
  targetStatus : ProjectStatus
  reason : String
  skipEvents : Bool := false
  deriving DecidableEq, Repr

/-- The payload of `project:status-changed`. -/
structure StatusChanged where
  «from» : ProjectStatus
  «to» : ProjectStatus
  reason : String
  deriving DecidableEq, Repr

def Call.isValidTransition (c : Call) (currentStatus : ProjectStatus) : Bool :=
  c.targetStatus ∈ VALID_TRANSITIONS currentStatus

def Call.isAllowedReconciliationTarget (c : Call) : Bool :=
  c.skipEvents && c.targetStatus ∈ RECONCILIATION_TRANSITIONS

/-- What `transition` does once it has read the project: return, or go on to the write. -/
def Call.check (c : Call) : Option Project → Option Bool
  | none => some false
  | some project =>
    if project.status = c.targetStatus then some true
    else if !c.isValidTransition project.status && !c.isAllowedReconciliationTarget then some false
    else none

/-- The update `transition` writes; `recovering` is the only status with a start time. -/
def Call.update (c : Call) (now : Nat) : Project where
  status := c.targetStatus
  recoveringStartedAt := if c.targetStatus = .recovering then some now else none

/-! ## Concurrent calls -/

/-- Where a call is. -/
inductive Phase
  | idle
  /-- The check passed on this copy of the row; the write has yet to reach the database. -/
  | writing (call : Call) (copy : Versioned (Option Project)) (currentStatus : ProjectStatus)
  | returned (result : Bool)
  deriving DecidableEq, Repr

/-- One write: the status before it and after it, and what its call had read. -/
structure Write where
  call : Call
  copy : Versioned (Option Project)
  readStatus : ProjectStatus
  old : ProjectStatus
  /-- The number of writes before this one. -/
  version : Nat
  deriving DecidableEq, Repr

structure State (ι : Type) where
  row : Versioned (Option Project)
  phase : ι → Phase := fun _ => .idle
  writes : List Write := []
  emitted : List StatusChanged := []

inductive Event (ι : Type)
  /-- `getProject` and the checks up to the next await. -/
  | read (i : ι) (call : Call)
  /-- `updateProject` and the rest of the call. -/
  | write (i : ι) (now : Nat)

variable {ι : Type} [DecidableEq ι]

def State.read (s : State ι) (i : ι) (call : Call) : State ι :=
  match call.check s.row.value, s.row.value with
  | some result, _ => { s with phase := Function.update s.phase i (.returned result) }
  | none, some project =>
    { s with phase := Function.update s.phase i (.writing call s.row project.status) }
  | none, none => s

def State.write (s : State ι) (i : ι) (now : Nat) (call : Call)
    (copy : Versioned (Option Project)) (currentStatus : ProjectStatus) : State ι where
  row := s.row.write (s.row.value.map fun _ => call.update now)
  phase := Function.update s.phase i (.returned true)
  writes := s.writes ++ (s.row.value.map fun project =>
    ⟨call, copy, currentStatus, project.status, s.row.version⟩).toList
  emitted :=
    if call.skipEvents then s.emitted
    else s.emitted ++ [⟨currentStatus, call.targetStatus, call.reason⟩]

def next (s : State ι) : Event ι → Option (State ι)
  | .read i call =>
    match s.phase i with
    | .idle => some (s.read i call)
    | _ => none
  | .write i now =>
    match s.phase i with
    | .writing call copy currentStatus => some (s.write i now call copy currentStatus)
    | _ => none

def init (project : Option Project) : State ι := { row := ⟨project, 0⟩ }

/-- A step of the state machine for the call: along `VALID_TRANSITIONS`, or a reconciliation. -/
def Permitted (c : Call) (old : ProjectStatus) : Prop :=
  c.isValidTransition old = true ∨ c.isAllowedReconciliationTarget = true

/-- No other call wrote between the read and the write of this one. -/
def Write.Undisturbed (w : Write) : Prop := w.copy.version = w.version

/-- Every two consecutive distinct persisted statuses are joined by a valid transition. -/
def FollowsStateMachine (s : State ι) : Prop :=
  ∀ w ∈ s.writes, w.old ≠ w.call.targetStatus → w.call.isValidTransition w.old = true

/-- `transition` only goes on to the write with a status that the check permits. -/
theorem Call.permitted_of_check {c : Call} {project : Project}
    (h : c.check (some project) = none) : Permitted c project.status := by
  simp only [Call.check] at h
  split at h <;> try contradiction
  split at h <;> try contradiction
  rename_i hno
  simp only [Bool.and_eq_true, Bool.not_eq_true', not_and, Bool.not_eq_false] at hno
  by_cases hv : c.isValidTransition project.status = true
  · exact .inl hv
  · exact .inr (hno (by simpa using hv))

structure Inv (s : State ι) : Prop where
  /-- A call about to write holds a copy of the row that was read, and its check passed on it. -/
  writing : ∀ i call copy current, s.phase i = .writing call copy current →
    copy.Before s.row ∧ Permitted call current ∧ copy.value.map (·.status) = some current
  /-- Every write was permitted by what its call had read, and its copy was read at or before. -/
  writes : ∀ w ∈ s.writes, Permitted w.call w.readStatus ∧ (w.Undisturbed → w.old = w.readStatus)
  emitted : ∀ e ∈ s.emitted, e.«to» ∈ VALID_TRANSITIONS e.from

omit [DecidableEq ι] in
theorem Inv.init (project : Option Project) : Inv (init project : State ι) :=
  ⟨fun _ _ _ _ h => (nomatch h), fun _ h => (nomatch h), fun _ h => (nomatch h)⟩

theorem Inv.read {s : State ι} (H : Inv s) (i : ι) (call : Call) : Inv (s.read i call) := by
  unfold State.read
  split
  · refine ⟨fun j c copy cur hj => ?_, H.writes, H.emitted⟩
    by_cases hji : j = i <;> simp only [Function.update_apply, hji, if_true, if_false] at hj
    · cases hj
    · exact H.writing j c copy cur hj
  · rename_i project hc hp
    refine ⟨fun j c copy cur hj => ?_, H.writes, H.emitted⟩
    by_cases hji : j = i <;> simp only [Function.update_apply, hji, if_true, if_false] at hj
    · cases hj
      rw [hp] at hc
      exact ⟨.refl, Call.permitted_of_check hc, by simp [hp]⟩
    · exact H.writing j c copy cur hj
  · exact H

theorem Inv.write {s : State ι} (H : Inv s) (hi : s.phase i = .writing call copy current) :
    Inv (s.write i now call copy current) := by
  obtain ⟨hb, hperm, hcur⟩ := H.writing i call copy current hi
  refine ⟨fun j c copy' cur hj => ?_, fun w hw => ?_, fun e he => ?_⟩
  · have hji : j ≠ i := by
      rintro rfl
      simp [State.write] at hj
    obtain ⟨hb', hrest⟩ := H.writing j c copy' cur (by simpa [State.write, hji] using hj)
    exact ⟨hb'.write _, hrest⟩
  · simp only [State.write, List.mem_append, Option.mem_toList,
      Option.map_eq_some_iff] at hw
    rcases hw with hw | ⟨project, hproject, rfl⟩
    · exact H.writes w hw
    · refine ⟨hperm, fun hu => ?_⟩
      rw [hb.eq_of_version hu, hproject] at hcur
      simpa using hcur
  · simp only [State.write] at he
    split at he
    · exact H.emitted e he
    · rename_i hskip
      rcases List.mem_append.mp he with he | he
      · exact H.emitted e he
      · cases List.mem_singleton.mp he
        simpa [Permitted, Call.isValidTransition, Call.isAllowedReconciliationTarget, hskip]
          using hperm

theorem Inv.step : Preserves (Fires next) (Inv (ι := ι)) := by
  intro s e t hs H
  cases e with
  | read i call =>
    simp only [Fires, next] at hs
    split at hs <;> cases hs
    exact H.read i call
  | write i now =>
    simp only [Fires, next] at hs
    split at hs <;> cases hs
    rename_i hi
    exact H.write hi

/-- Every write is a permitted step from the status that its call read. If no other call wrote in
between, it is a permitted step from the status it replaces. -/
theorem writes_permitted {project : Option Project} {es : List (Event ι)} {s : State ι}
    (h : Run (Fires next) (init project) es s) :
    ∀ w ∈ s.writes, Permitted w.call w.readStatus ∧ (w.Undisturbed → Permitted w.call w.old) := by
  intro w hw
  obtain ⟨hperm, hold⟩ := (h.invariant Inv.step (.init project)).writes w hw
  exact ⟨hperm, fun hu => hold hu ▸ hperm⟩

def deployStarted : Call := ⟨.building, "deploy-started", false⟩
def containerRunning : Call := ⟨.running, "docker reconciliation: container is running", true⟩
def containerMissing : Call := ⟨.stopped, "container missing", false⟩
def recoveryStarted : Call := ⟨.recovering, "recovery-started", false⟩

theorem writes_permitted_deployStarted :
    Permitted deployStarted .stopped ∧ Permitted containerRunning .stopped := by
  have h : Run (Fires next) (init (some ⟨.stopped, none⟩))
      [.read 0 deployStarted, .read 1 containerRunning, .write 0 5, .write 1 6] _ := .of_exec rfl
  have H := writes_permitted h
  exact ⟨(H _ (.head _)).1, (H _ (.tail _ (.head _))).1⟩

/-- Two calls read `running`. One writes `recovering`, and the other `stopped` over it. A
reconciliation alone takes a stopped project to `running`. -/
theorem not_followsStateMachine :
    (¬∀ (es : List (Event Nat)) (s : State Nat),
      Run (Fires next) (init (some ⟨.running, none⟩)) es s → FollowsStateMachine s) ∧
    ¬∀ (es : List (Event Nat)) (s : State Nat),
      Run (Fires next) (init (some ⟨.stopped, none⟩)) es s → FollowsStateMachine s := by
  constructor
  · intro h
    have hrun : Run (Fires next) (init (some ⟨.running, none⟩))
        [.read 0 recoveryStarted, .read 1 containerMissing, .write 0 5, .write 1 6] _ :=
      .of_exec rfl
    exact absurd (h _ _ hrun _ (.tail _ (.head _)) (by decide)) (by decide)
  · intro h
    have hrun : Run (Fires next) (init (some ⟨.stopped, none⟩))
        [.read 0 containerRunning, .write 0 5] _ := .of_exec rfl
    exact absurd (h _ _ hrun _ (.head _) (by decide)) (by decide)

/-! ## The start time of a recovery -/

/-- A project has a recovery start time exactly while it is recovering. -/
def Project.Timed (project : Project) : Prop :=
  project.recoveringStartedAt.isSome = true ↔ project.status = .recovering

theorem Call.update_timed (c : Call) (now : Nat) : (c.update now).Timed := by
  unfold Project.Timed Call.update
  split <;> simp_all

theorem timed_of_run {project : Option Project} {es : List (Event ι)} {s : State ι}
    (h : Run (Fires next) (init project) es s) (hp : ∀ p ∈ project, p.Timed) :
    ∀ p ∈ s.row.value, p.Timed := by
  refine h.invariant (I := fun s => ∀ p ∈ s.row.value, p.Timed) ?_ hp
  intro s e t hs hp
  cases e with
  | read i call =>
    simp only [Fires, next] at hs
    split at hs <;> cases hs
    unfold State.read
    split <;> exact hp
  | write i now =>
    simp only [Fires, next] at hs
    split at hs <;> cases hs
    intro p hp'
    simp only [State.write, Versioned.write_value, Option.mem_def, Option.map_eq_some_iff] at hp'
    obtain ⟨-, -, rfl⟩ := hp'
    exact Call.update_timed _ now

end OpenLander.ProjectStateManager
