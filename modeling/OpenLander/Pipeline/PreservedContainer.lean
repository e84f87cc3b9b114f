import OpenLander.Compose.Names
import OpenLander.Pipeline.Lifecycle

/-! # Containers that are kept in the archive

A stateful service of a Compose stack keeps its container while it is archived
(`src/pipeline/deploy/lifecycle.ts`): the container is stopped, taken off the network of the stack
and renamed before the database is written, and a restore goes the other way. Where a call rejects,
the `catch` takes back what has been done, as far as the local variables say. What was there before
is not remembered: a container that was stopped is started, and the aliases are recomputed. -/

namespace OpenLander.Pipeline.PreservedContainer
open Theory
open GreenCleanup (containerName composeContainerName)
open Compose (sanitizeComposeProjectName)
open Lifecycle (splitProjectName)

/-- The container with its networks, each with the aliases in it, and the columns of the two rows. -/
structure State where
  name : String
  running : Bool
  networks : String → Option (List String)
  projectArchivedAt : Option String
  serviceArchivedAt : Option String
  containerName : String

namespace State

def stopContainer (s : State) : State := { s with running := false }

def startContainer (s : State) : State := { s with running := true }

def renameContainer (name : String) (s : State) : State := { s with name }

/-- A container that is not connected is left as it is. -/
def disconnect (network : String) (s : State) : State :=
  { s with networks := Function.update s.networks network none }

/-- A container that is connected already keeps its aliases. -/
def connect (network : String) (aliases : List String) (s : State) : State :=
  let aliases := (s.networks network).getD aliases
  { s with networks := Function.update s.networks network (some aliases) }

/-- One transaction for the two rows. -/
def archiveProject (archivedAt preservedName : String) (s : State) : State :=
  { s with
    projectArchivedAt := some archivedAt
    serviceArchivedAt := some archivedAt
    containerName := preservedName }

def updateService (canonicalName : String) (s : State) : State :=
  { s with serviceArchivedAt := none, containerName := canonicalName }

end State

/-- What the operations wait for. -/
inductive Step
  | getProject
  | loadServiceViewRecord
  | getComposeChildProjects
  | stopContainer
  | disconnectContainerFromNetwork
  | inspectContainer
  | renameContainer
  | ensureProjectNetwork
  | connectContainerToNetwork
  | startContainer
  | archiveProject
  /-- The two statements of `unarchiveProject`. -/
  | unarchiveProject
  | unarchiveService
  | updateService
  deriving DecidableEq

inductive Rejection
  | call (step : Step)
  /-- Another container has the name. -/
  | nameInUse
  deriving DecidableEq

/-- The service, a `compose-child` with a container. -/
structure Service where
  containerId : String
  projectName : String

namespace Service
variable (service : Service)

def parentName : String := (splitProjectName service.projectName).1

def serviceName : String := (splitProjectName service.projectName).2

def canonicalName : String := composeContainerName service.parentName service.serviceName

/-- `/[^a-zA-Z0-9_.-]/` does not match. -/
def isIdChar (c : Char) : Bool := c.isAlphanum || c == '_' || c == '.' || c == '-'

def containerSuffix : String := .ofList ((service.containerId.toList.filter isIdChar).take 12)

def preservedName : String :=
  service.canonicalName ++ "-archived-" ++
    if service.containerSuffix = "" then "preserved" else service.containerSuffix

def projectNetwork : String := containerName (sanitizeComposeProjectName service.parentName)

end Service

section
variable (service : Service) (fails : Option Step)

/-- A call, which rejects if it is the one that fails. -/
def perform (step : Step) (effect : State → State := id) : Prog State Rejection Unit :=
  if fails = some step then throw (.call step) else .modify effect

/-- A call of a `catch`. -/
def compensate (done : Bool) (effect : State → State) : Prog State Rejection Unit :=
  if done then .modify effect else pure ()

/-! ## Archive -/

structure ArchiveVars where
  stopped : Bool := false
  disconnected : Bool := false
  renamed : Bool := false
  deriving DecidableEq

def moveName (originalName : String) : Prog (State × ArchiveVars) Rejection Unit :=
  if originalName ≠ service.preservedName then do
    perform fails .renameContainer (·.renameContainer service.preservedName)
    .assign ({ · with renamed := true })
  else pure ()

/-- The `try` of the source. -/
def archiveContainer (originalName archivedAt : String) :
    Prog (State × ArchiveVars) Rejection Unit := do
  perform fails .stopContainer (·.stopContainer)
  .assign ({ · with stopped := true })
  perform fails .disconnectContainerFromNetwork (·.disconnect service.projectNetwork)
  .assign ({ · with disconnected := true })
  moveName service fails originalName
  perform fails .archiveProject (·.archiveProject archivedAt service.preservedName)

/-- The `catch` of the source. -/
def undoArchive (originalName : String) (error : Rejection) :
    Prog (State × ArchiveVars) Rejection Unit := do
  let vars : ArchiveVars ← .read (·.2)
  compensate vars.renamed (·.renameContainer originalName)
  compensate vars.disconnected (·.connect service.projectNetwork [service.serviceName])
  compensate vars.stopped (·.startContainer)
  throw error

/-- With a marker a service that is archived already is left alone. The service has no children. -/
def archiveRuntimeProject (archivedAt : Option String) (now : String) :
    Prog State Rejection Unit := do
  perform fails .getProject
  perform fails .loadServiceViewRecord
  let s : State ← .read id
  if archivedAt.isSome && s.serviceArchivedAt.isSome then pure ()
  else
    perform fails .getComposeChildProjects
    .withVars {} (tryCatch (archiveContainer service fails s.containerName (archivedAt.getD now))
      (undoArchive service s.containerName))

/-! ## Restore -/

structure RestoreVars where
  renamed : Bool := false
  connected : Bool := false
  deriving DecidableEq

variable (holder : Option String)

/-- The container that `inspectContainer` finds under the canonical name: this one, or the other one
that holds it. -/
def conflicting (s : State) : Option String :=
  if s.name = service.canonicalName then some service.containerId else holder

/-- Another container has the name. -/
def nameInUse (s : State) : Bool :=
  (conflicting service holder s).any (· ≠ service.containerId)

/-- That Docker does not find the name is no failure. -/
def checkNameFree : Prog State Rejection Unit := do
  perform fails .inspectContainer
  if ← .read (nameInUse service holder) then throw .nameInUse

def takeName (preservedName : String) : Prog (State × RestoreVars) Rejection Unit :=
  if preservedName ≠ service.canonicalName then do
    perform fails .renameContainer (·.renameContainer service.canonicalName)
    .assign ({ · with renamed := true })
  else pure ()

/-- Two statements, one after the other. -/
def unarchiveProject : Prog State Rejection Unit := do
  perform fails .unarchiveProject ({ · with projectArchivedAt := none })
  perform fails .unarchiveService ({ · with serviceArchivedAt := none })

/-- The `try` of the source. -/
def restoreContainer (preservedName : String) : Prog (State × RestoreVars) Rejection Unit := do
  checkNameFree service fails holder
  takeName service fails preservedName
  perform fails .ensureProjectNetwork
  perform fails .connectContainerToNetwork (·.connect service.projectNetwork [service.serviceName])
  .assign ({ · with connected := true })
  perform fails .startContainer (·.startContainer)
  unarchiveProject fails
  perform fails .updateService (·.updateService service.canonicalName)

/-- The `catch` of the source. -/
def undoRestore (preservedName : String) (error : Rejection) :
    Prog (State × RestoreVars) Rejection Unit := do
  let vars : RestoreVars ← .read (·.2)
  compensate vars.connected (·.disconnect service.projectNetwork)
  compensate vars.renamed (·.renameContainer preservedName)
  throw error

def unarchiveRuntimeProject : Prog State Rejection Unit := do
  perform fails .getProject
  perform fails .loadServiceViewRecord
  let s : State ← .read id
  if s.projectArchivedAt.or s.serviceArchivedAt = none then pure ()
  else
    perform fails .getComposeChildProjects
    .withVars {} (tryCatch (restoreContainer service fails holder s.containerName)
      (undoRestore service s.containerName))

end

/-! ## Failure atomicity -/

def State.Unchanged (s s' : State) : Prop :=
  s'.running = s.running ∧ s'.networks = s.networks ∧
    s'.projectArchivedAt = s.projectArchivedAt ∧ s'.serviceArchivedAt = s.serviceArchivedAt

/-- A run that rejects leaves the container and the archived flag as they were. -/
def FailureAtomic (p : Prog State Rejection Unit) (s : State) : Prop :=
  p.Ends s fun r s' => ∀ e, r = .error e → s.Unchanged s'

section
variable (service : Service) (s : State)

/-- What the `catch` of an archive takes for granted: the container ran, and the name of the service
was its one alias. -/
def Restartable : Prop :=
  s.running ∧ s.networks service.projectNetwork = some [service.serviceName]

/-- The `catch` of an archive gives back what there was. -/
def ArchiveUndone : Option Step → Prop
  | some .disconnectContainerFromNetwork => s.running
  | some .renameContainer => s.containerName = service.preservedName ∨ Restartable service s
  | some .archiveProject => Restartable service s
  | _ => True

/-- The `catch` of a restore gives back what there was. -/
def UnarchiveUndone : Option Step → Prop
  | some .startContainer => s.networks service.projectNetwork = none
  | some .unarchiveProject => s.running ∧ s.networks service.projectNetwork = none
  | some .unarchiveService =>
    s.running ∧ s.networks service.projectNetwork = none ∧ s.projectArchivedAt = none
  | some .updateService => False
  | _ => True

end

/-! ## Runs -/

section
variable {service : Service} {s : State} {fails : Option Step}

@[simp] theorem run_perform_bind (step : Step) (effect : State → State)
    (k : Unit → Prog State Rejection α) :
    (perform fails step effect >>= k).run s =
      if fails = some step then (.error (.call step), s) else (k ()).run (effect s) := by
  unfold perform
  split <;> rfl

@[simp] theorem run_lift_perform_bind {τ : Type} {vars : τ} (step : Step) (effect : State → State)
    (k : Unit → Prog (State × τ) Rejection α) :
    ((liftM (perform fails step effect) : Prog (State × τ) Rejection Unit) >>= k).run (s, vars) =
      if fails = some step then (.error (.call step), s, vars)
      else (k ()).run (effect s, vars) := by
  unfold perform
  split <;> rfl

@[simp] theorem run_lift_perform {τ : Type} {vars : τ} (step : Step) (effect : State → State) :
    (liftM (perform fails step effect) : Prog (State × τ) Rejection Unit).run (s, vars) =
      if fails = some step then (.error (.call step), s, vars) else (.ok (), effect s, vars) := by
  unfold perform
  split <;> rfl

@[simp] theorem run_lift_compensate_bind {τ : Type} {vars : τ} (done : Bool)
    (effect : State → State) (k : Unit → Prog (State × τ) Rejection α) :
    ((liftM (compensate done effect) : Prog (State × τ) Rejection Unit) >>= k).run (s, vars) =
      (k ()).run (if done then effect s else s, vars) := by
  cases done <;> rfl

@[simp] theorem run_assign_bind {τ : Type} {vars : τ} (f : τ → τ)
    (k : Unit → Prog (State × τ) Rejection α) :
    (Prog.assign f >>= k).run (s, vars) = (k ()).run (s, f vars) := rfl

/-! ## Runs that reject -/

theorem failureAtomic_perform_bind (step : Step) (k : Unit → Prog State Rejection Unit) :
    FailureAtomic (perform fails step >>= k) s ↔ fails = some step ∨ FailureAtomic (k ()) s := by
  unfold FailureAtomic Prog.Ends
  rw [run_perform_bind]
  by_cases h : fails = some step
  · rw [if_pos h]
    exact iff_of_true (fun _ _ => ⟨rfl, rfl, rfl, rfl⟩) (.inl h)
  · rw [if_neg h, or_iff_right h]
    rfl

theorem failureAtomic_read_bind {g : State → β} (k : β → Prog State Rejection Unit) :
    FailureAtomic (.read g >>= k) s ↔ FailureAtomic (k (g s)) s := .rfl

theorem failureAtomic_of_ok {p : Prog State Rejection Unit} (h : p.Ends s fun r _ => r = .ok ()) :
    FailureAtomic p s :=
  h.mono fun _ _ hr _ he => nomatch hr.symm.trans he

theorem failureAtomic_iff_of_error {p : Prog State Rejection Unit} {t : State}
    (h : p.Ends s fun r s' => r = .error e ∧ s' = t) : FailureAtomic p s ↔ s.Unchanged t := by
  constructor
  · intro ha
    have hu := ha e h.1
    rwa [h.2] at hu
  · exact fun ht => h.mono fun _ _ ⟨_, hs'⟩ _ _ => hs' ▸ ht

theorem failureAtomic_pure : FailureAtomic (pure ()) s := fun _ h => nomatch h

/-! ## Archive runs -/

/-- The container where the `try` rejects, given what the variables say. -/
def State.archived (service : Service) (vars : ArchiveVars) (s : State) : State :=
  { s with
    name := if vars.renamed then service.preservedName else s.name
    running := s.running && !vars.stopped
    networks :=
      if vars.disconnected then Function.update s.networks service.projectNetwork none
      else s.networks }

/-- What the `catch` makes of it. -/
def State.restarted (service : Service) (vars : ArchiveVars) (originalName : String) (s : State) :
    State :=
  { s with
    name := if vars.renamed then originalName else s.name
    running := s.running || vars.stopped
    networks :=
      if vars.disconnected then
        Function.update s.networks service.projectNetwork (some [service.serviceName])
      else s.networks }

/-- The step at which the `try` of an archive rejects, with the variables there. -/
def archiveRejects (service : Service) (originalName : String) :
    Option Step → Option (Step × ArchiveVars)
  | some .stopContainer => some (.stopContainer, {})
  | some .disconnectContainerFromNetwork =>
    some (.disconnectContainerFromNetwork, { stopped := true })
  | some .renameContainer =>
    if originalName = service.preservedName then none
    else some (.renameContainer, { stopped := true, disconnected := true })
  | some .archiveProject =>
    some (.archiveProject, ⟨true, true, originalName ≠ service.preservedName⟩)
  | _ => none

@[simp] theorem run_moveName_bind {vars : ArchiveVars} (originalName : String)
    (k : Unit → Prog (State × ArchiveVars) Rejection α) :
    (moveName service fails originalName >>= k).run (s, vars) =
      if originalName = service.preservedName then (k ()).run (s, vars)
      else if fails = some .renameContainer then (.error (.call .renameContainer), s, vars)
      else (k ()).run (s.renameContainer service.preservedName, { vars with renamed := true }) := by
  unfold moveName perform
  by_cases h : originalName = service.preservedName
  · rw [if_neg (not_not.mpr h), if_pos h]
    rfl
  · rw [if_pos h, if_neg h]
    split <;> rfl

theorem archiveContainer_ends (originalName archivedAt : String) :
    (archiveContainer service fails originalName archivedAt).Ends (s, {}) fun r s' =>
      match archiveRejects service originalName fails with
      | none => r = .ok ()
      | some (step, vars) => r = .error (.call step) ∧ s' = (s.archived service vars, vars) := by
  unfold Prog.Ends archiveContainer
  by_cases h : originalName = service.preservedName
  all_goals
    cases fails with
    | none => simp [archiveRejects, h]
    | some step =>
      cases step <;>
        simp [archiveRejects, State.archived, State.stopContainer, State.disconnect,
          State.renameContainer, h]

theorem run_undoArchive (vars : ArchiveVars) (originalName : String) (error : Rejection) :
    (undoArchive service originalName error).run (s.archived service vars, vars) =
      (.error error, s.restarted service vars originalName, vars) := by
  unfold undoArchive State.archived State.restarted
  obtain ⟨stopped, disconnected, renamed⟩ := vars
  cases stopped <;> cases disconnected <;> cases renamed <;>
    simp [State.renameContainer, State.connect, State.startContainer]

theorem unchanged_restarted_iff (vars : ArchiveVars) (originalName : String) :
    s.Unchanged (s.restarted service vars originalName) ↔
      (vars.stopped → s.running) ∧
        (vars.disconnected → s.networks service.projectNetwork = some [service.serviceName]) := by
  obtain ⟨stopped, disconnected, renamed⟩ := vars
  unfold State.Unchanged State.restarted
  cases stopped <;> cases disconnected <;> simp [@eq_comm _ (some [service.serviceName])]

theorem archive_ends (originalName archivedAt : String) :
    (Prog.withVars {} (tryCatch (archiveContainer service fails originalName archivedAt)
      (undoArchive service originalName))).Ends s fun r s' =>
        match archiveRejects service originalName fails with
        | none => r = .ok ()
        | some (step, vars) =>
          r = .error (.call step) ∧ s' = s.restarted service vars originalName := by
  have hends : (archiveContainer service fails originalName archivedAt).Ends (s, {}) _ :=
    archiveContainer_ends originalName archivedAt
  refine .withVars (hends.tryCatch (fun _ s' h => ?_) (fun e s' h => ?_))
  · revert h
    cases archiveRejects service originalName fails with
    | none => exact id
    | some at_ => exact fun h => nomatch h.1
  · revert h
    cases archiveRejects service originalName fails with
    | none => exact fun h => nomatch h
    | some at_ =>
      intro ⟨he, hs'⟩
      subst hs'
      cases he
      exact .of_run (run_undoArchive at_.2 originalName _) ⟨rfl, rfl⟩

theorem archiveContainer_failureAtomic_iff (archivedAt : String) :
    FailureAtomic (Prog.withVars {}
      (tryCatch (archiveContainer service fails s.containerName archivedAt)
        (undoArchive service s.containerName))) s ↔ ArchiveUndone service s fails := by
  have hends : (Prog.withVars {} (tryCatch
      (archiveContainer service fails s.containerName archivedAt)
      (undoArchive service s.containerName))).Ends s _ :=
    archive_ends s.containerName archivedAt
  unfold ArchiveUndone Restartable
  cases fails with
  | none => exact iff_of_true (failureAtomic_of_ok hends) trivial
  | some step =>
    cases step with
    | stopContainer =>
      rw [failureAtomic_iff_of_error hends, unchanged_restarted_iff]
      simp
    | disconnectContainerFromNetwork =>
      rw [failureAtomic_iff_of_error hends, unchanged_restarted_iff]
      simp
    | renameContainer =>
      unfold archiveRejects at hends
      by_cases h : s.containerName = service.preservedName
      · rw [if_pos h] at hends
        exact iff_of_true (failureAtomic_of_ok hends) (.inl h)
      · rw [if_neg h] at hends
        rw [failureAtomic_iff_of_error hends, unchanged_restarted_iff]
        simp [h]
    | archiveProject =>
      rw [failureAtomic_iff_of_error hends, unchanged_restarted_iff]
      simp
    | _ => exact iff_of_true (failureAtomic_of_ok hends) trivial

theorem archiveRuntimeProject_failureAtomic_iff (archivedAt : Option String) (now : String) :
    FailureAtomic (archiveRuntimeProject service fails archivedAt now) s ↔
      archivedAt.isSome ∧ s.serviceArchivedAt.isSome ∨ ArchiveUndone service s fails := by
  unfold archiveRuntimeProject
  rw [failureAtomic_perform_bind, failureAtomic_perform_bind, failureAtomic_read_bind]
  by_cases h : archivedAt.isSome ∧ s.serviceArchivedAt.isSome
  · rw [if_pos (by simpa using h)]
    exact iff_of_true (.inr (.inr failureAtomic_pure)) (.inl h)
  · rw [if_neg (by simpa using h), failureAtomic_perform_bind, id_eq,
      archiveContainer_failureAtomic_iff, or_iff_right h]
    refine ⟨?_, fun hu => .inr (.inr (.inr hu))⟩
    rintro (rfl | rfl | rfl | hu)
    · trivial
    · trivial
    · trivial
    · exact hu

/-! ## Restore runs -/

section
variable (service : Service) (s : State)

/-- The name is taken. -/
def State.named : State :=
  if s.containerName = service.canonicalName then s else s.renameContainer service.canonicalName

/-- The container is on the network. -/
def State.connected : State :=
  (s.named service).connect service.projectNetwork [service.serviceName]

/-- What the `try` of a restore leaves where it rejects, if the name is free: the step and whether
the container has been connected. -/
def restoreRejects : Option Step → Option (Step × State × Bool)
  | some .inspectContainer => some (.inspectContainer, s, false)
  | some .renameContainer =>
    if s.containerName = service.canonicalName then none else some (.renameContainer, s, false)
  | some .ensureProjectNetwork => some (.ensureProjectNetwork, s.named service, false)
  | some .connectContainerToNetwork => some (.connectContainerToNetwork, s.named service, false)
  | some .startContainer => some (.startContainer, s.connected service, true)
  | some .unarchiveProject => some (.unarchiveProject, (s.connected service).startContainer, true)
  | some .unarchiveService =>
    some (.unarchiveService,
      { (s.connected service).startContainer with projectArchivedAt := none }, true)
  | some .updateService =>
    some (.updateService,
      { (s.connected service).startContainer with
        projectArchivedAt := none, serviceArchivedAt := none }, true)
  | _ => none

end

variable {holder : Option String}

theorem run_checkNameFree :
    (checkNameFree service fails holder).run s =
      if fails = some .inspectContainer then (.error (.call .inspectContainer), s)
      else if nameInUse service holder s then (.error .nameInUse, s)
      else (.ok (), s) := by
  unfold checkNameFree
  rw [run_perform_bind, Prog.run_read_bind, id_eq]
  cases nameInUse service holder s <;> rfl

@[simp] theorem run_lift_checkNameFree_bind {vars : RestoreVars}
    (k : Unit → Prog (State × RestoreVars) Rejection α) :
    ((liftM (checkNameFree service fails holder) : Prog (State × RestoreVars) Rejection Unit) >>=
        k).run (s, vars) =
      if fails = some .inspectContainer then (.error (.call .inspectContainer), s, vars)
      else if nameInUse service holder s then (.error .nameInUse, s, vars)
      else (k ()).run (s, vars) := by
  rw [Prog.run_lift_bind, run_checkNameFree]
  by_cases h : fails = some .inspectContainer
  · rw [if_pos h, if_pos h]
    rfl
  · rw [if_neg h, if_neg h]
    cases nameInUse service holder s <;> rfl

@[simp] theorem run_takeName_bind {vars : RestoreVars} (preservedName : String)
    (k : Unit → Prog (State × RestoreVars) Rejection α) :
    (takeName service fails preservedName >>= k).run (s, vars) =
      if preservedName = service.canonicalName then (k ()).run (s, vars)
      else if fails = some .renameContainer then (.error (.call .renameContainer), s, vars)
      else (k ()).run (s.renameContainer service.canonicalName, { vars with renamed := true }) := by
  unfold takeName perform
  by_cases h : preservedName = service.canonicalName
  · rw [if_neg (not_not.mpr h), if_pos h]
    rfl
  · rw [if_pos h, if_neg h]
    split <;> rfl

@[simp] theorem run_lift_unarchiveProject_bind {vars : RestoreVars}
    (k : Unit → Prog (State × RestoreVars) Rejection α) :
    ((liftM (unarchiveProject fails) : Prog (State × RestoreVars) Rejection Unit) >>= k).run
        (s, vars) =
      if fails = some .unarchiveProject then (.error (.call .unarchiveProject), s, vars)
      else if fails = some .unarchiveService then
        (.error (.call .unarchiveService), { s with projectArchivedAt := none }, vars)
      else (k ()).run ({ s with projectArchivedAt := none, serviceArchivedAt := none }, vars) := by
  unfold unarchiveProject perform
  by_cases h : fails = some .unarchiveProject
  · rw [if_pos h, if_pos h]
    rfl
  · rw [if_neg h, if_neg h]
    by_cases h' : fails = some .unarchiveService
    · rw [if_pos h', if_pos h']
      rfl
    · rw [if_neg h', if_neg h']
      rfl

theorem restoreContainer_ends (hfree : nameInUse service holder s = false) :
    (restoreContainer service fails holder s.containerName).Ends (s, {}) fun r s' =>
      match restoreRejects service s fails with
      | none => r = .ok ()
      | some (step, t, connected) =>
        r = .error (.call step) ∧ s'.1 = t ∧ s'.2.connected = connected := by
  unfold Prog.Ends restoreContainer
  by_cases h : s.containerName = service.canonicalName
  all_goals
    cases fails with
    | none => simp [restoreRejects, hfree, h]
    | some step =>
      cases step <;>
        simp [restoreRejects, State.named, State.connected, hfree, h]

/-- What the `catch` makes of what the `try` leaves. -/
def State.givenUp (service : Service) (vars : RestoreVars) (preservedName : String) (s : State) :
    State :=
  { s with
    name := if vars.renamed then preservedName else s.name
    networks :=
      if vars.connected then Function.update s.networks service.projectNetwork none
      else s.networks }

theorem run_undoRestore (vars : RestoreVars) (preservedName : String) (error : Rejection) :
    (undoRestore service preservedName error).run (s, vars) =
      (.error error, s.givenUp service vars preservedName, vars) := by
  unfold undoRestore State.givenUp
  obtain ⟨renamed, connected⟩ := vars
  cases renamed <;> cases connected <;> simp [State.renameContainer, State.disconnect]

/-- The container and the archived flag, which the name does not concern. -/
theorem restore_ends (hfree : nameInUse service holder s = false) :
    (Prog.withVars {} (tryCatch (restoreContainer service fails holder s.containerName)
      (undoRestore service s.containerName))).Ends s fun r s' =>
        match restoreRejects service s fails with
        | none => r = .ok ()
        | some (step, t, connected) =>
          ∃ renamed, r = .error (.call step) ∧
            s' = t.givenUp service ⟨renamed, connected⟩ s.containerName := by
  refine .withVars ((restoreContainer_ends hfree).tryCatch (fun _ s' h => ?_) (fun e s' h => ?_))
  · revert h
    cases restoreRejects service s fails with
    | none => exact id
    | some at_ => exact fun h => nomatch h.1
  · revert h
    cases restoreRejects service s fails with
    | none => exact fun h => nomatch h
    | some at_ =>
      obtain ⟨step, t, connected⟩ := at_
      obtain ⟨t', vars⟩ := s'
      obtain ⟨renamed, connected'⟩ := vars
      intro ⟨he, ht, hconnected⟩
      cases he
      cases ht
      cases hconnected
      exact .of_run (run_undoRestore _ s.containerName _) ⟨renamed, rfl, rfl⟩

theorem restoreContainer_run_inUse (hinUse : nameInUse service holder s = true) :
    ∃ e, (restoreContainer service fails holder s.containerName).run (s, {}) =
      (.error e, s, {}) := by
  unfold restoreContainer
  rw [run_lift_checkNameFree_bind, if_pos hinUse]
  split
  · exact ⟨_, rfl⟩
  · exact ⟨_, rfl⟩

/-- Nothing has been done when the name turns out to be in use. -/
theorem failureAtomic_of_inUse (hinUse : nameInUse service holder s = true) :
    FailureAtomic (Prog.withVars {}
      (tryCatch (restoreContainer service fails holder s.containerName)
        (undoRestore service s.containerName))) s := by
  obtain ⟨e, hrun⟩ : ∃ e, (restoreContainer service fails holder s.containerName).run (s, {}) =
      (.error e, s, {}) := restoreContainer_run_inUse hinUse
  have hundone : (tryCatch (restoreContainer service fails holder s.containerName)
      (undoRestore service s.containerName)).run (s, {}) = (.error e, s, {}) := by
    rw [Prog.run_tryCatch, hrun]
    exact run_undoRestore {} s.containerName e
  exact (failureAtomic_iff_of_error (.withVars (.of_run hundone ⟨rfl, rfl⟩))).mpr
    ⟨rfl, rfl, rfl, rfl⟩

@[simp] theorem named_running : (s.named service).running = s.running := by
  unfold State.named
  split <;> rfl

@[simp] theorem named_networks : (s.named service).networks = s.networks := by
  unfold State.named
  split <;> rfl

@[simp] theorem named_projectArchivedAt :
    (s.named service).projectArchivedAt = s.projectArchivedAt := by
  unfold State.named
  split <;> rfl

@[simp] theorem named_serviceArchivedAt :
    (s.named service).serviceArchivedAt = s.serviceArchivedAt := by
  unfold State.named
  split <;> rfl

theorem restoreContainer_failureAtomic_iff (hfree : nameInUse service holder s = false)
    (harchived : s.projectArchivedAt.or s.serviceArchivedAt ≠ none) :
    FailureAtomic (Prog.withVars {}
      (tryCatch (restoreContainer service fails holder s.containerName)
        (undoRestore service s.containerName))) s ↔ UnarchiveUndone service s fails := by
  have hends : (Prog.withVars {} (tryCatch
      (restoreContainer service fails holder s.containerName)
      (undoRestore service s.containerName))).Ends s _ := restore_ends hfree
  unfold UnarchiveUndone
  cases fails with
  | none => exact iff_of_true (failureAtomic_of_ok hends) trivial
  | some step =>
    cases step with
    | renameContainer =>
      unfold restoreRejects at hends
      by_cases h : s.containerName = service.canonicalName
      · rw [if_pos h] at hends
        exact iff_of_true (failureAtomic_of_ok hends) trivial
      · rw [if_neg h] at hends
        obtain ⟨renamed, hends⟩ := hends
        exact iff_of_true ((failureAtomic_iff_of_error hends).mpr ⟨rfl, rfl, rfl, rfl⟩) trivial
    | inspectContainer =>
      obtain ⟨renamed, hends⟩ := hends
      exact iff_of_true ((failureAtomic_iff_of_error hends).mpr ⟨rfl, rfl, rfl, rfl⟩) trivial
    | ensureProjectNetwork | connectContainerToNetwork =>
      obtain ⟨renamed, hends⟩ := hends
      rw [failureAtomic_iff_of_error hends]
      simp [State.Unchanged, State.givenUp]
    | startContainer =>
      obtain ⟨renamed, hends⟩ := hends
      rw [failureAtomic_iff_of_error hends]
      simp [State.Unchanged, State.givenUp, State.connected, State.connect,
        @eq_comm _ (none : Option (List String))]
    | unarchiveProject | unarchiveService =>
      obtain ⟨renamed, hends⟩ := hends
      rw [failureAtomic_iff_of_error hends]
      simp [State.Unchanged, State.givenUp, State.connected, State.connect, State.startContainer,
        @eq_comm _ (none : Option _)]
    | updateService =>
      obtain ⟨renamed, hends⟩ := hends
      rw [failureAtomic_iff_of_error hends, iff_false]
      intro ⟨_, _, hproject, hservice⟩
      exact harchived (by rw [← hproject, ← hservice]; rfl)
    | _ => exact iff_of_true (failureAtomic_of_ok hends) trivial

theorem unarchiveRuntimeProject_failureAtomic_iff :
    FailureAtomic (unarchiveRuntimeProject service fails holder) s ↔
      s.projectArchivedAt.or s.serviceArchivedAt = none ∨ nameInUse service holder s ∨
        UnarchiveUndone service s fails := by
  unfold unarchiveRuntimeProject
  rw [failureAtomic_perform_bind, failureAtomic_perform_bind, failureAtomic_read_bind, id_eq]
  by_cases h : s.projectArchivedAt.or s.serviceArchivedAt = none
  · rw [if_pos h]
    exact iff_of_true (.inr (.inr failureAtomic_pure)) (.inl h)
  · rw [if_neg h, failureAtomic_perform_bind, or_iff_right h]
    cases hinUse : nameInUse service holder s with
    | true => exact iff_of_true (.inr (.inr (.inr (failureAtomic_of_inUse hinUse)))) (.inl rfl)
    | false =>
      rw [restoreContainer_failureAtomic_iff hinUse h, or_iff_right Bool.false_ne_true]
      refine ⟨?_, fun hu => .inr (.inr (.inr hu))⟩
      rintro (rfl | rfl | rfl | hu)
      · trivial
      · trivial
      · trivial
      · exact hu

end

/-! ## The claim -/

/-- The database of the stack, which its container name and its name in the stack both reach. -/
def exampleService : Service := ⟨"0123456789abcdef", "shop/db"⟩

/-- It runs as `runComposeService` creates it, with two aliases. -/
def exampleState : State where
  name := "ol-shop-db"
  running := true
  networks := Function.update (fun _ => none) "ol-shop" (some ["shop-db", "db"])
  projectArchivedAt := none
  serviceArchivedAt := none
  containerName := "ol-shop-db"

theorem not_failureAtomic :
    ¬ ∀ (service : Service) (fails : Option Step) (archivedAt : Option String) (now : String)
      (holder : Option String) (s : State),
      FailureAtomic (archiveRuntimeProject service fails archivedAt now) s ∧
        FailureAtomic (unarchiveRuntimeProject service fails holder) s := by
  intro h
  have hunchanged := (h exampleService (some .archiveProject) none "now" none exampleState).1
    (.call .archiveProject) (by decide)
  have hnetworks := congrFun hunchanged.2.1 "ol-shop"
  revert hnetworks
  decide

/-- The operations are failure-atomic exactly where the `catch` gives back what there was: archiving
takes for granted that the container ran with the one alias, and a restore does not undo what comes
after the connection. -/
theorem failureAtomic_iff (service : Service) (fails : Option Step) (archivedAt : Option String)
    (now : String) (holder : Option String) (s : State) :
    (FailureAtomic (archiveRuntimeProject service fails archivedAt now) s ↔
      archivedAt.isSome ∧ s.serviceArchivedAt.isSome ∨ ArchiveUndone service s fails) ∧
    (FailureAtomic (unarchiveRuntimeProject service fails holder) s ↔
      s.projectArchivedAt.or s.serviceArchivedAt = none ∨ nameInUse service holder s ∨
        UnarchiveUndone service s fails) :=
  ⟨archiveRuntimeProject_failureAtomic_iff archivedAt now, unarchiveRuntimeProject_failureAtomic_iff⟩

end OpenLander.Pipeline.PreservedContainer
