import OpenLander.Compose.DeploymentSets

/-! # The stateful guard

`assertComposeStatefulChangesSafe` (`src/pipeline/compose-stateful-guard.ts`) refuses a Compose
deployment that would change or remove a stateful resource without an approval.
`ComposeDeployment` is what `deployComposeViaDockerode` (`src/pipeline/compose.ts`) hands to the
guard, to the planner and to the cleanup of orphaned children. -/

namespace OpenLander.Compose
open Theory

inductive StatefulChange
  | update | remove
  deriving DecidableEq, Repr

inductive StatefulGuardError
  | StatefulServiceRemovalBlockedError (serviceName : String)
  | StatefulServiceChangeBlockedError (serviceName : String)
  deriving DecidableEq, Repr

namespace StatefulGuardError

def message : StatefulGuardError → String
  | StatefulServiceRemovalBlockedError serviceName =>
    s!"Stateful Compose service '{serviceName}' was removed and cannot be deleted automatically."
  | StatefulServiceChangeBlockedError serviceName =>
    s!"Stateful Compose service '{serviceName}' changed and cannot be recreated automatically."

def code : StatefulGuardError → String
  | StatefulServiceRemovalBlockedError _ => "STATEFUL_SERVICE_REMOVAL_BLOCKED"
  | StatefulServiceChangeBlockedError _ => "STATEFUL_SERVICE_CHANGE_BLOCKED"

end StatefulGuardError

structure ExistingComposeRuntime where
  name : String
  runtimeRole : ComposeRuntimeRole

/-- The options of the guard. A map is the list of the entries it was built from. -/
structure StatefulGuardOptions (φ : Type) where
  currentServiceNames : List String
  currentRuntimeRoles : List (String × ComposeRuntimeRole)
  existingServices : List ExistingComposeRuntime
  previousFingerprints : Option (String → Option φ)
  currentFingerprints : String → Option φ
  approvedChanges : Option (String → Option StatefulChange)

namespace StatefulGuardOptions

variable {φ : Type} [DecidableEq φ] (o : StatefulGuardOptions φ)

def approved (serviceName : String) : Option StatefulChange :=
  o.approvedChanges.bind (· serviceName)

/-- The body of the first loop. -/
def checkRemoval (existing : ExistingComposeRuntime) : Except StatefulGuardError Unit :=
  if existing.runtimeRole ≠ .resource then .ok ()
  else if existing.name ∈ o.currentServiceNames then .ok ()
  else if o.approved existing.name = some .remove then .ok ()
  else .error (.StatefulServiceRemovalBlockedError existing.name)

/-- The body of the second loop. -/
def checkChange (previousFingerprints : String → Option φ) (serviceName : String) :
    Except StatefulGuardError Unit :=
  if fromEntries o.currentRuntimeRoles serviceName ≠ some .resource then .ok ()
  else if ∀ service ∈ o.existingServices, service.name ≠ serviceName then .ok ()
  else match previousFingerprints serviceName, o.currentFingerprints serviceName with
    | some previous, some current =>
      if previous = current then .ok ()
      else if o.approved serviceName = some .update then .ok ()
      else .error (.StatefulServiceChangeBlockedError serviceName)
    -- A v1 snapshot has no fingerprint.
    | _, _ => .ok ()

def assertComposeStatefulChangesSafe : Except StatefulGuardError Unit := do
  forM o.existingServices o.checkRemoval
  match o.previousFingerprints with
  | none => pure ()
  | some previousFingerprints =>
    forM (keys o.currentRuntimeRoles) (o.checkChange previousFingerprints)

theorem assertComposeStatefulChangesSafe_eq_ok :
    o.assertComposeStatefulChangesSafe = .ok () ↔
      (∀ existing ∈ o.existingServices, o.checkRemoval existing = .ok ()) ∧
      ∀ previousFingerprints, o.previousFingerprints = some previousFingerprints →
        ∀ serviceName ∈ keys o.currentRuntimeRoles,
          o.checkChange previousFingerprints serviceName = .ok () := by
  rw [← forM_eq_ok, assertComposeStatefulChangesSafe]
  cases forM o.existingServices o.checkRemoval with
  | error e =>
    constructor
    · intro h
      cases h
    · intro h
      cases h.1
  | ok =>
    cases o.previousFingerprints with
    | none => exact ⟨fun _ => ⟨rfl, fun _ h => (nomatch h)⟩, fun _ => rfl⟩
    | some previousFingerprints =>
      simp only [Option.some.injEq, forall_eq', ← forM_eq_ok, true_and]
      rfl

/-- What an accepted deployment removes of the resources is approved. -/
theorem removal_approved (h : o.assertComposeStatefulChangesSafe = .ok ())
    (hmem : existing ∈ o.existingServices) (hrole : existing.runtimeRole = .resource)
    (hgone : existing.name ∉ o.currentServiceNames) :
    o.approved existing.name = some .remove := by
  have hcheck := (o.assertComposeStatefulChangesSafe_eq_ok.mp h).1 existing hmem
  rw [checkRemoval, if_neg (not_not.mpr hrole), if_neg hgone] at hcheck
  split at hcheck
  · assumption
  · cases hcheck

end StatefulGuardOptions

/-! ## The deployment -/

/-- An existing child of the Compose project. Its project is named `parent/serviceName`. The
fingerprint is the one of the definition that its container was created from. -/
structure ComposeChild (φ : Type) where
  serviceName : String
  runtimeRole : ComposeRuntimeRole
  imageTag : Option String
  fingerprint : φ

structure StatefulComposeChange where
  serviceName : String
  change : StatefulChange

/-- `classifyStatefulComposeChanges` makes at most one change for each existing child. -/
structure StatefulComposeApproval where
  changes : List StatefulComposeChange
  nodup : (changes.map (·.serviceName)).Nodup

structure ComposeDeployment (φ : Type) where
  /-- The services of the active profiles. -/
  services : List ComposeService
  /-- `config.services`. -/
  selected : Option (List String)
  existingChildren : List (ComposeChild φ)
  previousServiceFingerprints : Option (String → Option φ)
  noCache : Bool
  sourceRevisionChanged : Bool
  statefulApproval : Option StatefulComposeApproval

/-- `name.replace(/__svc$/, '')`. -/
def withoutServiceSuffix (name : String) : String :=
  if "__svc".toList.isSuffixOf name.toList then
    String.ofList (name.toList.take (name.length - 5))
  else name

namespace ComposeDeployment

variable {φ : Type} [DecidableEq φ] (hash : ComposeService → φ) (d : ComposeDeployment φ)

def serviceNames : List String := d.services.map (·.name)

def changes : List StatefulComposeChange := (d.statefulApproval.map (·.changes)).getD []

def approvedChanges : String → Option StatefulChange :=
  fromEntries (d.changes.map fun change => (change.serviceName, change.change))

def inferredExistingRuntimeRoles : String → Option ComposeRuntimeRole :=
  inferComposeRuntimeRoles (d.existingChildren.map fun child =>
    { name := withoutServiceSuffix child.serviceName, image := child.imageTag })

/-- The role of an existing child that the guard sees. -/
def existingRole (child : ComposeChild φ) : ComposeRuntimeRole :=
  if child.runtimeRole = .resource then child.runtimeRole
  else (d.inferredExistingRuntimeRoles child.serviceName).getD child.runtimeRole

def guardOptions : StatefulGuardOptions φ where
  currentServiceNames := d.serviceNames
  currentRuntimeRoles := runtimeRoleEntries d.services
  existingServices := d.existingChildren.map fun child => ⟨child.serviceName, d.existingRole child⟩
  previousFingerprints := d.previousServiceFingerprints
  currentFingerprints := fingerprintComposeServices hash d.services
  approvedChanges := some d.approvedChanges

def setOptions : ComposeDeploymentSetOptions φ where
  services := d.services
  runtimeRoles := inferComposeRuntimeRoles d.services
  selectedServices := d.selected
  existingServices := some (d.existingChildren.map (·.serviceName))
  previousFingerprints := d.previousServiceFingerprints
  currentFingerprints := some (fingerprintComposeServices hash d.services)
  forceReplaceApplications := d.noCache || d.sourceRevisionChanged
  statefulReplaceTargets :=
    some ((d.changes.filter (·.change = .update)).map (·.serviceName))

def deploymentSets : ComposeDeploymentSets := (d.setOptions hash).planComposeDeploymentSets

/-- The children whose container and rows a deployment deletes. -/
def orphanChildren : List (ComposeChild φ) :=
  if (d.setOptions hash).isSelective then []
  else d.existingChildren.filter fun child =>
    !(child.serviceName = "" || child.serviceName ∈ d.serviceNames ||
      d.approvedChanges child.serviceName = some .remove)

def Accepted : Prop := (d.guardOptions hash).assertComposeStatefulChangesSafe = .ok ()

/-! ## Stateful children -/

/-- The definition of the child is not the one that its container was created from. -/
def Changed (child : ComposeChild φ) : Prop :=
  fingerprintComposeServices hash d.services child.serviceName ≠ some child.fingerprint

/-- The approval names the child with what the deployment does to it. -/
def Approved (child : ComposeChild φ) : Prop :=
  d.approvedChanges child.serviceName =
    some (if child.serviceName ∈ d.serviceNames then .update else .remove)

/-- No recorded resource is recreated from another definition or deleted without approval. -/
def Sound : Prop :=
  ∀ child ∈ d.existingChildren, child.runtimeRole = .resource → ¬d.Approved child →
    (d.Changed hash child → child.serviceName ∉ (d.deploymentSets hash).replaceTargets ∧
      child.serviceName ∉ (d.deploymentSets hash).runOnceHooks) ∧
    child ∉ d.orphanChildren hash

/-- A recorded resource whose changed definition makes it an application that this deployment
replaces, or a job that a replaced application awaits. -/
structure Demoted (child : ComposeChild φ) : Prop where
  existing : child ∈ d.existingChildren
  resource : child.runtimeRole = .resource
  declared : child.serviceName ∈ d.serviceNames
  changed : d.Changed hash child
  unapproved : d.approvedChanges child.serviceName ≠ some .update
  role :
    inferComposeRuntimeRoles d.services child.serviceName = some .application ∧
        (if (d.setOptions hash).isSelective then child.serviceName ∈ (d.setOptions hash).selected
          else (d.setOptions hash).isChanged child.serviceName) ∨
      inferComposeRuntimeRoles d.services child.serviceName = some .job ∧
        (d.setOptions hash).AwaitedByReplaced child.serviceName

omit [DecidableEq φ] in
/-- The replacement of a stateful service is an approved update. -/
theorem approved_of_isStatefulTarget (h : (d.setOptions hash).isStatefulTarget name = true) :
    d.approvedChanges name = some .update := by
  rw [ComposeDeploymentSetOptions.isStatefulTarget, decide_eq_true_eq, setOptions] at h
  obtain ⟨change, hmem, rfl⟩ := List.mem_map.mp h
  obtain ⟨hmem, hupdate⟩ := List.mem_filter.mp hmem
  rw [decide_eq_true_eq] at hupdate
  have hd : ((d.changes.map fun c => (c.serviceName, c.change)).map (·.1)).Nodup := by
    rw [List.map_map, changes]
    cases d.statefulApproval with
    | none => exact .nil
    | some approval => exact approval.nodup
  exact fromEntries_of_nodup hd (List.mem_map.mpr ⟨change, hmem, by rw [hupdate]⟩)

omit [DecidableEq φ] in
theorem mem_orphanChildren (h : child ∈ d.orphanChildren hash) :
    child.serviceName ∉ d.serviceNames := by
  rw [orphanChildren] at h
  split at h
  · cases h
  · simp_all

theorem removal_approved (h : d.Accepted hash) (hmem : child ∈ d.existingChildren)
    (hrole : child.runtimeRole = .resource) (hgone : child.serviceName ∉ d.serviceNames) :
    d.approvedChanges child.serviceName = some .remove := by
  have hex : ⟨child.serviceName, d.existingRole child⟩ ∈ (d.guardOptions hash).existingServices :=
    List.mem_map_of_mem hmem
  have hres : d.existingRole child = .resource := by rw [existingRole, if_pos hrole, hrole]
  exact (d.guardOptions hash).removal_approved h hex hres hgone

omit [DecidableEq φ] in
@[simp] theorem setOptions_role (name : String) :
    (d.setOptions hash).role name =
      (inferComposeRuntimeRoles d.services name).getD .application := rfl

omit [DecidableEq φ] in
theorem role_eq (hdecl : name ∈ d.serviceNames) :
    inferComposeRuntimeRoles d.services name = some ((d.setOptions hash).role name) := by
  obtain ⟨service, hs⟩ := Option.isSome_iff_exists.mp
    (serviceByName_isSome.mpr (List.mem_map.mp hdecl))
  have hr : inferComposeRuntimeRoles d.services name = some (runtimeRole d.services service) := by
    rw [inferComposeRuntimeRoles_eq, hs, Option.map_some]
  rw [setOptions_role, hr, Option.getD_some]

omit [DecidableEq φ] in
theorem mem_existing (hmem : child ∈ d.existingChildren) :
    child.serviceName ∈ (d.setOptions hash).existing :=
  List.mem_map_of_mem hmem

/-- In an accepted deployment, a changed resource that is replaced or run without approval is
demoted. -/
theorem demoted_of_planned (h : d.Accepted hash) (hmem : child ∈ d.existingChildren)
    (hrole : child.runtimeRole = .resource) (hun : ¬d.Approved child)
    (hch : d.Changed hash child)
    (hplan : child.serviceName ∈ (d.deploymentSets hash).replaceTargets ∨
      child.serviceName ∈ (d.deploymentSets hash).runOnceHooks) : d.Demoted hash child := by
  have hdecl : child.serviceName ∈ d.serviceNames := by
    by_contra hgone
    apply hun
    rw [Approved, if_neg hgone]
    exact removal_approved hash d h hmem hrole hgone
  rw [Approved, if_pos hdecl] at hun
  have hex := mem_existing hash d hmem
  refine ⟨hmem, hrole, hdecl, hch, hun, ?_⟩
  rcases hplan with hrep | hhook
  · obtain ⟨-, hrep⟩ := (d.setOptions hash).mem_replaceTargets.mp hrep
    rcases hrep with ⟨-, htarget⟩ | ⟨happ, hsel⟩
    · exact absurd (approved_of_isStatefulTarget hash d htarget) hun
    · refine .inl ⟨(role_eq hash d hdecl).trans (congrArg some happ), ?_⟩
      rcases hsel with ⟨hs, hsel⟩ | ⟨hs, hmiss | hchg⟩
      · rw [if_pos hs]
        exact hsel
      · simp [ComposeDeploymentSetOptions.isMissing, hex] at hmiss
      · rw [hs]
        exact hchg
  · rcases (d.setOptions hash).mem_runOnceHooks.mp hhook with haw | ⟨-, -, -, hnone⟩
    · have hjob := (d.setOptions hash).role_of_awaited rfl haw hdecl
      exact .inr ⟨(role_eq hash d hdecl).trans (congrArg some hjob), haw⟩
    · rw [hnone] at hex
      cases hex

/-- A demoted resource is replaced or run without approval, whether or not the guard accepts. -/
theorem planned_of_demoted (h : d.Demoted hash child) :
    ¬d.Approved child ∧ (child.serviceName ∈ (d.deploymentSets hash).replaceTargets ∨
      child.serviceName ∈ (d.deploymentSets hash).runOnceHooks) := by
  constructor
  · rw [Approved, if_pos h.declared]
    exact h.unapproved
  have hr := role_eq hash d h.declared
  rcases h.role with ⟨happ, hsel⟩ | ⟨-, haw⟩
  · refine .inl ((d.setOptions hash).mem_replaceTargets.mpr ⟨h.declared, .inr ⟨?_, ?_⟩⟩)
    · exact Option.some.inj (hr.symm.trans happ)
    · split at hsel
      next hs => exact .inl ⟨hs, hsel⟩
      next hs => exact .inr ⟨Bool.not_eq_true _ ▸ hs, .inr hsel⟩
  · exact .inr ((d.setOptions hash).mem_runOnceHooks.mpr (.inl haw))

/-- The guard is sound exactly for the deployments that demote no recorded resource. -/
theorem sound_iff_no_demoted :
    (d.Accepted hash → d.Sound hash) ↔ (d.Accepted hash → ∀ child, ¬d.Demoted hash child) := by
  refine imp_congr_right fun h => ⟨fun hs child hd => ?_, fun hn child hmem hrole hun => ?_⟩
  · obtain ⟨hun, hplan⟩ := planned_of_demoted hash d hd
    obtain ⟨hrep, hhook⟩ := (hs child hd.existing hd.resource hun).1 hd.changed
    exact hplan.elim hrep hhook
  · constructor
    · intro hch
      rw [← not_or]
      exact fun hplan => hn child (demoted_of_planned hash d h hmem hrole hun hch hplan)
    · intro horphan
      have hgone := mem_orphanChildren hash d horphan
      apply hun
      rw [Approved, if_neg hgone]
      exact removal_approved hash d h hmem hrole hgone

/-! ## A resource that becomes an application -/

def database (image : String) : ComposeService := { name := "db", image := some image }

/-- The image of a stateful database is replaced by one whose name is not that of a resource. -/
def reimaged : ComposeDeployment ComposeService where
  services := [database "mycorp/db"]
  selected := none
  existingChildren := [⟨"db", .resource, some "postgres:16", database "postgres:16"⟩]
  previousServiceFingerprints :=
    some (fingerprintComposeServices id [database "postgres:16"])
  noCache := false
  sourceRevisionChanged := false
  statefulApproval := none

theorem reimaged_accepted_not_sound : reimaged.Accepted id ∧ ¬reimaged.Sound id := by
  have hmem : ⟨"db", .resource, some "postgres:16", database "postgres:16"⟩ ∈
      reimaged.existingChildren := List.mem_singleton.mpr rfl
  have haccepted : reimaged.Accepted id := by
    rw [Accepted]
    decide
  have hunapproved : reimaged.approvedChanges "db" = none := by decide
  have hchanged : fingerprintComposeServices id reimaged.services "db" ≠
      some (database "postgres:16") := by decide
  have hreplaced : "db" ∈ (reimaged.deploymentSets id).replaceTargets := by decide
  refine ⟨haccepted, fun h => ?_⟩
  refine ((h _ hmem rfl ?_).1 hchanged).1 hreplaced
  rw [Approved, hunapproved]
  exact (nomatch ·)

end ComposeDeployment
end OpenLander.Compose
