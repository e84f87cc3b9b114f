import OpenLander.Compose.Service

/-! # The deployment sets

`planComposeDeploymentSets` (`src/pipeline/compose-deployment-sets.ts`) splits the services of a
Compose deployment into those whose container is replaced, those that are only verified, and the
one-shot jobs that run first. A set is the list of its members in the order of insertion. -/

namespace OpenLander.Compose
open Theory

structure ComposeDeploymentSets where
  replaceTargets : List String := []
  prerequisites : List String := []
  runOnceHooks : List String := []
  deriving DecidableEq, Repr

def ComposeDeploymentSets.includedServices (sets : ComposeDeploymentSets) : List String :=
  sets.replaceTargets ++ sets.prerequisites ++ sets.runOnceHooks

structure ComposeDeploymentSetOptions (φ : Type) where
  services : List ComposeService
  runtimeRoles : String → Option ComposeRuntimeRole
  selectedServices : Option (List String) := none
  existingServices : Option (List String) := none
  previousFingerprints : Option (String → Option φ) := none
  currentFingerprints : Option (String → Option φ) := none
  forceReplaceApplications : Bool := false
  statefulReplaceTargets : Option (List String) := none

namespace ComposeDeploymentSetOptions

variable {φ : Type} [DecidableEq φ] (o : ComposeDeploymentSetOptions φ)

def role (name : String) : ComposeRuntimeRole := (o.runtimeRoles name).getD .application

def selected : List String := o.selectedServices.getD []

def isSelective : Bool := !o.selected.isEmpty

def existing : List String := o.existingServices.getD []

def isMissing (name : String) : Bool := name ∉ o.existing

def isChanged (name : String) : Bool :=
  o.forceReplaceApplications ||
  match o.previousFingerprints.bind (· name), o.currentFingerprints.bind (· name) with
  | some previous, some current => previous != current
  | _, _ => true

/-- `options.statefulReplaceTargets?.has(name)`. -/
def isStatefulTarget (name : String) : Bool := name ∈ o.statefulReplaceTargets.getD []

/-! ## The three passes -/

/-- The body of the first loop. -/
def classify (sets : ComposeDeploymentSets) (service : ComposeService) : ComposeDeploymentSets :=
  let name := service.name
  if o.role name = .resource ∧ o.isStatefulTarget name then
    { sets with replaceTargets := insertLast sets.replaceTargets name }
  else if o.role name ≠ .application then sets
  else if o.isSelective then
    if name ∈ o.selected then
      { sets with replaceTargets := insertLast sets.replaceTargets name }
    else sets
  else if o.isMissing name || o.isChanged name then
    { sets with replaceTargets := insertLast sets.replaceTargets name }
  else { sets with prerequisites := insertLast sets.prerequisites name }

/-- The dependencies that `visitPrerequisite` follows from a name it adds. A hook belonging to a
reused application must not run. -/
def followed (replaceTargets : List String) (name : String) : Option (List String) :=
  if name ∈ replaceTargets then none
  else (serviceByName o.services name).map fun service =>
    service.dependencies.filter fun dependency => !service.awaitsCompletion dependency

def visitPrerequisite (replaceTargets prerequisites : List String) (serviceName : String) :
    List String :=
  visit (o.followed replaceTargets) (o.services.map (·.name)).length prerequisites serviceName

def planDependency (target : ComposeService) (sets : ComposeDeploymentSets)
    (dependency : String) : ComposeDeploymentSets :=
  if target.awaitsCompletion dependency then
    let hookDependencies :=
      ((serviceByName o.services dependency).map (·.dependencies)).getD []
    { sets with
      runOnceHooks := insertLast sets.runOnceHooks dependency
      prerequisites :=
        hookDependencies.foldl (o.visitPrerequisite sets.replaceTargets) sets.prerequisites }
  else
    { sets with
      prerequisites := o.visitPrerequisite sets.replaceTargets sets.prerequisites dependency }

/-- The body of the second loop. -/
def planTarget (sets : ComposeDeploymentSets) (targetName : String) : ComposeDeploymentSets :=
  match serviceByName o.services targetName with
  | none => sets
  | some target => target.dependencies.foldl (o.planDependency target) sets

/-- The body of the third loop, which a selective deployment leaves out. -/
def completeFull (sets : ComposeDeploymentSets) (service : ComposeService) :
    ComposeDeploymentSets :=
  let sets :=
    if o.role service.name = .resource ∧ service.name ∉ sets.replaceTargets then
      { sets with prerequisites := insertLast sets.prerequisites service.name }
    else sets
  if o.role service.name = .job ∧ o.existing = [] then
    { sets with runOnceHooks := insertLast sets.runOnceHooks service.name }
  else sets

def planComposeDeploymentSets : ComposeDeploymentSets :=
  let first := o.services.foldl o.classify {}
  let second := first.replaceTargets.foldl o.planTarget first
  let sets := if o.isSelective then second else o.services.foldl o.completeFull second
  { sets with
    prerequisites := (sets.prerequisites.filter (· ∉ sets.replaceTargets)).filter
      (· ∉ sets.runOnceHooks) }

omit [DecidableEq φ] in
/-- The recursion of the source, without fuel. -/
theorem visitPrerequisite_eq (targets pre : List String) (name : String) :
    o.visitPrerequisite targets pre name =
      if name ∈ pre then pre
      else (o.followed targets name).elim pre fun dependencies =>
        dependencies.foldl (o.visitPrerequisite targets) (insertLast pre name) := by
  apply visit_eq
  intro a ha
  rw [followed] at ha
  split at ha
  · cases ha
  · rw [Option.isSome_map, serviceByName_isSome] at ha
    exact List.mem_map.mpr ha

/-! ## What is replaced -/

/-- What holds of one name may be said of the other where both are the same. -/
theorem name_eq_and_iff {n name : String} {P : String → Prop} :
    (n = name ∧ P name) ↔ (name = n ∧ P n) :=
  ⟨fun ⟨h, hp⟩ => ⟨h.symm, h ▸ hp⟩, fun ⟨h, hp⟩ => ⟨h.symm, h ▸ hp⟩⟩

/-- The first loop puts a service of this name into `replaceTargets`. -/
def Replaces (name : String) : Prop :=
  o.role name = .resource ∧ o.isStatefulTarget name = true ∨
  o.role name = .application ∧
    (o.isSelective = true ∧ name ∈ o.selected ∨
      o.isSelective = false ∧ (o.isMissing name = true ∨ o.isChanged name = true))

theorem mem_classify_replaceTargets (sets : ComposeDeploymentSets) (service : ComposeService) :
    name ∈ (o.classify sets service).replaceTargets ↔
      name ∈ sets.replaceTargets ∨ (service.name = name ∧ o.Replaces name) := by
  rw [name_eq_and_iff, classify, Replaces]
  cases hr : o.role service.name <;> cases hs : o.isSelective <;>
    cases ht : o.isStatefulTarget service.name <;>
    by_cases hsel : service.name ∈ o.selected <;>
    cases hm : o.isMissing service.name <;> cases hc : o.isChanged service.name <;>
    simp [hsel]

omit [DecidableEq φ] in
/-- The second loop leaves `replaceTargets` alone. -/
theorem planTarget_replaceTargets (sets : ComposeDeploymentSets) (targetName : String) :
    (o.planTarget sets targetName).replaceTargets = sets.replaceTargets := by
  rw [planTarget]
  split
  · rfl
  · apply foldl_eq_of_step (p := ComposeDeploymentSets.replaceTargets)
    intro sets dependency
    rw [planDependency]
    split <;> rfl

omit [DecidableEq φ] in
theorem completeFull_replaceTargets (sets : ComposeDeploymentSets) (service : ComposeService) :
    (o.completeFull sets service).replaceTargets = sets.replaceTargets := by
  rw [completeFull]
  split <;> split <;> rfl

theorem plan_replaceTargets :
    o.planComposeDeploymentSets.replaceTargets =
      (o.services.foldl o.classify {}).replaceTargets := by
  have second : ∀ (l : List String) sets,
      (l.foldl o.planTarget sets).replaceTargets = sets.replaceTargets :=
    foldl_eq_of_step o.planTarget_replaceTargets
  have third : ∀ (l : List ComposeService) sets,
      (l.foldl o.completeFull sets).replaceTargets = sets.replaceTargets :=
    foldl_eq_of_step o.completeFull_replaceTargets
  rw [planComposeDeploymentSets]
  split
  · exact second ..
  · exact (third ..).trans (second ..)

/-- Exactly the services that the first loop picks are replaced. -/
theorem mem_replaceTargets :
    name ∈ o.planComposeDeploymentSets.replaceTargets ↔
      name ∈ o.services.map (·.name) ∧ o.Replaces name := by
  rw [plan_replaceTargets,
    foldl_iff_exists (p := fun sets : ComposeDeploymentSets => name ∈ sets.replaceTargets)
      o.mem_classify_replaceTargets]
  simp [← exists_and_right, and_assoc]

/-! ## What runs first -/

/-- Some replaced service awaits the completion of the one of this name. -/
def AwaitedByReplaced (name : String) : Prop :=
  ∃ target, serviceByName o.services target.name = some target ∧ o.Replaces target.name ∧
    name ∈ target.dependencies ∧ target.awaitsCompletion name = true

omit [DecidableEq φ] in
theorem mem_planDependency_runOnceHooks (target : ComposeService) (sets : ComposeDeploymentSets)
    (dependency : String) :
    name ∈ (o.planDependency target sets dependency).runOnceHooks ↔
      name ∈ sets.runOnceHooks ∨ (dependency = name ∧ target.awaitsCompletion name = true) := by
  rw [planDependency]
  split
  next h =>
    rw [mem_insertLast]
    exact or_congr_right ⟨fun hn => ⟨hn.symm, hn ▸ h⟩, fun ⟨hn, _⟩ => hn.symm⟩
  next h =>
    have : ¬(dependency = name ∧ target.awaitsCompletion name = true) := fun ⟨hn, ha⟩ => h (hn ▸ ha)
    simp only [this, or_false]

omit [DecidableEq φ] in
theorem mem_planTarget_runOnceHooks (sets : ComposeDeploymentSets) (targetName : String) :
    name ∈ (o.planTarget sets targetName).runOnceHooks ↔
      name ∈ sets.runOnceHooks ∨
        ∃ target, serviceByName o.services targetName = some target ∧
          name ∈ target.dependencies ∧ target.awaitsCompletion name = true := by
  rw [planTarget]
  cases serviceByName o.services targetName with
  | none => simp
  | some target =>
    rw [foldl_iff_exists (p := fun sets : ComposeDeploymentSets => name ∈ sets.runOnceHooks)
      (o.mem_planDependency_runOnceHooks target)]
    simp

omit [DecidableEq φ] in
theorem mem_completeFull_runOnceHooks (sets : ComposeDeploymentSets) (service : ComposeService) :
    name ∈ (o.completeFull sets service).runOnceHooks ↔
      name ∈ sets.runOnceHooks ∨
        (service.name = name ∧ o.role name = .job ∧ o.existing = []) := by
  rw [name_eq_and_iff (P := fun name => o.role name = .job ∧ o.existing = []), completeFull]
  split <;> split <;> simp_all

theorem classify_runOnceHooks (sets : ComposeDeploymentSets) (service : ComposeService) :
    (o.classify sets service).runOnceHooks = sets.runOnceHooks := by
  rw [classify]
  split_ifs <;> rfl

theorem mem_secondPass_runOnceHooks :
    name ∈ ((o.services.foldl o.classify {}).replaceTargets.foldl o.planTarget
        (o.services.foldl o.classify {})).runOnceHooks ↔ o.AwaitedByReplaced name := by
  have hfirst : (o.services.foldl o.classify {}).runOnceHooks = [] :=
    foldl_eq_of_step o.classify_runOnceHooks ..
  rw [foldl_iff_exists (p := fun sets : ComposeDeploymentSets => name ∈ sets.runOnceHooks)
      o.mem_planTarget_runOnceHooks, hfirst,
    ← plan_replaceTargets]
  simp only [List.not_mem_nil, false_or, mem_replaceTargets, AwaitedByReplaced]
  constructor
  · rintro ⟨targetName, ⟨-, hrep⟩, target, hby, hdep, haw⟩
    obtain ⟨-, rfl⟩ := mem_of_serviceByName hby
    exact ⟨target, hby, hrep, hdep, haw⟩
  · rintro ⟨target, hby, hrep, hdep, haw⟩
    have hmem := (mem_of_serviceByName hby).1
    exact ⟨target.name, ⟨List.mem_map_of_mem hmem, hrep⟩, target, hby, hdep, haw⟩

/-- A replaced service awaits the completion of this one, or it is a job of a first full
deployment. -/
def Runs (name : String) : Prop :=
  o.AwaitedByReplaced name ∨
    (o.isSelective = false ∧ name ∈ o.services.map (·.name) ∧ o.role name = .job ∧
      o.existing = [])

theorem mem_runOnceHooks :
    name ∈ o.planComposeDeploymentSets.runOnceHooks ↔ o.Runs name := by
  rw [Runs, ← mem_secondPass_runOnceHooks, planComposeDeploymentSets]
  cases o.isSelective with
  | true => simp
  | false =>
    simp only [Bool.false_eq_true, if_false]
    rw [foldl_iff_exists (p := fun sets : ComposeDeploymentSets => name ∈ sets.runOnceHooks)
      o.mem_completeFull_runOnceHooks]
    simp [← exists_and_right, and_assoc]

omit [DecidableEq φ] in
/-- A service whose completion is awaited has the role of a job. -/
theorem role_of_awaits (hroles : o.runtimeRoles = inferComposeRuntimeRoles o.services)
    (hby : serviceByName o.services service.name = some service)
    (hdep : name ∈ service.dependencies) (haw : service.awaitsCompletion name = true)
    (hdecl : name ∈ o.services.map (·.name)) : o.role name = .job := by
  have hjob : name ∈ jobNames o.services :=
    List.mem_flatMap.mpr ⟨service, (mem_of_serviceByName hby).1, List.mem_filter.mpr ⟨hdep, haw⟩⟩
  obtain ⟨service, hs⟩ := Option.isSome_iff_exists.mp
    (serviceByName_isSome.mpr (List.mem_map.mp hdecl))
  rw [role, hroles, inferComposeRuntimeRoles_eq, hs, Option.map_some, Option.getD_some,
    runtimeRole, (mem_of_serviceByName hs).2, if_pos hjob]

theorem role_of_awaited (hroles : o.runtimeRoles = inferComposeRuntimeRoles o.services)
    (h : o.AwaitedByReplaced name) (hdecl : name ∈ o.services.map (·.name)) :
    o.role name = .job := by
  obtain ⟨target, hby, -, hdep, haw⟩ := h
  exact o.role_of_awaits hroles hby hdep haw hdecl

theorem role_of_runs (hroles : o.runtimeRoles = inferComposeRuntimeRoles o.services)
    (h : o.Runs name) (hdecl : name ∈ o.services.map (·.name)) : o.role name = .job :=
  h.elim (o.role_of_awaited hroles · hdecl) (·.2.2.1)

/-! ## What is only verified -/

theorem mem_classify_prerequisites (sets : ComposeDeploymentSets) (service : ComposeService) :
    name ∈ (o.classify sets service).prerequisites ↔
      name ∈ sets.prerequisites ∨ (service.name = name ∧ o.role name = .application ∧
        o.isSelective = false ∧ ¬o.Replaces name) := by
  rw [name_eq_and_iff (P := fun name =>
    o.role name = .application ∧ o.isSelective = false ∧ ¬o.Replaces name), classify, Replaces]
  cases hr : o.role service.name <;> cases hs : o.isSelective <;>
    cases ht : o.isStatefulTarget service.name <;>
    by_cases hsel : service.name ∈ o.selected <;>
    cases hm : o.isMissing service.name <;> cases hc : o.isChanged service.name <;>
    simp [hsel]

omit [DecidableEq φ] in
theorem subset_planTarget_prerequisites (sets : ComposeDeploymentSets) (targetName : String) :
    sets.prerequisites ⊆ (o.planTarget sets targetName).prerequisites := by
  rw [planTarget]
  split
  · exact List.Subset.refl _
  next target _ =>
    induction target.dependencies generalizing sets with
    | nil => exact List.Subset.refl _
    | cons dependency dependencies ih =>
      rw [List.foldl_cons]
      refine List.Subset.trans ?_ (ih _)
      rw [planDependency]
      split
      · exact subset_foldl (fun _ _ => subset_visit ..) _ _
      · exact subset_visit ..

omit [DecidableEq φ] in
theorem subset_completeFull_prerequisites (sets : ComposeDeploymentSets)
    (service : ComposeService) :
    sets.prerequisites ⊆ (o.completeFull sets service).prerequisites := by
  rw [completeFull]
  split <;> split <;>
    first
      | exact List.Subset.refl _
      | exact subset_insertLast ..

/-- A full deployment verifies the applications that it does not replace. -/
theorem mem_prerequisites_of_application (hfull : o.isSelective = false)
    (hroles : o.runtimeRoles = inferComposeRuntimeRoles o.services)
    (hdecl : name ∈ o.services.map (·.name)) (happ : o.role name = .application)
    (hrep : ¬o.Replaces name) : name ∈ o.planComposeDeploymentSets.prerequisites := by
  have htarget : name ∉ o.planComposeDeploymentSets.replaceTargets :=
    fun h => hrep (o.mem_replaceTargets.mp h).2
  have hhook : name ∉ o.planComposeDeploymentSets.runOnceHooks := by
    intro h
    have hjob := o.role_of_runs hroles (o.mem_runOnceHooks.mp h) hdecl
    rw [happ] at hjob
    cases hjob
  have hfirst : name ∈ (o.services.foldl o.classify {}).prerequisites := by
    rw [foldl_iff_exists (p := fun sets : ComposeDeploymentSets => name ∈ sets.prerequisites)
      o.mem_classify_prerequisites]
    obtain ⟨service, hmem, hname⟩ := List.mem_map.mp hdecl
    exact .inr ⟨service, hmem, hname, happ, hfull, hrep⟩
  rw [planComposeDeploymentSets] at htarget hhook ⊢
  refine List.mem_filter.mpr ⟨List.mem_filter.mpr ⟨?_, decide_eq_true htarget⟩,
    decide_eq_true hhook⟩
  rw [hfull, if_neg Bool.false_ne_true]
  apply List.foldlRecOn (motive := fun sets : ComposeDeploymentSets => name ∈ sets.prerequisites)
  · apply List.foldlRecOn (motive := fun sets : ComposeDeploymentSets => name ∈ sets.prerequisites)
    · exact hfirst
    · exact fun sets h targetName _ => o.subset_planTarget_prerequisites sets targetName h
  · exact fun sets h service _ => o.subset_completeFull_prerequisites sets service h

end ComposeDeploymentSetOptions
end OpenLander.Compose
