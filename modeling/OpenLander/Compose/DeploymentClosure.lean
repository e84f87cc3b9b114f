import OpenLander.Compose.DeploymentSets

/-! # What the deployment sets leave out

With the inferred roles, the three sets are disjoint, and they include the dependencies of what is
replaced and of the jobs that run. They may leave out a job that a reused service only has to have
started, and a job that a job awaits is verified but not run. -/

namespace OpenLander.Compose
open Theory
namespace ComposeDeploymentSetOptions

variable {φ : Type} [DecidableEq φ] (o : ComposeDeploymentSetOptions φ)

def Declared (name : String) : Prop := name ∈ o.services.map (·.name)

/-- The service is the one that its name is looked up as. -/
def Has (service : ComposeService) : Prop := serviceByName o.services service.name = some service

/-- An application that a full deployment does not replace. -/
def Reused (name : String) : Prop :=
  o.isSelective = false ∧ o.role name = .application ∧ ¬o.Replaces name

/-- What `visitPrerequisite` is called with: the dependencies of replaced services and of the jobs
that these await, and what follows from there, not past what is replaced or reused. -/
inductive Reached : String → Prop
  | dependency {target : ComposeService} (htarget : o.Has target) (h : o.Replaces target.name)
      (hdep : name ∈ target.dependencies) (hawaits : target.awaitsCompletion name = false) :
      Reached name
  | hook {job : ComposeService} (hjob : o.Has job) (h : o.AwaitedByReplaced job.name)
      (hdep : name ∈ job.dependencies) : Reached name
  | step {service : ComposeService} (hservice : o.Has service) (h : Reached service.name)
      (hreplaces : ¬o.Replaces service.name) (hreused : ¬o.Reused service.name)
      (hdep : name ∈ service.dependencies) (hawaits : service.awaitsCompletion name = false) :
      Reached name

/-- A replaced service needs the one of this name to run to completion, directly or through others
that it needs so. -/
inductive Needs (replaceTargets : List String) : String → Prop
  | direct {target : ComposeService} (htarget : o.Has target) (h : target.name ∈ replaceTargets)
      (hdep : name ∈ target.dependencies) (hawaits : target.awaitsCompletion name = true) :
      Needs replaceTargets name
  | chain {job : ComposeService} (hjob : o.Has job) (h : Needs replaceTargets job.name)
      (hdep : name ∈ job.dependencies) (hawaits : job.awaitsCompletion name = true) :
      Needs replaceTargets name

/-- The sets are disjoint and closed. -/
structure Closed (sets : ComposeDeploymentSets) : Prop where
  replaced_prerequisites : sets.replaceTargets.Disjoint sets.prerequisites
  replaced_hooks : sets.replaceTargets.Disjoint sets.runOnceHooks
  prerequisites_hooks : sets.prerequisites.Disjoint sets.runOnceHooks
  dependencies : ∀ service, o.Has service →
    service.name ∈ sets.replaceTargets ∨ service.name ∈ sets.runOnceHooks →
      ∀ name ∈ service.dependencies, o.Declared name → name ∈ sets.includedServices
  prerequisites : ∀ service, o.Has service → service.name ∈ sets.prerequisites →
    ∀ name ∈ service.dependencies, service.awaitsCompletion name = false → o.Declared name →
      name ∈ sets.includedServices
  jobs : ∀ name, o.Needs sets.replaceTargets name → o.Declared name → name ∈ sets.runOnceHooks

/-- Where a full deployment reuses a service that a job only has to have been started for, the job
runs or is reached in another way. Each job that an awaited job awaits runs itself. -/
def JobsCovered : Prop :=
  (o.isSelective = false → ∀ service, o.Has service → o.role service.name ≠ .job →
      ¬o.Replaces service.name → ∀ name ∈ service.dependencies,
        service.awaitsCompletion name = false → o.Declared name → o.role name = .job →
          o.Runs name ∨ o.Reached name) ∧
    ∀ job, o.Has job → o.AwaitedByReplaced job.name → ∀ name ∈ job.dependencies,
      job.awaitsCompletion name = true → o.Declared name → o.Runs name

/-! ## The prerequisites -/

/-- What the second loop visits for one dependency of a target. -/
def seeds (target : ComposeService) (dependency : String) : List String :=
  if target.awaitsCompletion dependency then
    ((serviceByName o.services dependency).map (·.dependencies)).getD []
  else [dependency]

def targetSeeds (targetName : String) : List String :=
  ((serviceByName o.services targetName).map fun target =>
    target.dependencies.flatMap (o.seeds target)).getD []

omit [DecidableEq φ] in
theorem planDependency_prerequisites (target : ComposeService) (sets : ComposeDeploymentSets)
    (dependency : String) :
    (o.planDependency target sets dependency).prerequisites =
      (o.seeds target dependency).foldl (o.visitPrerequisite sets.replaceTargets)
        sets.prerequisites := by
  rw [planDependency, seeds]
  split <;> rfl

omit [DecidableEq φ] in
theorem planTarget_prerequisites (sets : ComposeDeploymentSets) (targetName : String) :
    (o.planTarget sets targetName).prerequisites =
      (o.targetSeeds targetName).foldl (o.visitPrerequisite sets.replaceTargets)
        sets.prerequisites := by
  rw [planTarget, targetSeeds]
  cases serviceByName o.services targetName with
  | none => rfl
  | some target =>
    rw [Option.map_some, Option.getD_some]
    simp only
    induction target.dependencies generalizing sets with
    | nil => rfl
    | cons dependency dependencies ih =>
      have htargets : (o.planDependency target sets dependency).replaceTargets =
          sets.replaceTargets := by
        rw [planDependency]
        split <;> rfl
      rw [List.foldl_cons, ih, List.flatMap_cons, List.foldl_append, planDependency_prerequisites,
        htargets]

omit [DecidableEq φ] in
theorem foldl_planTarget_prerequisites (names : List String) (sets : ComposeDeploymentSets) :
    (names.foldl o.planTarget sets).prerequisites =
      (names.flatMap o.targetSeeds).foldl (o.visitPrerequisite sets.replaceTargets)
        sets.prerequisites := by
  induction names generalizing sets with
  | nil => rfl
  | cons targetName names ih =>
    rw [List.foldl_cons, ih, List.flatMap_cons, List.foldl_append, planTarget_prerequisites,
      planTarget_replaceTargets]

/-- The sets after the first loop. -/
def firstSets : ComposeDeploymentSets := o.services.foldl o.classify {}

theorem mem_firstSets_replaceTargets :
    name ∈ o.firstSets.replaceTargets ↔ o.Declared name ∧ o.Replaces name := by
  rw [firstSets, ← plan_replaceTargets, mem_replaceTargets, Declared]

theorem mem_firstSets_prerequisites :
    name ∈ o.firstSets.prerequisites ↔ o.Declared name ∧ o.Reused name := by
  rw [firstSets,
    foldl_iff_exists (p := fun sets : ComposeDeploymentSets => name ∈ sets.prerequisites)
      o.mem_classify_prerequisites, Declared, List.mem_map, Reused]
  simp only [List.not_mem_nil, false_or, ← and_assoc, exists_and_right]
  grind

omit [DecidableEq φ] in
theorem has_of_serviceByName (h : serviceByName o.services name = some service) :
    o.Has service ∧ service.name = name := by
  have hname := (mem_of_serviceByName h).2
  rw [Has, hname]
  exact ⟨h, rfl⟩

omit [DecidableEq φ] in
theorem declared_of_has (h : o.Has service) : o.Declared service.name :=
  List.mem_map_of_mem (mem_of_serviceByName h).1

omit [DecidableEq φ] in
theorem exists_has (h : o.Declared name) : ∃ service, o.Has service ∧ service.name = name := by
  obtain ⟨service, hservice⟩ := Option.isSome_iff_exists.mp
    (serviceByName_isSome.mpr (List.mem_map.mp h))
  exact ⟨service, o.has_of_serviceByName hservice⟩

theorem followed_isSome_iff :
    (o.followed o.firstSets.replaceTargets name).isSome = true ↔
      o.Declared name ∧ ¬o.Replaces name := by
  have hdeclared : (serviceByName o.services name).isSome = true ↔ o.Declared name := by
    rw [serviceByName_isSome, Declared, List.mem_map]
  rw [followed]
  split
  next h => exact iff_of_false (by rintro ⟨⟩) fun hnot => hnot.2 (o.mem_firstSets_replaceTargets.mp h).2
  next h =>
    rw [Option.isSome_map, hdeclared]
    refine ⟨fun hname => ⟨hname, fun hreplaces => h ?_⟩, And.left⟩
    exact o.mem_firstSets_replaceTargets.mpr ⟨hname, hreplaces⟩

theorem mem_followed_iff :
    name ∈ (o.followed o.firstSets.replaceTargets origin).getD [] ↔
      ∃ service, o.Has service ∧ service.name = origin ∧ ¬o.Replaces origin ∧
        name ∈ service.dependencies ∧ service.awaitsCompletion name = false := by
  constructor
  · intro h
    cases hfollowed : o.followed o.firstSets.replaceTargets origin with
    | none =>
      rw [hfollowed] at h
      cases h
    | some names =>
      have hreplaces := (o.followed_isSome_iff.mp (Option.isSome_of_eq_some hfollowed)).2
      rw [hfollowed] at h
      rw [followed] at hfollowed
      split at hfollowed
      · cases hfollowed
      · obtain ⟨service, hservice, rfl⟩ := Option.map_eq_some_iff.mp hfollowed
        obtain ⟨hhas, hname⟩ := o.has_of_serviceByName hservice
        obtain ⟨hdep, hawaits⟩ := List.mem_filter.mp h
        exact ⟨service, hhas, hname, hreplaces, hdep, by simpa using hawaits⟩
  · rintro ⟨service, hhas, rfl, hreplaces, hdep, hawaits⟩
    have hnot : service.name ∉ o.firstSets.replaceTargets := fun h =>
      hreplaces (o.mem_firstSets_replaceTargets.mp h).2
    rw [followed, if_neg hnot, hhas]
    exact List.mem_filter.mpr ⟨hdep, by simpa using hawaits⟩

theorem mem_seeds_iff :
    name ∈ o.firstSets.replaceTargets.flatMap o.targetSeeds ↔
      (∃ target, o.Has target ∧ o.Replaces target.name ∧ name ∈ target.dependencies ∧
        target.awaitsCompletion name = false) ∨
      ∃ job, o.Has job ∧ o.AwaitedByReplaced job.name ∧ name ∈ job.dependencies := by
  rw [List.mem_flatMap]
  constructor
  · rintro ⟨targetName, htarget, hseed⟩
    have hreplaces := (o.mem_firstSets_replaceTargets.mp htarget).2
    rw [targetSeeds] at hseed
    cases hlookup : serviceByName o.services targetName with
    | none =>
      rw [hlookup] at hseed
      cases hseed
    | some target =>
      obtain ⟨hhas, rfl⟩ := o.has_of_serviceByName hlookup
      rw [hlookup] at hseed
      obtain ⟨dependency, hdep, hseed⟩ := List.mem_flatMap.mp hseed
      rw [seeds] at hseed
      split at hseed
      next hawaits =>
        cases hjob : serviceByName o.services dependency with
        | none =>
          rw [hjob] at hseed
          cases hseed
        | some job =>
          rw [hjob] at hseed
          obtain ⟨hhasJob, rfl⟩ := o.has_of_serviceByName hjob
          exact .inr ⟨job, hhasJob, ⟨target, hhas, hreplaces, hdep, hawaits⟩, hseed⟩
      next hawaits =>
        rw [List.mem_singleton] at hseed
        subst hseed
        exact .inl ⟨target, hhas, hreplaces, hdep, by simpa using hawaits⟩
  · have hseed {target : ComposeService} {dependency : String} (hhas : o.Has target)
        (hreplaces : o.Replaces target.name)
        (hdep : dependency ∈ target.dependencies) (hname : name ∈ o.seeds target dependency) :
        ∃ targetName ∈ o.firstSets.replaceTargets, name ∈ o.targetSeeds targetName := by
      refine ⟨target.name, o.mem_firstSets_replaceTargets.mpr
        ⟨o.declared_of_has hhas, hreplaces⟩, ?_⟩
      rw [targetSeeds, hhas]
      exact List.mem_flatMap.mpr ⟨dependency, hdep, hname⟩
    rintro (⟨target, hhas, hreplaces, hdep, hawaits⟩ |
      ⟨job, hjob, ⟨target, hhas, hreplaces, hdep, hawaits⟩, hname⟩)
    · refine hseed hhas hreplaces hdep ?_
      rw [seeds, if_neg (by simp [hawaits])]
      exact .head _
    · refine hseed hhas hreplaces hdep ?_
      rw [seeds, if_pos hawaits, hjob]
      exact hname

theorem reachedFrom_iff :
    ReachedFrom (o.followed o.firstSets.replaceTargets) o.firstSets.prerequisites
        (o.firstSets.replaceTargets.flatMap o.targetSeeds) name ↔ o.Reached name := by
  constructor
  · intro h
    induction h with
    | start hseed =>
      rcases o.mem_seeds_iff.mp hseed with ⟨target, hhas, hreplaces, hdep, hawaits⟩ |
        ⟨job, hhas, hawaited, hdep⟩
      · exact .dependency hhas hreplaces hdep hawaits
      · exact .hook hhas hawaited hdep
    | step _ hbase hname ih =>
      obtain ⟨service, hhas, rfl, hreplaces, hdep, hawaits⟩ := o.mem_followed_iff.mp hname
      refine .step hhas ih hreplaces (fun hreused => hbase ?_) hdep hawaits
      exact o.mem_firstSets_prerequisites.mpr ⟨o.declared_of_has hhas, hreused⟩
  · intro h
    induction h with
    | dependency hhas hreplaces hdep hawaits =>
      exact .start (o.mem_seeds_iff.mpr (.inl ⟨_, hhas, hreplaces, hdep, hawaits⟩))
    | hook hhas hawaited hdep => exact .start (o.mem_seeds_iff.mpr (.inr ⟨_, hhas, hawaited, hdep⟩))
    | step hhas _ hreplaces hreused hdep hawaits ih =>
      refine .step ih (fun hbase => hreused (o.mem_firstSets_prerequisites.mp hbase).2) ?_
      exact o.mem_followed_iff.mpr ⟨_, hhas, rfl, hreplaces, hdep, hawaits⟩

/-- The sets after the second loop. -/
def secondSets : ComposeDeploymentSets := o.firstSets.replaceTargets.foldl o.planTarget o.firstSets

theorem secondSets_replaceTargets : o.secondSets.replaceTargets = o.firstSets.replaceTargets :=
  foldl_eq_of_step o.planTarget_replaceTargets ..

theorem mem_secondSets_prerequisites :
    name ∈ o.secondSets.prerequisites ↔
      o.Declared name ∧ (o.Reused name ∨ o.Reached name ∧ ¬o.Replaces name) := by
  have hnodes : ∀ a, (o.followed o.firstSets.replaceTargets a).isSome →
      a ∈ o.services.map (·.name) := fun a ha => (o.followed_isSome_iff.mp ha).1
  have hvisit := mem_foldl_visit_iff (x := name) hnodes o.firstSets.prerequisites
    (o.firstSets.replaceTargets.flatMap o.targetSeeds)
  rw [secondSets, foldl_planTarget_prerequisites]
  refine hvisit.trans ?_
  rw [reachedFrom_iff, followed_isSome_iff, mem_firstSets_prerequisites, and_or_left,
    and_left_comm]

omit [DecidableEq φ] in
theorem mem_foldl_completeFull_prerequisites (services : List ComposeService)
    (sets : ComposeDeploymentSets) :
    name ∈ (services.foldl o.completeFull sets).prerequisites ↔
      name ∈ sets.prerequisites ∨
        name ∈ services.map (·.name) ∧ o.role name = .resource ∧ name ∉ sets.replaceTargets := by
  induction services generalizing sets with
  | nil => simp
  | cons service services ih =>
    have hstep : name ∈ (o.completeFull sets service).prerequisites ↔ name ∈ sets.prerequisites ∨
        (service.name = name ∧ o.role name = .resource ∧ name ∉ sets.replaceTargets) := by
      rw [name_eq_and_iff (P := fun name => o.role name = .resource ∧ name ∉ sets.replaceTargets),
        completeFull]
      split <;> split <;> simp_all
    rw [List.foldl_cons, ih, hstep, completeFull_replaceTargets, List.map_cons, List.mem_cons]
    grind

/-- The sets after the third loop. -/
def thirdSets : ComposeDeploymentSets :=
  if o.isSelective then o.secondSets else o.services.foldl o.completeFull o.secondSets

theorem mem_thirdSets_prerequisites :
    name ∈ o.thirdSets.prerequisites ↔
      o.Declared name ∧ (o.Reused name ∨ o.Reached name ∧ ¬o.Replaces name ∨
        o.isSelective = false ∧ o.role name = .resource ∧ ¬o.Replaces name) := by
  rw [thirdSets]
  split
  next h => simp [mem_secondSets_prerequisites, h]
  next h =>
    rw [mem_foldl_completeFull_prerequisites, mem_secondSets_prerequisites,
      secondSets_replaceTargets, mem_firstSets_replaceTargets, ← Declared]
    simp only [Bool.not_eq_true] at h
    simp only [h, true_and]
    tauto

/-- What is only verified. -/
theorem mem_prerequisites :
    name ∈ o.planComposeDeploymentSets.prerequisites ↔
      o.Declared name ∧ ¬o.Replaces name ∧ ¬o.Runs name ∧
        (o.Reached name ∨ o.isSelective = false ∧ o.role name ≠ .job) := by
  have hplan : o.planComposeDeploymentSets.prerequisites =
      (o.thirdSets.prerequisites.filter (· ∉ o.planComposeDeploymentSets.replaceTargets)).filter
        (· ∉ o.planComposeDeploymentSets.runOnceHooks) := rfl
  rw [hplan, List.mem_filter, List.mem_filter, mem_thirdSets_prerequisites, decide_eq_true_iff,
    decide_eq_true_iff, mem_replaceTargets, mem_runOnceHooks, ← Declared, Reused]
  cases hrole : o.role name <;> simp <;> tauto

/-- A declared service is included, for one of these reasons. -/
theorem mem_includedServices (hdeclared : o.Declared name) :
    name ∈ o.planComposeDeploymentSets.includedServices ↔
      o.Replaces name ∨ o.Runs name ∨ o.Reached name ∨
        o.isSelective = false ∧ o.role name ≠ .job := by
  rw [ComposeDeploymentSets.includedServices, List.mem_append, List.mem_append, mem_replaceTargets,
    mem_prerequisites, mem_runOnceHooks, ← Declared]
  simp only [hdeclared, true_and]
  by_cases hreplaces : o.Replaces name <;> by_cases hruns : o.Runs name <;> simp [hreplaces, hruns]

/-! ## Closure -/

theorem not_replaces_of_role (h : o.role name = .job) : ¬o.Replaces name := by
  rintro (⟨hrole, -⟩ | ⟨hrole, -⟩) <;> rw [h] at hrole <;> cases hrole

variable {o}

/-- A dependency of what is replaced, or of a job that runs, is included. -/
theorem included_of_dependency {service : ComposeService} (hhas : o.Has service)
    (h : o.Replaces service.name ∨ o.Runs service.name) (hdep : name ∈ service.dependencies)
    (hdeclared : o.Declared name) : name ∈ o.planComposeDeploymentSets.includedServices := by
  rw [o.mem_includedServices hdeclared]
  rcases h with hreplaces | hawaited | ⟨hfull, -, -, hexisting⟩
  · cases hawaits : service.awaitsCompletion name with
    | true => exact .inr (.inl (.inl ⟨service, hhas, hreplaces, hdep, hawaits⟩))
    | false => exact .inr (.inr (.inl (.dependency hhas hreplaces hdep hawaits)))
  · exact .inr (.inr (.inl (.hook hhas hawaited hdep)))
  · by_cases hrole : o.role name = .job
    · exact .inr (.inl (.inr ⟨hfull, hdeclared, hrole, hexisting⟩))
    · exact .inr (.inr (.inr ⟨hfull, hrole⟩))

/-- A dependency of a verified service is included, if the jobs of reused services are covered. -/
theorem included_of_prerequisite_iff
    (hroles : o.runtimeRoles = inferComposeRuntimeRoles o.services) :
    (∀ service, o.Has service → service.name ∈ o.planComposeDeploymentSets.prerequisites →
      ∀ name ∈ service.dependencies, service.awaitsCompletion name = false → o.Declared name →
        name ∈ o.planComposeDeploymentSets.includedServices) ↔
    (o.isSelective = false → ∀ service, o.Has service → o.role service.name ≠ .job →
      ¬o.Replaces service.name → ∀ name ∈ service.dependencies,
        service.awaitsCompletion name = false → o.Declared name → o.role name = .job →
          o.Runs name ∨ o.Reached name) := by
  constructor
  · intro h hfull service hhas hrole hreplaces name hdep hawaits hdeclared hjob
    have hverified : service.name ∈ o.planComposeDeploymentSets.prerequisites := by
      refine o.mem_prerequisites.mpr ⟨o.declared_of_has hhas, hreplaces, fun hruns => ?_,
        .inr ⟨hfull, hrole⟩⟩
      exact hrole (o.role_of_runs hroles hruns (o.declared_of_has hhas))
    rcases (o.mem_includedServices hdeclared).mp (h service hhas hverified name hdep hawaits
      hdeclared) with hname | hname | hname | hname
    · exact absurd hname (o.not_replaces_of_role hjob)
    · exact .inl hname
    · exact .inr hname
    · exact absurd hjob hname.2
  · intro h service hhas hverified name hdep hawaits hdeclared
    obtain ⟨-, hreplaces, hruns, hwhy⟩ := o.mem_prerequisites.mp hverified
    rw [o.mem_includedServices hdeclared]
    -- past a reused application the visit does not go, nor from a resource that it has not reached
    by_cases hkept : o.isSelective = false ∧ o.role service.name ≠ .job
    · by_cases hjob : o.role name = .job
      · have hcovered := h hkept.1 service hhas hkept.2 hreplaces name hdep hawaits hdeclared hjob
        exact .inr (hcovered.imp id .inl)
      · exact .inr (.inr (.inr ⟨hkept.1, hjob⟩))
    · have hreached := hwhy.resolve_right hkept
      refine .inr (.inr (.inl (.step hhas hreached hreplaces (fun hreused => hkept ?_) hdep hawaits)))
      exact ⟨hreused.1, by rw [hreused.2.1]; exact nofun⟩

/-- Each needed job runs, if those run that an awaited job awaits. -/
theorem runs_of_needs_iff (hroles : o.runtimeRoles = inferComposeRuntimeRoles o.services) :
    (∀ name, o.Needs o.planComposeDeploymentSets.replaceTargets name → o.Declared name →
      name ∈ o.planComposeDeploymentSets.runOnceHooks) ↔
    ∀ job, o.Has job → o.AwaitedByReplaced job.name → ∀ name ∈ job.dependencies,
      job.awaitsCompletion name = true → o.Declared name → o.Runs name := by
  constructor
  · rintro h job hhas ⟨target, hhasTarget, hreplaces, hdepTarget, hawaitsTarget⟩ name hdep hawaits
      hdeclared
    refine o.mem_runOnceHooks.mp (h name (.chain hhas (.direct hhasTarget ?_ hdepTarget
      hawaitsTarget) hdep hawaits) hdeclared)
    exact o.mem_replaceTargets.mpr ⟨o.declared_of_has hhasTarget, hreplaces⟩
  · intro h name hneeds hdeclared
    rw [mem_runOnceHooks]
    induction hneeds with
    | direct hhas htarget hdep hawaits =>
      exact .inl ⟨_, hhas, (o.mem_replaceTargets.mp htarget).2, hdep, hawaits⟩
    | chain hhas _ hdep hawaits ih =>
      rcases ih (o.declared_of_has hhas) with hawaited | ⟨hfull, -, -, hexisting⟩
      · exact h _ hhas hawaited _ hdep hawaits hdeclared
      · exact .inr ⟨hfull, hdeclared, o.role_of_awaits hroles hhas hdep hawaits hdeclared, hexisting⟩

/-- With the inferred roles, the sets are closed exactly if the jobs of reused services and of other
jobs are covered. -/
theorem closed_iff (hroles : o.runtimeRoles = inferComposeRuntimeRoles o.services) :
    o.Closed o.planComposeDeploymentSets ↔ o.JobsCovered := by
  rw [JobsCovered, ← included_of_prerequisite_iff hroles, ← runs_of_needs_iff hroles]
  refine ⟨fun h => ⟨h.prerequisites, h.jobs⟩, fun ⟨hprerequisites, hjobs⟩ => ?_⟩
  constructor
  · intro name htarget hverified
    exact (o.mem_prerequisites.mp hverified).2.1 (o.mem_replaceTargets.mp htarget).2
  · intro name htarget hhook
    obtain ⟨hdeclared, hreplaces⟩ := o.mem_replaceTargets.mp htarget
    have hjob := o.role_of_runs hroles (o.mem_runOnceHooks.mp hhook) hdeclared
    exact o.not_replaces_of_role hjob hreplaces
  · intro name hverified hhook
    exact (o.mem_prerequisites.mp hverified).2.2.1 (o.mem_runOnceHooks.mp hhook)
  · intro service hhas h name hdep hdeclared
    refine included_of_dependency hhas ?_ hdep hdeclared
    exact h.imp (fun htarget => (o.mem_replaceTargets.mp htarget).2) o.mem_runOnceHooks.mp
  · exact hprerequisites
  · exact hjobs

def webService : ComposeService where
  name := "web"
  dependsOn := some ["migrate"]
  dependsOnConditions := some [("migrate", .service_completed_successfully)]

def migrateService (jobs : List String) : ComposeService where
  name := "migrate"
  dependsOn := some jobs
  dependsOnConditions := some (jobs.map (·, .service_completed_successfully))

def migrationServices (jobs : List String) : List ComposeService :=
  [webService, migrateService jobs, { name := "seed" }]

/-- A deployment of `web` alone, which awaits `migrate`, which awaits the jobs of the list. -/
def migration (jobs : List String) : ComposeDeploymentSetOptions Nat where
  services := migrationServices jobs
  runtimeRoles := inferComposeRuntimeRoles (migrationServices jobs)
  selectedServices := some ["web"]

theorem closed_migration : (migration []).Closed (migration []).planComposeDeploymentSets := by
  refine (closed_iff rfl).mpr ⟨nofun, fun job hhas _ name hdep hawaits _ => .inl ?_⟩
  have hreplaces : (migration []).Replaces "web" := .inr ⟨by decide, .inl ⟨rfl, .head _⟩⟩
  rcases List.mem_cons.mp (mem_of_serviceByName hhas).1 with rfl | hmem
  · exact ⟨webService, rfl, hreplaces, hdep, hawaits⟩
  · rcases List.mem_cons.mp hmem with rfl | hmem
    · cases hdep
    · cases List.mem_singleton.mp hmem
      cases hdep

/-- A job that a job awaits is only verified. -/
theorem not_closed_migration :
    ¬∀ o : ComposeDeploymentSetOptions Nat,
      o.runtimeRoles = inferComposeRuntimeRoles o.services →
        o.Closed o.planComposeDeploymentSets := by
  intro h
  have hweb : (migration ["seed"]).Has webService := rfl
  have hmigrate : (migration ["seed"]).Has (migrateService ["seed"]) := rfl
  have hneeds : (migration ["seed"]).Needs
      (migration ["seed"]).planComposeDeploymentSets.replaceTargets "seed" :=
    .chain hmigrate (.direct hweb (by decide) (.head _) rfl) (.head _) rfl
  have hdeclared : (migration ["seed"]).Declared "seed" := .tail _ (.tail _ (.head _))
  exact absurd ((h (migration ["seed"]) rfl).jobs "seed" hneeds hdeclared) (by decide)

end ComposeDeploymentSetOptions
end OpenLander.Compose
