import OpenLander.Theory.Run
import OpenLander.Compose.DeploymentSets

/-! # Deployment histories

The Compose deployments of one project, one after another. What a deployment knows of the earlier
ones is the rows of its children, the fingerprints that the last success persisted
(`buildProject`, `src/pipeline/deploy/orchestrator.ts`) and the last entry of the deploy log
(`cloneAndAnalyze`). Which definition a container was created from is known to the model only. -/

namespace OpenLander.Compose.History
open Theory

variable {φ : Type} [DecidableEq φ]

structure State (φ : Type) where
  /-- The fingerprint of the definition that the container of a service was created from. -/
  container : String → Option φ := fun _ => none
  children : List String := []
  serviceFingerprints : Option (String → Option φ) := none
  /-- Whether the last deployment succeeded, and its commit. -/
  lastDeploy : Option (Bool × String) := none

structure Deployment where
  services : List ComposeService
  selected : Option (List String) := none
  commitSha : String
  noCache : Bool := false
  /-- The services with an approved update. -/
  approvedUpdates : List String := []

def Deployment.serviceNames (d : Deployment) : List String := d.services.map (·.name)

/-- `previousDeploy?.status !== 'success' || previousSha !== cloneResult.commitSha`. -/
def State.sourceRevisionChanged (st : State φ) (commitSha : String) : Bool :=
  st.lastDeploy != some (true, commitSha)

variable (hash : ComposeService → φ)

def options (st : State φ) (d : Deployment) : ComposeDeploymentSetOptions φ where
  services := d.services
  runtimeRoles := inferComposeRuntimeRoles d.services
  selectedServices := d.selected
  existingServices := some st.children
  previousFingerprints := st.serviceFingerprints
  currentFingerprints := some (fingerprintComposeServices hash d.services)
  forceReplaceApplications := d.noCache || st.sourceRevisionChanged d.commitSha
  statefulReplaceTargets := some d.approvedUpdates

def sets (st : State φ) (d : Deployment) : ComposeDeploymentSets :=
  (options hash st d).planComposeDeploymentSets

/-- The container of a service after a successful deployment. -/
def deployed (st : State φ) (d : Deployment) (name : String) : Option φ :=
  if name ∉ d.serviceNames then
    -- A full deployment removes the children that are no longer declared.
    if (options hash st d).isSelective then st.container name else none
  else if name ∈ (sets hash st d).replaceTargets ∨ name ∈ (sets hash st d).runOnceHooks then
    fingerprintComposeServices hash d.services name
  else if name ∈ (sets hash st d).prerequisites then
    (st.container name).or (fingerprintComposeServices hash d.services name)
  else st.container name

def State.succeed (st : State φ) (d : Deployment) : State φ where
  container := deployed hash st d
  children :=
    (if (options hash st d).isSelective then st.children
      else st.children.filter (· ∈ d.serviceNames)) ++ (sets hash st d).includedServices
  serviceFingerprints := some (fingerprintComposeServices hash d.services)
  lastDeploy := some (true, d.commitSha)

inductive Event
  | succeed (d : Deployment)
  | fail (d : Deployment)
  /-- A container disappears without OpenLander. -/
  | lose (name : String)

inductive Step : State φ → Event → State φ → Prop
  | succeed : Step st (.succeed d) (st.succeed hash d)
  /-- A failed deployment may have created, replaced or removed any of the containers. -/
  | fail (container : String → Option φ) (children : List String)
    (h : ∀ name, container name = st.container name ∨ container name = none ∨
      container name = fingerprintComposeServices hash d.services name) :
    Step st (.fail d) { st with container, children, lastDeploy := some (false, d.commitSha) }
  | lose : Step st (.lose name) { st with container := Function.update st.container name none }

def init : State φ := {}

/-- Every application runs a container created from this definition of it. -/
def ApplicationsCurrent (d : Deployment) (st : State φ) : Prop :=
  ∀ service, serviceByName d.services service.name = some service →
    runtimeRole d.services service = .application →
    st.container service.name = some (hash service)

/-! ## Deployments that leave nothing stale -/

/-- Every application that a selective deployment leaves out, and every job that a deployment
does not run, has no container or one created from the definition that is deployed. -/
def KeepsCurrent (st : State φ) : Event → Prop
  | .succeed d => ∀ service, serviceByName d.services service.name = some service →
      (runtimeRole d.services service = .application ∧ (options hash st d).isSelective = true ∧
          service.name ∉ (options hash st d).selected ∨
        runtimeRole d.services service = .job ∧ ¬(options hash st d).Runs service.name) →
      service.isResource = false → ∀ f ∈ st.container service.name, f = hash service
  | _ => True

/-- After a success, the container of a service with a persisted fingerprint was created from the
definition of that fingerprint. -/
def Inv (st : State φ) : Prop :=
  ∀ commitSha, st.lastDeploy = some (true, commitSha) → ∀ service,
    st.serviceFingerprints.bind (· service.name) = some (hash service) →
    service.isResource = false → ∀ f ∈ st.container service.name, f = hash service

variable {hash} {d : Deployment} {st : State φ}

omit [DecidableEq φ] in
@[simp] theorem options_role (name : String) : (options hash st d).role name =
    (inferComposeRuntimeRoles d.services name).getD .application := rfl

omit [DecidableEq φ] in
theorem role_eq (h : serviceByName d.services service.name = some service) :
    (options hash st d).role service.name = runtimeRole d.services service := by
  rw [options_role, inferComposeRuntimeRoles_eq, h, Option.map_some, Option.getD_some]

theorem mem_serviceNames (h : serviceByName d.services service.name = some service) :
    service.name ∈ d.serviceNames :=
  List.mem_map_of_mem (mem_of_serviceByName h).1

omit [DecidableEq φ] in
theorem fingerprint_eq (h : serviceByName d.services service.name = some service) :
    fingerprintComposeServices hash d.services service.name = some (hash service) := by
  rw [fingerprintComposeServices_eq, h, Option.map_some]

theorem isResource_of_application (happ : runtimeRole services service = .application) :
    service.isResource = false := by
  rw [runtimeRole] at happ
  split at happ
  · cases happ
  · split at happ
    · cases happ
    · exact Bool.eq_false_iff.mpr ‹_›

/-- Without the name of a resource, a service is an application or a job. -/
theorem role_of_not_isResource (services : List ComposeService)
    (h : service.isResource = false) :
    runtimeRole services service = .application ∨ runtimeRole services service = .job := by
  rw [runtimeRole, h]
  split
  · exact .inr rfl
  · exact .inl rfl

/-- An application that a full deployment does not replace has the persisted fingerprint, and the
last deployment was a success. -/
theorem persisted_of_not_replaces
    (h : serviceByName d.services service.name = some service)
    (happ : runtimeRole d.services service = .application)
    (hfull : (options hash st d).isSelective = false)
    (hrep : ¬(options hash st d).Replaces service.name) :
    st.lastDeploy = some (true, d.commitSha) ∧
      st.serviceFingerprints.bind (· service.name) = some (hash service) := by
  have hchanged : (options hash st d).isChanged service.name = false := by
    rw [Bool.eq_false_iff]
    intro hc
    exact hrep (.inr ⟨(role_eq h).trans happ, .inr ⟨hfull, .inr hc⟩⟩)
  rw [ComposeDeploymentSetOptions.isChanged, Bool.or_eq_false_iff] at hchanged
  obtain ⟨hforce, hsame⟩ := hchanged
  have hsource : st.sourceRevisionChanged d.commitSha = false := (Bool.or_eq_false_iff.mp hforce).2
  refine ⟨by simpa [State.sourceRevisionChanged] using hsource, ?_⟩
  have hcurrent : (options hash st d).currentFingerprints.bind (· service.name) =
      some (hash service) := fingerprint_eq h
  rw [hcurrent] at hsame
  split at hsame
  next previous current hprev hcur =>
    have heq : previous = current := by simpa using hsame
    exact hprev.trans (congrArg some (heq.trans (Option.some.inj hcur).symm))
  next => cases hsame

/-- An application that a full deployment keeps is current. -/
theorem kept_application (H : Inv hash st)
    (h : serviceByName d.services service.name = some service)
    (happ : runtimeRole d.services service = .application)
    (hfull : (options hash st d).isSelective = false)
    (hrep : ¬(options hash st d).Replaces service.name) :
    ∀ f ∈ st.container service.name, f = hash service := by
  obtain ⟨hlast, hper⟩ := persisted_of_not_replaces h happ hfull hrep
  exact H _ hlast service hper (isResource_of_application happ)

/-- What a successful deployment keeps of the services without the name of a resource is
current. -/
theorem kept_current (H : Inv hash st) (hk : KeepsCurrent hash st (.succeed d))
    (h : serviceByName d.services service.name = some service)
    (hres : service.isResource = false)
    (hrep : ¬(options hash st d).Replaces service.name)
    (hrun : ¬(options hash st d).Runs service.name) :
    ∀ f ∈ st.container service.name, f = hash service := by
  rcases role_of_not_isResource d.services hres with happ | hjob
  · cases hs : (options hash st d).isSelective with
    | false => exact kept_application H h happ hs hrep
    | true =>
      have hsel : service.name ∉ (options hash st d).selected :=
        fun hsel => hrep (.inr ⟨(role_eq h).trans happ, .inl ⟨hs, hsel⟩⟩)
      exact hk service h (.inl ⟨happ, hs, hsel⟩) hres
  · exact hk service h (.inr ⟨hjob, hrun⟩) hres

/-- A declared service has a new container, or the one it had, or a new one for want of one. -/
theorem deployed_cases (h : serviceByName d.services service.name = some service)
    (hf : f ∈ deployed hash st d service.name) :
    f = hash service ∨ f ∈ st.container service.name ∧
      ¬(options hash st d).Replaces service.name ∧ ¬(options hash st d).Runs service.name := by
  rw [deployed, if_neg (not_not.mpr (mem_serviceNames h)), fingerprint_eq h] at hf
  split at hf
  · exact .inl (Option.some.inj hf).symm
  next hnot =>
    obtain ⟨hrep, hrun⟩ := not_or.mp hnot
    have hkeep : ¬(options hash st d).Replaces service.name ∧
        ¬(options hash st d).Runs service.name :=
      ⟨fun hr => hrep ((options hash st d).mem_replaceTargets.mpr ⟨mem_serviceNames h, hr⟩),
        fun hr => hrun ((options hash st d).mem_runOnceHooks.mpr hr)⟩
    split at hf
    · rcases Option.or_eq_some_iff.mp hf with hc | ⟨-, hnew⟩
      · exact .inr ⟨hc, hkeep⟩
      · exact .inl (Option.some.inj hnew).symm
    · exact .inr ⟨hf, hkeep⟩

theorem succeed_inv (hinj : Function.Injective hash) (H : Inv hash st)
    (hk : KeepsCurrent hash st (.succeed d)) : Inv hash (st.succeed hash d) := by
  intro commitSha _ service hper hres f hf
  have hby : serviceByName d.services service.name = some service := by
    rw [State.succeed, Option.bind_some, fingerprintComposeServices_eq,
      Option.map_eq_some_iff] at hper
    obtain ⟨service', hby, heq⟩ := hper
    rw [hby, hinj heq]
  rcases deployed_cases hby hf with heq | ⟨hc, hrep, hrun⟩
  · exact heq
  · exact kept_current H hk hby hres hrep hrun f hc

/-- After a full success every application is current. -/
theorem succeed_applicationsCurrent (H : Inv hash st)
    (hfull : (options hash st d).isSelective = false) :
    ApplicationsCurrent hash d (st.succeed hash d) := by
  intro service h happ
  have hsome : (deployed hash st d service.name).isSome := by
    rw [deployed, if_neg (not_not.mpr (mem_serviceNames h)), fingerprint_eq h]
    split
    · rfl
    next hnot =>
      have hrep : ¬(options hash st d).Replaces service.name := fun hr => hnot
        (.inl ((options hash st d).mem_replaceTargets.mpr ⟨mem_serviceNames h, hr⟩))
      have hpre : service.name ∈ (sets hash st d).prerequisites :=
        (options hash st d).mem_prerequisites_of_application hfull rfl (mem_serviceNames h)
          ((role_eq h).trans happ) hrep
      rw [if_pos hpre, Option.isSome_or, Option.isSome_some, Bool.or_true]
  obtain ⟨f, hf⟩ := Option.isSome_iff_exists.mp hsome
  rcases deployed_cases h hf with rfl | ⟨hc, hrep, -⟩
  · exact hf
  · exact (kept_application H h happ hfull hrep f hc) ▸ hf

theorem Inv.step (hinj : Function.Injective hash) (h : Step hash st e st') (H : Inv hash st)
    (hk : KeepsCurrent hash st e) : Inv hash st' := by
  cases h with
  | succeed => exact succeed_inv hinj H hk
  | fail => exact fun _ h => (nomatch h)
  | lose =>
    intro commitSha hlast service hper hres f hf
    dsimp only at hf
    rw [Function.update_apply] at hf
    split at hf
    · cases hf
    · exact H commitSha hlast service hper hres f hf

/-- After every full success, every application runs a container created from the definition
deployed, if all the deployments before it keep only what is current. -/
theorem applicationsCurrent_of_keepsCurrent (hinj : Function.Injective hash)
    (h : Run (Guarded (Step hash) (KeepsCurrent hash)) init es st)
    (hlast : Step hash st (.succeed d) st') (hfull : (options hash st d).isSelective = false) :
    ApplicationsCurrent hash d st' := by
  have hI : Preserves (Guarded (Step hash) (KeepsCurrent hash)) (Inv hash) :=
    fun _ _ _ hs H => H.step hinj hs.1 hs.2
  have H : Inv hash st := h.invariant hI fun _ h => (nomatch h)
  cases hlast
  exact succeed_applicationsCurrent H hfull

/-! ## Two applications -/

/-- A project of `web` and `api`, each from an image. -/
def webAndApi (web api commitSha : String) (selected : Option (List String) := none) :
    Deployment where
  services := [{ name := "web", image := some web }, { name := "api", image := some api }]
  selected
  commitSha

theorem applicationsCurrent_newApi :
    ApplicationsCurrent id (webAndApi "web:1" "api:2" "c2")
      ((init.succeed id (webAndApi "web:1" "api:1" "c1")).succeed id
        (webAndApi "web:1" "api:2" "c2")) :=
  applicationsCurrent_of_keepsCurrent Function.injective_id
    (.single ⟨.succeed, fun _ _ _ _ _ hf => (nomatch hf)⟩) .succeed (by decide)

/-- The new definition of `api` is persisted by a deployment of `web` alone, and the next full
deployment takes the old container of `api` for a reusable prerequisite. -/
theorem stale_api_after_selective :
    ∃ st : State ComposeService,
      Run (Step id) init [.succeed (webAndApi "web:1" "api:1" "c1"),
        .succeed (webAndApi "web:1" "api:2" "c2" (some ["web"])),
        .succeed (webAndApi "web:1" "api:2" "c2")] st ∧
      ¬ApplicationsCurrent id (webAndApi "web:1" "api:2" "c2") st := by
  refine ⟨_, .cons .succeed (.cons .succeed (.single .succeed)), fun h => ?_⟩
  have hcurrent := h { name := "api", image := some "api:2" } (by decide)
    (by decide)
  revert hcurrent
  decide

end OpenLander.Compose.History
