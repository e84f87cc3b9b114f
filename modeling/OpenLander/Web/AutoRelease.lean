import OpenLander.Theory.Run
import OpenLander.Db.DeployLock

/-! # The release of deploy locks on terminal events

`createApiRoutes` (`src/web/api/routes.ts`) listens to the terminal events of deploys and releases
the deploy lock of the project, with the session of the payload. Several emitters leave the session
out, and a release without a session clears the row of any holder. The emission of an event and the
statement that its listener sends are separate steps. -/

namespace OpenLander.Web.AutoRelease
open Theory Db

inductive TerminalEvent
  | deploySuccess | deployFailed | composeUp | composeFailed
  deriving DecidableEq, Repr

/-- The places that emit a terminal event. -/
inductive Emitter
  | handlePostDeploy
  /-- The `catch` of `deployEnvironment`, cancelled or not. -/
  | deployEnvironment
  | blueGreenRedeployInner
  /-- The missing project, environment and repository of `deployEnvironment`. -/
  | deployEnvironmentLookup
  | deployInnerPreflight
  | recordBackgroundFailure
  | handleTerminalFailure
  | deployMonorepoInner
  | deployMonorepoService
  | deployComposeViaDockerode
  | deployPreview
  deriving DecidableEq, Repr

def Emitter.events : Emitter → List TerminalEvent
  | .handlePostDeploy | .deployPreview => [.deploySuccess]
  | .blueGreenRedeployInner | .deployMonorepoInner | .deployMonorepoService =>
    [.deploySuccess, .deployFailed]
  | .deployComposeViaDockerode => [.composeUp, .composeFailed]
  | _ => [.deployFailed]

/-- The emitters that put `sessionId` into the payload. -/
def Emitter.sendsSession : Emitter → Bool
  | .handlePostDeploy | .deployEnvironment | .blueGreenRedeployInner => true
  | _ => false

/-- An event that a deploy emits. -/
structure Emission where
  event : TerminalEvent
  emitter : Emitter
  projectId : String
  /-- The session that the deploy runs under; none if it was refused the lock, or never asked. -/
  deploySession : Option String
  deriving DecidableEq, Repr

/-- `payload.sessionId`. -/
def Emission.sessionId (e : Emission) : Option String :=
  if e.emitter.sendsSession then e.deploySession else none

structure State where
  locks : DeployLocks
  /-- The events whose listener has sent its release. -/
  sent : List Emission := []

inductive Action
  /-- The two statements of `acquireDeployLock`. -/
  | clean
  | claim (projectId sessionId : String)
  /-- A session releases the lock of its own. -/
  | release (projectId sessionId : String)
  | emit (e : Emission)
  /-- The release of a listener reaches the database. -/
  | deliver (e : Emission)
  deriving DecidableEq, Repr

structure Event where
  now : Nat
  action : Action
  deriving DecidableEq, Repr

def next (s : State) (e : Event) : Option State :=
  match e.action with
  | .clean => some { s with locks := s.locks.cleanExpiredDeployLocks e.now }
  | .claim projectId sessionId =>
    some { s with locks := (s.locks.claimDeployLock e.now projectId sessionId).2 }
  | .release projectId sessionId =>
    some { s with locks := (s.locks.releaseDeployLock projectId sessionId).2 }
  | .emit em =>
    if em.event ∈ em.emitter.events then some { s with sent := em :: s.sent } else none
  | .deliver em =>
    if em ∈ s.sent then
      some {
        locks := (s.locks.releaseDeployLockOf em.projectId em.sessionId).2
        sent := s.sent.erase em }
    else none

def init (locks : DeployLocks) : State := { locks }

/-- Why a session may lose the lock of a project: it has released it, an event of a deploy of its
own was delivered, or the lease was over. -/
inductive Rightful (s : State) (e : Event) (projectId sessionId : String) : Prop
  | released : e.action = .release projectId sessionId → Rightful s e projectId sessionId
  | delivered (em : Emission) : e.action = .deliver em → em.projectId = projectId →
      em.deploySession = some sessionId → Rightful s e projectId sessionId
  | expired : s.locks.LeaseExpired e.now projectId → Rightful s e projectId sessionId

/-- Every session that loses a lock in the step loses it rightfully. -/
def Owned (s : State) (e : Event) (t : State) : Prop :=
  ∀ projectId sessionId, s.locks.holder projectId = some sessionId →
    t.locks.holder projectId ≠ some sessionId → Rightful s e projectId sessionId

/-- An event without a session is delivered while the lock is free, is held by the session of its
deploy, or has expired. -/
def Scoped (s : State) (e : Event) : Prop :=
  ∀ em, e.action = .deliver em → em.sessionId = none →
    ∀ sessionId, s.locks.holder em.projectId = some sessionId →
      em.deploySession = some sessionId ∨ s.locks.LeaseExpired e.now em.projectId

theorem Emission.deploySession_of_sessionId {em : Emission} (h : em.sessionId = some S) :
    em.deploySession = some S := by
  unfold Emission.sessionId at h
  split at h
  · exact h
  · cases h

/-! ## What one step takes away -/

variable {s t : State}

theorem owned_clean :
    Owned s ⟨now, .clean⟩ { s with locks := s.locks.cleanExpiredDeployLocks now } := by
  intro projectId sessionId hheld hlost
  by_cases hexp : s.locks.LeaseExpired now projectId
  · exact .expired hexp
  · rw [DeployLocks.holder, s.locks.cleanExpiredDeployLocks_lock_of_not hexp] at hlost
    exact absurd hheld hlost

/-- A claim takes no lock from another session. -/
theorem owned_claim : Owned s ⟨now, .claim projectId' sessionId'⟩
    { s with locks := (s.locks.claimDeployLock now projectId' sessionId').2 } := by
  intro projectId sessionId hheld hlost
  rw [DeployLocks.holder_claimDeployLock] at hlost
  split at hlost
  next h =>
    obtain ⟨rfl, hclaimed⟩ := h
    rw [(s.locks.claimDeployLock_fst.mp hclaimed).2 sessionId hheld] at hlost
    exact absurd rfl hlost
  next => exact absurd hheld hlost

/-- A release with a session takes the lock from that session only. -/
theorem holder_of_releaseDeployLock {locks : DeployLocks} (hheld : locks.holder projectId = some S)
    (hlost : (locks.releaseDeployLock projectId' sessionId').2.holder projectId ≠ some S) :
    projectId = projectId' ∧ S = sessionId' := by
  rw [DeployLocks.holder_releaseDeployLock_eq] at hlost
  split at hlost
  next h =>
    obtain ⟨rfl, hholder⟩ := h
    exact ⟨rfl, Option.some.inj (hheld.symm.trans hholder)⟩
  next => exact absurd hheld hlost

theorem owned_deliver_iff {em : Emission} (hsent : em ∈ s.sent)
    (ht : next s ⟨now, .deliver em⟩ = some t) :
    Owned s ⟨now, .deliver em⟩ t ↔ Scoped s ⟨now, .deliver em⟩ := by
  simp only [next, if_pos hsent, Option.some.injEq] at ht
  subst ht
  constructor
  · intro H em' heq hnone sessionId hheld
    cases heq
    have hlost : ((s.locks.releaseDeployLockOf em.projectId em.sessionId).2).holder em.projectId ≠
        some sessionId := by simp [hnone, DeployLocks.releaseDeployLockOf]
    cases H em.projectId sessionId hheld hlost with
    | released heq => cases heq
    | delivered em' heq _ hsession =>
      cases heq
      exact .inl hsession
    | expired hexp => exact .inr hexp
  · intro H projectId sessionId hheld hlost
    dsimp only at hlost
    cases hsession : em.sessionId with
    | some sessionId' =>
      rw [hsession] at hlost
      obtain ⟨rfl, rfl⟩ := holder_of_releaseDeployLock hheld hlost
      exact .delivered em rfl rfl (Emission.deploySession_of_sessionId hsession)
    | none =>
      rw [hsession] at hlost
      simp only [DeployLocks.releaseDeployLockOf, DeployLocks.holder_setLock] at hlost
      split at hlost
      next heq =>
        subst heq
        rcases H em rfl hsession sessionId hheld with h | h
        · exact .delivered em rfl rfl h
        · exact .expired h
      next => exact absurd hheld hlost

/-- A step takes a lock from its session wrongfully exactly when it is the delivery of an event
without a session, while another session than that of the deploy holds the lock. -/
theorem owned_iff (h : next s e = some t) : Owned s e t ↔ Scoped s e := by
  obtain ⟨now, action⟩ := e
  cases action with
  | clean =>
    cases h
    exact iff_of_true owned_clean nofun
  | claim =>
    cases h
    exact iff_of_true owned_claim nofun
  | release =>
    cases h
    refine iff_of_true ?_ nofun
    intro projectId sessionId hheld hlost
    obtain ⟨rfl, rfl⟩ := holder_of_releaseDeployLock hheld hlost
    exact .released rfl
  | emit em =>
    obtain ⟨-, ⟨⟩⟩ := Option.ite_none_right_eq_some.mp h
    exact iff_of_true (fun _ _ hheld hlost => absurd hheld hlost) nofun
  | deliver em =>
    obtain ⟨hsent, -⟩ := Option.ite_none_right_eq_some.mp h
    exact owned_deliver_iff hsent h

/-- The runs in which every lock is lost rightfully are those that deliver events without a session
only where the lock is free, or belongs to the deploy, or has expired. -/
theorem run_owned_iff {es : List Event} :
    Run (fun s e t => Fires next s e t ∧ Owned s e t) (init locks) es s ↔
      Run (Guarded (Fires next) Scoped) (init locks) es s :=
  Run.congr fun _ _ _ => and_congr_right owned_iff

/-- The failure of a deploy that was refused the lock frees the lock of the session that runs. -/
theorem not_owned_refused :
    ¬∀ (locks : DeployLocks) (es : List Event) (s : State), Run (Fires next) (init locks) es s →
      Run (fun s e t => Fires next s e t ∧ Owned s e t) (init locks) es s := by
  intro h
  let refused : Emission := ⟨.deployFailed, .recordBackgroundFailure, "p", none⟩
  have hrun : Run (Fires next) (init ⟨["p"], fun _ => none⟩)
      [⟨0, .claim "p" "deploy-1"⟩, ⟨1, .emit refused⟩, ⟨2, .deliver refused⟩] _ := .of_exec rfl
  rcases h _ _ _ hrun with _ | ⟨⟨⟨⟩, -⟩, _ | ⟨⟨⟨⟩, -⟩, _ | ⟨⟨⟨⟩, howned⟩, -⟩⟩⟩
  cases howned "p" "deploy-1" rfl (by decide) with
  | released heq => cases heq
  | delivered em heq _ hsession =>
    cases heq
    cases hsession
  | expired hexp =>
    obtain ⟨l, hl, hlt⟩ := hexp
    cases hl
    exact absurd hlt (by decide)

end OpenLander.Web.AutoRelease
