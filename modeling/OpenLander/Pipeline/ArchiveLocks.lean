import OpenLander.Theory.Run
import OpenLander.Theory.Worklist
import OpenLander.Db.DeployLock
import Mathlib.Data.List.Lex

/-! # Archiving under deploy locks

`archive` and `archiveGroup` (`src/pipeline/deploy-core.ts`) collect the projects of a workload with
all their Compose children, and run the archive operation in one `withDeployLock` for each of them,
nested in each other. All calls have one session, which is minted for the archive. -/

namespace OpenLander.Pipeline.ArchiveLocks
open Theory Db

/-- The id of a project. Ids are minted and never empty, so that the tests `!current` and
`!projectId` of the code only find the end of a list. -/
structure ProjectId where
  id : String
  nonempty : id ≠ ""
  deriving DecidableEq

/-! ## The projects to lock -/

/-- A deployable service, by the project it belongs to. -/
structure ServiceRow where
  projectId : ProjectId
  /-- The project of `parent_service_id`. -/
  parent : Option ProjectId
  deriving DecidableEq

structure Database where
  projects : List ProjectId
  /-- The latest update first. -/
  services : List ServiceRow

def Database.getComposeChildProjects (db : Database) (parentProjectId : ProjectId) :
    List ProjectId :=
  ((db.services.filter (·.parent = some parentProjectId)).map (·.projectId)).filter
    (· ∈ db.projects)

/-- The UTF-16 code units, by which `sort` compares. -/
def codeUnits (s : String) : List Nat :=
  s.toList.flatMap fun c =>
    if c.toNat < 0x10000 then [c.toNat]
    else [0xD800 + (c.toNat - 0x10000) / 0x400, 0xDC00 + (c.toNat - 0x10000) % 0x400]

def sort (ids : List ProjectId) : List ProjectId :=
  ids.mergeSort fun a b => codeUnits a.id ≤ codeUnits b.id

/-- A project is a Compose child of another one. -/
def Database.Child (db : Database) (parent child : ProjectId) : Prop :=
  child ∈ db.getComposeChildProjects parent

inductive Error
  | database
  /-- `DeployLockedError`, with its `statusSource` left out: it is `deploy_lock` for all. -/
  | deployLocked (projectId : ProjectId) (lockedBySession : String)
      (blockedServiceId : Option String)
  | operation
  deriving DecidableEq

inductive Result
  | returned
  | rejected (error : Error)
  deriving DecidableEq

inductive Phase
  /-- The services of the projects are looked up. -/
  | lookup
  /-- `acquireNext index`, up to the claim of the lock. -/
  | acquiring (index : Nat)
  /-- The claim was refused, and the holder is yet to be read. -/
  | refused (index : Nat)
  | operating
  /-- The `finally` blocks of the first `count` calls are to come. With none it has ended. -/
  | releasing (count : Nat) (result : Result)
  deriving DecidableEq

/-- A call of `withArchiveLocks`. -/
structure Call where
  projectIds : List ProjectId
  sessionId : String
  /-- `blockedServiceIdByProject`. -/
  blockedServiceId : ProjectId → Option String

structure State where
  locks : DeployLocks
  phase : Phase := .lookup

inductive Event
  | lookedUp (ok : Bool)
  /-- The first statement of an acquisition, of this session or of another. -/
  | clean (now : Nat)
  | claim (now : Nat)
  /-- A statement of the acquisition fails. -/
  | acquireFails
  | lockInfo (ok : Bool)
  | operated (result : Result)
  | release
  | othersClaim (now : Nat) (projectId sessionId : String)
  | othersRelease (projectId sessionId : String)

namespace Call
variable (c : Call)

/-- `acquireNext index`. -/
def acquireNext (index : Nat) : Phase :=
  if index < c.projectIds.length then .acquiring index else .operating

def claim (s : State) (now index : Nat) (projectId : ProjectId) : State :=
  let claimed := s.locks.claimDeployLock now projectId.id c.sessionId
  ⟨claimed.2, if claimed.1 then c.acquireNext (index + 1) else .refused index⟩

/-- `onContention`, with what `getDeployLockInfo` returns. -/
def contention (s : State) (projectId : ProjectId) : Error :=
  .deployLocked projectId ((s.locks.holder projectId.id).getD "unknown")
    (c.blockedServiceId projectId)

def next (s : State) : Event → Option State
  | .lookedUp ok =>
    if s.phase = .lookup then
      some { s with phase := if ok then c.acquireNext 0 else .releasing 0 (.rejected .database) }
    else none
  | .clean now => some { s with locks := s.locks.cleanExpiredDeployLocks now }
  | .claim now =>
    match s.phase with
    | .acquiring index => (c.projectIds[index]?).map (c.claim s now index)
    | _ => none
  | .acquireFails =>
    match s.phase with
    | .acquiring index => some { s with phase := .releasing index (.rejected .database) }
    | _ => none
  | .lockInfo ok =>
    match s.phase with
    | .refused index => (c.projectIds[index]?).map fun projectId =>
      { s with phase :=
        .releasing index (.rejected (if ok then c.contention s projectId else .database)) }
    | _ => none
  | .operated result =>
    if s.phase = .operating then
      some { s with phase := .releasing c.projectIds.length result }
    else none
  | .release =>
    match s.phase with
    | .releasing (count + 1) result => (c.projectIds[count]?).map fun projectId =>
      ⟨(s.locks.releaseDeployLock projectId.id c.sessionId).2, .releasing count result⟩
    | _ => none
  | .othersClaim now projectId sessionId =>
    if sessionId ≠ c.sessionId then
      some { s with locks := (s.locks.claimDeployLock now projectId sessionId).2 }
    else none
  | .othersRelease projectId sessionId =>
    if sessionId ≠ c.sessionId then
      some { s with locks := (s.locks.releaseDeployLock projectId sessionId).2 }
    else none

end Call

def init (locks : DeployLocks) : State := { locks }

/-- No lock has expired when the locks are cleaned. -/
def WithinLease (s : State) : Event → Prop
  | .clean now => ∀ projectId, ¬s.locks.LeaseExpired now projectId
  | _ => True

/-- The steps of the call itself, and not of the other sessions. -/
def Event.Own : Event → Prop
  | .othersClaim .. | .othersRelease .. => False
  | _ => True

/-! ## The invariant -/

/-- How many of the projects the session has locked. -/
def Call.locked (c : Call) : Phase → Nat
  | .lookup => 0
  | .acquiring index | .refused index => index
  | .operating => c.projectIds.length
  | .releasing count _ => count

def Phase.ended : Phase → Prop
  | .releasing .. => True
  | _ => False

/-- The session holds the locks of no more than the first projects, and of all these until it starts
to release them. -/
structure Inv (c : Call) (s : State) : Prop where
  sound : ∀ p, s.locks.holder p = some c.sessionId →
    ∃ q ∈ c.projectIds.take (c.locked s.phase), q.id = p
  complete : ¬s.phase.ended → ∀ q ∈ c.projectIds.take (c.locked s.phase),
    s.locks.holder q.id = some c.sessionId

variable {c : Call} {s t : State}

theorem locked_acquireNext (c : Call) (h : index ≤ c.projectIds.length) :
    c.locked (c.acquireNext index) = index := by
  unfold Call.acquireNext
  split
  · rfl
  next hlt => exact Nat.le_antisymm (Nat.le_of_not_lt hlt) h

theorem not_ended_acquireNext (c : Call) (index : Nat) : ¬(c.acquireNext index).ended := by
  unfold Call.acquireNext
  split <;> exact id

/-- A step that only moves to a phase with as many locks keeps the invariant. -/
theorem Inv.move (H : Inv c s) (hlocked : c.locked phase = c.locked s.phase)
    (hended : ¬phase.ended → ¬s.phase.ended) : Inv c { s with phase } where
  sound p hp := hlocked ▸ H.sound p hp
  complete hnot q hq := H.complete (hended hnot) q (hlocked ▸ hq)

/-- So does a step of another session, which takes and frees only locks of its own. -/
theorem Inv.others {locks : DeployLocks} (H : Inv c s)
    (h : ∀ p, locks.holder p = some c.sessionId ↔ s.locks.holder p = some c.sessionId) :
    Inv c { s with locks } where
  sound p hp := H.sound p ((h p).mp hp)
  complete hnot q hq := (h q.id).mpr (H.complete hnot q hq)

theorem holder_clean {locks : DeployLocks} (h : ∀ p, ¬locks.LeaseExpired now p) (p : String) :
    (locks.cleanExpiredDeployLocks now).holder p = locks.holder p := by
  rw [DeployLocks.holder, locks.cleanExpiredDeployLocks_lock_of_not (h p)]
  rfl

theorem Inv.claim (H : Inv c s) (hphase : s.phase = .acquiring index)
    (hp : c.projectIds[index]? = some p) : Inv c (c.claim s now index p) := by
  have htake : c.projectIds.take (index + 1) = c.projectIds.take index ++ [p] := by
    rw [List.take_add_one, hp]
    rfl
  have hlt : index + 1 ≤ c.projectIds.length := (List.getElem?_eq_some_iff.mp hp).1
  have hlocked : c.locked s.phase = index := by rw [hphase]; rfl
  unfold Call.claim
  dsimp only
  split
  next hclaimed =>
    constructor
    · intro p' hheld
      rw [locked_acquireNext c hlt, htake]
      rw [DeployLocks.holder_claimDeployLock] at hheld
      split at hheld
      next heq => exact ⟨p, by simp, heq.1.symm⟩
      next =>
        obtain ⟨q, hq, rfl⟩ := H.sound p' hheld
        exact ⟨q, List.mem_append_left _ (hlocked ▸ hq), rfl⟩
    · intro _ q hq
      rw [locked_acquireNext c hlt, htake] at hq
      rw [DeployLocks.holder_claimDeployLock]
      split
      · rfl
      next hne =>
        rcases List.mem_append.mp hq with hq | hq
        · exact H.complete (by rw [hphase]; exact id) q (hlocked ▸ hq)
        · cases List.mem_singleton.mp hq
          exact absurd ⟨rfl, hclaimed⟩ hne
  next hclaimed =>
    have hlocks : (s.locks.claimDeployLock now p.id c.sessionId).2 = s.locks := by
      unfold DeployLocks.claimDeployLock at hclaimed ⊢
      split at hclaimed
      · exact absurd rfl hclaimed
      next h => rw [if_neg h]
    rw [hlocks]
    exact H.move (by rw [hphase]; rfl) fun _ => by rw [hphase]; exact id

theorem Inv.release (H : Inv c s) (hphase : s.phase = .releasing (count + 1) result)
    (hp : c.projectIds[count]? = some p) :
    Inv c ⟨(s.locks.releaseDeployLock p.id c.sessionId).2, .releasing count result⟩ := by
  refine ⟨fun p' hheld => ?_, fun hnot => absurd trivial hnot⟩
  rw [DeployLocks.holder_releaseDeployLock_eq] at hheld
  split at hheld
  next => cases hheld
  next hne =>
    obtain ⟨q, hq, rfl⟩ := H.sound p' hheld
    rw [hphase, Call.locked, List.take_add_one, hp] at hq
    rcases List.mem_append.mp hq with hq | hq
    · exact ⟨q, hq, rfl⟩
    · cases List.mem_singleton.mp hq
      exact absurd ⟨rfl, hheld⟩ hne

theorem Inv.step (h : c.next s e = some t) (hlease : WithinLease s e) (H : Inv c s) : Inv c t := by
  cases e with
  | lookedUp ok =>
    obtain ⟨hphase, ⟨⟩⟩ := Option.ite_none_right_eq_some.mp h
    have hnot : ¬s.phase.ended := by rw [hphase]; exact id
    cases ok with
    | true =>
      exact H.move (by rw [hphase, if_pos rfl, locked_acquireNext c (Nat.zero_le _)]; rfl)
        fun _ => hnot
    | false => exact H.move (by rw [hphase]; rfl) fun _ => hnot
  | clean now =>
    cases h
    exact H.others fun p => by rw [holder_clean hlease]
  | claim now =>
    simp only [Call.next] at h
    split at h <;> try contradiction
    next index hphase =>
      obtain ⟨p, hp, rfl⟩ := Option.map_eq_some_iff.mp h
      exact H.claim hphase hp
  | acquireFails =>
    simp only [Call.next] at h
    split at h <;> try contradiction
    next index hphase =>
      cases h
      exact H.move (by rw [hphase]; rfl) fun hnot => absurd trivial hnot
  | lockInfo ok =>
    simp only [Call.next] at h
    split at h <;> try contradiction
    next index hphase =>
      obtain ⟨p, -, rfl⟩ := Option.map_eq_some_iff.mp h
      exact H.move (by rw [hphase]; rfl) fun hnot => absurd trivial hnot
  | operated result =>
    obtain ⟨hphase, ⟨⟩⟩ := Option.ite_none_right_eq_some.mp h
    exact H.move (by rw [hphase]; rfl) fun hnot => absurd trivial hnot
  | release =>
    simp only [Call.next] at h
    split at h <;> try contradiction
    next count result hphase =>
      obtain ⟨p, hp, rfl⟩ := Option.map_eq_some_iff.mp h
      exact H.release hphase hp
  | othersClaim now projectId sessionId =>
    obtain ⟨hne, ⟨⟩⟩ := Option.ite_none_right_eq_some.mp h
    apply H.others
    intro p
    rw [DeployLocks.holder_claimDeployLock]
    split
    next hclaimed =>
      obtain ⟨rfl, hclaimed⟩ := hclaimed
      have hfree := (s.locks.claimDeployLock_fst.mp hclaimed).2
      exact iff_of_false (fun heq => hne (Option.some.inj heq))
        fun hheld => hne (hfree _ hheld).symm
    next => rfl
  | othersRelease projectId sessionId =>
    obtain ⟨hne, ⟨⟩⟩ := Option.ite_none_right_eq_some.mp h
    apply H.others
    intro p
    rw [DeployLocks.holder_releaseDeployLock_eq]
    split
    next hfreed =>
      obtain ⟨rfl, hholder⟩ := hfreed
      refine iff_of_false nofun fun hheld => hne ?_
      exact Option.some.inj (hholder.symm.trans hheld)
    next => rfl

/-! ## The locks of the other sessions -/

theorem inv_of_run (hfresh : ∀ p, locks.holder p ≠ some c.sessionId)
    (h : Run (Guarded (Fires c.next) WithinLease) (init locks) es s) : Inv c s := by
  refine h.invariant (fun s e t ⟨hs, hlease⟩ H => H.step hs hlease)
    ⟨fun p hp => ?_, fun _ q hq => ?_⟩
  · exact absurd hp (hfresh p)
  · simp [init, Call.locked] at hq

def web : ProjectId := ⟨"web", by decide⟩
def api : ProjectId := ⟨"api", by decide⟩

end OpenLander.Pipeline.ArchiveLocks
