import Mathlib.Logic.Function.Basic

/-! # Deploy locks

The lock columns of the `projects` table and the statements that write them
(`src/db/repos/project.repo.ts`). Every write sets or clears both columns together. A statement is
one step; times are in milliseconds. -/

namespace OpenLander.Db

structure DeployLock where
  session : String
  lockedAt : Nat
  deriving DecidableEq, Repr

structure DeployLocks where
  /-- The ids of the rows. -/
  projects : List String
  lock : String → Option DeployLock := fun _ => none

namespace DeployLocks

variable (locks : DeployLocks)

def setLock (projectId : String) (lock : Option DeployLock) : DeployLocks :=
  { locks with lock := Function.update locks.lock projectId lock }

def cleanExpiredDeployLocks (now : Nat) (timeoutMinutes : Nat := 30) : DeployLocks :=
  { locks with
    lock := fun projectId =>
      (locks.lock projectId).filter fun l => now ≤ l.lockedAt + timeoutMinutes * 60000 }

def acquireDeployLock (now : Nat) (projectId sessionId : String) : Bool × DeployLocks :=
  let locks := locks.cleanExpiredDeployLocks now
  if projectId ∈ locks.projects ∧ ∀ l ∈ locks.lock projectId, l.session = sessionId then
    (true, locks.setLock projectId (some ⟨sessionId, now⟩))
  else (false, locks)

/-- The claim of the row, which is the second statement of `acquireDeployLock`. -/
def claimDeployLock (now : Nat) (projectId sessionId : String) : Bool × DeployLocks :=
  if projectId ∈ locks.projects ∧ ∀ l ∈ locks.lock projectId, l.session = sessionId then
    (true, locks.setLock projectId (some ⟨sessionId, now⟩))
  else (false, locks)

theorem acquireDeployLock_eq (now : Nat) (projectId sessionId : String) :
    locks.acquireDeployLock now projectId sessionId =
      (locks.cleanExpiredDeployLocks now).claimDeployLock now projectId sessionId := rfl

/-- The release of one session; the row must be locked by it. -/
def releaseDeployLock (projectId sessionId : String) : Bool × DeployLocks :=
  if ∃ l ∈ locks.lock projectId, l.session = sessionId then (true, locks.setLock projectId none)
  else (false, locks)

/-- `releaseDeployLock` with an optional session. Without one it clears the row of any holder. -/
def releaseDeployLockOf (projectId : String) : Option String → Bool × DeployLocks
  | some sessionId => locks.releaseDeployLock projectId sessionId
  | none => (true, locks.setLock projectId none)

/-- The session that holds the lock of a project. -/
def holder (projectId : String) : Option String := (locks.lock projectId).map (·.session)

@[simp] theorem setLock_lock (projectId projectId' : String) (lock : Option DeployLock) :
    (locks.setLock projectId lock).lock projectId' =
      if projectId' = projectId then lock else locks.lock projectId' := by
  simp [setLock, Function.update_apply]

/-- After a release the session does not hold the lock. -/
theorem holder_releaseDeployLock (projectId sessionId : String) :
    (locks.releaseDeployLock projectId sessionId).2.holder projectId ≠ some sessionId := by
  rw [releaseDeployLock]
  split
  · simp [holder]
  next h =>
    intro hholder
    obtain ⟨l, hl, hsession⟩ := Option.map_eq_some_iff.mp hholder
    exact h ⟨l, hl, hsession⟩

@[simp] theorem holder_setLock (projectId projectId' : String) (lock : Option DeployLock) :
    (locks.setLock projectId lock).holder projectId' =
      if projectId' = projectId then lock.map (·.session) else locks.holder projectId' := by
  unfold holder
  rw [setLock_lock]
  split <;> rfl

theorem holder_eq_some : locks.holder projectId = some sessionId ↔
    ∃ l ∈ locks.lock projectId, l.session = sessionId := by
  simp [holder, Option.map_eq_some_iff]

/-- The lock of a project has been held for longer than its lease. -/
def LeaseExpired (now : Nat) (projectId : String) (timeoutMinutes : Nat := 30) : Prop :=
  ∃ l ∈ locks.lock projectId, l.lockedAt + timeoutMinutes * 60000 < now

theorem cleanExpiredDeployLocks_lock (now : Nat) (projectId : String) :
    (locks.cleanExpiredDeployLocks now).lock projectId =
      (locks.lock projectId).filter fun l => now ≤ l.lockedAt + 30 * 60000 := rfl

/-- The clean-up leaves a lock within its lease, -/
theorem cleanExpiredDeployLocks_lock_of_not (h : ¬locks.LeaseExpired now projectId) :
    (locks.cleanExpiredDeployLocks now).lock projectId = locks.lock projectId := by
  rw [cleanExpiredDeployLocks_lock]
  cases hl : locks.lock projectId with
  | none => rfl
  | some l =>
    have hle : now ≤ l.lockedAt + 30 * 60000 := Nat.le_of_not_lt fun hlt => h ⟨l, hl, hlt⟩
    exact Option.filter_some_pos (decide_eq_true hle)

/-- and takes one that has expired. -/
theorem cleanExpiredDeployLocks_lock_of_expired (h : locks.LeaseExpired now projectId) :
    (locks.cleanExpiredDeployLocks now).lock projectId = none := by
  obtain ⟨l, hl, hlt⟩ := h
  rw [cleanExpiredDeployLocks_lock, Option.mem_def.mp hl]
  exact Option.filter_some_neg (by simpa using hlt)

/-- A claim succeeds where the row exists and no other session holds it. -/
theorem claimDeployLock_fst : (locks.claimDeployLock now projectId sessionId).1 = true ↔
    projectId ∈ locks.projects ∧ ∀ S, locks.holder projectId = some S → S = sessionId := by
  unfold claimDeployLock
  split
  next h =>
    refine iff_of_true rfl ⟨h.1, fun S hS => ?_⟩
    obtain ⟨l, hl, rfl⟩ := locks.holder_eq_some.mp hS
    exact h.2 l hl
  next h =>
    refine iff_of_false Bool.false_ne_true fun hheld => h ⟨hheld.1, fun l hl => ?_⟩
    exact hheld.2 _ (locks.holder_eq_some.mpr ⟨l, hl, rfl⟩)

theorem holder_claimDeployLock (projectId' : String) :
    (locks.claimDeployLock now projectId sessionId).2.holder projectId' =
      if projectId' = projectId ∧ (locks.claimDeployLock now projectId sessionId).1 then
        some sessionId
      else locks.holder projectId' := by
  unfold claimDeployLock
  split <;> simp

theorem holder_releaseDeployLock_eq (projectId' : String) :
    (locks.releaseDeployLock projectId sessionId).2.holder projectId' =
      if projectId' = projectId ∧ locks.holder projectId = some sessionId then none
      else locks.holder projectId' := by
  unfold releaseDeployLock
  split
  next h => simp [locks.holder_eq_some.mpr h]
  next h => simp [mt locks.holder_eq_some.mp h]

end DeployLocks

end OpenLander.Db
