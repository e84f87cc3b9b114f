import OpenLander.Theory.Run
import OpenLander.Db.DeployLock

/-! # Sections under the deploy lock

`withDeployLock` (`src/db/repos/deploy-lock-helper.ts`) acquires the deploy lock of a project, runs
a body and releases the lock in `finally`. Acquiring is re-entrant for a session, and releasing is
not counted: it frees the lock of the session, whichever of its calls still run. A step is one
statement of the database, or the end of a body. -/

namespace OpenLander.Db.WithDeployLock
open Theory

/-- The calls. One that is made in the body of another reuses its session. -/
structure Calls (ι : Type) where
  projectId : ι → String
  sessionId : ι → String
  /-- The call in whose body this one is made, if any. -/
  outer : ι → Option ι := fun _ => none
  nested : ∀ i, ∀ j ∈ outer i, projectId i = projectId j ∧ sessionId i = sessionId j

structure State (ι : Type) where
  locks : DeployLocks
  /-- The calls whose body is running. -/
  bodies : List ι := []
  /-- The calls whose body has returned or thrown, and whose release is to come. -/
  releasing : List ι := []

inductive Event (ι : Type)
  /-- The first statement of `acquireDeployLock`, for any call. -/
  | clean (now : Nat)
  /-- The second statement. A call that it refuses throws `DeployLockedError`. -/
  | claim (i : ι) (now : Nat)
  /-- The body returns or throws. -/
  | finish (i : ι)
  | release (i : ι)

variable {ι : Type} [DecidableEq ι] (C : Calls ι)

def State.inProgress (s : State ι) : List ι := s.bodies ++ s.releasing

def State.claim (s : State ι) (i : ι) (now : Nat) : State ι :=
  let claimed := s.locks.claimDeployLock now (C.projectId i) (C.sessionId i)
  { s with locks := claimed.2, bodies := if claimed.1 then i :: s.bodies else s.bodies }

def State.release (s : State ι) (i : ι) : State ι :=
  { s with
    locks := (s.locks.releaseDeployLock (C.projectId i) (C.sessionId i)).2
    releasing := s.releasing.filter (· ≠ i) }

def next (s : State ι) : Event ι → Option (State ι)
  | .clean now => some { s with locks := s.locks.cleanExpiredDeployLocks now }
  | .claim i now =>
    if i ∉ s.inProgress ∧ ∀ j ∈ C.outer i, j ∈ s.bodies then some (s.claim C i now) else none
  | .finish i =>
    -- An inner call returns before the body in which it is made.
    if i ∈ s.bodies ∧ ∀ j ∈ s.inProgress, C.outer j ≠ some i then
      some { s with bodies := s.bodies.filter (· ≠ i), releasing := i :: s.releasing }
    else none
  | .release i => if i ∈ s.releasing then some (s.release C i) else none

def init (locks : DeployLocks) : State ι := { locks }

/-- The bodies that run on one project belong to one session. -/
def Exclusive (s : State ι) : Prop :=
  ∀ i ∈ s.bodies, ∀ j ∈ s.bodies, C.projectId i = C.projectId j → C.sessionId i = C.sessionId j

/-- Until a call returns, its session holds the lock. -/
def Held (s : State ι) : Prop :=
  ∀ i ∈ s.inProgress, s.locks.holder (C.projectId i) = some (C.sessionId i)

/-- No lock of a call in progress has expired when the locks are cleaned. -/
def WithinLease (s : State ι) : Event ι → Prop
  | .clean now => ∀ i ∈ s.inProgress, ¬s.locks.LeaseExpired now (C.projectId i)
  | _ => True

/-- A call that releases the lock is the last of its session on the project. -/
def Outermost (s : State ι) : Event ι → Prop
  | .release i => ∀ j ∈ s.inProgress, C.projectId j = C.projectId i →
      C.sessionId j = C.sessionId i → j = i
  | _ => True

/-! ## The invariant -/

variable {C} {s s' : State ι}

omit [DecidableEq ι] in
theorem Held.exclusive (H : Held C s) : Exclusive C s := by
  intro i hi j hj hproject
  have hholdi := H i (List.mem_append_left _ hi)
  have hholdj := H j (List.mem_append_left _ hj)
  rw [hproject, hholdj] at hholdi
  exact (Option.some.inj hholdi).symm

omit [DecidableEq ι] in
theorem Held.clean (H : Held C s) (hlease : WithinLease C s (.clean now)) :
    Held C { s with locks := s.locks.cleanExpiredDeployLocks now } := by
  intro i hi
  have hlock := s.locks.cleanExpiredDeployLocks_lock_of_not (hlease i hi)
  rw [DeployLocks.holder, hlock]
  exact H i hi

omit [DecidableEq ι] in
/-- A claim that succeeds locks the project for the session of the call. It fails, and changes
nothing, where another session holds the lock. -/
theorem Held.claim (H : Held C s) (i : ι) (now : Nat) : Held C (s.claim C i now) := by
  intro j hj
  simp only [State.claim, DeployLocks.holder_claimDeployLock]
  split
  next h =>
    obtain ⟨hproject, hclaimed⟩ := h
    have hfree := (s.locks.claimDeployLock_fst.mp hclaimed).2
    simp only [State.inProgress, State.claim, if_pos hclaimed, List.cons_append,
      List.mem_cons] at hj
    rcases hj with rfl | hj
    · rfl
    · rw [hfree (C.sessionId j) (hproject ▸ H j hj)]
  next h =>
    simp only [State.inProgress, State.claim] at hj
    split at hj
    next hclaimed =>
      rcases List.mem_cons.mp hj with rfl | hj
      · exact absurd ⟨rfl, hclaimed⟩ h
      · exact H j hj
    next => exact H j hj

theorem Held.finish (H : Held C s) (hi : i ∈ s.bodies) :
    Held C { s with bodies := s.bodies.filter (· ≠ i), releasing := i :: s.releasing } := by
  intro j hj
  apply H j
  simp only [State.inProgress, List.mem_append, List.mem_filter, List.mem_cons] at hj ⊢
  rcases hj with hj | rfl | hj
  · exact .inl hj.1
  · exact .inl hi
  · exact .inr hj

theorem Held.release (H : Held C s) (hout : Outermost C s (.release i)) (hi : i ∉ s.bodies) :
    Held C (s.release C i) := by
  intro j hj
  simp only [State.inProgress, State.release, List.mem_append, List.mem_filter,
    decide_eq_true_eq] at hj
  have hmem : j ∈ s.inProgress := List.mem_append.mpr (hj.imp_right (·.1))
  have hne : j ≠ i := by
    rintro rfl
    exact hj.elim hi fun hj => hj.2 rfl
  simp only [State.release, DeployLocks.holder_releaseDeployLock_eq]
  rw [if_neg, H j hmem]
  rintro ⟨hproject, hholder⟩
  have hsession := H j hmem
  rw [hproject, hholder] at hsession
  exact hne (hout j hmem hproject (Option.some.inj hsession).symm)

/-- A body that runs has not been left. -/
def Disjoint (s : State ι) : Prop := ∀ i ∈ s.bodies, i ∉ s.releasing

theorem Disjoint.step : Preserves (Fires (next C)) Disjoint := by
  intro s e t hs H
  cases e with
  | clean now =>
    cases hs
    exact H
  | claim i now =>
    obtain ⟨⟨hnot, -⟩, ⟨⟩⟩ := Option.ite_none_right_eq_some.mp hs
    intro j hj
    simp only [State.claim] at hj
    split at hj
    · rcases List.mem_cons.mp hj with rfl | hj
      · exact fun hr => hnot (List.mem_append_right _ hr)
      · exact H j hj
    · exact H j hj
  | finish i =>
    obtain ⟨-, ⟨⟩⟩ := Option.ite_none_right_eq_some.mp hs
    intro j hj hr
    simp only [List.mem_filter, decide_eq_true_eq] at hj
    rcases List.mem_cons.mp hr with rfl | hr
    · exact hj.2 rfl
    · exact H j hj.1 hr
  | release i =>
    obtain ⟨-, ⟨⟩⟩ := Option.ite_none_right_eq_some.mp hs
    exact fun j hj hr => H j hj (List.mem_filter.mp hr).1

theorem Held.step (h : next C s e = some s') (hd : Disjoint s) (H : Held C s)
    (hlease : WithinLease C s e) (hout : Outermost C s e) : Held C s' := by
  cases e with
  | clean now =>
    cases h
    exact H.clean hlease
  | claim i now =>
    obtain ⟨-, ⟨⟩⟩ := Option.ite_none_right_eq_some.mp h
    exact H.claim i now
  | finish i =>
    obtain ⟨⟨hi, -⟩, ⟨⟩⟩ := Option.ite_none_right_eq_some.mp h
    exact H.finish hi
  | release i =>
    obtain ⟨hi, ⟨⟩⟩ := Option.ite_none_right_eq_some.mp h
    exact H.release hout fun hbody => hd i hbody hi

/-- Where no call releases the lock while another one of its session is in progress, the sections of
a project never overlap, and the lock is held until the last call of its session returns. -/
theorem exclusive_of_outermost
    (h : Run (Guarded (Fires (next C)) fun s e => WithinLease C s e ∧ Outermost C s e)
      (init locks) es s) : Exclusive C s ∧ Held C s := by
  have hinv := h.invariant (I := fun s => Disjoint s ∧ Held C s)
    (fun s e t ⟨hs, hlease, hout⟩ ⟨hd, H⟩ => ⟨Disjoint.step hs hd, H.step hs hd hlease hout⟩)
    ⟨nofun, nofun⟩
  exact ⟨hinv.2.exclusive, hinv.2⟩

/-- Call 1 is made in the body of call 0, with its session; call 2 is another session's. -/
def nestedCalls : Calls Nat where
  projectId _ := "p"
  sessionId i := if i = 2 then "rival" else "plan"
  outer i := if i = 1 then some 0 else none
  nested := by
    intro i j hj
    split at hj
    next hi =>
      cases hj
      subst hi
      exact ⟨rfl, rfl⟩
    next => cases hj

theorem exclusive_of_outermost_handover :
    ∃ s, Run (Fires (next nestedCalls)) (init ⟨["p"], fun _ => none⟩)
      [.clean 0, .claim 0 0, .finish 0, .release 0, .clean 5, .claim 2 5] s ∧ s.bodies = [2] ∧
      Exclusive nestedCalls s ∧ Held nestedCalls s := by
  have hrun : Run (Guarded (Fires (next nestedCalls)) fun s e =>
      WithinLease nestedCalls s e ∧ Outermost nestedCalls s e) (init ⟨["p"], fun _ => none⟩)
      [.clean 0, .claim 0 0, .finish 0, .release 0, .clean 5, .claim 2 5] _ :=
    .cons ⟨rfl, nofun, trivial⟩ (.cons ⟨rfl, trivial, trivial⟩ (.cons ⟨rfl, trivial, trivial⟩
      (.cons ⟨rfl, trivial, fun _ hj _ _ => List.mem_singleton.mp hj⟩
        (.cons ⟨rfl, nofun, trivial⟩ (.single ⟨rfl, trivial, trivial⟩)))))
  exact ⟨_, .of_exec rfl, rfl, exclusive_of_outermost hrun⟩

/-- The inner call frees the lock of the outer one, and the rival enters while both bodies run. -/
theorem not_exclusive_nested :
    ¬∀ (C : Calls Nat) (locks : DeployLocks) (es : List (Event Nat)) (s : State Nat),
      Run (Guarded (Fires (next C)) (WithinLease C)) (init locks) es s → Exclusive C s := by
  intro h
  have hrun : Run (Guarded (Fires (next nestedCalls)) (WithinLease nestedCalls))
      (init ⟨["p"], fun _ => none⟩)
      [.claim 0 0, .claim 1 1, .finish 1, .release 1, .claim 2 2] _ :=
    .cons ⟨rfl, trivial⟩ (.cons ⟨rfl, trivial⟩ (.cons ⟨rfl, trivial⟩ (.cons ⟨rfl, trivial⟩
      (.single ⟨rfl, trivial⟩))))
  exact absurd (h _ _ _ _ hrun 0 (.tail _ (.head _)) 2 (.head _) rfl) (by decide)

/-- The release of any other call opens the section of a call that is still in progress. -/
theorem not_held_of_not_outermost (h : next C s (.release i) = some s') (H : Held C s)
    (hout : ¬Outermost C s (.release i)) : ¬Held C s' := by
  obtain ⟨hi, ⟨⟩⟩ := Option.ite_none_right_eq_some.mp h
  simp only [Outermost, not_forall] at hout
  obtain ⟨j, hj, hproject, hsession, hne⟩ := hout
  intro H'
  have hmem : j ∈ (s.release C i).inProgress := by
    rcases List.mem_append.mp hj with hj | hj
    · exact List.mem_append_left _ hj
    · exact List.mem_append_right _ (List.mem_filter.mpr ⟨hj, decide_eq_true hne⟩)
  have hheld := H' j hmem
  have hholder := H i (List.mem_append_right _ hi)
  simp [State.release, DeployLocks.holder_releaseDeployLock_eq, hproject, hholder] at hheld

end OpenLander.Db.WithDeployLock
