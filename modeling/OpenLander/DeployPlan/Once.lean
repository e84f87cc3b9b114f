import OpenLander.DeployPlan.Engine

/-! # At most one execution

Each transition of the stored plan into an executable status should start at most one execution.
`persistExecutingPlan` writes without looking at the status again, and the lock session
`plan-<planId>` of two calls is the same, so this holds of the runs in which no other call persists
between the load and the persist of a call. -/

namespace OpenLander.DeployPlan
open Theory

namespace Store

variable {st : Store}

/-- The openings that an execution has used. -/
def spent (st : Store) : List Nat := st.executions.map (·.2)

/-- No execution has used the current opening. -/
def Unspent (st : Store) : Prop := st.openings ∉ st.spent

structure Once (st : Store) : Prop where
  bound : ∀ k ∈ st.spent, k ≤ st.openings
  unspent : st.status.executable → st.Unspent
  nodup : st.spent.Nodup

theorem Once.create (status : DeployPlanStatus) : (Store.create status).Once where
  bound := nofun
  unspent _ := List.not_mem_nil
  nodup := .nil

theorem Once.unspent_write (H : st.Once) (h : st.Unspent) (origin : Origin)
    (status : DeployPlanStatus) : (st.write origin status).Unspent := by
  rw [write, Unspent]
  split
  · intro hmem
    have hle := H.bound _ hmem
    dsimp only at hle
    omega
  · exact h

theorem Once.write (H : st.Once) (origin : Origin) (status : DeployPlanStatus) :
    (st.write origin status).Once where
  bound k hk := by
    have hle := H.bound k hk
    rw [Store.write]
    split
    · exact Nat.le_succ_of_le hle
    · exact hle
  unspent hexec := by
    cases hst : st.status.executable with
    | true => exact H.unspent_write (H.unspent hst) origin status
    | false =>
      intro hmem
      have hle := H.bound _ hmem
      have hopen : (st.write origin status).openings = st.openings + 1 :=
        if_pos ⟨hexec, by simp [hst]⟩
      omega
  nodup := H.nodup

theorem Once.execute (H : st.Once) (h : st.Unspent) (i : Nat) : (st.execute i).Once := by
  have hspent : (st.execute i).spent = st.spent ++ [st.openings] := List.map_append ..
  have hopen : (st.execute i).openings = st.openings := by
    simp [Store.execute, Store.write, DeployPlanStatus.executable]
  refine ⟨fun k hk => ?_, fun hexec => ?_, ?_⟩
  · rw [hspent, List.mem_append, List.mem_singleton] at hk
    rw [hopen]
    exact hk.elim (H.bound k) Nat.le_of_eq
  · cases hexec
  · rw [hspent, List.nodup_append]
    refine ⟨H.nodup, List.pairwise_singleton .., fun k hk k' hk' heq => h ?_⟩
    rwa [← List.mem_singleton.mp hk', ← heq]

end Store

structure OnceInv (s : State) : Prop where
  store : s.store.Once
  waits : ∀ i, (s.calls i).waiting → s.store.Since Store.Unspent (s.calls i).loadedAt

/-- No other call has persisted since the call that persists has loaded the plan. -/
def PersistsFresh (s : State) : Event → Prop
  | .call i (.persist true) => (s.calls i).loadedAt = s.store.executions.length
  | _ => True

theorem OnceInv.init (status : DeployPlanStatus) (locks : Db.DeployLocks) :
    OnceInv (init status locks) where
  store := .create status
  waits _ hw := by simp [DeployPlan.init, Call.waiting] at hw

theorem OnceInv.step (h : next E s e = some s') (hfresh : PersistsFresh s e) (H : OnceInv s) :
    OnceInv s' := by
  have hwaits := since_of_step h H.store.unspent H.waits
  have hwrites := writes_of_next h
  rcases s' with ⟨st, locks, calls, updates⟩
  cases hwrites with
  | @execute i hphase =>
    have hunspent := (H.waits i (.inr hphase)).holds hfresh
    exact ⟨H.store.execute hunspent i, fun j hw => (hwaits j hw).execute i⟩
  | update =>
    exact ⟨H.store.write .., fun j hw => (hwaits j hw).write _ _ (H.store.unspent_write · _ _)⟩
  | complete =>
    exact ⟨H.store.write .., fun j hw => (hwaits j hw).write _ _ (H.store.unspent_write · _ _)⟩
  | rest => exact ⟨H.store, hwaits⟩

/-- No two executions fall in the same opening. -/
def AtMostOnce (s : State) : Prop := s.store.spent.Nodup

/-- A deploy plan is executed at most once for each transition into an executable status, as long
as no other call persists between the load and the persist of a call. -/
theorem atMostOnce_of_persistsFresh
    (h : Run (Guarded (Fires (next E)) PersistsFresh) (init status locks) es s) :
    AtMostOnce s := by
  have hI : Preserves (Guarded (Fires (next E)) PersistsFresh) OnceInv :=
    fun _ _ _ hs H => H.step hs.1 hs.2
  exact (h.invariant hI (.init status locks)).store.nodup

/-- A call that loads the plan after the execution of another one is refused. -/
theorem atMostOnce_sequential :
    ∃ es s, Run (Guarded (Fires (next engine)) PersistsFresh) (init .ready oneProject) es s ∧
      s.store.executions = [(0, 1)] ∧ AtMostOnce s ∧ next engine s (.call 1 .load) = none := by
  have hrun : Run (Guarded (Fires (next engine)) PersistsFresh) (init .ready oneProject)
      [.call 0 .load, .call 0 (.acquire (some "p") 0), .call 0 (.persist true)] _ :=
    .cons ⟨rfl, trivial⟩ (.cons ⟨rfl, trivial⟩ (.single ⟨rfl, rfl⟩))
  exact ⟨_, _, hrun, rfl, atMostOnce_of_persistsFresh hrun, rfl⟩

/-- Two calls that both load the plan while it is ready both start to provision and dispatch. They
share the session `plan-1`, so the deploy lock of the target project does not keep them apart. -/
theorem executed_twice :
    ∃ es s, Run (Fires (next engine)) (init .ready oneProject) es s ∧
      s.store.openings = 1 ∧ ¬AtMostOnce s := by
  have hrun : Run (Fires (next engine)) (init .ready oneProject)
      [.call 0 .load, .call 1 .load, .call 0 (.acquire (some "p") 0),
        .call 1 (.acquire (some "p") 0), .call 0 (.persist true), .call 1 (.persist true)] _ :=
    Run.of_exec rfl
  refine ⟨_, _, hrun, rfl, fun h => ?_⟩
  revert h
  unfold AtMostOnce
  decide

end OpenLander.DeployPlan
