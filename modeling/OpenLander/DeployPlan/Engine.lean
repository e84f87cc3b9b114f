import OpenLander.Theory.Run
import OpenLander.Db.DeployLock
import OpenLander.DeployPlan.Types

/-! # The deploy plan engine

One stored plan and the calls of `DeployPlanEngine` (`src/pipeline/deploy-plan/engine.ts`) that
read and write it: any number of `executePlan` and `updatePlan` calls and the listeners that
`registerPlanCompletionListeners` installs. A step is the work of one call between two awaits. All
that these calls do to a stored plan depends on its status, and the model keeps the status only. -/

namespace OpenLander.DeployPlan
open Theory Db

/-! ## The stored plan -/

inductive Origin
  | createPlan
  | updatePlan
  /-- `persistExecutingPlan` of a call. -/
  | execution (i : Nat)
  /-- The completion of the execution of a call. -/
  | completion (i : Nat)
  deriving DecidableEq, Repr

structure Write where
  origin : Origin
  status : DeployPlanStatus
  deriving DecidableEq, Repr

/-- The row of the plan, with the history of its writes. -/
structure Store where
  status : DeployPlanStatus
  writes : List Write
  /-- The number of transitions into an executable status. -/
  openings : Nat
  /-- The calls that started to provision and dispatch, each with the opening it fell in. -/
  executions : List (Nat × Nat) := []

namespace Store

def create (status : DeployPlanStatus) : Store where
  status
  writes := [⟨.createPlan, status⟩]
  openings := if status.executable then 1 else 0

/-- `updateDeployPlan`. -/
def write (st : Store) (origin : Origin) (status : DeployPlanStatus) : Store :=
  { st with
    status
    writes := st.writes ++ [⟨origin, status⟩]
    openings := if status.executable ∧ ¬st.status.executable then st.openings + 1 else st.openings }

/-- `persistExecutingPlan`. -/
def execute (st : Store) (i : Nat) : Store :=
  { st.write (.execution i) .executing with executions := st.executions ++ [(i, st.openings)] }

end Store

/-! ## A call of `executePlan` -/

inductive Phase
  | idle
  /-- The plan is loaded and has passed the checks; its target is being resolved. -/
  | loaded
  /-- The deploy lock is acquired, if there is a target project. -/
  | locked
  /-- The plan is persisted as executing. -/
  | provisioning
  /-- The deploy is started, but `dispatchPlanDeploy` has not returned. -/
  | dispatching
  /-- The listeners are registered. -/
  | estimating
  /-- `failCommittedPlan` is awaited because of a preflight error. -/
  | preflightFailed
  /-- `failCommittedPlan` is awaited in the `catch` block. -/
  | failing
  | building
  | failed
  | rejected
  deriving DecidableEq, Repr

/-- What became of the closure that releases the deploy lock. -/
inductive Release
  | notCalled
  | pending
  | done
  | failed
  deriving DecidableEq, Repr

structure Call where
  phase : Phase := .idle
  /-- The status of the plan in memory. -/
  plan : DeployPlanStatus := .draft
  /-- The number of executions that were persisted when the plan was loaded. -/
  loadedAt : Nat := 0
  lockProjectId : Option String := none
  release : Release := .notCalled
  /-- The listeners are subscribed. -/
  listening : Bool := false
  /-- The runs of `finishSuccess` (`true`) and `finishFailure` that have not finished. -/
  handlers : List Bool := []
  /-- The deploy was started, and has reached a terminal event. -/
  started : Bool := false
  terminal : Bool := false
  /-- A terminal event has reached the listeners. -/
  heard : Bool := false
  /-- The `try` block has released the lock itself. -/
  caught : Bool := false
  /-- The call or one of its listeners has written the plan as completed or failed. -/
  finished : Bool := false

/-- A call that is refused at its checks does nothing and has no event. -/
inductive CallEvent
  | load
  /-- The call ends before it has acquired a lock. -/
  | refused
  | acquire (targetProject : Option String) (now : Nat)
  | persist (ok : Bool)
  | dispatch
  | dispatched (preflightError : Bool)
  /-- A step of the `try` block throws. -/
  | throws
  | estimated
  | failCommitted (ok : Bool)
  /-- A terminal event for the project that the call deploys. -/
  | terminal (success : Bool)
  | finish (success attached ok : Bool)
  | released (ok : Bool)
  deriving DecidableEq, Repr

/-- `transitionApprovedPlanForExecution`. -/
def transitionApprovedPlanForExecution (plan : DeployPlanStatus) : DeployPlanStatus :=
  if plan = .needs_approval then .ready else plan

/-- The status that a listener writes. -/
def completionStatus (success attached : Bool) : DeployPlanStatus :=
  if success && attached then .completed else .failed

namespace Call

/-- `release()`. -/
def callRelease (c : Call) : Call :=
  { c with
    release :=
      if c.lockProjectId.isSome ∧ c.release = .notCalled then .pending else c.release }

/-- `failCommittedPlan` is awaited. -/
def failing (c : Call) : Prop := c.phase = .preflightFailed ∨ c.phase = .failing

instance (c : Call) : Decidable c.failing := inferInstanceAs (Decidable (_ ∨ _))

/-- The call is in its `try` block. -/
def trying (c : Call) : Prop :=
  c.phase = .provisioning ∨ c.phase = .dispatching ∨ c.phase = .estimating

instance (c : Call) : Decidable c.trying := inferInstanceAs (Decidable (_ ∨ _))

def next (events : Bool) (st : Store) (c : Call) : CallEvent → Option Call
  | .load =>
    if c.phase = .idle ∧ st.status.executable then
      some { c with
        phase := .loaded
        plan := transitionApprovedPlanForExecution st.status
        loadedAt := st.executions.length }
    else none
  | .refused => if c.phase = .loaded then some { c with phase := .rejected } else none
  | .acquire targetProject _ =>
    if c.phase = .loaded then some { c with phase := .locked, lockProjectId := targetProject }
    else none
  | .persist ok =>
    if c.phase = .locked ∧ PlanStateMachine.canTransition c.plan .executing then
      some (if ok then { c with phase := .provisioning, plan := .executing }
        else { c with phase := .rejected })
    else none
  | .dispatch =>
    if c.phase = .provisioning then some { c with phase := .dispatching, started := true }
    else none
  | .dispatched preflightError =>
    if c.phase = .dispatching then
      some (if preflightError then
          { c with phase := .preflightFailed, listening := events, caught := true }.callRelease
        else { c with phase := .estimating, listening := events })
    else none
  | .throws =>
    if c.trying then some { c with phase := .failing, caught := true }.callRelease else none
  | .estimated => if c.phase = .estimating then some { c with phase := .building } else none
  | .failCommitted ok =>
    if c.failing ∧ PlanStateMachine.canTransition c.plan .failed then
      some (if ok then { c with phase := .failed, finished := true }
        -- What the `try` block throws is caught, and the plan is failed once more.
        else { c with phase := if c.phase = .preflightFailed then .failing else .rejected })
    else none
  | .terminal success =>
    if c.started then
      some { c with
        terminal := true
        heard := c.heard || c.listening
        handlers := if c.listening then c.handlers ++ [success] else c.handlers }
    else none
  | .finish success attached ok =>
    if success ∈ c.handlers ∧
        PlanStateMachine.canTransition c.plan (completionStatus success attached) then
      some { c with
        handlers := c.handlers.erase success
        listening := false
        finished := c.finished || ok }.callRelease
    else none
  | .released ok =>
    if c.release = .pending then some { c with release := if ok then .done else .failed } else none

end Call

/-- What a step of a call writes to the row of the plan. -/
def Store.after (st : Store) (i : Nat) : CallEvent → Store
  | .persist true => st.execute i
  | .failCommitted true => st.write (.completion i) .failed
  | .finish success attached true => st.write (.completion i) (completionStatus success attached)
  | _ => st

/-! ## The engine -/

structure Engine where
  planId : String
  /-- The engine has an event bus. -/
  events : Bool
  /-- The `lockSessionId` of each `executePlan` call. -/
  lockSessionId : Nat → Option String

def Engine.lockSession (E : Engine) (i : Nat) : String :=
  (E.lockSessionId i).getD ("plan-" ++ E.planId)

/-- An engine whose calls have no session of their own. -/
def engine : Engine where
  planId := "1"
  events := true
  lockSessionId _ := none

def oneProject : DeployLocks where
  projects := ["p"]

/-- What a step of a call does to the deploy locks. An acquisition that is refused throws. -/
def Engine.locksAfter (E : Engine) (i : Nat) (c : Call) (locks : DeployLocks) :
    CallEvent → Option DeployLocks
  | .acquire (some projectId) now =>
    let (acquired, locks) := locks.acquireDeployLock now projectId (E.lockSession i)
    if acquired then some locks else none
  | .released true =>
    some (c.lockProjectId.elim locks fun projectId =>
      (locks.releaseDeployLock projectId (E.lockSession i)).2)
  | _ => some locks

structure State where
  store : Store
  locks : DeployLocks
  calls : Nat → Call := fun _ => {}
  /-- The `updatePlan` calls that have read the plan, with the number of executions that were
  persisted then. -/
  updates : Nat → Option Nat := fun _ => none

inductive Event
  | call (i : Nat) (e : CallEvent)
  | updateRead (u : Nat)
  /-- The status is the one of `computePlanStatus`. -/
  | updateWrite (u : Nat) (status : DeployPlanStatus)
  /-- Others acquire and release locks, and locks expire. -/
  | locksChange (locks : DeployLocks)

def init (status : DeployPlanStatus) (locks : DeployLocks) : State where
  store := .create status
  locks

def next (E : Engine) (s : State) : Event → Option State
  | .call i e =>
    ((s.calls i).next E.events s.store e).bind fun c =>
      (E.locksAfter i (s.calls i) s.locks e).map fun locks =>
        { s with store := s.store.after i e, locks, calls := Function.update s.calls i c }
  | .updateRead u =>
    if s.updates u = none ∧ ¬s.store.status.terminal then
      some { s with updates := Function.update s.updates u (some s.store.executions.length) }
    else none
  | .updateWrite u status =>
    if (s.updates u).isSome ∧
        (status = .needs_input ∨ status = .needs_approval ∨ status = .ready) then
      some { s with
        store := s.store.write .updatePlan status, updates := Function.update s.updates u none }
    else none
  | .locksChange locks => some { s with locks }

variable {E : Engine} {s s' : State}

theorem next_call (h : next E s (.call i e) = some s') :
    ∃ c locks, (s.calls i).next E.events s.store e = some c ∧
      s' = { s with store := s.store.after i e, locks, calls := Function.update s.calls i c } := by
  obtain ⟨c, hc, h⟩ := Option.bind_eq_some_iff.mp h
  obtain ⟨locks, -, rfl⟩ := Option.map_eq_some_iff.mp h
  exact ⟨c, locks, hc, rfl⟩

/-! ## The steps of one call -/

/-- One step of a call, whatever the stored plan is. -/
def Call.Step (events : Bool) (c : Call) (e : CallEvent) (c' : Call) : Prop :=
  ∃ st, c.next events st e = some c'

/-- The event as a step of the call `i`. -/
def Event.ofCall (i : Nat) : Event → Option CallEvent
  | .call j e => if j = i then some e else none
  | _ => none

/-- The steps of the call `i` in a run. -/
def stepsOf (i : Nat) (es : List Event) : List CallEvent := es.filterMap (Event.ofCall i)

theorem call_of_next (h : next E s e = some s') (i : Nat) :
    match e.ofCall i with
    | some e' => (s.calls i).next E.events s.store e' = some (s'.calls i)
    | none => s'.calls i = s.calls i := by
  cases e with
  | call j e =>
    obtain ⟨c, locks, hc, rfl⟩ := next_call h
    rw [Event.ofCall]
    split
    next e' heq =>
      obtain ⟨rfl, ⟨⟩⟩ := Option.ite_none_right_eq_some.mp heq
      simpa using hc
    next heq =>
      have hne : i ≠ j := fun hij => by simp [hij] at heq
      exact Function.update_of_ne hne ..
  | locksChange locks =>
    cases h
    rfl
  | _ =>
    obtain ⟨-, ⟨⟩⟩ := Option.ite_none_right_eq_some.mp h
    rfl

/-- A run of the engine is, for each call, a run of that call. -/
theorem run_call (h : Run (Fires (next E)) s es s') (i : Nat) :
    Run (Call.Step E.events) (s.calls i) (stepsOf i es) (s'.calls i) := by
  refine h.project (f := fun s : State => s.calls i) (fun s e s' e' hs he => ?_)
    fun s e s' hs he => ?_
  · have := call_of_next hs i
    rw [he] at this
    exact ⟨s.store, this⟩
  · have := call_of_next hs i
    rwa [he] at this

/-- The call is between its load and its persist. -/
def Call.waiting (c : Call) : Prop := c.phase = .loaded ∨ c.phase = .locked

/-- A call that waits has loaded an executable plan. -/
theorem waiting_of_next {c c' : Call} (h : c.next events st e = some c') (hw : c'.waiting) :
    c.waiting ∧ c'.loadedAt = c.loadedAt ∨
      st.status.executable ∧ c'.loadedAt = st.executions.length := by
  cases e with
  | load =>
    obtain ⟨⟨-, hexec⟩, ⟨⟩⟩ := Option.ite_none_right_eq_some.mp h
    exact .inr ⟨hexec, rfl⟩
  | acquire targetProject now =>
    obtain ⟨hphase, ⟨⟩⟩ := Option.ite_none_right_eq_some.mp h
    exact .inl ⟨.inl hphase, rfl⟩
  | persist ok =>
    obtain ⟨-, ⟨⟩⟩ := Option.ite_none_right_eq_some.mp h
    cases ok <;> simp [Call.waiting] at hw
  | dispatched preflightError =>
    obtain ⟨-, ⟨⟩⟩ := Option.ite_none_right_eq_some.mp h
    cases preflightError <;> simp [Call.waiting, Call.callRelease] at hw
  | failCommitted ok =>
    obtain ⟨⟨hphase, -⟩, ⟨⟩⟩ := Option.ite_none_right_eq_some.mp h
    rcases hphase with hphase | hphase <;> cases ok <;> simp [Call.waiting, hphase] at hw
  | terminal success =>
    obtain ⟨-, ⟨⟩⟩ := Option.ite_none_right_eq_some.mp h
    exact .inl ⟨hw, rfl⟩
  | finish success attached ok =>
    obtain ⟨-, ⟨⟩⟩ := Option.ite_none_right_eq_some.mp h
    exact .inl ⟨hw, rfl⟩
  | released ok =>
    obtain ⟨-, ⟨⟩⟩ := Option.ite_none_right_eq_some.mp h
    exact .inl ⟨hw, rfl⟩
  | _ =>
    obtain ⟨-, ⟨⟩⟩ := Option.ite_none_right_eq_some.mp h
    simp [Call.waiting, Call.callRelease] at hw

/-! ## Writes -/

/-- The step writes the plan as completed or failed. -/
def CallEvent.completes : CallEvent → Bool
  | .failCommitted ok | .finish _ _ ok => ok
  | _ => false

/-- What a step does to the stored plan. -/
inductive Writes (s : State) : Event → Store → Prop
  | execute (h : (s.calls i).phase = .locked) :
      Writes s (.call i (.persist true)) (s.store.execute i)
  | update (h : s.updates u = some n) (hstatus : ¬status.terminal) :
      Writes s (.updateWrite u status) (s.store.write .updatePlan status)
  | complete {i : Nat} {e : CallEvent} (he : e.completes) (h : (s.calls i).plan = .executing)
      (hstatus : status = .completed ∨ status = .failed) :
      Writes s (.call i e) (s.store.write (.completion i) status)
  | rest (h : ∀ i, e ≠ .call i (.persist true)) : Writes s e s.store

theorem eq_executing_of_canTransition {plan : DeployPlanStatus}
    (h : PlanStateMachine.canTransition plan status) (hs : status = .completed ∨ status = .failed) :
    plan = .executing := by
  rcases hs with rfl | rfl <;>
    cases plan <;> simp_all [PlanStateMachine.canTransition, PlanStateMachine.validTransitions]

theorem completionStatus_or (success attached : Bool) :
    completionStatus success attached = .completed ∨
      completionStatus success attached = .failed := by
  cases success <;> cases attached <;> simp [completionStatus]

theorem writes_of_next (h : next E s e = some s') : Writes s e s'.store := by
  cases e with
  | call i e =>
    obtain ⟨c, locks, hc, rfl⟩ := next_call h
    cases e with
    | persist ok =>
      obtain ⟨⟨hphase, -⟩, -⟩ := Option.ite_none_right_eq_some.mp hc
      cases ok with
      | true => exact .execute hphase
      | false => exact .rest (by simp)
    | failCommitted ok =>
      obtain ⟨⟨-, hcan⟩, -⟩ := Option.ite_none_right_eq_some.mp hc
      cases ok with
      | true => exact .complete rfl (eq_executing_of_canTransition hcan (.inr rfl)) (.inr rfl)
      | false => exact .rest (by simp)
    | finish success attached ok =>
      obtain ⟨⟨-, hcan⟩, -⟩ := Option.ite_none_right_eq_some.mp hc
      have hstatus := completionStatus_or success attached
      cases ok with
      | true => exact .complete rfl (eq_executing_of_canTransition hcan hstatus) hstatus
      | false => exact .rest (by simp)
    | _ => exact .rest (by simp)
  | updateRead u =>
    obtain ⟨-, ⟨⟩⟩ := Option.ite_none_right_eq_some.mp h
    exact .rest (by simp)
  | updateWrite u status =>
    obtain ⟨⟨hread, hstatus⟩, ⟨⟩⟩ := Option.ite_none_right_eq_some.mp h
    obtain ⟨n, hn⟩ := Option.isSome_iff_exists.mp hread
    refine .update hn ?_
    rcases hstatus with rfl | rfl | rfl <;> simp [DeployPlanStatus.terminal]
  | locksChange locks =>
    cases h
    exact .rest (by simp)

/-! ## What a reader may rely on -/

/-- `P` holds of the stored plan unless an execution was persisted since the reader read it, which
was after `n` executions. -/
structure Store.Since (P : Store → Prop) (st : Store) (n : Nat) : Prop where
  le : n ≤ st.executions.length
  holds : n = st.executions.length → P st

theorem Store.Since.execute {P : Store → Prop} {st : Store} (h : st.Since P n) (i : Nat) :
    (st.execute i).Since P n := by
  have hlen : (st.execute i).executions.length = st.executions.length + 1 := List.length_append
  have hle := h.le
  exact ⟨by omega, fun hn => by omega⟩

theorem Store.Since.write {P : Store → Prop} {st : Store} (h : st.Since P n) (origin : Origin)
    (status : DeployPlanStatus) (hP : P st → P (st.write origin status)) :
    (st.write origin status).Since P n where
  le := h.le
  holds hn := hP (h.holds hn)

/-- The calls that wait have loaded an executable plan. -/
theorem since_of_step {P : Store → Prop} (h : next E s e = some s')
    (hP : s.store.status.executable → P s.store)
    (hwaits : ∀ i, (s.calls i).waiting → s.store.Since P (s.calls i).loadedAt) (i : Nat)
    (hw : (s'.calls i).waiting) : s.store.Since P (s'.calls i).loadedAt := by
  have hcall := call_of_next h i
  have hload : (s.calls i).waiting ∧ (s'.calls i).loadedAt = (s.calls i).loadedAt ∨
      s.store.status.executable ∧ (s'.calls i).loadedAt = s.store.executions.length := by
    split at hcall
    · exact waiting_of_next hcall hw
    · rw [hcall] at hw ⊢
      exact .inl ⟨hw, rfl⟩
  rcases hload with ⟨hw, heq⟩ | ⟨hexec, heq⟩
  · rw [heq]
    exact hwaits i hw
  · rw [heq]
    exact ⟨Nat.le_refl _, fun _ => hP hexec⟩

end OpenLander.DeployPlan
