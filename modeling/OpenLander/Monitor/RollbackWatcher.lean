import OpenLander.Theory.Run
import Mathlib.Logic.Function.Basic
import Mathlib.Data.List.Nodup

/-! # The rollback watcher

`RollbackWatcher` (`src/monitor/rollback-watcher.ts`) watches the health of a project for a minute after
a deploy. `startWatching` and `handleHealthCheck` each read the database twice before they act; a health
check takes the entry of the map when it is delivered, and acts on the project when its reads are done.

The events of one project that are delivered make up a log, and a deploy or a check goes by its position
in it. A watch goes by its deploy. What a read of the database gives is part of the step. -/

namespace OpenLander.RollbackWatcher
open Theory

structure RollbackWatcherOptions where
  onRegressionSignal : Bool
  pipeline : Bool
  deriving DecidableEq, Repr

def FAILURE_THRESHOLD : Nat := 3

/-- What is delivered to the watcher. -/
inductive Delivery
  | deploySuccess (planId : Option String)
  | healthCheck (healthy : Bool)
  deriving DecidableEq, Repr

/-- Where the handler of a delivery is. -/
inductive Task
  | none
  | startProject
  | startView
  | checkProject (watcher : Nat)
  | checkView (watcher : Nat)
  /-- The check has reset or raised the count of its watch. -/
  | judged
  | over
  deriving DecidableEq, Repr

inductive RecoveryAction
  | regressionSignal (failureCount : Nat)
  | autoRollback (planId : String)
  | rollbackSuggested (consecutiveFailures : Nat) (previousImageTag : String)
  deriving DecidableEq, Repr

/-- An action with the watch that it counts for and the number of deliveries before it. -/
structure Triggered where
  watcher : Nat
  action : RecoveryAction
  time : Nat
  deriving DecidableEq, Repr

structure State where
  log : List Delivery := []
  task : Nat → Task := fun _ => .none
  /-- The watch that a check has taken. -/
  captured : Nat → Option Nat := fun _ => none
  /-- The entry of the project in `watchers`. -/
  watcher : Option Nat := none
  consecutiveFailures : Nat → Nat := fun _ => 0
  /-- How many deliveries there were when the window of the watch expired. -/
  expired : Nat → Option Nat := fun _ => none
  triggered : List Triggered := []
  /-- The watches that checks have ended, with the checks. -/
  ended : List (Nat × Nat) := []

def init : State := {}

namespace State

/-- A delivery, and where its handler is after its first part, with the watch that it has taken. -/
def deliver (s : State) (d : Delivery) (task : Task) (captured : Option Nat) : State :=
  { s with
    log := s.log ++ [d]
    task := Function.update s.task s.log.length task
    captured := Function.update s.captured s.log.length captured }

def setTask (s : State) (i : Nat) (task : Task) : State :=
  { s with task := Function.update s.task i task }

/-- `stopWatching`, called by a check. -/
def stopWatching (s : State) (i : Nat) : State :=
  { s with watcher := none, ended := s.watcher.toList.map (·, i) ++ s.ended }

def planId (s : State) (watcher : Nat) : Option String :=
  match s.log[watcher]? with
  | some (.deploySuccess planId) => planId
  | _ => none

def recoveryAction (s : State) (options : RollbackWatcherOptions) (watcher : Nat)
    (consecutiveFailures : Nat) (previousImageTag : String) : RecoveryAction :=
  if options.onRegressionSignal then .regressionSignal consecutiveFailures
  else
    match s.planId watcher, options.pipeline with
    | some planId, true => .autoRollback planId
    | _, _ => .rollbackSuggested consecutiveFailures previousImageTag

/-- An unhealthy check of a project that has not been stopped. -/
def fail (s : State) (options : RollbackWatcherOptions) (i watcher : Nat)
    (previousImageTag : Option String) : State :=
  let failures := s.consecutiveFailures watcher + 1
  let t := { s with consecutiveFailures := Function.update s.consecutiveFailures watcher failures }
  if FAILURE_THRESHOLD ≤ failures then
    { t.stopWatching i with
      triggered := (previousImageTag.map fun tag =>
        ⟨watcher, s.recoveryAction options watcher failures tag, s.log.length⟩).toList ++ s.triggered }
  else t

end State

inductive Event
  | deploySuccess (planId : Option String)
  | healthCheck (healthy : Bool)
  /-- `getProject` of the handler returns. -/
  | project (i : Nat) (found : Bool)
  /-- `loadServiceViewRecord` of the handler returns. -/
  | view (i : Nat) (stopped : Bool) (previousImageTag : Option String)
  /-- A read of the handler fails. -/
  | fail (i : Nat)
  /-- The timer of the watch goes off. -/
  | expire
  deriving DecidableEq, Repr

def next (options : RollbackWatcherOptions) (s : State) : Event → Option State
  | .deploySuccess planId => some (s.deliver (.deploySuccess planId) .startProject none)
  | .healthCheck healthy =>
    match s.watcher with
    | none => some (s.deliver (.healthCheck healthy) .none none)
    | some watcher => some (s.deliver (.healthCheck healthy) (.checkProject watcher) (some watcher))
  | .project i found =>
    match s.task i with
    | .startProject => some (s.setTask i (if found then .startView else .over))
    | .checkProject watcher =>
      if found then some (s.setTask i (.checkView watcher)) else some ((s.setTask i .over).stopWatching i)
    | _ => none
  | .view i stopped previousImageTag =>
    match s.task i with
    | .startView =>
      match previousImageTag with
      | none => some (s.setTask i .over)
      | some _ =>
        some { s.setTask i .over with
          watcher := some i
          consecutiveFailures := Function.update s.consecutiveFailures i 0 }
    | .checkView watcher =>
      if stopped then some ((s.setTask i .over).stopWatching i)
      else if s.log[i]? = some (.healthCheck true) then
        some { s.setTask i .judged with
          consecutiveFailures := Function.update s.consecutiveFailures watcher 0 }
      else some ((s.setTask i .judged).fail options i watcher previousImageTag)
    | _ => none
  | .fail i =>
    match s.task i with
    | .startProject | .startView | .checkProject _ | .checkView _ => some (s.setTask i .over)
    | _ => none
  | .expire =>
    match s.watcher with
    | some watcher =>
      some { s with watcher := none, expired := Function.update s.expired watcher (some s.log.length) }
    | none => none

/-! ## What is asked of the watcher -/

def Healthy (s : State) (i : Nat) : Prop := s.log[i]? = some (.healthCheck true)

def Unhealthy (s : State) (i : Nat) : Prop := s.log[i]? = some (.healthCheck false)

/-- Three unhealthy checks without a healthy one between them, delivered after the deploy and before its
window has expired. -/
def Justified (s : State) (a : Triggered) : Prop :=
  ∃ checks : List Nat, FAILURE_THRESHOLD ≤ checks.length ∧ checks.Nodup ∧
    (∀ i ∈ checks, Unhealthy s i ∧ a.watcher < i ∧ i < a.time ∧
      ∀ time, s.expired a.watcher = some time → i < time) ∧
    ∀ i ∈ checks, ∀ j ∈ checks, ∀ k, i < k → k < j → ¬Healthy s k

structure Law (s : State) : Prop where
  /-- Every watch triggers one action at most. -/
  once : (s.triggered.map (·.watcher)).Nodup
  justified : ∀ a ∈ s.triggered, Justified s a
  /-- An action comes before the next deploy is delivered, so that it is the deploy that it judges which
  is rolled back. -/
  own : ∀ a ∈ s.triggered, ∀ i planId, a.watcher < i → i < a.time →
    s.log[i]? ≠ some (.deploySuccess planId)
  /-- A watch is not ended by an unhealthy check from before its deploy. -/
  ended : ∀ p ∈ s.ended, Unhealthy s p.2 → p.1 < p.2

/-! ## When it does so -/

/-- The healthy checks of the watch have been judged where they were delivered before the check, and have
not been where they were delivered after it. -/
def InOrder (s : State) (i watcher : Nat) : Prop :=
  ∀ j < s.log.length, Healthy s j → s.captured j = some watcher →
    (j < i → s.task j = .judged) ∧ (i < j → s.task j ≠ .judged)

/-- No other watch is in place than that of the check. -/
def NoOther (s : State) (watcher : Nat) : Prop := s.watcher.all (· = watcher) = true

/-- The watch has triggered nothing, and its deploy is the last one that was delivered. -/
def MayAct (s : State) (watcher : Nat) : Prop :=
  (∀ a ∈ s.triggered, a.watcher ≠ watcher) ∧
    ∀ i < s.log.length, watcher < i → (s.log[i]?.all fun d => d matches .healthCheck _) = true

instance : Decidable (Healthy s i) := inferInstanceAs (Decidable (_ = _))

instance : Decidable (Unhealthy s i) := inferInstanceAs (Decidable (_ = _))

instance : Decidable (InOrder s i watcher) :=
  inferInstanceAs (Decidable (∀ j < s.log.length, Healthy s j → s.captured j = some watcher →
    (j < i → s.task j = .judged) ∧ (i < j → s.task j ≠ .judged)))

instance : Decidable (NoOther s watcher) := inferInstanceAs (Decidable (_ = true))

instance : Decidable (MayAct s watcher) := inferInstanceAs (Decidable (_ ∧ _))

/-- A check that finds no project ends no other watch than its own. -/
def FairProject (s : State) (i : Nat) (found : Bool) : Task → Prop
  | .checkProject watcher => found = false → Unhealthy s i → NoOther s watcher
  | _ => True

/-- A check that judges counts in order, and ends its own watch and acts for it as it may. -/
def FairView (s : State) (i : Nat) (stopped : Bool) (previousImageTag : Option String) : Task → Prop
  | .checkView watcher =>
    Unhealthy s i → (stopped = true → NoOther s watcher) ∧ (stopped = false →
      InOrder s i watcher ∧ (FAILURE_THRESHOLD ≤ s.consecutiveFailures watcher + 1 →
        NoOther s watcher ∧ (previousImageTag.isSome = true → MayAct s watcher)))
  | _ => True

instance : ∀ task, Decidable (FairProject s i found task)
  | .checkProject _ => inferInstanceAs (Decidable (_ → _ → _))
  | .none | .startProject | .startView | .checkView _ | .judged | .over => .isTrue trivial

instance : ∀ task, Decidable (FairView s i stopped previousImageTag task)
  | .checkView _ => inferInstanceAs (Decidable (_ → _ ∧ _))
  | .none | .startProject | .startView | .checkProject _ | .judged | .over => .isTrue trivial

/-- An unhealthy check counts in the order of the deliveries, ends no other watch than the one it has
taken, and acts only for the last deploy, once. -/
def Fair (s : State) : Event → Prop
  | .project i found => FairProject s i found (s.task i)
  | .view i stopped previousImageTag => FairView s i stopped previousImageTag (s.task i)
  | _ => True

instance (s : State) : ∀ e, Decidable (Fair s e)
  | .project i found => inferInstanceAs (Decidable (FairProject s i found (s.task i)))
  | .view i stopped tag => inferInstanceAs (Decidable (FairView s i stopped tag (s.task i)))
  | .deploySuccess _ | .healthCheck _ | .fail _ | .expire => .isTrue trivial

/-! ## The deliveries and their handlers -/

def IsCheck (s : State) (i : Nat) : Prop := ∃ healthy, s.log[i]? = some (.healthCheck healthy)

/-- The handler of a deploy has not put its watch in place. -/
def Starting (s : State) (i : Nat) : Prop := s.task i = .startProject ∨ s.task i = .startView

/-- The handler of a check is under way. -/
def Checking (s : State) (i watcher : Nat) : Prop :=
  s.task i = .checkProject watcher ∨ s.task i = .checkView watcher

/-- What holds of the handlers in every run. A watch is in place for one stretch of the log, in which it is
taken by all checks. -/
structure Shape (s : State) : Prop where
  task_lt : ∀ i, s.task i ≠ .none → i < s.log.length
  start : ∀ i, Starting s i → ∃ planId, s.log[i]? = some (.deploySuccess planId)
  check : ∀ i w, Checking s i w → s.captured i = some w
  captured : ∀ i w, s.captured i = some w → w < i ∧ IsCheck s i ∧ ¬Starting s w ∧
    ∀ time, s.expired w = some time → i < time
  watcher : ∀ w, s.watcher = some w → w < s.log.length ∧ ¬Starting s w ∧ s.expired w = none
  expired : ∀ w time, s.expired w = some time → w < s.log.length ∧ ¬Starting s w
  since : ∀ w i j, s.watcher = some w → s.captured i = some w → i < j → IsCheck s j →
    s.captured j = some w
  between : ∀ w i j k, s.captured i = some w → s.captured k = some w → i < j → j < k →
    IsCheck s j → s.captured j = some w

section
variable {s t : State} {i w : Nat}

@[simp] theorem setTask_task {task : Task} {j : Nat} :
    (s.setTask i task).task j = if j = i then task else s.task j := Function.update_apply ..

theorem IsCheck.lt (h : IsCheck s i) : i < s.log.length := by
  obtain ⟨healthy, h⟩ := h
  exact (List.getElem?_eq_some_iff.mp h).1

theorem Shape.captured_lt (H : Shape s) (h : s.captured i = some w) : i < s.log.length :=
  (H.captured i w h).2.1.lt

theorem Shape.start' : Shape init :=
  ⟨nofun, fun _ h => (h.elim nofun nofun), fun _ _ h => (h.elim nofun nofun), nofun, nofun, nofun, nofun,
    nofun⟩

/-- A step that delivers nothing and puts no watch in place. -/
theorem Shape.mono (H : Shape s) (hlog : t.log = s.log) (hcaptured : t.captured = s.captured)
    (hexpired : t.expired = s.expired) (hwatcher : ∀ w, t.watcher = some w → s.watcher = some w)
    (htask : ∀ i, t.task i ≠ .none → s.task i ≠ .none) (hstart : ∀ i, Starting t i → Starting s i)
    (hcheck : ∀ i w, Checking t i w → Checking s i w) : Shape t := by
  have hisCheck (i : Nat) : IsCheck t i ↔ IsCheck s i := by rw [IsCheck, IsCheck, hlog]
  refine ⟨fun i h => ?_, fun i h => ?_, fun i w h => ?_, fun i w h => ?_, fun w h => ?_,
    fun w time h => ?_, fun w i j hw hi hij hj => ?_, fun w i j k hi hk hij hjk hj => ?_⟩
  · exact hlog ▸ H.task_lt i (htask i h)
  · exact hlog ▸ H.start i (hstart i h)
  · exact hcaptured ▸ H.check i w (hcheck i w h)
  · obtain ⟨hlt, hisCheck', hnot, hexp⟩ := H.captured i w (hcaptured ▸ h)
    exact ⟨hlt, (hisCheck i).mpr hisCheck', fun h => hnot (hstart w h), hexpired ▸ hexp⟩
  · obtain ⟨hlt, hnot, hexp⟩ := H.watcher w (hwatcher w h)
    exact ⟨hlog ▸ hlt, fun h => hnot (hstart w h), hexpired ▸ hexp⟩
  · obtain ⟨hlt, hnot⟩ := H.expired w time (hexpired ▸ h)
    exact ⟨hlog ▸ hlt, fun h => hnot (hstart w h)⟩
  · rw [hcaptured] at hi ⊢
    exact H.since w i j (hwatcher w hw) hi hij ((hisCheck j).mp hj)
  · rw [hcaptured] at hi hk ⊢
    exact H.between w i j k hi hk hij hjk ((hisCheck j).mp hj)

theorem Shape.setTask {task : Task} (H : Shape s) (hnone : s.task i ≠ .none)
    (hstart : task = .startProject ∨ task = .startView → Starting s i)
    (hcheck : ∀ w, task = .checkProject w ∨ task = .checkView w → Checking s i w) :
    Shape (s.setTask i task) := by
  refine H.mono rfl rfl rfl (fun _ h => h) (fun j h => ?_) (fun j h => ?_) (fun j w h => ?_)
  · by_cases hj : j = i
    · exact hj ▸ hnone
    · rwa [setTask_task, if_neg hj] at h
  · by_cases hj : j = i
    · subst hj
      rw [Starting, setTask_task, if_pos rfl] at h
      exact hstart h
    · rwa [Starting, setTask_task, if_neg hj] at h
  · by_cases hj : j = i
    · subst hj
      rw [Checking, setTask_task, if_pos rfl] at h
      exact hcheck w h
    · rwa [Checking, setTask_task, if_neg hj] at h

theorem Shape.stopWatching (H : Shape s) : Shape (s.stopWatching i) :=
  H.mono rfl rfl rfl nofun (fun _ h => h) (fun _ h => h) fun _ _ h => h

theorem Shape.expire (H : Shape s) (hw : s.watcher = some w) :
    Shape { s with watcher := none, expired := Function.update s.expired w (some s.log.length) } := by
  refine ⟨H.task_lt, H.start, H.check, fun i w' h => ?_, nofun, fun w' time h => ?_, nofun, H.between⟩
  · obtain ⟨hlt, hisCheck, hnot, hexp⟩ := H.captured i w' h
    refine ⟨hlt, hisCheck, hnot, fun time htime => ?_⟩
    dsimp only at htime
    rw [Function.update_apply] at htime
    split at htime
    next => exact Option.some.inj htime ▸ hisCheck.lt
    next => exact hexp time htime
  · dsimp only at h
    rw [Function.update_apply] at h
    split at h
    next heq =>
      obtain ⟨hlt, hnot, -⟩ := H.watcher w hw
      rw [heq]
      exact ⟨hlt, hnot⟩
    next => exact H.expired w' time h

theorem Shape.install (H : Shape s) (hi : Starting s i) :
    Shape { s.setTask i .over with
      watcher := some i
      consecutiveFailures := Function.update s.consecutiveFailures i 0 } := by
  have hnone : s.task i ≠ .none := by
    obtain hi | hi := hi
    · exact hi ▸ nofun
    · exact hi ▸ nofun
  have hover : Shape (s.setTask i .over) := H.setTask hnone nofun nofun
  have hstarting : ¬Starting (s.setTask i .over) i := by
    rw [Starting, setTask_task, if_pos rfl]
    exact fun h => h.elim nofun nofun
  refine ⟨hover.task_lt, hover.start, hover.check, hover.captured, fun w hw => ?_, hover.expired,
    fun w j k hw hj => ?_, hover.between⟩
  · obtain rfl := Option.some.inj hw
    refine ⟨H.task_lt i hnone, hstarting, ?_⟩
    by_contra hexp
    obtain ⟨time, htime⟩ := Option.ne_none_iff_exists'.mp hexp
    exact (H.expired i time htime).2 hi
  · obtain rfl := Option.some.inj hw
    exact absurd hi (H.captured j i hj).2.2.1

theorem deliver_task_of_ne (hi : i ≠ s.log.length) : (s.deliver d task captured).task i = s.task i :=
  Function.update_of_ne hi ..

theorem deliver_captured_of_ne (hi : i ≠ s.log.length) :
    (s.deliver d task captured).captured i = s.captured i :=
  Function.update_of_ne hi ..

theorem deliver_task_self : (s.deliver d task captured).task s.log.length = task :=
  Function.update_self ..

theorem deliver_captured_self : (s.deliver d task captured).captured s.log.length = captured :=
  Function.update_self ..

theorem deliver_log_of_lt (hi : i < s.log.length) : (s.deliver d task captured).log[i]? = s.log[i]? :=
  List.getElem?_append_left hi

theorem deliver_log_self : (s.deliver d task captured).log[s.log.length]? = some d :=
  List.getElem?_concat_length ..

theorem deliver_length : (s.deliver d task captured).log.length = s.log.length + 1 := by
  rw [State.deliver, List.length_append, List.length_singleton]

theorem isCheck_deliver (h : IsCheck (s.deliver d task captured) i) :
    IsCheck s i ∨ i = s.log.length ∧ ∃ healthy, d = .healthCheck healthy := by
  have hlt := h.lt
  obtain ⟨healthy, h⟩ := h
  rw [deliver_length] at hlt
  by_cases hi : i = s.log.length
  · rw [hi, deliver_log_self] at h
    exact .inr ⟨hi, healthy, Option.some.inj h⟩
  · rw [deliver_log_of_lt (by omega)] at h
    exact .inl ⟨healthy, h⟩

/-- A delivery adds a handler at the end of the log. -/
theorem Shape.deliver {d : Delivery} {task : Task} {captured : Option Nat} (H : Shape s)
    (hstart : task = .startProject → ∃ planId, d = .deploySuccess planId)
    (hview : task ≠ .startView)
    (hcheck : ∀ w, task = .checkProject w ∨ task = .checkView w → captured = some w)
    (hcaptured : captured = s.watcher ∧ (∃ healthy, d = .healthCheck healthy) ∨
      captured = none ∧ ∃ planId, d = .deploySuccess planId) :
    Shape (s.deliver d task captured) := by
  have hold (w : Nat) (hw : w < s.log.length) (h : ¬Starting s w) :
      ¬Starting (s.deliver d task captured) w := by
    rwa [Starting, deliver_task_of_ne (Nat.ne_of_lt hw)]
  refine ⟨fun i h => ?_, fun i h => ?_, fun i w h => ?_, fun i w h => ?_, fun w h => ?_,
    fun w time h => ?_, fun w i j hw hi hij hj => ?_, fun w i j k hi hk hij hjk hj => ?_⟩
  · rw [deliver_length]
    by_cases hi : i = s.log.length
    · omega
    · rw [deliver_task_of_ne hi] at h
      exact Nat.lt_succ_of_lt (H.task_lt i h)
  · by_cases hi : i = s.log.length
    · subst hi
      rw [Starting, deliver_task_self] at h
      obtain ⟨planId, rfl⟩ := hstart (h.resolve_right hview)
      exact ⟨planId, deliver_log_self⟩
    · rw [Starting, deliver_task_of_ne hi] at h
      obtain ⟨planId, hlog⟩ := H.start i h
      refine ⟨planId, (deliver_log_of_lt (H.task_lt i ?_)).trans hlog⟩
      exact h.elim (fun h => h ▸ nofun) fun h => h ▸ nofun
  · by_cases hi : i = s.log.length
    · subst hi
      rw [Checking, deliver_task_self] at h
      exact deliver_captured_self.trans (hcheck w h)
    · rw [Checking, deliver_task_of_ne hi] at h
      exact (deliver_captured_of_ne hi).trans (H.check i w h)
  · by_cases hi : i = s.log.length
    · subst hi
      rw [deliver_captured_self] at h
      obtain ⟨hwatcher, healthy, rfl⟩ | ⟨hnone, -⟩ := hcaptured
      · obtain ⟨hlt, hnot, hexp⟩ := H.watcher w (hwatcher.symm.trans h)
        refine ⟨hlt, ⟨healthy, deliver_log_self⟩, hold w hlt hnot, fun time htime => ?_⟩
        exact nomatch hexp.symm.trans htime
      · exact nomatch hnone.symm.trans h
    · rw [deliver_captured_of_ne hi] at h
      obtain ⟨hlt, ⟨healthy, hlog⟩, hnot, hexp⟩ := H.captured i w h
      have hi' := H.captured_lt h
      exact ⟨hlt, ⟨healthy, (deliver_log_of_lt hi').trans hlog⟩, hold w (Nat.lt_trans hlt hi') hnot, hexp⟩
  · obtain ⟨hlt, hnot, hexp⟩ := H.watcher w h
    exact ⟨deliver_length ▸ Nat.lt_succ_of_lt hlt, hold w hlt hnot, hexp⟩
  · obtain ⟨hlt, hnot⟩ := H.expired w time h
    exact ⟨deliver_length ▸ Nat.lt_succ_of_lt hlt, hold w hlt hnot⟩
  · obtain hj | ⟨rfl, healthy, rfl⟩ := isCheck_deliver hj
    · have hjlt := hj.lt
      rw [deliver_captured_of_ne (by omega)] at hi ⊢
      exact H.since w i j hw hi hij hj
    · obtain ⟨hwatcher, -⟩ | ⟨-, planId, hnot⟩ := hcaptured
      · exact deliver_captured_self.trans (hwatcher.trans hw)
      · exact nomatch hnot
  · have hklt : k < s.log.length + 1 := by
      by_contra hk'
      rw [deliver_captured_of_ne (by omega)] at hk
      have := H.captured_lt hk
      omega
    obtain hj | ⟨rfl, -⟩ := isCheck_deliver hj
    · rw [deliver_captured_of_ne (by omega)] at hi ⊢
      by_cases hk' : k = s.log.length
      · rw [hk', deliver_captured_self] at hk
        obtain ⟨hwatcher, -⟩ | ⟨hnone, -⟩ := hcaptured
        · exact H.since w i j (hwatcher.symm.trans hk) hi hij hj
        · exact nomatch hnone.symm.trans hk
      · rw [deliver_captured_of_ne hk'] at hk
        exact H.between w i j k hi hk hij hjk hj
    · omega

/-! ## The counts -/

/-- What a count of failures stands for: checks that were judged since the last healthy one was, with no
healthy one between them. -/
structure Counted (s : State) (w : Nat) (checks : List Nat) : Prop where
  nodup : checks.Nodup
  length : checks.length = s.consecutiveFailures w
  judged : ∀ i ∈ checks, Unhealthy s i ∧ s.captured i = some w ∧ s.task i = .judged
  before : ∀ h, Healthy s h → s.captured h = some w → s.task h = .judged → ∀ i ∈ checks, h < i
  after : ∀ h, Healthy s h → s.captured h = some w → s.task h ≠ .judged → ∀ i ∈ checks, i < h

theorem Counted.mono (H : Counted s w checks) (hlog : t.log = s.log) (hcaptured : t.captured = s.captured)
    (hcount : t.consecutiveFailures w = s.consecutiveFailures w)
    (htask : ∀ i, s.captured i = some w → (t.task i = .judged ↔ s.task i = .judged)) :
    Counted t w checks := by
  refine ⟨H.nodup, H.length.trans hcount.symm, fun i hi => ?_, fun h hh hw hj => ?_,
    fun h hh hw hj => ?_⟩
  · obtain ⟨hunhealthy, hw, hj⟩ := H.judged i hi
    rw [Unhealthy, hlog, hcaptured]
    exact ⟨hunhealthy, hw, (htask i hw).mpr hj⟩
  · rw [Healthy, hlog] at hh
    rw [hcaptured] at hw
    exact H.before h hh hw ((htask h hw).mp hj)
  · rw [Healthy, hlog] at hh
    rw [hcaptured] at hw
    exact H.after h hh hw (mt (htask h hw).mpr hj)

theorem Counted.zero (h : s.consecutiveFailures w = 0) : Counted s w [] :=
  ⟨.nil, h.symm, fun _ h => (nomatch h), fun _ _ _ _ _ h => (nomatch h), fun _ _ _ _ _ h => (nomatch h)⟩

/-- A handler that moves on without a judgement. -/
theorem Counted.setTask {task : Task} (H : Counted s w checks) (hbefore : s.task i ≠ .judged)
    (hafter : task ≠ .judged) : Counted (s.setTask i task) w checks := by
  refine H.mono rfl rfl rfl fun j _ => ?_
  rw [setTask_task]
  split
  next heq => exact iff_of_false hafter (heq ▸ hbefore)
  next => rfl

theorem Counted.deliver {d : Delivery} {task : Task} {captured : Option Nat} (S : Shape s)
    (H : Counted s w checks) (htask : task ≠ .judged) : Counted (s.deliver d task captured) w checks := by
  have hlt : ∀ i ∈ checks, i < s.log.length := fun i hi => S.captured_lt (H.judged i hi).2.1
  have hne (j : Nat) (hj : j < s.log.length) : j ≠ s.log.length := Nat.ne_of_lt hj
  refine ⟨H.nodup, H.length, fun i hi => ?_, fun h hh hw hj i hi => ?_, fun h hh hw hj i hi => ?_⟩
  · rw [Unhealthy, deliver_log_of_lt (hlt i hi), deliver_captured_of_ne (hne i (hlt i hi)),
      deliver_task_of_ne (hne i (hlt i hi))]
    exact H.judged i hi
  · by_cases heq : h = s.log.length
    · rw [heq, deliver_task_self] at hj
      exact absurd hj htask
    · rw [deliver_captured_of_ne heq] at hw
      rw [deliver_task_of_ne heq] at hj
      rw [Healthy, deliver_log_of_lt (S.captured_lt hw)] at hh
      exact H.before h hh hw hj i hi
  · by_cases heq : h = s.log.length
    · exact heq ▸ hlt i hi
    · rw [deliver_captured_of_ne heq] at hw
      rw [deliver_task_of_ne heq] at hj
      rw [Healthy, deliver_log_of_lt (S.captured_lt hw)] at hh
      exact H.after h hh hw hj i hi

/-- A check that fails is counted with those before it. -/
theorem Counted.cons (S : Shape s) (H : Counted s w checks) (hi : s.task i = .checkView w)
    (hunhealthy : Unhealthy s i) (horder : InOrder s i w)
    (hlog : t.log = s.log) (hcaptured : t.captured = s.captured)
    (hcount : t.consecutiveFailures w = s.consecutiveFailures w + 1)
    (htask : ∀ j, t.task j = if j = i then .judged else s.task j) : Counted t w (i :: checks) := by
  have hnot : i ∉ checks := fun hmem => nomatch hi.symm.trans (H.judged i hmem).2.2
  have hne (h : Nat) (hh : Healthy s h) : h ≠ i := by
    intro heq
    rw [heq] at hh
    exact nomatch hh.symm.trans hunhealthy
  refine ⟨List.nodup_cons.mpr ⟨hnot, H.nodup⟩, ?_, fun j hj => ?_, fun h hh hw hj j hmem => ?_,
    fun h hh hw hj j hmem => ?_⟩
  · rw [List.length_cons, H.length, hcount]
  · rw [Unhealthy, hlog, hcaptured, htask]
    obtain rfl | hj := List.mem_cons.mp hj
    · exact ⟨hunhealthy, S.check j w (.inr hi), if_pos rfl⟩
    · obtain ⟨hunhealthy, hw, hjudged⟩ := H.judged j hj
      refine ⟨hunhealthy, hw, ?_⟩
      rw [hjudged, ite_self]
  · rw [Healthy, hlog] at hh
    rw [hcaptured] at hw
    rw [htask, if_neg (hne h hh)] at hj
    obtain rfl | hmem := List.mem_cons.mp hmem
    · have hlate := (horder h (S.captured_lt hw) hh hw).2
      have := hne h hh
      have : ¬j < h := fun hlt => hlate hlt hj
      omega
    · exact H.before h hh hw hj j hmem
  · rw [Healthy, hlog] at hh
    rw [hcaptured] at hw
    rw [htask, if_neg (hne h hh)] at hj
    obtain rfl | hmem := List.mem_cons.mp hmem
    · have hearly := (horder h (S.captured_lt hw) hh hw).1
      have := hne h hh
      have : ¬h < j := fun hlt => hj (hearly hlt)
      omega
    · exact H.after h hh hw hj j hmem

/-- Three counted failures justify an action. -/
theorem Counted.justified (S : Shape s) (H : Counted s w checks)
    (hthreshold : FAILURE_THRESHOLD ≤ s.consecutiveFailures w) (action : RecoveryAction) :
    Justified s ⟨w, action, s.log.length⟩ := by
  refine ⟨checks, H.length ▸ hthreshold, H.nodup, fun i hi => ?_, fun i hi j hj k hik hkj hk => ?_⟩
  · obtain ⟨hunhealthy, hw, -⟩ := H.judged i hi
    obtain ⟨hlt, -, -, hexp⟩ := S.captured i w hw
    exact ⟨hunhealthy, hlt, S.captured_lt hw, hexp⟩
  · have hw := S.between w i k j (H.judged i hi).2.1 (H.judged j hj).2.1 hik hkj ⟨true, hk⟩
    by_cases hjudged : s.task k = .judged
    · have := H.before k hk hw hjudged i hi
      omega
    · have := H.after k hk hw hjudged j hj
      omega

/-! ## What has been triggered and ended -/

/-- The law, of a state whose records are of the log. -/
structure Recorded (s : State) : Prop where
  law : Law s
  time : ∀ a ∈ s.triggered, a.time ≤ s.log.length
  ended_lt : ∀ p ∈ s.ended, p.2 < s.log.length

theorem Justified.mono {a : Triggered} (h : Justified s a) (htime : a.time ≤ s.log.length)
    (hlog : ∀ i < s.log.length, t.log[i]? = s.log[i]?)
    (hexpired : ∀ time, t.expired a.watcher = some time →
      s.expired a.watcher = some time ∨ s.log.length ≤ time) : Justified t a := by
  obtain ⟨checks, hlength, hnodup, hchecks, hbetween⟩ := h
  refine ⟨checks, hlength, hnodup, fun i hi => ?_, fun i hi j hj k hik hkj hk => ?_⟩
  · obtain ⟨hunhealthy, hlt, hi', hexp⟩ := hchecks i hi
    have hlen : i < s.log.length := Nat.lt_of_lt_of_le hi' htime
    refine ⟨(hlog i hlen).trans hunhealthy, hlt, hi', fun time h => ?_⟩
    exact (hexpired time h).elim (hexp time) (Nat.lt_of_lt_of_le hlen)
  · have hjlt := (hchecks j hj).2.2.1
    exact hbetween i hi j hj k hik hkj ((hlog k (by omega)).symm.trans hk)

/-- A step that records nothing. -/
theorem Recorded.mono (H : Recorded s) (htriggered : t.triggered = s.triggered)
    (hended : t.ended = s.ended) (hlength : s.log.length ≤ t.log.length)
    (hlog : ∀ i < s.log.length, t.log[i]? = s.log[i]?)
    (hexpired : ∀ w time, t.expired w = some time → s.expired w = some time ∨ s.log.length ≤ time) :
    Recorded t := by
  refine ⟨⟨?_, fun a ha => ?_, fun a ha i planId hi hlt => ?_, fun p hp hunhealthy => ?_⟩,
    fun a ha => ?_, fun p hp => ?_⟩
  · exact htriggered ▸ H.law.once
  · rw [htriggered] at ha
    exact (H.law.justified a ha).mono (H.time a ha) hlog (hexpired a.watcher)
  · rw [htriggered] at ha
    rw [hlog i (Nat.lt_of_lt_of_le hlt (H.time a ha))]
    exact H.law.own a ha i planId hi hlt
  · rw [hended] at hp
    exact H.law.ended p hp ((hlog p.2 (H.ended_lt p hp)).symm.trans hunhealthy)
  · rw [htriggered] at ha
    exact Nat.le_trans (H.time a ha) hlength
  · rw [hended] at hp
    exact Nat.lt_of_lt_of_le (H.ended_lt p hp) hlength

theorem Recorded.same (H : Recorded s) (htriggered : t.triggered = s.triggered)
    (hended : t.ended = s.ended) (hlog : t.log = s.log) (hexpired : t.expired = s.expired) :
    Recorded t :=
  H.mono htriggered hended (hlog ▸ Nat.le_refl _) (fun _ _ => hlog ▸ rfl)
    fun _ _ h => .inl (hexpired ▸ h)

/-- A check that ends no other watch than its own. -/
theorem Recorded.stopWatching (H : Recorded s) (hi : i < s.log.length) (hw : w < i)
    (hother : Unhealthy s i → NoOther s w) : Recorded (s.stopWatching i) := by
  refine ⟨⟨H.law.once, H.law.justified, H.law.own, fun p hp hunhealthy => ?_⟩, H.time, fun p hp => ?_⟩
  · obtain hp | hp := List.mem_append.mp hp
    · obtain ⟨w', hw', rfl⟩ := List.mem_map.mp hp
      have hown := hother hunhealthy
      rw [NoOther, Option.mem_toList.mp hw'] at hown
      exact of_decide_eq_true hown ▸ hw
    · exact H.law.ended p hp hunhealthy
  · obtain hp | hp := List.mem_append.mp hp
    · obtain ⟨w', -, rfl⟩ := List.mem_map.mp hp
      exact hi
    · exact H.ended_lt p hp

/-- An action for the last deploy, by a watch that has triggered none. -/
theorem Recorded.trigger (H : Recorded s) {action : RecoveryAction}
    (hjustified : Justified s ⟨w, action, s.log.length⟩) (hmay : MayAct s w) :
    Recorded { s with triggered := ⟨w, action, s.log.length⟩ :: s.triggered } := by
  refine ⟨⟨?_, fun a ha => ?_, fun a ha i planId hi hlt => ?_, H.law.ended⟩, fun a ha => ?_, H.ended_lt⟩
  · refine List.nodup_cons.mpr ⟨fun hmem => ?_, H.law.once⟩
    obtain ⟨a, ha, heq⟩ := List.mem_map.mp hmem
    exact hmay.1 a ha heq
  · obtain rfl | ha := List.mem_cons.mp ha
    · exact hjustified
    · exact H.law.justified a ha
  · obtain rfl | ha := List.mem_cons.mp ha
    · intro hdeploy
      have hcheck := hmay.2 i hlt hi
      rw [show s.log[i]? = _ from hdeploy] at hcheck
      exact nomatch hcheck
    · exact H.law.own a ha i planId hi hlt
  · obtain rfl | ha := List.mem_cons.mp ha
    · exact Nat.le_refl _
    · exact H.time a ha

/-! ## Steps -/

/-- What a step may be. -/
theorem next_cases {e : Event} (h : Fires (next options) s e t) :
    (∃ planId, t = s.deliver (.deploySuccess planId) .startProject none) ∨
    (∃ healthy task, (task = .none ∨ ∃ w, s.watcher = some w ∧ task = .checkProject w) ∧
      t = s.deliver (.healthCheck healthy) task s.watcher) ∨
    (∃ i task, Starting s i ∧ (task = .startView ∨ task = .over) ∧ t = s.setTask i task) ∨
    (∃ i, Starting s i ∧ t = { s.setTask i .over with
      watcher := some i
      consecutiveFailures := Function.update s.consecutiveFailures i 0 }) ∨
    (∃ i w task, Checking s i w ∧ (task = .checkView w ∨ task = .over) ∧ t = s.setTask i task) ∨
    (∃ i w, Checking s i w ∧ (Fair s e → Unhealthy s i → NoOther s w) ∧
      t = (s.setTask i .over).stopWatching i) ∨
    (∃ i w, s.task i = .checkView w ∧ Healthy s i ∧ t = { s.setTask i .judged with
      consecutiveFailures := Function.update s.consecutiveFailures w 0 }) ∨
    (∃ i w tag, s.task i = .checkView w ∧ ¬Healthy s i ∧
      (Fair s e → Unhealthy s i → InOrder s i w ∧
        (FAILURE_THRESHOLD ≤ s.consecutiveFailures w + 1 →
          NoOther s w ∧ (tag.isSome = true → MayAct s w))) ∧
      t = (s.setTask i .judged).fail options i w tag) ∨
    ∃ w, s.watcher = some w ∧
      t = { s with watcher := none, expired := Function.update s.expired w (some s.log.length) } := by
  cases e with
  | deploySuccess planId =>
    exact .inl ⟨planId, (Option.some.inj h).symm⟩
  | healthCheck healthy =>
    cases hwatcher : s.watcher with
    | none =>
      simp only [Fires, next, hwatcher, Option.some.injEq] at h
      exact .inr (.inl ⟨healthy, .none, .inl rfl, h.symm⟩)
    | some w =>
      simp only [Fires, next, hwatcher, Option.some.injEq] at h
      exact .inr (.inl ⟨healthy, .checkProject w, .inr ⟨w, rfl, rfl⟩, h.symm⟩)
  | project i found =>
    cases htask : s.task i with
    | startProject =>
      simp only [Fires, next, htask, Option.some.injEq] at h
      refine .inr (.inr (.inl ⟨i, if found then .startView else .over, .inl htask, ?_, h.symm⟩))
      cases found with
      | true => exact .inl rfl
      | false => exact .inr rfl
    | checkProject w =>
      cases found with
      | true =>
        simp only [Fires, next, htask, if_true, Option.some.injEq] at h
        exact .inr (.inr (.inr (.inr (.inl ⟨i, w, .checkView w, .inl htask, .inl rfl, h.symm⟩))))
      | false =>
        simp only [Fires, next, htask, Bool.false_eq_true, if_false, Option.some.injEq] at h
        refine .inr (.inr (.inr (.inr (.inr (.inl ⟨i, w, .inl htask, fun hfair => ?_, h.symm⟩)))))
        rw [Fair, htask] at hfair
        exact hfair rfl
    | _ => simp [Fires, next, htask] at h
  | view i stopped tag =>
    cases htask : s.task i with
    | startView =>
      cases tag with
      | none =>
        simp only [Fires, next, htask, Option.some.injEq] at h
        exact .inr (.inr (.inl ⟨i, .over, .inr htask, .inr rfl, h.symm⟩))
      | some tag =>
        simp only [Fires, next, htask, Option.some.injEq] at h
        exact .inr (.inr (.inr (.inl ⟨i, .inr htask, h.symm⟩)))
    | checkView w =>
      cases stopped with
      | true =>
        simp only [Fires, next, htask, if_true, Option.some.injEq] at h
        refine .inr (.inr (.inr (.inr (.inr (.inl ⟨i, w, .inr htask, fun hfair hi => ?_, h.symm⟩)))))
        rw [Fair, htask] at hfair
        exact (hfair hi).1 rfl
      | false =>
        by_cases hhealthy : s.log[i]? = some (.healthCheck true)
        · simp only [Fires, next, htask, Bool.false_eq_true, if_false, hhealthy, if_true,
            Option.some.injEq] at h
          exact .inr (.inr (.inr (.inr (.inr (.inr (.inl ⟨i, w, htask, hhealthy, h.symm⟩))))))
        · simp only [Fires, next, htask, Bool.false_eq_true, if_false, hhealthy,
            Option.some.injEq] at h
          refine .inr (.inr (.inr (.inr (.inr (.inr (.inr (.inl
            ⟨i, w, tag, htask, hhealthy, fun hfair hi => ?_, h.symm⟩)))))))
          rw [Fair, htask] at hfair
          exact (hfair hi).2 rfl
    | _ => simp [Fires, next, htask] at h
  | fail i =>
    cases htask : s.task i with
    | startProject =>
      simp only [Fires, next, htask, Option.some.injEq] at h
      exact .inr (.inr (.inl ⟨i, .over, .inl htask, .inr rfl, h.symm⟩))
    | startView =>
      simp only [Fires, next, htask, Option.some.injEq] at h
      exact .inr (.inr (.inl ⟨i, .over, .inr htask, .inr rfl, h.symm⟩))
    | checkProject w =>
      simp only [Fires, next, htask, Option.some.injEq] at h
      exact .inr (.inr (.inr (.inr (.inl ⟨i, w, .over, .inl htask, .inr rfl, h.symm⟩))))
    | checkView w =>
      simp only [Fires, next, htask, Option.some.injEq] at h
      exact .inr (.inr (.inr (.inr (.inl ⟨i, w, .over, .inr htask, .inr rfl, h.symm⟩))))
    | _ => simp [Fires, next, htask] at h
  | expire =>
    cases hwatcher : s.watcher with
    | none => simp [Fires, next, hwatcher] at h
    | some w =>
      simp only [Fires, next, hwatcher, Option.some.injEq] at h
      exact .inr (.inr (.inr (.inr (.inr (.inr (.inr (.inr ⟨w, rfl, h.symm⟩)))))))

/-- What holds in the runs whose steps are fair. -/
structure Inv (s : State) : Prop where
  shape : Shape s
  counted : ∀ w, ∃ checks, Counted s w checks
  recorded : Recorded s

theorem Inv.start : Inv init where
  shape := .start'
  counted _ := ⟨[], .zero rfl⟩
  recorded := ⟨⟨.nil, nofun, nofun, nofun⟩, nofun, nofun⟩

theorem Starting.ne_none (h : Starting s i) : s.task i ≠ .none :=
  h.elim (fun h => h ▸ nofun) fun h => h ▸ nofun

theorem Starting.ne_judged (h : Starting s i) : s.task i ≠ .judged :=
  h.elim (fun h => h ▸ nofun) fun h => h ▸ nofun

theorem Checking.ne_none (h : Checking s i w) : s.task i ≠ .none :=
  h.elim (fun h => h ▸ nofun) fun h => h ▸ nofun

theorem Checking.ne_judged (h : Checking s i w) : s.task i ≠ .judged :=
  h.elim (fun h => h ▸ nofun) fun h => h ▸ nofun

/-- A handler that moves on without a judgement. -/
theorem Inv.setTask {task : Task} (H : Inv s) (hshape : Shape (s.setTask i task))
    (hbefore : s.task i ≠ .judged) (hafter : task ≠ .judged) : Inv (s.setTask i task) where
  shape := hshape
  counted w := (H.counted w).imp fun _ h => h.setTask hbefore hafter
  recorded := H.recorded.same rfl rfl rfl rfl

theorem Inv.deliver {d : Delivery} {task : Task} {captured : Option Nat} (H : Inv s)
    (hshape : Shape (s.deliver d task captured)) (htask : task ≠ .judged) :
    Inv (s.deliver d task captured) where
  shape := hshape
  counted w := (H.counted w).imp fun _ h => h.deliver H.shape htask
  recorded := H.recorded.mono rfl rfl (deliver_length ▸ Nat.le_succ _)
    (fun _ hi => deliver_log_of_lt hi) fun _ _ h => .inl h

/-- A judgement of a check, which changes the count of its watch. -/
theorem Inv.judge {failures : Nat} (H : Inv s) (hi : s.task i = .checkView w)
    (hcount : ∃ checks, Counted { s.setTask i .judged with
      consecutiveFailures := Function.update s.consecutiveFailures w failures } w checks) :
    Inv { s.setTask i .judged with
      consecutiveFailures := Function.update s.consecutiveFailures w failures } := by
  have hshape : Shape (s.setTask i .judged) :=
    H.shape.setTask (Checking.ne_none (.inr hi)) (fun h => h.elim nofun nofun)
      fun _ h => h.elim nofun nofun
  refine ⟨hshape.mono rfl rfl rfl (fun _ h => h) (fun _ h => h) (fun _ h => h) (fun _ _ h => h),
    fun w' => ?_, H.recorded.same rfl rfl rfl rfl⟩
  by_cases hw : w' = w
  · exact hw ▸ hcount
  · obtain ⟨checks, hchecks⟩ := H.counted w'
    refine ⟨checks, hchecks.mono rfl rfl (Function.update_of_ne hw ..) fun j hj => ?_⟩
    have hne : j ≠ i := by
      intro heq
      rw [heq, H.shape.check i w (.inr hi)] at hj
      exact hw (Option.some.inj hj).symm
    exact iff_of_eq (congrArg (· = Task.judged) (setTask_task.trans (if_neg hne)))

theorem Inv.stopWatching (H : Inv s) (hi : s.captured i = some w)
    (hother : Unhealthy s i → NoOther s w) : Inv (s.stopWatching i) where
  shape := H.shape.stopWatching
  counted w := (H.counted w).imp fun _ h => h.mono rfl rfl rfl fun _ _ => .rfl
  recorded := H.recorded.stopWatching (H.shape.captured_lt hi) (H.shape.captured i w hi).1 hother

theorem Inv.fail {tag : Option String} (H : Inv s) (hi : s.task i = .checkView w)
    (hunhealthy : Unhealthy s i) (horder : InOrder s i w)
    (hact : FAILURE_THRESHOLD ≤ s.consecutiveFailures w + 1 →
      NoOther s w ∧ (tag.isSome = true → MayAct s w)) :
    Inv ((s.setTask i .judged).fail options i w tag) := by
  obtain ⟨checks, hchecks⟩ := H.counted w
  have hcount := hchecks.cons (t := { s.setTask i .judged with
      consecutiveFailures := Function.update s.consecutiveFailures w (s.consecutiveFailures w + 1) })
    H.shape hi hunhealthy horder rfl rfl (Function.update_self ..) fun _ => setTask_task
  have hjudged := H.judge hi ⟨_, hcount⟩
  have hcaptured := H.shape.check i w (.inr hi)
  rw [State.fail]
  split
  next hthreshold =>
    obtain ⟨hother, hmay⟩ := hact hthreshold
    have hstopped := hjudged.stopWatching hcaptured fun _ => hother
    cases tag with
    | none => exact hstopped
    | some tag =>
      have hcounted : Function.update s.consecutiveFailures w (s.consecutiveFailures w + 1) w =
          s.consecutiveFailures w + 1 := Function.update_self ..
      have hjustified := hcount.justified hjudged.shape
        (Nat.le_trans hthreshold (Nat.le_of_eq hcounted.symm))
        ((s.setTask i .judged).recoveryAction options w (s.consecutiveFailures w + 1) tag)
      refine ⟨hstopped.shape.mono rfl rfl rfl (fun _ h => h) (fun _ h => h) (fun _ h => h)
        (fun _ _ h => h), fun w' => ?_, ?_⟩
      · exact (hstopped.counted w').imp fun _ h => h.mono rfl rfl rfl fun _ _ => .rfl
      · exact hstopped.recorded.trigger hjustified (hmay rfl)
  next => exact hjudged

theorem Inv.step : Preserves (Guarded (Fires (next options)) Fair) Inv := by
  intro s e t ⟨h, hfair⟩ H
  obtain ⟨planId, rfl⟩ | ⟨healthy, task, htask, rfl⟩ | ⟨i, task, hi, htask, rfl⟩ | ⟨i, hi, rfl⟩ |
    ⟨i, w, task, hi, htask, rfl⟩ | ⟨i, w, hi, hother, rfl⟩ | ⟨i, w, hi, hhealthy, rfl⟩ |
    ⟨i, w, tag, hi, hhealthy, hcount, rfl⟩ | ⟨w, hw, rfl⟩ := next_cases h
  · refine H.deliver (H.shape.deliver (fun _ => ⟨planId, rfl⟩) nofun ?_ (.inr ⟨rfl, planId, rfl⟩)) nofun
    exact fun _ h => h.elim nofun nofun
  · obtain rfl | ⟨w, hw, rfl⟩ := htask
    · refine H.deliver (H.shape.deliver nofun nofun ?_ (.inl ⟨rfl, healthy, rfl⟩)) nofun
      exact fun _ h => h.elim nofun nofun
    · refine H.deliver (H.shape.deliver nofun nofun ?_ (.inl ⟨rfl, healthy, rfl⟩)) nofun
      intro w' hw'
      obtain hw' | hw' := hw'
      · exact Task.checkProject.inj hw' ▸ hw
      · exact nomatch hw'
  · obtain rfl | rfl := htask
    · exact H.setTask (H.shape.setTask hi.ne_none (fun _ => hi) fun _ h => h.elim nofun nofun)
        hi.ne_judged nofun
    · exact H.setTask (H.shape.setTask hi.ne_none (fun h => h.elim nofun nofun)
        fun _ h => h.elim nofun nofun) hi.ne_judged nofun
  · refine ⟨H.shape.install hi, fun w => ?_, H.recorded.same rfl rfl rfl rfl⟩
    by_cases hw : w = i
    · exact ⟨[], .zero (hw ▸ Function.update_self ..)⟩
    · obtain ⟨checks, hchecks⟩ := H.counted w
      have hover : Counted (s.setTask i .over) w checks := hchecks.setTask hi.ne_judged nofun
      exact ⟨checks, hover.mono rfl rfl
        (Function.update_of_ne hw ..) fun _ _ => .rfl⟩
  · obtain rfl | rfl := htask
    · refine H.setTask (H.shape.setTask hi.ne_none (fun h => h.elim nofun nofun) ?_) hi.ne_judged nofun
      intro w' hw'
      obtain hw' | hw' := hw'
      · exact nomatch hw'
      · exact Task.checkView.inj hw' ▸ hi
    · exact H.setTask (H.shape.setTask hi.ne_none (fun h => h.elim nofun nofun)
        fun _ h => h.elim nofun nofun) hi.ne_judged nofun
  · have hshape : Shape (s.setTask i .over) := H.shape.setTask hi.ne_none
      (fun h => h.elim nofun nofun) fun _ h => h.elim nofun nofun
    have hover := H.setTask hshape hi.ne_judged nofun
    exact hover.stopWatching (H.shape.check i w hi) (hother hfair)
  · exact H.judge hi ⟨[], .zero (Function.update_self ..)⟩
  · have hunhealthy : Unhealthy s i := by
      obtain ⟨-, ⟨healthy, hcheck⟩, -⟩ := H.shape.captured i w (H.shape.check i w (.inr hi))
      cases healthy with
      | true => exact absurd hcheck hhealthy
      | false => exact hcheck
    obtain ⟨horder, hact⟩ := hcount hfair hunhealthy
    exact H.fail hi hunhealthy horder hact
  · refine ⟨H.shape.expire hw, fun w' => (H.counted w').imp fun _ h => h.mono rfl rfl rfl fun _ _ => .rfl,
      H.recorded.mono rfl rfl (Nat.le_refl _) (fun _ _ => rfl) fun w' time htime => ?_⟩
    dsimp only at htime
    rw [Function.update_apply] at htime
    split at htime
    next => exact .inr (Nat.le_of_eq (Option.some.inj htime))
    next => exact .inl htime

end

/-- A check that is delivered, and whose reads give a running project with an image to go back to. -/
def checked (i : Nat) (healthy : Bool) : List Event :=
  [.healthCheck healthy, .project i true, .view i false (some "v1")]

/-- A deploy whose watch is put in place. -/
def deployed (i : Nat) : List Event :=
  [.deploySuccess (some "plan"), .project i true, .view i false (some "v1")]

end OpenLander.RollbackWatcher
