import Mathlib.Logic.Function.Basic
import OpenLander.Theory.Run

/-! # Circuit breakers

The row of one project in `circuit_breaker_state` (`src/db/repos/circuit-breaker.repo.ts`), with the
calls on their way to it. A statement is one step, and so is a look at the clock: between two steps
of a call other calls take theirs. Times are in milliseconds. -/

namespace OpenLander.Db.CircuitBreaker
open Theory

def failureWindowMs : Nat := 24 * 60 * 60 * 1000
def halfOpenDelayMs : Nat := 30 * 60 * 1000

inductive BreakerState
  | closed
  /-- `open` -/
  | opened
  | halfOpen
  deriving DecidableEq, Repr

structure CircuitBreakerRow where
  failureCount : Nat := 0
  lastFailureAt : Option Nat := none
  openedAt : Option Nat := none
  state : BreakerState := .closed
  resetAt : Option Nat := none
  deriving DecidableEq, Repr

/-! ## Statements -/

def isOutsideWindow (existing : CircuitBreakerRow) (now : Nat) : Bool :=
  existing.lastFailureAt.any fun lastFailureAt => lastFailureAt + failureWindowMs < now

/-- The write of `incrementFailure`, after it has read `existing`. It throws where the update finds no
row, or the insert finds one. -/
def incrementFailure (existing : Option CircuitBreakerRow) (now : Nat) :
    Option CircuitBreakerRow → Option CircuitBreakerRow
  | some row => existing.map fun existing =>
    { row with
      failureCount := if isOutsideWindow existing now then 1 else existing.failureCount + 1
      lastFailureAt := some now }
  | none =>
    match existing with
    | some _ => none
    | none => some { failureCount := 1, lastFailureAt := some now }

def openBreaker (openedAt : Nat) (row : Option CircuitBreakerRow) : CircuitBreakerRow :=
  { row.getD {} with state := .opened, openedAt := some openedAt }

def halfOpen (row : Option CircuitBreakerRow) : CircuitBreakerRow :=
  { row.getD {} with state := .halfOpen }

def reset (resetAt : Nat) (row : Option CircuitBreakerRow) : CircuitBreakerRow :=
  { row.getD {} with state := .closed, failureCount := 0, resetAt := some resetAt }

/-! ## Calls -/

inductive Op
  /-- `incrementAndCheckBreaker` of `src/monitor/ops-recovery.ts`: `incrementFailure`, and then
  `openBreaker` where the count has reached the threshold. -/
  | incrementAndCheckBreaker
  | openBreaker
  | reset
  | isOpen
  deriving DecidableEq, Repr

/-- What a call does next, with what it knows. -/
inductive Call
  | failureRead
  | failureNow (existing : Option CircuitBreakerRow)
  | failureWrite (existing : Option CircuitBreakerRow) (now : Nat)
  | openNow
  | openWrite (openedAt : Nat)
  | resetNow
  | resetWrite (resetAt : Nat)
  | isOpenRead
  | isOpenNow (openedAt : Nat)
  /-- The write of the half-open state, after `openedAt` has been found too old. -/
  | isOpenWrite (openedAt : Nat)
  | returned (result : Option Bool)
  deriving DecidableEq, Repr

def Op.first : Op → Call
  | .incrementAndCheckBreaker => .failureRead
  | .openBreaker => .openNow
  | .reset => .resetNow
  | .isOpen => .isOpenRead

/-- `isOpen`, once it has read the row. The clock is only asked about an open breaker. -/
def afterRead (row : Option CircuitBreakerRow) : Call :=
  match row.filter (·.state = .opened) with
  | none => .returned (some false)
  | some row => row.openedAt.elim (.returned (some true)) .isOpenNow

structure State (ι : Type u) where
  now : Nat
  row : Option CircuitBreakerRow
  calls : ι → Option Call := fun _ => none
  /-- How many calls of `incrementFailure` have come to their write. No step reads this, and neither
  the next two. -/
  failures : Nat := 0
  /-- When the breaker was opened last, if it has not been reset since. -/
  opened : Option Nat
  /-- The calls of `isOpen` that started within the cooldown, with no reset since. -/
  due : ι → Bool := fun _ => false

variable {ι : Type u}

namespace State

/-- The cooldown of the last opening is not over. -/
def Cooling (s : State ι) : Prop := ∃ openedAt ∈ s.opened, s.now ≤ openedAt + halfOpenDelayMs

instance (s : State ι) : Decidable s.Cooling :=
  decidable_of_iff (s.opened.any fun openedAt => s.now ≤ openedAt + halfOpenDelayMs) <| by
    simp [Cooling, Option.any_eq_true]

variable [DecidableEq ι]

def put (s : State ι) (i : ι) (call : Call) : State ι :=
  { s with calls := Function.update s.calls i (some call) }

@[simp] theorem put_calls (s : State ι) (i j : ι) (call : Call) :
    (s.put i call).calls j = if j = i then some call else s.calls j := by
  simp [put, Function.update_apply]

@[simp] theorem put_now (s : State ι) (i : ι) (call : Call) : (s.put i call).now = s.now := rfl

@[simp] theorem put_row (s : State ι) (i : ι) (call : Call) : (s.put i call).row = s.row := rfl

@[simp] theorem put_failures (s : State ι) (i : ι) (call : Call) :
    (s.put i call).failures = s.failures := rfl

@[simp] theorem put_opened (s : State ι) (i : ι) (call : Call) :
    (s.put i call).opened = s.opened := rfl

@[simp] theorem put_due (s : State ι) (i : ι) (call : Call) : (s.put i call).due = s.due := rfl

end State

section
variable [DecidableEq ι] (threshold : Nat)

/-- `incrementAndCheckBreaker`, once the write has returned or thrown. -/
def afterFailure : Option CircuitBreakerRow → Call
  | some updated => if threshold ≤ updated.failureCount then .openNow else .returned none
  | none => .returned none

/-- The next step of a call. -/
def advance (s : State ι) (i : ι) : Call → Option (State ι)
  | .failureRead => some (s.put i (.failureNow s.row))
  | .failureNow existing => some (s.put i (.failureWrite existing s.now))
  | .failureWrite existing now =>
    let updated := incrementFailure existing now s.row
    some ({ s with row := updated.or s.row, failures := s.failures + 1 }.put i
      (afterFailure threshold updated))
  | .openNow => some (s.put i (.openWrite s.now))
  | .openWrite openedAt =>
    some ({ s with row := some (openBreaker openedAt s.row), opened := some openedAt }.put i
      (.returned none))
  | .resetNow => some (s.put i (.resetWrite s.now))
  | .resetWrite resetAt =>
    some ({ s with
      row := some (reset resetAt s.row), opened := none, due := fun _ => false }.put i
      (.returned none))
  | .isOpenRead => some (s.put i (afterRead s.row))
  | .isOpenNow openedAt =>
    some (s.put i (if openedAt + halfOpenDelayMs < s.now then .isOpenWrite openedAt
      else .returned (some true)))
  | .isOpenWrite _ => some ({ s with row := some (halfOpen s.row) }.put i (.returned (some false)))
  | .returned _ => none

inductive Event (ι : Type u)
  | start (i : ι) (op : Op)
  | step (i : ι)
  | tick (ms : Nat)
  deriving DecidableEq, Repr

def next (s : State ι) : Event ι → Option (State ι)
  | .start i op =>
    if s.calls i = none then
      some ({ s with due := Function.update s.due i (decide (op = Op.isOpen ∧ s.Cooling)) }.put i op.first)
    else none
  | .step i => (s.calls i).bind (advance threshold s i)
  | .tick ms => some { s with now := s.now + ms }

end

theorem afterFailure_ne (updated : Option CircuitBreakerRow) (call : Call) (hopen : .openNow ≠ call)
    (hreturned : .returned none ≠ call) : afterFailure threshold updated ≠ call := by
  cases updated with
  | none => exact hreturned
  | some updated =>
    rw [afterFailure]
    split
    · exact hopen
    · exact hreturned

/-- What a step does, by its event. -/
theorem next_cases [DecidableEq ι] {s t : State ι} (h : Fires (next threshold) s e t) :
    (∃ i op, e = .start i op ∧ s.calls i = none ∧
      t = { s with due := Function.update s.due i (decide (op = Op.isOpen ∧ s.Cooling)) }.put i op.first) ∨
    (∃ i call, e = .step i ∧ s.calls i = some call ∧ advance threshold s i call = some t) ∨
    ∃ ms, e = .tick ms ∧ t = { s with now := s.now + ms } := by
  cases e with
  | start i op =>
    obtain ⟨hnone, heq⟩ := Option.ite_none_right_eq_some.mp
      (show (if s.calls i = none then _ else none) = some t from h)
    exact .inl ⟨i, op, rfl, hnone, (Option.some.inj heq).symm⟩
  | step i =>
    obtain ⟨call, hcall, hadvance⟩ := Option.bind_eq_some_iff.mp
      (show (s.calls i).bind _ = some t from h)
    exact .inr (.inl ⟨i, call, rfl, hcall, hadvance⟩)
  | tick ms => exact .inr (.inr ⟨ms, rfl, (Option.some.inj h).symm⟩)

/-! ## Failures -/

/-- The count of a row, or of none. -/
def failureCount (row : Option CircuitBreakerRow) : Nat := row.elim 0 (·.failureCount)

/-- What a call of `incrementFailure` has read. -/
def Call.existing : Call → Option (Option CircuitBreakerRow)
  | .failureNow existing | .failureWrite existing _ => some existing
  | _ => none

/-- A call that `incrementAndCheckBreaker` comes to. -/
def Call.OfFailure : Call → Prop
  | .failureRead | .failureNow _ | .failureWrite .. | .openNow | .openWrite _ | .returned none => True
  | _ => False

section
variable [DecidableEq ι] (threshold : Nat)

/-- Nothing but calls of `incrementAndCheckBreaker`. -/
def nextFailure (s : State ι) (e : Event ι) : Option (State ι) :=
  match e with
  | .start _ .incrementAndCheckBreaker | .step _ | .tick _ => next threshold s e
  | _ => none

structure State.Idle (s : State ι) : Prop where
  calls : ∀ i, s.calls i = none
  failures : s.failures = 0

def State.Quiet (s : State ι) : Prop := ∀ i call, s.calls i = some call → ∃ r, call = .returned r

/-- Every failure is in the count, and the breaker is open if they reach the threshold. -/
structure CountsEveryFailure (s₀ s : State ι) : Prop where
  count : failureCount s₀.row + s.failures ≤ failureCount s.row
  opened : 0 < s.failures → threshold ≤ failureCount s₀.row + s.failures →
    s.row.map (·.state) = some .opened

/-- A write finds the count that its call has read, and the window has not ended in between. -/
def Counted (s : State ι) (e : Event ι) : Prop :=
  ∀ i existing now, e = .step i → s.calls i = some (.failureWrite existing now) →
    existing.map (·.failureCount) = s.row.map (·.failureCount) ∧
      ∀ row ∈ existing, isOutsideWindow row now → row.failureCount = 0

/-- What bounds the count, from a count of `c`. -/
structure Bounded (c : Nat) (s : State ι) : Prop where
  ofFailure : ∀ i call, s.calls i = some call → call.OfFailure
  count_le : failureCount s.row ≤ c + s.failures
  read_le : ∀ i call existing, s.calls i = some call → call.existing = some existing →
    failureCount existing ≤ c + s.failures
  /-- A call that has read the highest count there can be has read the count that there is. -/
  read_eq : ∀ i call existing, s.calls i = some call → call.existing = some existing →
    failureCount existing = c + s.failures → failureCount s.row = failureCount existing
  row_isSome : ∀ i call row, s.calls i = some call → call.existing = some (some row) →
    s.row.isSome

end

variable [DecidableEq ι] {threshold c : Nat} {s s₀ t : State ι} {e : Event ι} {es : List (Event ι)}

theorem nextFailure_cases (h : Fires (nextFailure threshold) s e t) :
    (∃ i, e = .start i .incrementAndCheckBreaker ∧ s.calls i = none ∧
      t = { s with due := Function.update s.due i false }.put i .failureRead) ∨
    (∃ i call, e = .step i ∧ s.calls i = some call ∧ advance threshold s i call = some t) ∨
    ∃ ms, e = .tick ms ∧ t = { s with now := s.now + ms } := by
  cases e with
  | start i op =>
    cases op with
    | incrementAndCheckBreaker =>
      obtain ⟨i, op, he, hnone, rfl⟩ | ⟨_, _, he, -, -⟩ | ⟨_, he, -⟩ :=
        next_cases
          (show Fires (next threshold) s (.start i .incrementAndCheckBreaker) t from h)
      · cases he
        exact .inl ⟨i, rfl, hnone, by simp [Op.first]⟩
      · cases he
      · cases he
    | openBreaker => exact nomatch h
    | reset => exact nomatch h
    | isOpen => exact nomatch h
  | step i =>
    obtain ⟨_, _, he, -, -⟩ | hstep | ⟨_, he, -⟩ :=
      next_cases (show Fires (next threshold) s (.step i) t from h)
    · cases he
    · exact .inr (.inl hstep)
    · cases he
  | tick ms =>
    obtain ⟨_, _, he, -, -⟩ | ⟨_, _, he, -, -⟩ | htick :=
      next_cases (show Fires (next threshold) s (.tick ms) t from h)
    · cases he
    · cases he
    · exact .inr (.inr htick)

theorem Bounded.put {call : Call} (h : Bounded c s) (hcall : call.OfFailure)
    (hexisting : ∀ existing, call.existing = some existing →
      existing = s.row ∨ ∃ call', s.calls i = some call' ∧ call'.existing = some existing) :
    Bounded c (s.put i call) := by
  have hread (j : ι) (call' : Call) (existing : Option CircuitBreakerRow)
      (hj : (s.put i call).calls j = some call') (he : call'.existing = some existing) :
      existing = s.row ∨ ∃ k call', s.calls k = some call' ∧ call'.existing = some existing := by
    rw [State.put_calls] at hj
    split at hj
    · obtain rfl := Option.some.inj hj
      exact (hexisting existing he).imp_right fun ⟨call', hi, he'⟩ => ⟨i, call', hi, he'⟩
    · exact .inr ⟨j, call', hj, he⟩
  refine ⟨fun j call' hj => ?_, h.count_le, fun j call' existing hj he => ?_,
    fun j call' existing hj he heq => ?_, fun j call' row hj he => ?_⟩
  · rw [State.put_calls] at hj
    split at hj
    · obtain rfl := Option.some.inj hj
      exact hcall
    · exact h.ofFailure j call' hj
  · obtain rfl | ⟨k, call', hk, he'⟩ := hread j call' existing hj he
    · exact h.count_le
    · exact h.read_le k call' existing hk he'
  · obtain rfl | ⟨k, call', hk, he'⟩ := hread j call' existing hj he
    · rfl
    · exact h.read_eq k call' existing hk he' heq
  · obtain heq | ⟨k, call', hk, he'⟩ := hread j call' (some row) hj he
    · exact Option.isSome_iff_exists.mpr ⟨row, heq.symm⟩
    · exact h.row_isSome k call' row hk he'

omit [DecidableEq ι] in
/-- What a write leaves of the row is a true increment exactly if the write is counted. -/
theorem count_incrementFailure (h : Bounded c s)
    (hcall : s.calls i = some (.failureWrite existing now)) :
    failureCount ((incrementFailure existing now s.row).or s.row) = c + (s.failures + 1) ↔
      failureCount s.row = c + s.failures ∧ Counted s (.step i) := by
  have hcounted : Counted s (.step i) ↔
      existing.map (·.failureCount) = s.row.map (·.failureCount) ∧
        ∀ row ∈ existing, isOutsideWindow row now → row.failureCount = 0 := by
    constructor
    · exact fun hc => hc i existing now rfl hcall
    · intro hc j existing' now' he hj
      cases he
      rw [hcall] at hj
      cases hj
      exact hc
  have hle := h.count_le
  have hread := h.read_le i _ existing hcall rfl
  have heq := h.read_eq i _ existing hcall rfl
  have hsome (row : CircuitBreakerRow) := h.row_isSome i (.failureWrite existing now) row hcall
  rw [hcounted]
  cases existing with
  | none =>
    cases hrow : s.row with
    | none =>
      simp only [incrementFailure, failureCount, Option.some_or, Option.elim_some, Option.elim_none]
      simp only [Option.mem_def, reduceCtorEq, false_implies, implies_true, and_true]
      omega
    | some row =>
      rw [hrow] at hle
      simp only [failureCount, Option.elim_some] at hle
      simp only [incrementFailure, failureCount, Option.map_none, Option.none_or,
        Option.elim_some, Option.map_some, reduceCtorEq, false_and, and_false, iff_false]
      omega
  | some existing =>
    obtain ⟨row, hrow⟩ := Option.isSome_iff_exists.mp (hsome existing rfl)
    rw [hrow] at hle heq
    simp only [failureCount, Option.elim_some] at hle hread heq
    simp only [incrementFailure, hrow, failureCount, Option.map_some, Option.some_or,
      Option.elim_some, Option.some.injEq, Option.mem_def, forall_eq']
    split
    next houtside =>
      simp only [houtside, true_implies]
      omega
    next hinside =>
      simp only [hinside, Bool.false_eq_true, false_implies, and_true]
      omega

theorem failureCount_or (existing row : Option CircuitBreakerRow) (now : Nat) :
    failureCount ((incrementFailure existing now row).or row) ≤
      max (failureCount row) (failureCount existing + 1) := by
  cases row with
  | none =>
    cases existing with
    | none => simp [incrementFailure, failureCount]
    | some existing => simp [incrementFailure, failureCount]
  | some row =>
    cases existing with
    | none =>
      simp only [incrementFailure, Option.map_none, Option.none_or]
      exact Nat.le_max_left _ _
    | some existing =>
      simp only [incrementFailure, failureCount, Option.map_some, Option.some_or,
        Option.elim_some]
      split
      · omega
      · omega

theorem preserves_bounded : Preserves (Fires (nextFailure threshold)) (Bounded (ι := ι) c) := by
  intro s e t hstep h
  obtain ⟨i, -, -, rfl⟩ | ⟨i, call, -, hcall, hadvance⟩ | ⟨ms, -, rfl⟩ := nextFailure_cases hstep
  · have hdue : Bounded c { s with due := Function.update s.due i false } :=
      ⟨h.ofFailure, h.count_le, h.read_le, h.read_eq, h.row_isSome⟩
    exact hdue.put trivial nofun
  · have hof := h.ofFailure i call hcall
    cases call with
    | failureRead =>
      obtain rfl := Option.some.inj hadvance
      exact h.put trivial fun existing he => .inl (Option.some.inj he).symm
    | failureNow existing =>
      obtain rfl := Option.some.inj hadvance
      exact h.put trivial fun existing' he => .inr ⟨_, hcall, he⟩
    | failureWrite existing now =>
      obtain rfl := Option.some.inj hadvance
      have hread := h.read_le i _ existing hcall rfl
      have hcount := failureCount_or existing s.row now
      have hle := h.count_le
      have hwritten : Bounded c { s with
          row := (incrementFailure existing now s.row).or s.row, failures := s.failures + 1 } := by
        refine ⟨h.ofFailure, ?_, fun j call existing' hj he => ?_, fun j call existing' hj he heq => ?_,
          fun j call row hj he => ?_⟩
        · show failureCount ((incrementFailure existing now s.row).or s.row) ≤
            c + (s.failures + 1)
          omega
        · exact Nat.le_succ_of_le (h.read_le j call existing' hj he)
        · have := h.read_le j call existing' hj he
          simp only at heq
          omega
        · have := h.row_isSome j call row hj he
          simp only [Option.isSome_or, this, Bool.or_true]
      refine hwritten.put ?_ fun existing' he => ?_
      · cases incrementFailure existing now s.row with
        | none => trivial
        | some updated =>
          simp only [afterFailure]
          split <;> trivial
      · cases hu : incrementFailure existing now s.row with
        | none =>
          rw [hu] at he
          exact nomatch he
        | some updated =>
          rw [hu, afterFailure] at he
          split at he <;> exact nomatch he
    | openNow =>
      obtain rfl := Option.some.inj hadvance
      exact h.put trivial nofun
    | openWrite openedAt =>
      obtain rfl := Option.some.inj hadvance
      have hcount : failureCount (some (openBreaker openedAt s.row)) = failureCount s.row := by
        cases s.row <;> rfl
      have hopened : Bounded c { s with
          row := some (openBreaker openedAt s.row), opened := some openedAt } :=
        ⟨h.ofFailure, hcount ▸ h.count_le, h.read_le,
          fun j call existing hj he heq => hcount ▸ h.read_eq j call existing hj he heq,
          fun _ _ _ _ _ => rfl⟩
      exact hopened.put trivial nofun
    | returned => exact nomatch hadvance
    | resetNow | resetWrite | isOpenRead | isOpenNow | isOpenWrite => exact hof.elim
  · exact ⟨h.ofFailure, h.count_le, h.read_le, h.read_eq, h.row_isSome⟩

/-- No failure has been lost so far. -/
def AllCounted (c : Nat) (s : State ι) : Prop := failureCount s.row = c + s.failures

theorem allCounted_step (hstep : Fires (nextFailure threshold) s e t) (h : Bounded c s) :
    AllCounted c t ↔ AllCounted c s ∧ Counted s e := by
  obtain ⟨i, rfl, -, rfl⟩ | ⟨i, call, rfl, hcall, hadvance⟩ | ⟨ms, rfl, rfl⟩ :=
    nextFailure_cases hstep
  · exact (and_iff_left nofun).symm
  · have hother (hne : ∀ existing now, call ≠ .failureWrite existing now) :
        Counted s (.step i) := by
      intro j existing now he hj
      cases he
      rw [hcall] at hj
      exact absurd (Option.some.inj hj) (hne existing now)
    have hof := h.ofFailure i call hcall
    cases call with
    | failureRead =>
      obtain rfl := Option.some.inj hadvance
      exact (and_iff_left (hother nofun)).symm
    | failureNow existing =>
      obtain rfl := Option.some.inj hadvance
      exact (and_iff_left (hother nofun)).symm
    | failureWrite existing now =>
      obtain rfl := Option.some.inj hadvance
      exact count_incrementFailure h hcall
    | openNow =>
      obtain rfl := Option.some.inj hadvance
      exact (and_iff_left (hother nofun)).symm
    | openWrite openedAt =>
      obtain rfl := Option.some.inj hadvance
      rw [and_iff_left (hother nofun), AllCounted, AllCounted, State.put_row, State.put_failures]
      cases s.row <;> rfl
    | returned => exact nomatch hadvance
    | resetNow | resetWrite | isOpenRead | isOpenNow | isOpenWrite => exact hof.elim
  · exact (and_iff_left nofun).symm

/-- A call that is about to open the breaker. -/
def Call.Opening : Call → Prop
  | .openNow | .openWrite _ => True
  | _ => False

/-- Once the failures have reached the threshold, the breaker is open or about to be. -/
def OpensInTime (threshold c : Nat) (s : State ι) : Prop :=
  0 < s.failures → threshold ≤ c + s.failures →
    s.row.map (·.state) = some .opened ∨ ∃ i call, s.calls i = some call ∧ call.Opening

theorem OpensInTime.put {call : Call} (h : OpensInTime threshold c s)
    (hcall : ∀ call', s.calls i = some call' → call'.Opening → call.Opening) :
    OpensInTime threshold c (s.put i call) := by
  intro hpos hle
  refine (h hpos hle).imp_right fun ⟨j, call', hj, hopening⟩ => ?_
  by_cases hji : j = i
  · subst hji
    exact ⟨j, call, by simp, hcall call' hj hopening⟩
  · exact ⟨j, call', by simp [hji, hj], hopening⟩

theorem opensInTime_step (hstep : Fires (nextFailure threshold) s e t) (h : Bounded c s)
    (hcounted : AllCounted c t) (ho : OpensInTime threshold c s) : OpensInTime threshold c t := by
  obtain ⟨i, rfl, hnone, rfl⟩ | ⟨i, call, rfl, hcall, hadvance⟩ | ⟨ms, rfl, rfl⟩ :=
    nextFailure_cases hstep
  · have hdue : OpensInTime threshold c { s with due := Function.update s.due i false } := ho
    exact hdue.put fun call' hcall' => nomatch hnone.symm.trans hcall'
  · have hnot (hn : ¬call.Opening) (call' : Call) (hcall' : s.calls i = some call') :
        ¬call'.Opening := by
      obtain rfl := Option.some.inj (hcall.symm.trans hcall')
      exact hn
    have hof := h.ofFailure i call hcall
    cases call with
    | failureRead =>
      obtain rfl := Option.some.inj hadvance
      exact ho.put fun call' hcall' hopening => (hnot id call' hcall' hopening).elim
    | failureNow existing =>
      obtain rfl := Option.some.inj hadvance
      exact ho.put fun call' hcall' hopening => (hnot id call' hcall' hopening).elim
    | failureWrite existing now =>
      obtain rfl := Option.some.inj hadvance
      have hcount : failureCount ((incrementFailure existing now s.row).or s.row) =
          c + (s.failures + 1) := hcounted
      intro _ hle
      refine .inr ⟨i, .openNow, ?_, trivial⟩
      rw [State.put_calls, if_pos rfl]
      cases hupdated : incrementFailure existing now s.row with
      | none =>
        rw [hupdated, Option.none_or] at hcount
        have := h.count_le
        omega
      | some updated =>
        rw [hupdated] at hcount
        have hreached : threshold ≤ updated.failureCount := Nat.le_trans hle (Nat.le_of_eq hcount.symm)
        rw [afterFailure, if_pos hreached]
    | openNow =>
      obtain rfl := Option.some.inj hadvance
      exact ho.put fun _ _ _ => trivial
    | openWrite openedAt =>
      obtain rfl := Option.some.inj hadvance
      exact fun _ _ => .inl rfl
    | returned => exact nomatch hadvance
    | resetNow | resetWrite | isOpenRead | isOpenNow | isOpenWrite => exact hof.elim
  · exact ho

theorem preserves_opensInTime (c : Nat) :
    Preserves (Guarded (Fires (nextFailure threshold)) Counted)
      fun s : State ι => Bounded c s ∧ AllCounted c s ∧ OpensInTime threshold c s := by
  intro s e t ⟨hstep, hcounted⟩ ⟨hbounded, hall, hopens⟩
  have hallt := (allCounted_step hstep hbounded).mpr ⟨hall, hcounted⟩
  exact ⟨preserves_bounded hstep hbounded, hallt, opensInTime_step hstep hbounded hallt hopens⟩

omit [DecidableEq ι] in
/-- What holds of every run of failures from an idle state. -/
theorem State.Idle.bounded (h : s.Idle) : Bounded (failureCount s.row) s where
  ofFailure i _ hcall := nomatch (h.calls i).symm.trans hcall
  count_le := Nat.le_add_right _ _
  read_le i _ _ hcall := nomatch (h.calls i).symm.trans hcall
  read_eq i _ _ hcall := nomatch (h.calls i).symm.trans hcall
  row_isSome i _ _ hcall := nomatch (h.calls i).symm.trans hcall

/-- The calls of `incrementAndCheckBreaker` count every failure exactly if each of their writes is
counted. -/
theorem countsEveryFailure_iff (h : Run (Fires (nextFailure threshold)) s₀ es s) (h₀ : s₀.Idle)
    (hquiet : s.Quiet) :
    CountsEveryFailure threshold s₀ s ↔
      Run (Guarded (Fires (nextFailure threshold)) Counted) s₀ es s := by
  have hstart : AllCounted (failureCount s₀.row) s₀ := by rw [AllCounted, h₀.failures, Nat.add_zero]
  have hrun := h.iff_guarded (p := AllCounted (failureCount s₀.row)) Fires.det h₀.bounded
    preserves_bounded fun _ _ _ => allCounted_step
  rw [and_iff_right hstart] at hrun
  constructor
  · intro hcounts
    have hle := (h.invariant preserves_bounded h₀.bounded).count_le
    exact hrun.mp (Nat.le_antisymm hle hcounts.count)
  · intro hguarded
    have hall := hrun.mpr hguarded
    have hopens := hguarded.invariant (preserves_opensInTime (failureCount s₀.row))
      ⟨h₀.bounded, hstart, fun hpos => absurd (h₀.failures ▸ hpos) (Nat.lt_irrefl 0)⟩
    refine ⟨Nat.le_of_eq hall.symm, fun hpos hle => (hopens.2.2 hpos hle).resolve_right ?_⟩
    intro ⟨i, call, hcall, hopening⟩
    obtain ⟨r, rfl⟩ := hquiet i call hcall
    exact hopening

/-- The row of a breaker that has not failed yet. -/
def closedRow : CircuitBreakerRow := {}

def closedStart : State Bool := { now := 0, row := some closedRow, opened := none }

theorem closedStart_idle : closedStart.Idle where
  calls _ := rfl
  failures := rfl

/-- Two calls, one after the other. -/
def oneByOne : List (Event Bool) :=
  [.start false .incrementAndCheckBreaker, .step false, .step false, .step false,
    .start true .incrementAndCheckBreaker, .step true, .step true, .step true]

/-- Two calls that both read before either writes. -/
def bothAtOnce : List (Event Bool) :=
  [.start false .incrementAndCheckBreaker, .start true .incrementAndCheckBreaker, .step false,
    .step true, .step false, .step true, .step false, .step true]

def afterOneByOne : State Bool :=
  (exec (nextFailure 5) closedStart oneByOne).get (by decide)

def afterBothAtOnce : State Bool :=
  (exec (nextFailure 5) closedStart bothAtOnce).get (by decide)

theorem run_oneByOne : Run (Fires (nextFailure 5)) closedStart oneByOne afterOneByOne :=
  .of_exec (Option.some_get _).symm

theorem run_bothAtOnce : Run (Fires (nextFailure 5)) closedStart bothAtOnce afterBothAtOnce :=
  .of_exec (Option.some_get _).symm

theorem quiet_of_returned {s : State Bool} (hfalse : s.calls false = some (.returned none))
    (htrue : s.calls true = some (.returned none)) : s.Quiet
  | false, _, hcall => ⟨none, Option.some.inj (hcall.symm.trans hfalse)⟩
  | true, _, hcall => ⟨none, Option.some.inj (hcall.symm.trans htrue)⟩

theorem countsEveryFailure_oneByOne :
    Run (Guarded (Fires (nextFailure 5)) Counted) closedStart oneByOne afterOneByOne :=
  (countsEveryFailure_iff run_oneByOne closedStart_idle
    (quiet_of_returned (by decide +kernel) (by decide +kernel))).mp
    ⟨by decide, fun _ hle => absurd hle (by decide)⟩

theorem not_countsEveryFailure :
    ¬ ∀ (threshold : Nat) (s₀ s : State Bool) (es : List (Event Bool)), s₀.Idle →
      s₀.row.map (·.state) = some .closed → Run (Fires (nextFailure threshold)) s₀ es s →
      s.Quiet → CountsEveryFailure threshold s₀ s := by
  intro h
  have hquiet : afterBothAtOnce.Quiet :=
    quiet_of_returned (by decide) (by decide)
  have hcount := (h 5 _ _ _ closedStart_idle rfl run_bothAtOnce hquiet).count
  revert hcount
  decide

/-! ## Cooldown -/

/-- No check that started within the cooldown of an opening has returned `false`. -/
def StaysOpen (s : State ι) : Prop := ∀ i, s.due i → s.calls i ≠ some (.returned (some false))

/-- A half-open write finds the opening that its check has read, and a check that started within the
cooldown takes its steps within it. -/
def Undisturbed (s : State ι) (e : Event ι) : Prop :=
  ∀ i, e = .step i → (s.due i → s.Cooling) ∧
    ∀ openedAt, s.calls i = some (.isOpenWrite openedAt) →
      s.row.bind (·.openedAt) = some openedAt

instance (s : State ι) : (e : Event ι) → Decidable (Undisturbed s e)
  | .start .. | .tick _ => isTrue nofun
  | .step i =>
    decidable_of_iff ((s.due i → s.Cooling) ∧ (s.calls i).all fun
      | .isOpenWrite openedAt => s.row.bind (·.openedAt) = some openedAt
      | _ => true) <| by
      rw [Option.all_eq_true]
      constructor
      · intro ⟨hdue, hall⟩ j hj
        cases hj
        exact ⟨hdue, fun openedAt hcall => of_decide_eq_true (hall _ hcall)⟩
      · intro h
        refine ⟨(h i rfl).1, fun call hcall => ?_⟩
        cases call with
        | isOpenWrite openedAt => exact decide_eq_true ((h i rfl).2 openedAt hcall)
        | _ => rfl

/-- What is known of the last opening. -/
structure OpenUntil (s : State ι) : Prop where
  openedAt : ∀ openedAt ∈ s.opened, s.row.bind (·.openedAt) = some openedAt
  opened : s.Cooling → s.row.map (·.state) = some .opened
  expired : ∀ i openedAt, s.calls i = some (.isOpenWrite openedAt) →
    openedAt + halfOpenDelayMs < s.now
  staysOpen : StaysOpen s

/-- No call is on its way, and the last opening is in the row if the breaker is open. -/
structure State.Starts (s : State ι) : Prop where
  calls : ∀ i, s.calls i = none
  opened : s.opened = (s.row.filter (·.state = .opened)).bind (·.openedAt)

omit [DecidableEq ι] in
theorem State.Starts.openUntil (h : s.Starts) : OpenUntil s where
  openedAt openedAt hmem := by
    rw [h.opened] at hmem
    obtain ⟨row, hrow, hat⟩ := Option.bind_eq_some_iff.mp hmem
    rw [(Option.filter_eq_some_iff.mp hrow).1]
    exact hat
  opened := by
    rintro ⟨openedAt, hmem, -⟩
    rw [h.opened] at hmem
    obtain ⟨row, hrow, -⟩ := Option.bind_eq_some_iff.mp hmem
    obtain ⟨hsome, hopened⟩ := Option.filter_eq_some_iff.mp hrow
    rw [hsome, Option.map_some, of_decide_eq_true hopened]
  expired i _ hcall := nomatch (h.calls i).symm.trans hcall
  staysOpen i _ hcall := nomatch (h.calls i).symm.trans hcall

theorem OpenUntil.put {call : Call} (h : OpenUntil s)
    (hexpired : ∀ openedAt, call = .isOpenWrite openedAt → openedAt + halfOpenDelayMs < s.now)
    (hdue : s.due i → call ≠ .returned (some false)) : OpenUntil (s.put i call) := by
  refine ⟨h.openedAt, h.opened, fun j openedAt hj => ?_, fun j hj => ?_⟩
  · rw [State.put_calls] at hj
    split at hj
    · exact hexpired openedAt (Option.some.inj hj)
    · exact h.expired j openedAt hj
  · rw [State.put_calls]
    split
    next hji =>
      subst hji
      exact fun heq => hdue hj (Option.some.inj heq)
    · exact h.staysOpen j hj

omit [DecidableEq ι] in
/-- A write that leaves the state and the opening of the row as they are. -/
theorem OpenUntil.setRow (h : OpenUntil s) {row : Option CircuitBreakerRow}
    (hat : s.row.isSome → row.bind (·.openedAt) = s.row.bind (·.openedAt))
    (hstate : s.row.isSome → row.map (·.state) = s.row.map (·.state)) (failures : Nat) :
    OpenUntil { s with row, failures } := by
  have hsome (openedAt : Nat) (hmem : openedAt ∈ s.opened) : s.row.isSome := by
    have hrow := h.openedAt openedAt hmem
    cases hs : s.row with
    | none => rw [hs] at hrow; exact nomatch hrow
    | some _ => rfl
  refine ⟨fun openedAt hmem => ?_, fun hcooling => ?_, h.expired, h.staysOpen⟩
  · exact (hat (hsome openedAt hmem)).trans (h.openedAt openedAt hmem)
  · obtain ⟨openedAt, hmem, -⟩ := id hcooling
    exact (hstate (hsome openedAt hmem)).trans (h.opened hcooling)

omit [DecidableEq ι] in
/-- The half-open state is not written while an opening cools down. -/
theorem OpenUntil.not_cooling {last : Nat} (h : OpenUntil s)
    (hcall : s.calls i = some (.isOpenWrite last)) (hrow : s.row.bind (·.openedAt) = some last) :
    ¬s.Cooling := by
  rintro ⟨openedAt, hmem, hle⟩
  obtain rfl := Option.some.inj ((h.openedAt openedAt hmem).symm.trans hrow)
  exact Nat.not_lt.mpr hle (h.expired i _ hcall)

omit [DecidableEq ι] in
theorem afterRead_of_opened (hrow : s.row.bind (·.openedAt) = some openedAt)
    (hstate : s.row.map (·.state) = some .opened) : afterRead s.row = .isOpenNow openedAt := by
  obtain ⟨row, hsome, hat⟩ := Option.bind_eq_some_iff.mp hrow
  rw [hsome, Option.map_some, Option.some.injEq] at hstate
  have hfilter : (some row).filter (·.state = .opened) = some row :=
    Option.filter_some_pos (decide_eq_true hstate)
  simp only [hsome, afterRead, hfilter, hat, Option.elim_some]

theorem afterRead_ne (row : Option CircuitBreakerRow) (openedAt : Nat) :
    afterRead row ≠ .isOpenWrite openedAt := by
  unfold afterRead
  split
  · exact nofun
  next row _ => cases row.openedAt <;> exact nofun

theorem preserves_openUntil :
    Preserves (Guarded (Fires (next threshold)) Undisturbed) (OpenUntil (ι := ι)) := by
  intro s e t ⟨hstep, hguard⟩ h
  obtain ⟨i, op, -, hnone, rfl⟩ | ⟨i, call, rfl, hcall, hadvance⟩ | ⟨ms, -, rfl⟩ := next_cases hstep
  · have hdue : OpenUntil { s with
        due := Function.update s.due i (decide (op = Op.isOpen ∧ s.Cooling)) } := by
      refine ⟨h.openedAt, h.opened, h.expired, fun j hj hcall => ?_⟩
      by_cases hji : j = i
      · exact nomatch (hji ▸ hnone).symm.trans hcall
      · exact h.staysOpen j (by simpa [hji] using hj) hcall
    refine hdue.put (fun openedAt heq => ?_) fun _ heq => ?_
    · cases op <;> exact nomatch heq
    · cases op <;> exact nomatch heq
  · obtain ⟨hcooling, hfound⟩ := hguard i rfl
    cases call with
    | failureRead | failureNow | openNow | resetNow =>
      obtain rfl := Option.some.inj hadvance
      exact h.put nofun nofun
    | failureWrite existing now =>
      obtain rfl := Option.some.inj hadvance
      have hwritten : OpenUntil { s with
          row := (incrementFailure existing now s.row).or s.row, failures := s.failures + 1 } :=
        h.setRow (fun hsome => ?_) (fun hsome => ?_) (s.failures + 1)
      · refine hwritten.put (fun openedAt heq => ?_) fun _ heq => ?_
        · exact absurd heq (afterFailure_ne _ _ nofun nofun)
        · exact absurd heq (afterFailure_ne _ _ nofun nofun)
      all_goals
        obtain ⟨row, hrow⟩ := Option.isSome_iff_exists.mp hsome
        rw [hrow]
        cases existing <;> rfl
    | openWrite openedAt =>
      obtain rfl := Option.some.inj hadvance
      have hopened : OpenUntil { s with
          row := some (openBreaker openedAt s.row), opened := some openedAt } :=
        ⟨fun _ hmem => hmem, fun _ => rfl, h.expired, h.staysOpen⟩
      exact hopened.put nofun nofun
    | resetWrite resetAt =>
      obtain rfl := Option.some.inj hadvance
      have hreset : OpenUntil { s with
          row := some (reset resetAt s.row), opened := none, due := fun _ => false } :=
        ⟨nofun, fun ⟨_, hmem, _⟩ => (nomatch hmem), h.expired, nofun⟩
      exact hreset.put nofun nofun
    | isOpenRead =>
      obtain rfl := Option.some.inj hadvance
      refine h.put (fun openedAt heq => absurd heq (afterRead_ne _ _)) fun hdue => ?_
      obtain ⟨openedAt, hmem, -⟩ := id (hcooling hdue)
      rw [afterRead_of_opened (h.openedAt openedAt hmem) (h.opened (hcooling hdue))]
      exact nofun
    | isOpenNow openedAt =>
      obtain rfl := Option.some.inj hadvance
      split
      next hlt =>
        refine h.put (fun openedAt' heq => ?_) nofun
        obtain rfl := Call.isOpenWrite.inj heq
        exact hlt
      · exact h.put nofun nofun
    | isOpenWrite openedAt =>
      obtain rfl := Option.some.inj hadvance
      have hnot := h.not_cooling hcall (hfound openedAt hcall)
      have hhalf : OpenUntil { s with row := some (halfOpen s.row) } := by
        refine ⟨fun openedAt' hmem => ?_, fun hc => absurd hc hnot, h.expired, h.staysOpen⟩
        have hat := h.openedAt openedAt' hmem
        cases hrow : s.row with
        | none => rw [hrow] at hat; exact nomatch hat
        | some row => rw [hrow] at hat; exact hat
      exact hhalf.put nofun fun hdue => absurd (hcooling hdue) hnot
    | returned => exact nomatch hadvance
  · refine ⟨h.openedAt, fun hcooling => h.opened ?_, fun i openedAt hcall => ?_, h.staysOpen⟩
    · exact hcooling.imp fun _ hc => ⟨hc.1, Nat.le_trans (Nat.le_add_right _ _) hc.2⟩
    · exact Nat.lt_of_lt_of_le (h.expired i openedAt hcall) (Nat.le_add_right _ _)

/-- A breaker that has been opened stays open for its cooldown, in a run that leaves it
undisturbed. -/
theorem staysOpen_of_undisturbed (h₀ : s₀.Starts)
    (h : Run (Guarded (Fires (next threshold)) Undisturbed) s₀ es s) : StaysOpen s :=
  (h.invariant preserves_openUntil h₀.openUntil).staysOpen

/-- A breaker that has been open for longer than its cooldown. -/
def expiredStart : State Nat :=
  { now := halfOpenDelayMs + 1
    row := some { failureCount := 5, openedAt := some 0, state := .opened }
    opened := some 0 }

theorem expiredStart_starts : expiredStart.Starts where
  calls _ := rfl
  opened := rfl

/-- The breaker is opened again, and a check follows. -/
def reopened : List (Event Nat) :=
  [.start 0 .openBreaker, .step 0, .step 0, .start 1 .isOpen, .step 1, .step 1]

def afterReopened : State Nat :=
  (exec (guardedNext (next 5) Undisturbed) expiredStart reopened).get (by decide)

theorem staysOpen_reopened : afterReopened.due 1 = true ∧ StaysOpen afterReopened :=
  ⟨by decide, staysOpen_of_undisturbed expiredStart_starts
    (.of_exec_guardedNext (Option.some_get _).symm)⟩

/-- A check that has found the old opening writes after the breaker has been opened again. -/
def lateWrite : List (Event Nat) :=
  [.start 0 .isOpen, .step 0, .step 0, .start 1 .openBreaker, .step 1, .step 1, .step 0,
    .start 2 .isOpen, .step 2]

def afterLateWrite : State Nat :=
  (exec (next 5) expiredStart lateWrite).get (by decide)

theorem not_staysOpen :
    ¬ ∀ (threshold : Nat) (s₀ s : State Nat) (es : List (Event Nat)), s₀.Starts →
      Run (Fires (next threshold)) s₀ es s → StaysOpen s := by
  intro h
  have hstays := h 5 _ afterLateWrite _ expiredStart_starts (.of_exec (Option.some_get _).symm)
  exact hstays 2 (by decide) (by decide)

end OpenLander.Db.CircuitBreaker
