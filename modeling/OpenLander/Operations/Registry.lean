import Mathlib.Logic.Function.Basic
import OpenLander.Theory.Run

/-! # Idempotent operations

`ApplicationOperationRegistry.execute` (`src/operations/registry.ts`) for the calls of one command that
share a version, a principal and an idempotency key, with their row in
`application_operation_invocations` (`src/db/repos/application-operation.repo.ts`). A statement is one
step, and so is a run of the handler. A statement may reject, before or after it has taken effect. -/

namespace OpenLander.Operations
open Theory

inductive Status
  | running
  | succeeded
  | failed
  deriving DecidableEq, Repr

structure InvocationRow (Hash Output : Type*) where
  requestSha256 : Hash
  status : Status := .running
  responseJson : Option Output := none
  deriving DecidableEq

/-- How a statement ends. -/
inductive Outcome
  | ok
  /-- It rejects and has no effect. -/
  | lost
  /-- It takes effect, and the call still rejects. -/
  | unknown
  deriving DecidableEq, Repr

/-- How a call of `execute` ends. -/
inductive Result (Output : Type*)
  | executed (output : Output)
  | replayed (output : Output)
  | conflict
  | inProgress
  /-- The error of the handler, of the output check or of a statement. -/
  | error
  deriving DecidableEq, Repr

/-- What a call does next, with its canonical input and what it knows. -/
inductive Call (Input Output : Type*)
  | claim (input : Input)
  | findByKey (input : Input)
  | retryFailed (input : Input)
  | execute (input : Input)
  /-- The check of the output that the handler has returned. -/
  | validate (input : Input) (output : Output)
  | succeed (input : Input) (output : Output)
  | fail (input : Input)
  | returned (input : Input) (result : Result Output)
  deriving DecidableEq

structure State (ι Input Hash Output : Type*) where
  row : Option (InvocationRow Hash Output) := none
  calls : ι → Option (Call Input Output) := fun _ => none
  /-- How often the handler has returned. No step reads this, and neither the next two. -/
  successes : Nat := 0
  /-- The input of the call that made the row. -/
  first : Option Input := none
  /-- The calls that started after a result had been recorded. -/
  late : ι → Bool := fun _ => false

inductive Event (ι Input Output : Type*)
  | start (i : ι) (input : Input)
  /-- The next statement of a call. -/
  | statement (i : ι) (outcome : Outcome)
  /-- The handler of a call returns or throws. -/
  | handle (i : ι) (result : Option Output)
  | validate (i : ι) (valid : Bool)
  /-- The server stops, and marks what was running as failed when it starts again. -/
  | restart
  deriving DecidableEq

variable {ι Input Hash Output : Type*}

namespace State
variable (s : State ι Input Hash Output)

/-- A result has been recorded. -/
def Recorded : Prop := ∃ row ∈ s.row, row.status = .succeeded

instance : Decidable s.Recorded :=
  decidable_of_iff (s.row.any (·.status = .succeeded)) (by simp [Recorded, Option.any_eq_true])

variable [DecidableEq ι]

def put (i : ι) (call : Call Input Output) : State ι Input Hash Output :=
  { s with calls := Function.update s.calls i (some call) }

@[simp] theorem put_calls (i j : ι) (call : Call Input Output) :
    (s.put i call).calls j = if j = i then some call else s.calls j := by
  simp [put, Function.update_apply]

end State

section
variable [DecidableEq Hash] (requestSha256 : Input → Hash)

/-- `execute`, once it has found the row that another call has made. -/
def afterFind (input : Input) (row : InvocationRow Hash Output) : Call Input Output :=
  if row.requestSha256 ≠ requestSha256 input then .returned input .conflict
  else match row.status, row.responseJson with
    | .succeeded, some output => .returned input (.replayed output)
    | .running, _ => .returned input .inProgress
    | _, _ => .retryFailed input

variable [DecidableEq ι]

/-- A statement that takes effect unless it is lost, after which the call goes on with `call` if it
resolves, and with `error` if it rejects. -/
def write (s : State ι Input Hash Output) (i : ι) (outcome : Outcome)
    (effect : State ι Input Hash Output → State ι Input Hash Output) (call error : Call Input Output) :
    State ι Input Hash Output :=
  match outcome with
  | .ok => (effect s).put i call
  | .lost => s.put i error
  | .unknown => (effect s).put i error

/-- The next statement of a call. -/
def statement (s : State ι Input Hash Output) (i : ι) (outcome : Outcome) :
    Call Input Output → Option (State ι Input Hash Output)
  | .claim input =>
    match s.row with
    | none => some (write s i outcome ({ · with
        row := some { requestSha256 := requestSha256 input }, first := some input })
        (.execute input) (.returned input .error))
    | some _ => some (write s i outcome id (.findByKey input) (.returned input .error))
  | .findByKey input => s.row.map fun row =>
      write s i outcome id (afterFind requestSha256 input row) (.returned input .error)
  | .retryFailed input => s.row.map fun row =>
      if row.status = .failed then
        write s i outcome
          ({ · with row := some { row with status := .running, responseJson := none } })
          (.execute input) (.returned input .error)
      else s.put i (.returned input .error)
  | .succeed input output => s.row.map fun row =>
      write s i outcome
        ({ · with row := some { row with status := .succeeded, responseJson := some output } })
        (.returned input (.executed output)) (.fail input)
  | .fail input => s.row.map fun row =>
      write s i outcome ({ · with row := some { row with status := .failed } })
        (.returned input .error) (.returned input .error)
  | _ => none

def markRunningAsFailedOnStartup (row : InvocationRow Hash Output) : InvocationRow Hash Output :=
  if row.status = .running then { row with status := .failed } else row

def next (s : State ι Input Hash Output) :
    Event ι Input Output → Option (State ι Input Hash Output)
  | .start i input =>
    if (s.calls i).isNone then
      some ({ s with late := Function.update s.late i (decide s.Recorded) }.put i (.claim input))
    else none
  | .statement i outcome => (s.calls i).bind (statement requestSha256 s i outcome)
  | .handle i result =>
    match s.calls i, result with
    | some (.execute input), some output =>
      some ({ s with successes := s.successes + 1 }.put i (.validate input output))
    | some (.execute input), none => some (s.put i (.fail input))
    | _, _ => none
  | .validate i valid =>
    match s.calls i with
    | some (.validate input output) =>
      some (s.put i (if valid then .succeed input output else .fail input))
    | _ => none
  | .restart =>
    some { s with row := s.row.map markRunningAsFailedOnStartup, calls := fun _ => none }

end

/-! ## The claim -/

/-- The handler has returned once at most, a later call of the same input returns what has been
recorded, and a call of another input is a conflict. -/
structure ExactlyOnce (s : State ι Input Hash Output) : Prop where
  once : s.successes ≤ 1
  replayed : ∀ i input result, s.calls i = some (.returned input result) → s.late i →
    s.first = some input → ∃ output, s.row.bind (·.responseJson) = some output ∧
      result = .replayed output
  conflict : ∀ i input result first, s.calls i = some (.returned input result) →
    s.first = some first → first ≠ input → result = .conflict

/-- The next statement of the call claims or finds the row, or records a result. -/
def Call.Keeps : Call Input Output → Prop
  | .claim _ | .findByKey _ | .succeed .. => True
  | _ => False

/-- The handler has returned to the call. -/
def Call.Pending : Call Input Output → Prop
  | .validate .. | .succeed .. => True
  | _ => False

instance : DecidablePred (@Call.Keeps Input Output)
  | .claim _ | .findByKey _ | .succeed .. => .isTrue trivial
  | .retryFailed _ | .execute _ | .validate .. | .fail _ | .returned .. => .isFalse id

instance : DecidablePred (@Call.Pending Input Output)
  | .validate .. | .succeed .. => .isTrue trivial
  | .claim _ | .findByKey _ | .retryFailed _ | .execute _ | .fail _ | .returned .. => .isFalse id

/-- The statements resolve that claim or find the row or record a result, an output that the handler
returns passes the check, and the server does not stop before it has been recorded. -/
def Persists (s : State ι Input Hash Output) : Event ι Input Output → Prop
  | .statement i outcome => (∃ call ∈ s.calls i, call.Keeps) → outcome = .ok
  | .validate _ valid => valid = true
  | .restart => ∀ i, ∀ call ∈ s.calls i, ¬call.Pending
  | _ => True

/-! ## The invariant -/

def Call.input : Call Input Output → Input
  | .claim input | .findByKey input | .retryFailed input | .execute input | .validate input _
  | .succeed input _ | .fail input | .returned input _ => input

/-- The call is the one that runs the handler. -/
def Call.Owner : Call Input Output → Prop
  | .execute _ | .validate .. | .succeed .. | .fail _ => True
  | _ => False

/-- What the row is while a call of the input runs the handler. -/
def Owned (s : State ι Input Hash Output) (late : Bool) (input : Input) : Prop :=
  s.first = some input ∧ late = false ∧ ∃ row ∈ s.row, row.status = .running

/-- What is known where a call is. -/
def Fits (s : State ι Input Hash Output) (late : Bool) : Call Input Output → Prop
  | .claim _ => True
  | .findByKey _ => s.first.isSome
  | .retryFailed input => s.first = some input ∧ late = false
  | .execute input | .fail input => Owned s late input
  | .validate input _ | .succeed input _ => Owned s late input ∧ s.successes = 1
  | .returned input result => s.first.isSome ∧
      (late → s.first = some input → ∃ output, s.row.bind (·.responseJson) = some output ∧
        result = .replayed output) ∧
      ∀ first, s.first = some first → first ≠ input → result = .conflict

/-- What holds of the row, for inputs in `A`. -/
structure Core (requestSha256 : Input → Hash) (A : Input → Prop) (s : State ι Input Hash Output) :
    Prop where
  sent : ∀ first, s.first = some first → A first
  hash : s.row.map (·.requestSha256) = s.first.map requestSha256
  recorded : ∀ row, s.row = some row → row.status = .succeeded →
    row.responseJson.isSome ∧ s.successes = 1
  late : ∀ i, s.late i → s.Recorded

structure Inv (requestSha256 : Input → Hash) (A : Input → Prop) (s : State ι Input Hash Output) :
    Prop where
  core : Core requestSha256 A s
  sent : ∀ i call, s.calls i = some call → A call.input
  fits : ∀ i call, s.calls i = some call → Fits s (s.late i) call
  unique : ∀ i j call call', s.calls i = some call → s.calls j = some call' →
    call.Owner → call'.Owner → i = j
  pending : ¬s.Recorded → s.successes = 0 ∨ ∃ i call, s.calls i = some call ∧ call.Pending

section
variable {s t : State ι Input Hash Output} {requestSha256 : Input → Hash} {A : Input → Prop}

theorem inv_init : Inv requestSha256 A ({} : State ι Input Hash Output) where
  core := ⟨nofun, rfl, nofun, nofun⟩
  sent _ _ h := nomatch h
  fits _ _ h := nomatch h
  unique _ _ _ _ h := nomatch h
  pending _ := .inl rfl

theorem Owned.not_recorded (h : Owned s late input) : ¬s.Recorded := by
  rintro ⟨row, hrow, hsucceeded⟩
  obtain ⟨-, -, row', hrow', hrunning⟩ := h
  obtain rfl := Option.some.inj (hrow.symm.trans hrow')
  exact nomatch hsucceeded.symm.trans hrunning

theorem Fits.owned {call : Call Input Output} (h : Fits s late call) (ho : call.Owner) :
    Owned s late call.input := by
  cases call with
  | execute | fail => exact h
  | validate | succeed => exact h.1
  | claim | findByKey | retryFailed | returned => exact ho.elim

/-- A call that does not run the handler is where it was, while no result is recorded. -/
theorem Fits.idle {call : Call Input Output} (h : Fits s late call) (hidle : ¬call.Owner)
    (hlate : late = false) (hfirst : t.first = s.first) : Fits t late call := by
  cases call with
  | claim => trivial
  | findByKey =>
    rw [Fits, hfirst]
    exact h
  | retryFailed =>
    rw [Fits, hfirst]
    exact h
  | returned input result =>
    obtain ⟨hsome, -, hconflict⟩ := h
    refine ⟨hfirst ▸ hsome, fun hl => ?_, hfirst ▸ hconflict⟩
    rw [hlate] at hl
    exact nomatch hl
  | execute | validate | succeed | fail => exact absurd trivial hidle

variable [DecidableEq ι]

/-- A call goes on, and nothing else changes. -/
theorem Inv.put (h : Inv requestSha256 A s) {i : ι} {old call : Call Input Output}
    (hold : s.calls i = some old) (hinput : call.input = old.input) (hfits : Fits s (s.late i) call)
    (howner : call.Owner → old.Owner) (hpending : old.Pending → call.Pending) :
    Inv requestSha256 A (s.put i call) := by
  refine ⟨⟨h.core.sent, h.core.hash, h.core.recorded, h.core.late⟩, fun j c hj => ?_,
    fun j c hj => ?_, fun j k c c' hj hk hc hc' => ?_, fun hnot => ?_⟩
  · rw [State.put_calls] at hj
    split at hj
    · obtain rfl := Option.some.inj hj
      rw [hinput]
      exact h.sent i old hold
    · exact h.sent j c hj
  · rw [State.put_calls] at hj
    split at hj
    next hji =>
      obtain rfl := Option.some.inj hj
      exact hji ▸ hfits
    · exact h.fits j c hj
  · have hback (l : ι) (d : Call Input Output) (hl : (s.put i call).calls l = some d) (hd : d.Owner) :
        ∃ d', s.calls l = some d' ∧ d'.Owner := by
      rw [State.put_calls] at hl
      split at hl
      next hli =>
        obtain rfl := Option.some.inj hl
        exact ⟨old, hli ▸ hold, howner hd⟩
      · exact ⟨d, hl, hd⟩
    obtain ⟨d, hd, hdo⟩ := hback j c hj hc
    obtain ⟨d', hd', hdo'⟩ := hback k c' hk hc'
    exact h.unique j k d d' hd hd' hdo hdo'
  · refine (h.pending hnot).imp_right fun ⟨j, c, hj, hc⟩ => ?_
    by_cases hji : j = i
    · subst hji
      obtain rfl := Option.some.inj (hold.symm.trans hj)
      exact ⟨j, call, by simp, hpending hc⟩
    · exact ⟨j, c, by simp [hji, hj], hc⟩

/-- The one call that may run the handler goes on, and the row or the count changes. -/
theorem Inv.move (h : Inv requestSha256 A s) {i : ι} {old : Call Input Output}
    (call : Call Input Output)
    (hold : s.calls i = some old) (hinput : call.input = old.input)
    (hothers : ∀ j c, j ≠ i → s.calls j = some c → ¬c.Owner) (hnot : ¬s.Recorded)
    {row : Option (InvocationRow Hash Output)} {successes : Nat}
    (hhash : row.map (·.requestSha256) = s.row.map (·.requestSha256))
    (hfits : Fits { s with row, successes } (s.late i) call)
    (hrecorded : ∀ r, row = some r → r.status = .succeeded →
      r.responseJson.isSome ∧ successes = 1)
    (hpending : (∀ r ∈ row, r.status ≠ .succeeded) → successes = 0 ∨ call.Pending) :
    Inv requestSha256 A ({ s with row, successes }.put i call) := by
  have hlate (j : ι) : s.late j = false :=
    Bool.of_not_eq_true fun hl => hnot (h.core.late j hl)
  refine ⟨⟨h.core.sent, hhash.trans h.core.hash, hrecorded, fun j hj => ?_⟩, fun j c hj => ?_,
    fun j c hj => ?_, fun j k c c' hj hk hc hc' => ?_, fun hn => ?_⟩
  · exact absurd ((hlate j).symm.trans hj) nofun
  · rw [State.put_calls] at hj
    split at hj
    · obtain rfl := Option.some.inj hj
      rw [hinput]
      exact h.sent i old hold
    · exact h.sent j c hj
  · rw [State.put_calls] at hj
    split at hj
    next hji =>
      obtain rfl := Option.some.inj hj
      exact hji ▸ hfits
    next hji => exact (h.fits j c hj).idle (hothers j c hji hj) (hlate j) rfl
  · have heq (l : ι) (d : Call Input Output)
        (hl : ({ s with row, successes }.put i call).calls l = some d) (hd : d.Owner) : l = i := by
      rw [State.put_calls] at hl
      split at hl
      next hli => exact hli
      next hli => exact absurd hd (hothers l d hli hl)
    rw [heq j c hj hc, heq k c' hk hc']
  · refine (hpending fun r hr hs => hn ⟨r, hr, hs⟩).imp_right fun hcall => ⟨i, call, ?_, hcall⟩
    rw [State.put_calls, if_pos rfl]

omit [DecidableEq ι] in
/-- Where a call runs the handler, no other call does. -/
theorem Inv.only_owner (h : Inv requestSha256 A s) {i : ι} {old : Call Input Output}
    (hold : s.calls i = some old) (howner : old.Owner) (j : ι) (c : Call Input Output) (hji : j ≠ i)
    (hj : s.calls j = some c) : ¬c.Owner :=
  fun hc => hji (h.unique j i c old hj hold hc howner)

omit [DecidableEq ι] in
/-- Without a running row no call runs the handler. -/
theorem Inv.no_owner (h : Inv requestSha256 A s) {row : InvocationRow Hash Output}
    (hrow : s.row = some row) (hstatus : row.status ≠ .running) (j : ι) (c : Call Input Output)
    (hj : s.calls j = some c) : ¬c.Owner := by
  intro hc
  obtain ⟨-, -, row', hrow', hrunning⟩ := (h.fits j c hj).owned hc
  obtain rfl := Option.some.inj (hrow.symm.trans hrow')
  exact hstatus hrunning

theorem Call.Pending.owner {call : Call Input Output} (h : call.Pending) : call.Owner := by
  cases call with
  | validate | succeed => trivial
  | claim | findByKey | retryFailed | execute | fail | returned => exact h.elim

omit [DecidableEq ι] in
/-- The handler has not returned yet where a call that has nothing from it runs it. -/
theorem Inv.successes_eq_zero (h : Inv requestSha256 A s) {i : ι} {old : Call Input Output}
    (hold : s.calls i = some old) (howner : old.Owner) (hnot : ¬old.Pending) : s.successes = 0 := by
  refine (h.pending ((h.fits i old hold).owned howner).not_recorded).resolve_right ?_
  rintro ⟨j, c, hj, hc⟩
  obtain rfl := h.unique j i c old hj hold hc.owner howner
  obtain rfl := Option.some.inj (hold.symm.trans hj)
  exact hnot hc

theorem Inv.claim (h : Inv requestSha256 A s) {i : ι} {input : Input}
    (hcall : s.calls i = some (.claim input)) (hrow : s.row = none) :
    Inv requestSha256 A ({ s with
      row := some { requestSha256 := requestSha256 input }, first := some input }.put i
        (.execute input)) := by
  have hfirst : s.first = none := by
    have hhash := h.core.hash
    rw [hrow, Option.map_none] at hhash
    exact Option.map_eq_none_iff.mp hhash.symm
  have hnot : ¬s.Recorded := by
    rintro ⟨row, hmem, -⟩
    exact nomatch hrow.symm.trans hmem
  have hlate (j : ι) : s.late j = false :=
    Bool.of_not_eq_true fun hl => hnot (h.core.late j hl)
  have hclaim (j : ι) (c : Call Input Output) (hj : s.calls j = some c) :
      ∃ input', c = .claim input' := by
    have hfits := h.fits j c hj
    cases c with
    | claim input' => exact ⟨input', rfl⟩
    | findByKey | returned =>
      first
      | exact nomatch (congrArg Option.isSome hfirst).symm.trans hfits
      | exact nomatch (congrArg Option.isSome hfirst).symm.trans hfits.1
    | retryFailed => exact nomatch hfirst.symm.trans hfits.1
    | execute | fail => exact nomatch hfirst.symm.trans hfits.1
    | validate | succeed => exact nomatch hfirst.symm.trans hfits.1.1
  have hzero : s.successes = 0 := by
    refine (h.pending hnot).resolve_right ?_
    rintro ⟨j, c, hj, hc⟩
    obtain ⟨input', rfl⟩ := hclaim j c hj
    exact hc
  refine ⟨⟨fun first hf => ?_, rfl, fun row hr hs => ?_, fun j hj => ?_⟩, fun j c hj => ?_,
    fun j c hj => ?_, fun j k c c' hj hk hc hc' => ?_, fun _ => .inl hzero⟩
  · obtain rfl := Option.some.inj hf
    exact h.sent i _ hcall
  · obtain rfl := Option.some.inj hr
    exact nomatch hs
  · exact absurd ((hlate j).symm.trans hj) nofun
  · rw [State.put_calls] at hj
    split at hj
    · obtain rfl := Option.some.inj hj
      exact h.sent i (.claim input) hcall
    · exact h.sent j c hj
  · rw [State.put_calls] at hj
    split at hj
    · obtain rfl := Option.some.inj hj
      exact ⟨rfl, hlate j, _, rfl, rfl⟩
    · obtain ⟨input', rfl⟩ := hclaim j c hj
      trivial
  · have heq (l : ι) (d : Call Input Output) (hl : ({ s with
        row := some { requestSha256 := requestSha256 input }, first := some input }.put i
          (.execute input)).calls l = some d) (hd : d.Owner) : l = i := by
      rw [State.put_calls] at hl
      split at hl
      next hli => exact hli
      · obtain ⟨input', rfl⟩ := hclaim l d hl
        exact hd.elim
    rw [heq j c hj hc, heq k c' hk hc']

section
variable [DecidableEq Hash]

theorem Inv.findByKey (h : Inv requestSha256 A s)
    (hinj : ∀ input input', A input → A input' → requestSha256 input = requestSha256 input' →
      input = input') {i : ι} {input : Input} (hcall : s.calls i = some (.findByKey input))
    {row : InvocationRow Hash Output} (hrow : s.row = some row) :
    Inv requestSha256 A (s.put i (afterFind requestSha256 input row)) := by
  obtain ⟨first, hfirst⟩ := Option.isSome_iff_exists.mp (h.fits i _ hcall)
  have hhash : row.requestSha256 = requestSha256 first := by
    have := h.core.hash
    rw [hrow, hfirst, Option.map_some, Option.map_some] at this
    exact Option.some.inj this
  have hrecorded (hl : s.late i) : row.status = .succeeded := by
    obtain ⟨row', hrow', hs⟩ := h.core.late i hl
    obtain rfl := Option.some.inj (hrow.symm.trans hrow')
    exact hs
  have hput {call : Call Input Output} (hinput : call.input = input)
      (hfits : Fits s (s.late i) call) (howner : ¬call.Owner) :
      Inv requestSha256 A (s.put i call) :=
    h.put hcall hinput hfits (fun ho => absurd ho howner) False.elim
  rw [afterFind]
  by_cases hne : row.requestSha256 = requestSha256 input
  · rw [if_neg (not_not_intro hne)]
    have hsame : first = input :=
      hinj first input (h.core.sent first hfirst) (h.sent i _ hcall) (hhash.symm.trans hne)
    subst hsame
    have hother (result : Result Output) (first' : Input) (hf : s.first = some first')
        (hne' : first' ≠ first) : result = .conflict :=
      absurd (Option.some.inj (hf.symm.trans hfirst)) hne'
    split
    next output hstatus hresponse =>
      refine hput rfl ⟨Option.isSome_iff_exists.mpr ⟨_, hfirst⟩, fun _ _ => ?_, hother _⟩ id
      exact ⟨output, by rw [hrow, Option.bind_some, hresponse], rfl⟩
    next hstatus =>
      refine hput rfl ⟨Option.isSome_iff_exists.mpr ⟨_, hfirst⟩, fun hl _ => ?_, hother _⟩ id
      exact nomatch (hrecorded hl).symm.trans hstatus
    next hrunning hsucceeded =>
      refine hput rfl ⟨hfirst, Bool.of_not_eq_true fun hl => ?_⟩ id
      have hstatus := hrecorded hl
      obtain ⟨output, hresponse⟩ :=
        Option.isSome_iff_exists.mp (h.core.recorded row hrow hstatus).1
      exact hsucceeded output hstatus hresponse
  · rw [if_pos hne]
    refine hput rfl ⟨Option.isSome_iff_exists.mpr ⟨_, hfirst⟩, fun _ hf => ?_, fun _ _ _ => rfl⟩ id
    obtain rfl := Option.some.inj (hfirst.symm.trans hf)
    exact absurd hhash hne

end

omit [DecidableEq ι] in
/-- What an error leaves behind a call of the input that has made the row. -/
theorem fits_error {input : Input} (hfirst : s.first = some input) (hlate : late = false) :
    Fits s late (.returned input .error) := by
  refine ⟨Option.isSome_iff_exists.mpr ⟨input, hfirst⟩, fun hl => ?_, fun first hf hne => ?_⟩
  · rw [hlate] at hl
    exact nomatch hl
  · exact absurd (Option.some.inj (hf.symm.trans hfirst)) hne

theorem Inv.retryFailed (h : Inv requestSha256 A s) {i : ι} {input : Input}
    (hcall : s.calls i = some (.retryFailed input)) {row : InvocationRow Hash Output}
    (hrow : s.row = some row) (hstatus : row.status = .failed) (outcome : Outcome) :
    Inv requestSha256 A (write s i outcome
      ({ · with row := some { row with status := .running, responseJson := none } })
      (.execute input) (.returned input .error)) := by
  obtain ⟨hfirst, hlate⟩ := h.fits i _ hcall
  have hidle := h.no_owner hrow (hstatus ▸ nofun)
  have hnot : ¬s.Recorded := by
    rintro ⟨row', hrow', hs⟩
    obtain rfl := Option.some.inj (hrow.symm.trans hrow')
    exact nomatch hstatus.symm.trans hs
  have hzero : s.successes = 0 := by
    refine (h.pending hnot).resolve_right ?_
    rintro ⟨j, c, hj, hc⟩
    exact hidle j c hj hc.owner
  have hmove (call : Call Input Output) (hinput : call.input = input)
      (hfits : Fits { s with row := some { row with status := .running, responseJson := none } }
        (s.late i) call) :
      Inv requestSha256 A
        ({ s with row := some { row with status := .running, responseJson := none } }.put i call) := by
    refine h.move call hcall hinput (fun j c _ => hidle j c) hnot ?_ hfits ?_ fun _ => .inl hzero
    · rw [hrow]
      rfl
    · intro r hr hs
      obtain rfl := Option.some.inj hr
      exact nomatch hs
  cases outcome with
  | ok => exact hmove _ rfl ⟨hfirst, hlate, _, rfl, rfl⟩
  | lost => exact h.put hcall rfl (fits_error hfirst hlate) False.elim False.elim
  | unknown => exact hmove _ rfl (fits_error hfirst hlate)

theorem Inv.succeed (h : Inv requestSha256 A s) {i : ι} {input : Input} {output : Output}
    (hcall : s.calls i = some (.succeed input output)) {row : InvocationRow Hash Output}
    (hrow : s.row = some row) :
    Inv requestSha256 A
      ({ s with row := some { row with status := .succeeded, responseJson := some output } }.put i
        (.returned input (.executed output))) := by
  obtain ⟨howned, hone⟩ : Owned s (s.late i) input ∧ s.successes = 1 := h.fits i _ hcall
  obtain ⟨hfirst, hlate, -⟩ := id howned
  refine h.move (.returned input (.executed output)) hcall rfl (h.only_owner hcall trivial)
    howned.not_recorded ?_ ?_ ?_ ?_
  · rw [hrow]
    rfl
  · refine ⟨Option.isSome_iff_exists.mpr ⟨input, hfirst⟩, fun hl => ?_, fun first hf hne => ?_⟩
    · rw [hlate] at hl
      exact nomatch hl
    · exact absurd (Option.some.inj (hf.symm.trans hfirst)) hne
  · intro r hr _
    obtain rfl := Option.some.inj hr
    exact ⟨rfl, hone⟩
  · intro hne
    exact absurd rfl (hne _ rfl)

theorem Inv.fail (h : Inv requestSha256 A s) {i : ι} {input : Input}
    (hcall : s.calls i = some (.fail input)) {row : InvocationRow Hash Output}
    (hrow : s.row = some row) (outcome : Outcome) :
    Inv requestSha256 A (write s i outcome
      ({ · with row := some { row with status := .failed } })
      (.returned input .error) (.returned input .error)) := by
  have howned : Owned s (s.late i) input := h.fits i _ hcall
  obtain ⟨hfirst, hlate, -⟩ := id howned
  have hmove : Inv requestSha256 A
      ({ s with row := some { row with status := .failed } }.put i (.returned input .error)) := by
    refine h.move (.returned input .error) hcall rfl (h.only_owner hcall trivial)
      howned.not_recorded ?_ (fits_error hfirst hlate) ?_ fun _ => .inl (h.successes_eq_zero hcall trivial id)
    · rw [hrow]
      rfl
    · intro r hr hs
      obtain rfl := Option.some.inj hr
      exact nomatch hs
  cases outcome with
  | ok => exact hmove
  | lost => exact h.put hcall rfl (fits_error hfirst hlate) False.elim False.elim
  | unknown => exact hmove

/-- The handler returns. -/
theorem Inv.handle (h : Inv requestSha256 A s) {i : ι} {input : Input}
    (hcall : s.calls i = some (.execute input)) (output : Output) :
    Inv requestSha256 A
      ({ s with successes := s.successes + 1 }.put i (.validate input output)) := by
  have howned : Owned s (s.late i) input := h.fits i _ hcall
  have hzero := h.successes_eq_zero hcall trivial id
  refine h.move (.validate input output) hcall rfl (h.only_owner hcall trivial)
    howned.not_recorded rfl ?_ ?_ fun _ => .inr trivial
  · refine ⟨howned, ?_⟩
    rw [hzero]
  · intro r hr hs
    exact absurd ⟨r, hr, hs⟩ howned.not_recorded

theorem Inv.start (h : Inv requestSha256 A s) {i : ι} (hcall : s.calls i = none) {input : Input}
    (hsent : A input) :
    Inv requestSha256 A
      ({ s with late := Function.update s.late i (decide s.Recorded) }.put i (.claim input)) := by
  refine ⟨⟨h.core.sent, h.core.hash, h.core.recorded, fun j hj => ?_⟩, fun j c hj => ?_,
    fun j c hj => ?_, fun j k c c' hj hk hc hc' => ?_, fun hnot => ?_⟩
  · by_cases hji : j = i
    · rw [hji] at hj
      change Function.update s.late i (decide s.Recorded) i = true at hj
      rw [Function.update_self] at hj
      exact of_decide_eq_true hj
    · change Function.update s.late i (decide s.Recorded) j = true at hj
      rw [Function.update_of_ne hji] at hj
      exact h.core.late j hj
  · rw [State.put_calls] at hj
    split at hj
    · obtain rfl := Option.some.inj hj
      exact hsent
    · exact h.sent j c hj
  · rw [State.put_calls] at hj
    split at hj
    · obtain rfl := Option.some.inj hj
      trivial
    next hji =>
      change Fits s (Function.update s.late i (decide s.Recorded) j) c
      rw [Function.update_of_ne hji]
      exact h.fits j c hj
  · have hback (l : ι) (d : Call Input Output)
        (hl : ({ s with late := Function.update s.late i (decide s.Recorded) }.put i
          (.claim input)).calls l = some d) (hd : d.Owner) : s.calls l = some d := by
      rw [State.put_calls] at hl
      split at hl
      · obtain rfl := Option.some.inj hl
        exact hd.elim
      · exact hl
    exact h.unique j k c c' (hback j c hj hc) (hback k c' hk hc') hc hc'
  · refine (h.pending hnot).imp_right fun ⟨j, c, hj, hc⟩ => ⟨j, c, ?_, hc⟩
    have hji : j ≠ i := by
      rintro rfl
      exact nomatch hcall.symm.trans hj
    rw [State.put_calls, if_neg hji]
    exact hj

omit [DecidableEq ι] in
theorem Inv.restart (h : Inv requestSha256 A s)
    (hidle : ∀ i, ∀ call ∈ s.calls i, ¬call.Pending) :
    Inv requestSha256 A
      { s with row := s.row.map markRunningAsFailedOnStartup, calls := fun _ => none } := by
  have hsame (row : InvocationRow Hash Output) (hs : row.status = .succeeded) :
      markRunningAsFailedOnStartup row = row := by
    rw [markRunningAsFailedOnStartup, if_neg (hs ▸ nofun)]
  have hback (row row' : InvocationRow Hash Output) (hrow : markRunningAsFailedOnStartup row = row')
      (hs : row'.status = .succeeded) : row = row' := by
    rw [markRunningAsFailedOnStartup] at hrow
    split at hrow
    · exact nomatch (congrArg InvocationRow.status hrow).trans hs
    · exact hrow
  have hrecorded (hrec : s.Recorded) : State.Recorded
      { s with row := s.row.map markRunningAsFailedOnStartup, calls := fun _ => none } := by
    obtain ⟨row, hrow, hs⟩ := hrec
    exact ⟨row, Option.map_eq_some_iff.mpr ⟨row, hrow, hsame row hs⟩, hs⟩
  refine ⟨⟨h.core.sent, ?_, fun row hr hs => ?_, fun i hi => hrecorded (h.core.late i hi)⟩, nofun,
    nofun, nofun, fun hnot => .inl ?_⟩
  · rw [← h.core.hash, Option.map_map]
    refine Option.map_congr fun row _ => ?_
    rw [Function.comp_apply, markRunningAsFailedOnStartup]
    split <;> rfl
  · obtain ⟨row', hrow', hmark⟩ := Option.map_eq_some_iff.mp hr
    exact h.core.recorded row (hback row' row hmark hs ▸ hrow') hs
  · refine (h.pending fun hrec => hnot (hrecorded hrec)).resolve_right ?_
    rintro ⟨i, c, hi, hc⟩
    exact hidle i c hi hc

section
variable [DecidableEq Hash]

/-- One case for each statement. -/
theorem Inv.statement (h : Inv requestSha256 A s)
    (hinj : ∀ input input', A input → A input' → requestSha256 input = requestSha256 input' →
      input = input') {i : ι} {outcome : Outcome} {call : Call Input Output}
    (hcall : s.calls i = some call) (hkeeps : call.Keeps → outcome = .ok)
    (hnext : statement requestSha256 s i outcome call = some t) : Inv requestSha256 A t := by
  cases call with
  | claim input =>
    obtain rfl := hkeeps trivial
    rw [Operations.statement] at hnext
    split at hnext
    next hrow =>
      obtain rfl := Option.some.inj hnext
      exact h.claim hcall hrow
    next row hrow =>
      obtain rfl := Option.some.inj hnext
      refine h.put hcall rfl ?_ False.elim False.elim
      have hhash := h.core.hash
      rw [hrow, Option.map_some] at hhash
      rw [Fits, ← Option.isSome_map, ← hhash]
      rfl
  | findByKey input =>
    obtain rfl := hkeeps trivial
    obtain ⟨row, hrow, rfl⟩ := Option.map_eq_some_iff.mp hnext
    exact h.findByKey hinj hcall hrow
  | retryFailed input =>
    obtain ⟨row, hrow, rfl⟩ := Option.map_eq_some_iff.mp hnext
    split
    next hstatus => exact h.retryFailed hcall hrow hstatus outcome
    · obtain ⟨hfirst, hlate⟩ := h.fits i _ hcall
      exact h.put hcall rfl (fits_error hfirst hlate) False.elim False.elim
  | succeed input output =>
    obtain rfl := hkeeps trivial
    obtain ⟨row, hrow, rfl⟩ := Option.map_eq_some_iff.mp hnext
    exact h.succeed hcall hrow
  | fail input =>
    obtain ⟨row, hrow, rfl⟩ := Option.map_eq_some_iff.mp hnext
    exact h.fail hcall hrow outcome
  | execute | validate | returned => exact nomatch hnext

/-- One case for each kind of step. -/
theorem Inv.next (h : Inv requestSha256 A s)
    (hinj : ∀ input input', A input → A input' → requestSha256 input = requestSha256 input' →
      input = input') {e : Event ι Input Output} (hsent : ∀ i input, e = .start i input → A input)
    (hpersists : Persists s e) (hnext : next requestSha256 s e = some t) :
    Inv requestSha256 A t := by
  cases e with
  | start i input =>
    obtain ⟨hcall, ht⟩ := Option.ite_none_right_eq_some.mp hnext
    obtain rfl := Option.some.inj ht
    exact h.start (Option.isNone_iff_eq_none.mp hcall) (hsent i input rfl)
  | statement i outcome =>
    obtain ⟨call, hcall, hstatement⟩ := Option.bind_eq_some_iff.mp hnext
    exact h.statement hinj hcall (fun hkeeps => hpersists ⟨call, hcall, hkeeps⟩) hstatement
  | handle i result =>
    unfold Operations.next at hnext
    dsimp only at hnext
    split at hnext
    next input output hcall =>
      obtain rfl := Option.some.inj hnext
      exact h.handle hcall output
    next input hcall =>
      obtain rfl := Option.some.inj hnext
      have howned : Owned s (s.late i) input := h.fits i _ hcall
      exact h.put hcall rfl howned (fun _ => trivial) False.elim
    · exact nomatch hnext
  | validate i valid =>
    obtain rfl : valid = true := hpersists
    rw [Operations.next] at hnext
    split at hnext
    next input output hcall =>
      obtain rfl := Option.some.inj hnext
      have hpending : Owned s (s.late i) input ∧ s.successes = 1 := h.fits i _ hcall
      rw [if_pos rfl]
      exact h.put hcall rfl hpending (fun _ => trivial) fun _ => trivial
    · exact nomatch hnext
  | restart =>
    obtain rfl := Option.some.inj hnext
    exact h.restart hpersists

/-- The invariant holds of every run that keeps its results and in which no two inputs share a hash. -/
theorem inv_of_run {es : List (Event ι Input Output)}
    (hinj : ∀ i j input input', .start i input ∈ es → .start j input' ∈ es →
      requestSha256 input = requestSha256 input' → input = input')
    (h : Run (Guarded (Fires (next requestSha256)) Persists)
      ({} : State ι Input Hash Output) es s) :
    Inv requestSha256 (fun input => ∃ i, Event.start i input ∈ es) s := by
  refine h.restrict.invariant (fun s e t hstep hs => ?_) inv_init
  obtain ⟨⟨hnext, hpersists⟩, hmem⟩ := hstep
  refine hs.next ?_ ?_ hpersists hnext
  · rintro input input' ⟨i, hi⟩ ⟨j, hj⟩
    exact hinj i j input input' hi hj
  · rintro i input rfl
    exact ⟨i, hmem⟩

omit [DecidableEq ι] [DecidableEq Hash] in
theorem Inv.exactlyOnce (h : Inv requestSha256 A s) : ExactlyOnce s where
  once := by
    by_cases hrecorded : s.Recorded
    · obtain ⟨row, hrow, hs⟩ := hrecorded
      exact Nat.le_of_eq (h.core.recorded row hrow hs).2
    · obtain hzero | ⟨i, c, hi, hc⟩ := h.pending hrecorded
      · exact hzero ▸ Nat.zero_le 1
      · have hfits := h.fits i c hi
        cases c with
        | validate | succeed => exact Nat.le_of_eq hfits.2
        | claim | findByKey | retryFailed | execute | fail | returned => exact hc.elim
  replayed i input result hi hlate hfirst := (h.fits i _ hi).2.1 hlate hfirst
  conflict i input result first hi hfirst hne := (h.fits i _ hi).2.2 first hfirst hne

/-- Operations have their effect exactly once in a run whose results are kept. -/
theorem exactlyOnce_of_persists {es : List (Event ι Input Output)}
    (hinj : ∀ i j input input', .start i input ∈ es → .start j input' ∈ es →
      requestSha256 input = requestSha256 input' → input = input')
    (h : Run (Guarded (Fires (next requestSha256)) Persists)
      ({} : State ι Input Hash Output) es s) : ExactlyOnce s :=
  (inv_of_run hinj h).exactlyOnce

end

end

/-! ## Runs of `remove_unused_docker_network` -/

section

/-- The canonical JSON of a request. -/
def removalA : String :=
  "\x7b\"allow_legacy_unlabeled\":false,\"network_id\":\"a\",\"network_name\":\"shop\"\x7d"

def removalB : String :=
  "\x7b\"allow_legacy_unlabeled\":false,\"network_id\":\"b\",\"network_name\":\"shop\"\x7d"

/-- SHA-256 of both requests. -/
def removalSha256 (json : String) : String :=
  if json = removalA then "932b5328a2f0842960976c9c86b735b554ff19f244b5da10a987df030a9b9fdf"
  else if json = removalB then "b65673ae5e86873d88bf18dd78840f82ad8f01d0eaefae321a69a0da65be3b0e"
  else json

abbrev RemovalEvent := Event (Fin 3) String String

instance (s : State (Fin 3) String String String) : DecidablePred (Persists s)
  | .statement i outcome =>
    inferInstanceAs (Decidable ((∃ call ∈ s.calls i, call.Keeps) → outcome = .ok))
  | .validate _ valid => inferInstanceAs (Decidable (valid = true))
  | .restart => inferInstanceAs (Decidable (∀ i, ∀ call ∈ s.calls i, ¬call.Pending))
  | .start .. | .handle .. => .isTrue trivial

/-- A call removes the network, and then fails on the way to record it: the next one finds a failed
row and removes again. -/
def removedTwice : List RemovalEvent :=
  [.start 0 removalA, .statement 0 .ok, .handle 0 (some "removed"), .validate 0 true,
    .statement 0 .lost, .statement 0 .ok,
    .start 1 removalA, .statement 1 .ok, .statement 1 .ok, .statement 1 .ok,
    .handle 1 (some "removed")]

theorem not_exactlyOnce : ¬∀ (es : List RemovalEvent) (s : State (Fin 3) String String String),
    Run (Fires (next removalSha256)) {} es s → ExactlyOnce s := by
  intro h
  have hisSome : (exec (next removalSha256) {} removedTwice).isSome := by decide
  have htwice : ∀ s ∈ exec (next removalSha256) {} removedTwice, s.successes = 2 := by
    decide
  obtain ⟨s, hs⟩ := Option.isSome_iff_exists.mp hisSome
  have honce := (h removedTwice s (.of_exec hs)).once
  rw [htwice s hs] at honce
  exact absurd honce (by decide)

/-- A call removes the network, another one repeats the request, and a third one sends another
request under the same key. -/
def removedOnce : List RemovalEvent :=
  [.start 0 removalA, .statement 0 .ok, .handle 0 (some "removed"), .validate 0 true,
    .statement 0 .ok,
    .start 1 removalA, .statement 1 .ok, .statement 1 .ok,
    .start 2 removalB, .statement 2 .ok, .statement 2 .ok]

def removedOnceEnd : State (Fin 3) String String String :=
  (exec (guardedNext (next removalSha256) Persists) {} removedOnce).get (by decide)

theorem exactlyOnce_removedOnce :
    removedOnceEnd.calls 1 = some (.returned removalA (.replayed "removed")) ∧
      removedOnceEnd.calls 2 = some (.returned removalB .conflict) ∧ ExactlyOnce removedOnceEnd := by
  refine ⟨by decide, by decide, exactlyOnce_of_persists ?_
    (.of_exec_guardedNext (Option.some_get _).symm)⟩
  intro i j input input' hi hj
  have hsent (k : Fin 3) (text : String) (h : Event.start k text ∈ removedOnce) :
      text = removalA ∨ text = removalB := by
    simp only [removedOnce, List.mem_cons, Event.start.injEq, reduceCtorEq, List.not_mem_nil,
      or_false, false_or] at h
    obtain ⟨-, h⟩ | ⟨-, h⟩ | ⟨-, h⟩ := h
    · exact .inl h
    · exact .inl h
    · exact .inr h
  obtain rfl | rfl := hsent i input hi <;> obtain rfl | rfl := hsent j input' hj <;> decide

end

end OpenLander.Operations
