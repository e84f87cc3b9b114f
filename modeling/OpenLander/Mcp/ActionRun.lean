import Mathlib.Logic.Function.Basic
import OpenLander.Theory.Run

/-! # Approved actions

The row of one held action in `action_runs` (`src/db/repos/action-run.repo.ts`), with everything that
is on its way to it: the requests that approve or reject it (`src/web/api/routes.ts`), the listeners
of their events (`src/mcp/destructive-executor.ts`), the calls that resume it
(`src/mcp/app-cleanup.ts`) and the sweep at a start of the server. A statement is one step. Events
may be late, lost or repeated, so that a listener may start at any time. -/

namespace OpenLander.Mcp.ActionRun
open Theory

inductive Status
  | running
  | succeeded
  | failed
  | pendingApproval
  deriving DecidableEq, Repr

inductive ApprovalStatus
  | pending
  | approved
  | rejected
  deriving DecidableEq, Repr

structure ActionRunRow where
  status : Status
  approvalStatus : ApprovalStatus
  approvalTool : Option String
  deriving DecidableEq, Repr

def destructiveMcp : String := "destructive_mcp"

/-! ## Statements -/

def createPendingMcpApproval : ActionRunRow where
  status := .pendingApproval
  approvalStatus := .pending
  approvalTool := some destructiveMcp

/-- The claim, where it finds the row that it asks for. -/
def claimMcpExecution (permissionGranted : Bool) (row : ActionRunRow) : Option ActionRunRow :=
  if row.approvalTool = some destructiveMcp ∧ row.status = .pendingApproval ∧
      (row.approvalStatus = .approved ∨ permissionGranted ∧ row.approvalStatus = .pending) then
    some { row with status := .running, approvalStatus := .approved }
  else none

def updateStatus (status : Status) (row : ActionRunRow) : ActionRunRow := { row with status }

/-- The approval of a held action only changes while it is pending. -/
def updateApproval (approvalStatus : ApprovalStatus) (approvalTool : Option String)
    (row : ActionRunRow) : ActionRunRow :=
  if approvalTool = some destructiveMcp →
      row.status = .pendingApproval ∧ row.approvalStatus = .pending then
    { row with approvalStatus, approvalTool }
  else row

/-- `findPendingApproval` -/
def isPendingApproval (row : ActionRunRow) : Bool := row.approvalStatus = .pending

/-- The statements of `markStaleAsFailedOnStartup`. -/
def failApproved (row : ActionRunRow) : ActionRunRow :=
  if row.status = .pendingApproval ∧ row.approvalStatus = .approved ∧
      row.approvalTool = some destructiveMcp then
    { row with status := .failed }
  else row

def failStale (row : ActionRunRow) : ActionRunRow :=
  if row.status = .running ∨ row.status = .pendingApproval then { row with status := .failed }
  else row

def rejectPending (row : ActionRunRow) : ActionRunRow :=
  if row.approvalStatus = .pending then { row with approvalStatus := .rejected } else row

/-! ## Calls -/

inductive Op
  /-- A request to approve or reject. -/
  | resolve (approved : Bool)
  /-- `handleDestructiveMcpApproval` -/
  | listen (approved : Bool)
  /-- `startAllowedMcpAction` -/
  | startAllowed
  /-- One id of `resumeMcpActions`, with what its other checks find. -/
  | resume (allowed : Bool)
  | markStaleAsFailedOnStartup
  deriving DecidableEq, Repr

/-- What a call does next, with what it knows. -/
inductive Call
  | find (approved : Bool)
  | update (approved : Bool) (approvalTool : Option String)
  | listen (approved : Bool)
  | failRejected
  | claim (permissionGranted : Bool)
  /-- `executeClaimedMcpAction`, which begins with a look at the row. -/
  | execute
  | executing
  | resume (allowed : Bool)
  | failApproved
  | failStale
  | rejectPending
  | returned
  deriving DecidableEq, Repr

def Op.first : Op → Call
  | .resolve approved => .find approved
  | .listen approved => .listen approved
  | .startAllowed => .claim true
  | .resume allowed => .resume allowed
  | .markStaleAsFailedOnStartup => .failApproved

structure State (ι : Type u) where
  row : ActionRunRow
  calls : ι → Option Call := fun _ => none
  /-- How often the executor has been started. -/
  started : Nat := 0

/-- Nothing has happened since the action was held. -/
def held (ι : Type u) : State ι := { row := createPendingMcpApproval }

inductive Event (ι : Type u)
  | start (i : ι) (op : Op)
  | step (i : ι)
  /-- The executor writes a status, as it does at any time. -/
  | write (i : ι) (status : Status)
  /-- The server stops, and with it all calls. -/
  | restart
  deriving DecidableEq, Repr

section
variable {ι : Type u} [DecidableEq ι]

def State.put (s : State ι) (i : ι) (call : Call) : State ι :=
  { s with calls := Function.update s.calls i (some call) }

@[simp] theorem State.put_calls (s : State ι) (i j : ι) (call : Call) :
    (s.put i call).calls j = if j = i then some call else s.calls j := by
  simp [put, Function.update_apply]

/-- The listener, once it has loaded the row. -/
def afterListen (approved : Bool) (row : ActionRunRow) : Call :=
  if row.approvalTool ≠ some destructiveMcp then .returned
  else if approved then .claim false
  else if row.status = .pendingApproval ∧ row.approvalStatus = .rejected then .failRejected
  else .returned

/-- `resumeMcpActions`, once it has loaded the row. -/
def afterResume (allowed : Bool) (row : ActionRunRow) : Call :=
  if row.approvalTool = some destructiveMcp ∧ row.status = .pendingApproval ∧
      row.approvalStatus ≠ .rejected ∧ allowed then .claim true
  else .returned

/-- The next step of a call. -/
def advance (s : State ι) (i : ι) : Call → Option (State ι)
  | .find approved => some (s.put i
    (if isPendingApproval s.row then .update approved s.row.approvalTool else .returned))
  | .update approved approvalTool =>
    let approvalStatus := if approved then ApprovalStatus.approved else .rejected
    some ({ s with row := updateApproval approvalStatus approvalTool s.row }.put i .returned)
  | .listen approved => some (s.put i (afterListen approved s.row))
  | .failRejected => some ({ s with row := updateStatus .failed s.row }.put i .returned)
  | .claim permissionGranted =>
    match claimMcpExecution permissionGranted s.row with
    | some row => some ({ s with row }.put i .execute)
    | none => some (s.put i .returned)
  | .execute =>
    if s.row.status = .running then
      some ({ s with started := s.started + 1 }.put i .executing)
    else some (s.put i .returned)
  | .executing => some (s.put i .returned)
  | .resume allowed => some (s.put i (afterResume allowed s.row))
  | .failApproved => some ({ s with row := failApproved s.row }.put i .failStale)
  | .failStale => some ({ s with row := failStale s.row }.put i .rejectPending)
  | .rejectPending => some ({ s with row := rejectPending s.row }.put i .returned)
  | .returned => none

def next (s : State ι) : Event ι → Option (State ι)
  | .start i op => if s.calls i = none then some (s.put i op.first) else none
  | .step i => (s.calls i).bind (advance s i)
  | .write i status =>
    if s.calls i = some .executing ∧ status ≠ .pendingApproval then
      some { s with row := updateStatus status s.row }
    else none
  | .restart => some { s with calls := fun _ => none }

end

/-! ## What the statements keep -/

/-- The action has been claimed. -/
def Claimed (row : ActionRunRow) : Prop :=
  row.status ≠ .pendingApproval ∧ row.approvalStatus = .approved

section
variable {row row' : ActionRunRow}

theorem claimMcpExecution_eq_some (h : claimMcpExecution permissionGranted row = some row') :
    row.status = .pendingApproval ∧ row.approvalStatus ≠ .rejected ∧ Claimed row' ∧
      row'.approvalTool = row.approvalTool := by
  obtain ⟨⟨-, hstatus, happroval⟩, heq⟩ := Option.ite_none_right_eq_some.mp h
  obtain rfl := Option.some.inj heq
  refine ⟨hstatus, ?_, ⟨nofun, rfl⟩, rfl⟩
  rcases happroval with happroved | ⟨-, hpending⟩
  · rw [happroved]
    exact nofun
  · rw [hpending]
    exact nofun

theorem updateApproval_destructive : updateApproval approvalStatus (some destructiveMcp) row = row ∨
    row.status = .pendingApproval ∧ row.approvalStatus = .pending := by
  rw [updateApproval]
  split
  next h => exact .inr (h rfl)
  · exact .inl rfl

theorem Claimed.updateApproval (h : Claimed row) :
    ActionRun.updateApproval approvalStatus (some destructiveMcp) row = row :=
  updateApproval_destructive.resolve_right fun ⟨hstatus, _⟩ => h.1 hstatus

theorem Claimed.updateStatus (h : Claimed row) (hne : status ≠ .pendingApproval) :
    Claimed (updateStatus status row) := ⟨hne, h.2⟩

theorem Claimed.failApproved (h : Claimed row) : Claimed (failApproved row) := by
  rw [ActionRun.failApproved]
  split
  · exact ⟨nofun, h.2⟩
  · exact h

theorem Claimed.failStale (h : Claimed row) : Claimed (failStale row) := by
  rw [ActionRun.failStale]
  split
  · exact ⟨nofun, h.2⟩
  · exact h

theorem Claimed.rejectPending (h : Claimed row) : rejectPending row = row := by
  have hne : row.approvalStatus ≠ .pending := by
    rw [h.2]
    exact nofun
  exact if_neg hne

/-- The tool of the row never changes. -/
theorem updateApproval_approvalTool (h : row.approvalTool = some destructiveMcp) :
    (updateApproval approvalStatus (some destructiveMcp) row).approvalTool =
      some destructiveMcp := by
  rw [updateApproval]
  split
  · rfl
  · exact h

end

/-! ## The invariant -/

section
variable {ι : Type u} [DecidableEq ι]

/-- At most one call has claimed the action or has been started, and only while the row says so. -/
structure Inv (s : State ι) : Prop where
  tool : s.row.approvalTool = some destructiveMcp
  updateTool : ∀ i approved approvalTool, s.calls i = some (.update approved approvalTool) →
    approvalTool = some destructiveMcp
  unique : ∀ i j, s.calls i = some .execute → s.calls j = some .execute → i = j
  started_le : s.started ≤ 1
  not_started : ∀ i, s.calls i = some .execute → s.started = 0
  claimed : (∃ i, s.calls i = some .execute) ∨ 0 < s.started → Claimed s.row

omit [DecidableEq ι] in
theorem inv_held : Inv (held ι) where
  tool := rfl
  updateTool _ _ _ h := nomatch h
  unique _ _ h := nomatch h
  started_le := Nat.zero_le _
  not_started _ h := nomatch h
  claimed h := h.elim (fun ⟨_, h⟩ => nomatch h) nofun

variable {s t : State ι} {i : ι}

/-- The call goes on to one that has not claimed the action. -/
theorem Inv.put (h : Inv s) {call : Call} (hexecute : call ≠ .execute)
    (hupdate : ∀ approved approvalTool, call = .update approved approvalTool →
      approvalTool = some destructiveMcp) : Inv (s.put i call) := by
  have hold (j : ι) (hj : (s.put i call).calls j = some .execute) :
      s.calls j = some .execute := by
    rw [State.put_calls] at hj
    split at hj
    · exact absurd (Option.some.inj hj) hexecute
    · exact hj
  refine ⟨h.tool, fun j approved approvalTool hj => ?_, fun j k hj hk => ?_, h.started_le,
    fun j hj => h.not_started j (hold j hj), fun hc => h.claimed ?_⟩
  · rw [State.put_calls] at hj
    split at hj
    · exact hupdate approved approvalTool (Option.some.inj hj)
    · exact h.updateTool j approved approvalTool hj
  · exact h.unique j k (hold j hj) (hold k hk)
  · exact hc.imp_left fun ⟨j, hj⟩ => ⟨j, hold j hj⟩

omit [DecidableEq ι] in
/-- A statement that keeps a claimed row claimed. -/
theorem Inv.setRow (h : Inv s) {row : ActionRunRow} (htool : row.approvalTool = some destructiveMcp)
    (hclaimed : Claimed s.row → Claimed row) : Inv { s with row } :=
  ⟨htool, h.updateTool, h.unique, h.started_le, h.not_started, fun hc => hclaimed (h.claimed hc)⟩

theorem Inv.claim (h : Inv s) {row : ActionRunRow}
    (hclaim : claimMcpExecution permissionGranted s.row = some row) :
    Inv ({ s with row }.put i .execute) := by
  obtain ⟨hstatus, -, hclaimed, htool⟩ := claimMcpExecution_eq_some hclaim
  have hnone : ¬((∃ j, s.calls j = some .execute) ∨ 0 < s.started) :=
    fun hc => (h.claimed hc).1 hstatus
  have honly (j : ι) (hj : ({ s with row }.put i .execute).calls j = some .execute) : j = i := by
    rw [State.put_calls] at hj
    split at hj
    next hji => exact hji
    · exact absurd (.inl ⟨j, hj⟩) hnone
  have hzero : s.started = 0 := Nat.eq_zero_of_not_pos fun hpos => hnone (.inr hpos)
  refine ⟨htool.trans h.tool, fun j approved approvalTool hj => ?_, fun j k hj hk => ?_, h.started_le,
    fun _ _ => hzero, fun _ => hclaimed⟩
  · rw [State.put_calls] at hj
    split at hj
    · exact nomatch hj
    · exact h.updateTool j approved approvalTool hj
  · rw [honly j hj, honly k hk]

theorem Inv.execute (h : Inv s) (hcall : s.calls i = some .execute) :
    Inv ({ s with started := s.started + 1 }.put i .executing) := by
  have hzero := h.not_started i hcall
  have hnone (j : ι) : ({ s with started := s.started + 1 }.put i .executing).calls j ≠
      some .execute := by
    rw [State.put_calls]
    split
    · exact nofun
    next hji => exact fun hj => hji (h.unique j i hj hcall)
  refine ⟨h.tool, fun j approved approvalTool hj => ?_, fun j _ hj => absurd hj (hnone j), ?_,
    fun j hj => absurd hj (hnone j), fun _ => h.claimed (.inl ⟨i, hcall⟩)⟩
  · rw [State.put_calls] at hj
    split at hj
    · exact nomatch hj
    · exact h.updateTool j approved approvalTool hj
  · exact Nat.le_of_eq (congrArg (· + 1) hzero)

theorem Inv.advance (h : Inv s) (hcall : s.calls i = some call)
    (hadvance : advance s i call = some t) : Inv t := by
  cases call with
  | find approved =>
    obtain rfl := Option.some.inj hadvance
    refine h.put ?_ fun approved' approvalTool heq => ?_
    · split <;> exact nofun
    · split at heq
      · obtain ⟨-, rfl⟩ := Call.update.inj heq
        exact h.tool
      · exact nomatch heq
  | update approved approvalTool =>
    obtain rfl := Option.some.inj hadvance
    obtain rfl := h.updateTool i approved approvalTool hcall
    refine (h.setRow (updateApproval_approvalTool h.tool) fun hclaimed => ?_).put nofun nofun
    rw [hclaimed.updateApproval]
    exact hclaimed
  | listen approved =>
    obtain rfl := Option.some.inj hadvance
    have hnot (call : Call) (hne : call ≠ .returned) (hclaim : call ≠ .claim false)
        (hfail : call ≠ .failRejected) : afterListen approved s.row ≠ call := by
      unfold afterListen
      split
      · exact hne.symm
      · split
        · exact hclaim.symm
        · split
          · exact hfail.symm
          · exact hne.symm
    exact h.put (hnot _ nofun nofun nofun) fun _ _ heq => absurd heq (hnot _ nofun nofun nofun)
  | failRejected =>
    obtain rfl := Option.some.inj hadvance
    have hfailed : Inv { s with row := updateStatus .failed s.row } :=
      h.setRow h.tool fun hclaimed => hclaimed.updateStatus nofun
    exact hfailed.put nofun nofun
  | claim permissionGranted =>
    simp only [ActionRun.advance] at hadvance
    split at hadvance
    next row hclaim =>
      obtain rfl := Option.some.inj hadvance
      exact h.claim hclaim
    · obtain rfl := Option.some.inj hadvance
      exact h.put nofun nofun
  | execute =>
    simp only [ActionRun.advance] at hadvance
    split at hadvance
    · obtain rfl := Option.some.inj hadvance
      exact h.execute hcall
    · obtain rfl := Option.some.inj hadvance
      exact h.put nofun nofun
  | executing =>
    obtain rfl := Option.some.inj hadvance
    exact h.put nofun nofun
  | resume allowed =>
    obtain rfl := Option.some.inj hadvance
    have hnot (call : Call) (hne : call ≠ .returned) (hclaim : call ≠ .claim true) :
        afterResume allowed s.row ≠ call := by
      unfold afterResume
      split
      · exact hclaim.symm
      · exact hne.symm
    exact h.put (hnot _ nofun nofun) fun _ _ heq => absurd heq (hnot _ nofun nofun)
  | failApproved =>
    obtain rfl := Option.some.inj hadvance
    refine (h.setRow ?_ Claimed.failApproved).put nofun nofun
    rw [ActionRun.failApproved]
    split <;> exact h.tool
  | failStale =>
    obtain rfl := Option.some.inj hadvance
    refine (h.setRow ?_ Claimed.failStale).put nofun nofun
    rw [ActionRun.failStale]
    split <;> exact h.tool
  | rejectPending =>
    obtain rfl := Option.some.inj hadvance
    refine (h.setRow ?_ fun hclaimed => ?_).put nofun nofun
    · rw [ActionRun.rejectPending]
      split <;> exact h.tool
    · rw [hclaimed.rejectPending]
      exact hclaimed
  | returned => exact nomatch hadvance

/-- What a step does, by its event. -/
theorem next_cases {e : Event ι} (h : Fires next s e t) :
    (∃ i op, e = .start i op ∧ t = s.put i op.first) ∨
    (∃ i call, e = .step i ∧ s.calls i = some call ∧ advance s i call = some t) ∨
    (∃ i status, e = .write i status ∧ status ≠ .pendingApproval ∧
      t = { s with row := updateStatus status s.row }) ∨
    e = .restart ∧ t = { s with calls := fun _ => none } := by
  cases e with
  | start i op =>
    obtain ⟨-, heq⟩ := Option.ite_none_right_eq_some.mp
      (show (if s.calls i = none then _ else none) = some t from h)
    exact .inl ⟨i, op, rfl, (Option.some.inj heq).symm⟩
  | step i =>
    obtain ⟨call, hcall, hadvance⟩ := Option.bind_eq_some_iff.mp
      (show (s.calls i).bind _ = some t from h)
    exact .inr (.inl ⟨i, call, rfl, hcall, hadvance⟩)
  | write i status =>
    obtain ⟨⟨-, hne⟩, heq⟩ := Option.ite_none_right_eq_some.mp
      (show (if s.calls i = some .executing ∧ status ≠ .pendingApproval then _ else none) = some t
        from h)
    exact .inr (.inr (.inl ⟨i, status, rfl, hne, (Option.some.inj heq).symm⟩))
  | restart => exact .inr (.inr (.inr ⟨rfl, (Option.some.inj h).symm⟩))

theorem preserves_inv : Preserves (Fires next) (Inv (ι := ι)) := by
  intro s e t hstep h
  obtain ⟨i, op, -, rfl⟩ | ⟨i, call, -, hcall, hadvance⟩ | ⟨i, status, -, hne, rfl⟩ | ⟨-, rfl⟩ :=
    next_cases hstep
  · refine h.put ?_ fun _ _ heq => ?_
    · cases op <;> exact nofun
    · cases op <;> exact nomatch heq
  · exact h.advance hcall hadvance
  · exact h.setRow h.tool fun hclaimed => hclaimed.updateStatus hne
  · exact ⟨h.tool, fun _ _ _ hc => (nomatch hc), fun _ _ hc => (nomatch hc), h.started_le,
      fun _ hc => (nomatch hc), fun hc => h.claimed (.inr (hc.resolve_left fun ⟨_, hi⟩ => nomatch hi))⟩

/-! ## Rejection -/

/-- A rejection has been recorded. -/
def Rejected (s : State ι) : Prop := s.row.approvalStatus = .rejected

theorem Rejected.advance (h : Rejected s) (hI : Inv s) (hcall : s.calls i = some call)
    (hadvance : advance s i call = some t) : Rejected t := by
  cases call with
  | find | listen | executing | resume =>
    obtain rfl := Option.some.inj hadvance
    exact h
  | update approved approvalTool =>
    obtain rfl := Option.some.inj hadvance
    obtain rfl := hI.updateTool i approved approvalTool hcall
    have hrow (approvalStatus : ApprovalStatus) :
        updateApproval approvalStatus (some destructiveMcp) s.row = s.row :=
      updateApproval_destructive.resolve_right fun ⟨_, hpending⟩ =>
        nomatch h.symm.trans hpending
    exact (congrArg ActionRunRow.approvalStatus (hrow _)).trans h
  | failRejected =>
    obtain rfl := Option.some.inj hadvance
    exact h
  | claim permissionGranted =>
    simp only [ActionRun.advance] at hadvance
    split at hadvance
    next row hclaim => exact absurd h (claimMcpExecution_eq_some hclaim).2.1
    · obtain rfl := Option.some.inj hadvance
      exact h
  | execute =>
    simp only [ActionRun.advance] at hadvance
    split at hadvance
    · obtain rfl := Option.some.inj hadvance
      exact h
    · obtain rfl := Option.some.inj hadvance
      exact h
  | failApproved =>
    obtain rfl := Option.some.inj hadvance
    show (ActionRun.failApproved s.row).approvalStatus = .rejected
    rw [ActionRun.failApproved]
    split <;> exact h
  | failStale =>
    obtain rfl := Option.some.inj hadvance
    show (ActionRun.failStale s.row).approvalStatus = .rejected
    rw [ActionRun.failStale]
    split <;> exact h
  | rejectPending =>
    obtain rfl := Option.some.inj hadvance
    show (ActionRun.rejectPending s.row).approvalStatus = .rejected
    rw [ActionRun.rejectPending]
    split
    · rfl
    · exact h
  | returned => exact nomatch hadvance

theorem preserves_rejected : Preserves (Fires next) fun s : State ι => Inv s ∧ Rejected s := by
  refine preserves_inv.and fun s e t hstep hI h => ?_
  obtain ⟨i, op, -, rfl⟩ | ⟨i, call, -, hcall, hadvance⟩ | ⟨i, status, -, -, rfl⟩ | ⟨-, rfl⟩ :=
    next_cases hstep
  · exact h
  · exact h.advance hI hcall hadvance
  · exact h
  · exact h

/-- The executor is started at most once, and not at all in a run with a rejection. -/
theorem executor_started (h : Run (Fires next) (held ι) es s) :
    s.started ≤ 1 ∧ (Rejected s → ∀ es' t, Run (Fires next) s es' t → t.started = 0) := by
  have hI := h.invariant preserves_inv inv_held
  refine ⟨hI.started_le, fun hrejected es' t h' => ?_⟩
  obtain ⟨hIt, ht⟩ := h'.invariant preserves_rejected ⟨hI, hrejected⟩
  refine Nat.eq_zero_of_not_pos fun hpos => ?_
  exact nomatch ht.symm.trans (hIt.claimed (.inr hpos)).2

/-- An approval and a rejection at once, each of which has found the action pending; the approval
comes first. -/
def bothResolve : List (Event Nat) :=
  [.start 0 (.resolve true), .step 0, .start 1 (.resolve false), .step 1, .step 0, .step 1,
    .start 2 (.listen false), .start 3 (.listen true), .step 2, .step 3, .start 4 (.resume true),
    .step 4, .step 3, .step 4, .step 3, .write 3 .succeeded]

def afterBothResolve : State Nat :=
  (exec next (held Nat) bothResolve).get (by decide)

theorem executor_started_bothResolve : afterBothResolve.started = 1 ∧
    afterBothResolve.started ≤ 1 :=
  ⟨by decide, (executor_started (.of_exec (Option.some_get _).symm)).1⟩

end

end OpenLander.Mcp.ActionRun
