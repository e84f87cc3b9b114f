import OpenLander.Update.Runner

/-! # Rolling a platform update back

Once the files of the installation are restored and the version that they belong to runs again, the
runner waits for it as it waited for the new one: for an answer to `/health` with its version, and for
a startup validation of its version. The startup validation is only recorded for the version that
`status.json` names as the target, so that the version the update came from cannot report, and the
rollback fails once it has succeeded (`phase_eq_rolledBack_iff`).

`Follows` is what holds of the files and of the variables of the runner until then. -/

namespace OpenLander.Update
open Theory

variable {calls : RunnerCalls} {operationId : String} {input : PlatformUpdateRunnerInput}

/-! ## Transitions -/

/-- The operation that a transition writes. -/
def transitioned (calls : RunnerCalls) (operationId : String) (phase : PlatformUpdatePhase)
    (message errorCode : Option String) (s : Disk × RunnerVars) : PlatformUpdateOperation :=
  { s.2.latest operationId s.1.operation with
    phase := phase
    updatedAt := calls.now phase
    message := message
    errorCode := errorCode }

theorem run_transition_unread (h : calls.readStatus phase = some e) :
    (transition calls operationId phase message errorCode).run s = (.error e, s) := by
  rw [transition, h]
  rfl

theorem run_transition_unwritten (h : calls.readStatus phase = none)
    (h' : calls.writeStatus phase = some e) :
    (transition calls operationId phase message errorCode).run s =
      (.error e, s.1, { s.2 with
        operation := transitioned calls operationId phase message errorCode s }) := by
  rw [transition, h, h']
  rfl

theorem run_transition (h : calls.readStatus phase = none) (h' : calls.writeStatus phase = none) :
    (transition calls operationId phase message errorCode).run s =
      (.ok (), s.1.writeOperation
          ⟨.runner, transitioned calls operationId phase message errorCode s⟩,
        { s.2 with operation := transitioned calls operationId phase message errorCode s }) := by
  rw [transition, h, h']
  rfl

/-- `status.json` and the runner are about the operation, and only its target has reported. -/
structure Tracks (operationId targetVersion : String) (s : Disk × RunnerVars) : Prop where
  operation : ∃ operation, s.1.operation = some operation ∧ operation.id = operationId ∧
    operation.targetVersion = targetVersion
  copy : s.2.operation.id = operationId ∧ s.2.operation.targetVersion = targetVersion
  reported : ∀ validation, s.1.startupValidation operationId = some validation →
    validation.version = targetVersion

theorem Tracks.latest (h : Tracks operationId targetVersion s) :
    (s.2.latest operationId s.1.operation).id = operationId ∧
      (s.2.latest operationId s.1.operation).targetVersion = targetVersion := by
  obtain ⟨operation, hop, hid, htarget⟩ := h.operation
  simp only [hop, RunnerVars.latest, hid, if_true]
  exact ⟨trivial, htarget⟩

/-- A transition ends as its two calls do, with its phase in the file if it returns. -/
theorem ends_transition (h : Tracks operationId targetVersion s) :
    (transition calls operationId phase message errorCode).Ends s fun r s' =>
      Tracks operationId targetVersion s' ∧
      (s'.2 = { s.2 with operation := s'.2.operation } ∧
        s'.1.startupValidation = s.1.startupValidation) ∧
      match r with
      | .ok _ => (calls.readStatus phase = none ∧ calls.writeStatus phase = none) ∧
          s'.1.operation.map (·.phase) = some phase
      | .error _ => ¬(calls.readStatus phase = none ∧ calls.writeStatus phase = none) ∧
          s'.1 = s.1 := by
  cases hread : calls.readStatus phase with
  | some e =>
    refine .of_run (run_transition_unread hread) ⟨h, ⟨rfl, rfl⟩, ?_, rfl⟩
    exact fun hnone => nomatch hnone.1
  | none =>
    cases hwrite : calls.writeStatus phase with
    | some e =>
      refine .of_run (run_transition_unwritten hread hwrite) ⟨?_, ⟨rfl, rfl⟩, ?_, rfl⟩
      · exact ⟨h.operation, h.latest, h.reported⟩
      · exact fun hnone => nomatch hnone.2
    | none =>
      refine .of_run (run_transition hread hwrite) ⟨?_, ⟨rfl, rfl⟩, ⟨rfl, rfl⟩, ?_⟩
      · refine ⟨⟨_, operation_writeOperation _, h.latest⟩, h.latest, h.reported⟩
      · rw [operation_writeOperation]
        rfl

/-! ## Up to the failure -/

/-- How far the runner has come, by its variables. -/
def RunnerVars.progress (vars : RunnerVars) : Bool × Bool × Bool :=
  (vars.composeEnvironment, vars.backupComplete, vars.filesChanged)

/-- The runner goes on with the operation, and has come so far. -/
structure Follows (operationId targetVersion : String) (far : Bool × Bool × Bool)
    (s : Disk × RunnerVars) : Prop extends Tracks operationId targetVersion s where
  unfinished : s.1.operation.map (·.phase) ≠ some .rolledBack
  progress : s.2.progress = far

theorem Follows.transition (h : Follows operationId targetVersion far s)
    (hphase : phase ≠ .rolledBack) :
    (transition calls operationId phase message errorCode).Ends s fun _ s' =>
      Follows operationId targetVersion far s' := by
  refine (ends_transition h.toTracks).mono fun r s' ⟨htracks, ⟨hvars, _⟩, hr⟩ => ⟨htracks, ?_, ?_⟩
  · cases r with
    | ok _ =>
      rw [hr.2]
      exact fun heq => hphase (Option.some.inj heq)
    | error e =>
      rw [hr.2]
      exact h.unfinished
  · rw [hvars]
    exact h.progress

theorem Follows.assign (h : Follows operationId targetVersion far s) {f : RunnerVars → RunnerVars}
    (hf : (f s.2).operation = s.2.operation) (hfar : s.2.progress = far → (f s.2).progress = far') :
    Follows operationId targetVersion far' (s.1, f s.2) where
  operation := h.operation
  copy := by
    rw [hf]
    exact h.copy
  reported := h.reported
  unfinished := h.unfinished
  progress := hfar h.progress

theorem ends_call {P : Disk × RunnerVars → Prop} (h : P s) (failure : Option Failure) :
    (liftM (call failure) : RunnerAsync Unit).Ends s fun _ s' => P s' := by
  cases failure with
  | none => exact h
  | some e => exact h

/-- What holds throughout holds where a program goes on. -/
theorem ends_bind_ok {P Q : Disk × RunnerVars → Prop} {p : RunnerAsync α}
    {k : α → RunnerAsync Unit} (h : p.Ends s fun _ s' => P s')
    (ok : ∀ a s', P s' → (k a).Ends s' fun r s'' => r = .ok () → Q s'') :
    (p >>= k).Ends s fun r s' => r = .ok () → Q s' :=
  h.bind ok fun _ _ _ heq => nomatch heq

/-- Once the update is prepared, a rollback is due where it fails. -/
theorem ends_prepareUpdate (h : Tracks operationId targetVersion s) :
    (prepareUpdate calls operationId).Ends s fun r s' => r = .ok () →
      Follows operationId targetVersion (true, true, true) s' := by
  refine (ends_transition h).bind (fun _ s₁ ⟨htracks, _, hphase⟩ => ?_) fun _ _ _ heq => nomatch heq
  have hs₁ : Follows operationId targetVersion
      (s₁.2.composeEnvironment, s₁.2.backupComplete, s₁.2.filesChanged) s₁ := by
    refine ⟨htracks, ?_, rfl⟩
    rw [hphase.2]
    exact fun heq => nomatch heq
  refine ends_bind_ok (ends_call hs₁ _) fun _ s₂ hs₂ => ?_
  have hs₃ := hs₂.assign (f := fun vars => { vars with composeEnvironment := true }) rfl
    fun hfar => congrArg (true, ·.2) hfar
  rw [Prog.ends_assign_bind]
  refine ends_bind_ok (ends_call hs₃ _) fun _ s₄ hs₄ => ?_
  refine ends_bind_ok (hs₄.transition PlatformUpdatePhase.noConfusion) fun _ s₅ hs₅ => ?_
  refine ends_bind_ok (ends_call hs₅ _) fun _ s₆ hs₆ => ?_
  have hs₇ := hs₆.assign (f := fun vars => { vars with backupComplete := true }) rfl
    fun hfar => congrArg (fun far => (far.1, true, far.2.2)) hfar
  rw [Prog.ends_assign_bind]
  refine ends_bind_ok (hs₇.transition PlatformUpdatePhase.noConfusion) fun _ s₈ hs₈ => ?_
  refine ends_bind_ok (ends_call hs₈ _) fun _ s₉ hs₉ => ?_
  refine ends_bind_ok (ends_call hs₉ _) fun _ s₁₀ hs₁₀ => ?_
  refine ends_bind_ok (ends_call hs₁₀ _) fun _ s₁₁ hs₁₁ => ?_
  refine ends_bind_ok (ends_call hs₁₁ _) fun _ s₁₂ hs₁₂ => ?_
  exact fun _ => hs₁₂.assign (f := fun vars => { vars with filesChanged := true }) rfl
    fun hfar => congrArg (fun far => (far.1, far.2.1, true)) hfar

/-! ## Waiting for a version -/

/-- Some process of the version answers when one has reported. -/
def AnswersReported (version : String) : List Poll → Prop
  | [] => False
  | poll :: polls =>
    (poll.reports ≠ [] ∧ ∃ answer ∈ poll :: polls, answer.health = some version) ∨
      AnswersReported version polls

/-- A process of the version answers before any has reported. -/
def AnswersUnreported (version : String) : List Poll → Prop
  | [] => False
  | poll :: polls =>
    poll.reports = [] ∧ (poll.health = some version ∨ AnswersUnreported version polls)

/-- The version boots: it answers and reports its successful validation, and no other reports. -/
structure Boots (version : String) (polls : List Poll) : Prop where
  reports : ∀ poll ∈ polls, ∀ report ∈ poll.reports, report.version = version ∧ report.ok = true
  answers : AnswersReported version polls

/-- While the operation is in `status.json`, in a phase in which its target may report. -/
structure Awaits (operationId targetVersion : String) (operation : PlatformUpdateOperation)
    (disk : Disk) : Prop where
  stored : disk.operation = some operation
  id : operation.id = operationId
  target : operation.targetVersion = targetVersion
  phase : operation.phase ∈ reportingPhases
  reported : ∀ validation, disk.startupValidation operationId = some validation →
    validation.version = targetVersion

variable {disk : Disk} {operation : PlatformUpdateOperation}

/-- The reports of another version than the target come to nothing. -/
theorem run_reportAll_of_ne (h : disk.operation = some operation)
    (hreports : ∀ report ∈ reports, report.version ≠ operation.targetVersion) :
    (reportAll reports).run disk = (.ok (), disk) := by
  induction reports with
  | nil => rfl
  | cons report reports ih =>
    have hrefused : ¬operation.Admits report.version := fun hadmits =>
      hreports report List.mem_cons_self hadmits.1.symm
    rw [reportAll, Prog.run_bind, run_recordPlatformUpdateStartupValidation report h,
      if_neg hrefused]
    exact ih fun r hr => hreports r (List.mem_cons_of_mem report hr)

theorem run_checkStartupValidation (operationId version : String) (disk : Disk) :
    (checkStartupValidation operationId version true).run disk =
      (acceptValidation version (disk.startupValidation operationId), disk) := rfl

/-- The runner waits on while there is no validation of the version. -/
theorem acceptValidation_of_ne (h : ∀ validation, stored = some validation →
    validation.version ≠ version) : acceptValidation version stored = .ok true := by
  cases stored with
  | none => rfl
  | some validation => exact if_neg (h validation rfl)

theorem acceptValidation_some (h : validation.version = version) :
    acceptValidation version (some validation) = if validation.ok then .ok false
      else .error (.validation "The updated process failed its Traefik startup validation.") :=
  if_pos h

/-- With nothing but reports of the target, the runner does not accept another version. -/
theorem run_waitForVersion_of_ne (h : Awaits operationId targetVersion operation disk)
    (hversion : version ≠ targetVersion)
    (hreports : ∀ poll ∈ polls, ∀ report ∈ poll.reports, report.version = version) :
    (waitForVersion operationId version true polls).run disk =
      (.error (.validation "The updated process did not pass health verification."), disk) := by
  induction polls with
  | nil => rfl
  | cons poll polls ih =>
    have hhead : (reportAll poll.reports).run disk = (.ok (), disk) :=
      run_reportAll_of_ne h.stored fun report hr => by
        rw [hreports poll List.mem_cons_self report hr, h.target]
        exact hversion
    have htail := ih fun p hp => hreports p (List.mem_cons_of_mem poll hp)
    rw [waitForVersion, Prog.run_bind_ok hhead]
    split
    · have hwaits : acceptValidation version (disk.startupValidation operationId) = .ok true :=
        acceptValidation_of_ne fun validation hstored heq =>
          hversion (heq.symm.trans (h.reported validation hstored))
      rw [Prog.run_bind, run_checkStartupValidation, hwaits]
      exact htail
    · exact htail

/-! ### Where the version is the target -/

/-- A successful validation is stored. -/
def Accepted (operationId : String) (disk : Disk) : Prop :=
  ∃ validation, disk.startupValidation operationId = some validation ∧ validation.ok = true

/-- A failed validation is stored. -/
def Refused (operationId : String) (disk : Disk) : Prop :=
  ∃ validation, disk.startupValidation operationId = some validation ∧ validation.ok = false

theorem Awaits.writeReport {report : PlatformUpdateStartupValidation}
    (h : Awaits operationId version operation disk) (hreport : report.version = version) :
    Awaits operationId version operation (disk.writeStartupValidation operationId report) where
  stored := h.stored
  id := h.id
  target := h.target
  phase := h.phase
  reported validation hstored := by
    rw [startupValidation_writeStartupValidation] at hstored
    rw [← Option.some.inj hstored, hreport]

theorem run_reportAll (h : Awaits operationId version operation disk)
    (hreports : ∀ report ∈ reports, report.version = version ∧ report.ok = true) :
    ∃ disk', (reportAll reports).run disk = (.ok (), disk') ∧
      Awaits operationId version operation disk' ∧
      (reports = [] → disk' = disk) ∧
      (reports ≠ [] ∨ Accepted operationId disk → Accepted operationId disk') := by
  induction reports generalizing disk with
  | nil => exact ⟨disk, rfl, h, fun _ => rfl, fun hor => hor.resolve_left fun hne => hne rfl⟩
  | cons report reports ih =>
    obtain ⟨hversion, hok⟩ := hreports report List.mem_cons_self
    have hadmits : operation.Admits report.version := ⟨h.target.trans hversion.symm, h.phase⟩
    have haccepted : Accepted operationId (disk.writeStartupValidation operationId report) :=
      ⟨report, startupValidation_writeStartupValidation operationId report, hok⟩
    obtain ⟨disk', hrun, hawaits, -, hkeeps⟩ :=
      ih (h.writeReport hversion) fun r hr => hreports r (List.mem_cons_of_mem report hr)
    refine ⟨disk', ?_, hawaits, (nomatch ·), fun _ => hkeeps (.inr haccepted)⟩
    rw [reportAll, Prog.run_bind, run_recordPlatformUpdateStartupValidation report h.stored,
      if_pos hadmits, h.id]
    exact hrun

/-- What the runner makes of a successful validation. -/
theorem Accepted.accept (h : Awaits operationId version operation disk)
    (haccepted : Accepted operationId disk) :
    acceptValidation version (disk.startupValidation operationId) = .ok false := by
  obtain ⟨validation, hstored, hok⟩ := haccepted
  rw [hstored, acceptValidation_some (h.reported validation hstored), if_pos hok]

/-- With a successful validation stored, the runner waits for an answer. -/
theorem Accepted.waitForVersion (h : Awaits operationId version operation disk)
    (haccepted : Accepted operationId disk)
    (hreports : ∀ poll ∈ polls, ∀ report ∈ poll.reports, report.version = version ∧ report.ok = true)
    (hanswers : ∃ answer ∈ polls, answer.health = some version) :
    ((waitForVersion operationId version true polls).run disk).1 = .ok () := by
  induction polls generalizing disk with
  | nil =>
    obtain ⟨answer, hmem, -⟩ := hanswers
    exact absurd hmem List.not_mem_nil
  | cons poll polls ih =>
    obtain ⟨disk', hrun, hawaits, -, hkeeps⟩ := run_reportAll h (hreports poll List.mem_cons_self)
    have haccepted' := hkeeps (.inr haccepted)
    rw [Update.waitForVersion, Prog.run_bind_ok hrun]
    split
    · rw [Prog.run_bind, run_checkStartupValidation, haccepted'.accept hawaits]
      rfl
    · obtain ⟨answer, hmem, hhealth⟩ := hanswers
      refine ih hawaits haccepted' (fun p hp => hreports p (List.mem_cons_of_mem poll hp))
        ⟨answer, ?_, hhealth⟩
      refine (List.mem_cons.mp hmem).resolve_left fun heq => ?_
      rw [heq] at hhealth
      contradiction

theorem AnswersReported.answers (h : AnswersReported version polls) :
    ∃ answer ∈ polls, answer.health = some version := by
  induction polls with
  | nil => exact h.elim
  | cons poll polls ih =>
    obtain ⟨-, hanswers⟩ | htail := h
    · exact hanswers
    · obtain ⟨answer, hmem, hhealth⟩ := ih htail
      exact ⟨answer, List.mem_cons_of_mem poll hmem, hhealth⟩

/-- Where the version is the target and boots, the runner sees it if and only if it does not come
upon an earlier failure of the target before the version has reported. -/
theorem waitForVersion_iff (h : Awaits operationId version operation disk)
    (hreports : ∀ poll ∈ polls, ∀ report ∈ poll.reports, report.version = version ∧ report.ok = true)
    (hanswers : AnswersReported version polls) :
    ((waitForVersion operationId version true polls).run disk).1 = .ok () ↔
      ¬(Refused operationId disk ∧ AnswersUnreported version polls) := by
  induction polls generalizing disk with
  | nil => exact hanswers.elim
  | cons poll polls ih =>
    have htail := fun p hp => hreports p (List.mem_cons_of_mem poll hp)
    by_cases hnil : poll.reports = []
    · have hanswers' : AnswersReported version polls := hanswers.resolve_left fun hhead =>
        hhead.1 hnil
      rw [waitForVersion, hnil, show reportAll [] = pure () from rfl, Prog.run_pure_bind]
      split
      · rename_i hhealth
        rw [Prog.run_bind, run_checkStartupValidation]
        have hunreported : AnswersUnreported version (poll :: polls) := ⟨hnil, .inl hhealth⟩
        cases hstored : disk.startupValidation operationId with
        | none =>
          have hrefused : ¬Refused operationId disk := by
            intro hrefused
            obtain ⟨validation, hsome, -⟩ := hrefused
            rw [hstored] at hsome
            cases hsome
          refine (ih h htail hanswers').trans ⟨fun _ hand => hrefused hand.1, fun _ hand => hrefused hand.1⟩
        | some validation =>
          rw [acceptValidation_some (h.reported validation hstored)]
          cases hok : validation.ok with
          | true =>
            refine ⟨fun _ hand => ?_, fun _ => rfl⟩
            obtain ⟨validation', hsome, hfailed⟩ := hand.1
            obtain rfl := Option.some.inj (hstored.symm.trans hsome)
            rw [hok] at hfailed
            cases hfailed
          | false =>
            refine ⟨(nomatch ·), fun hnot => ?_⟩
            exact absurd ⟨⟨validation, hstored, hok⟩, hunreported⟩ hnot
      · rename_i hhealth
        refine (ih h htail hanswers').trans (not_congr (and_congr_right fun _ => ?_))
        exact ⟨fun hrest => ⟨hnil, .inr hrest⟩, fun hall => hall.2.resolve_left hhealth⟩
    · have hnot : ¬AnswersUnreported version (poll :: polls) := fun hall => hnil hall.1
      refine ⟨fun _ hand => hnot hand.2, fun _ => ?_⟩
      obtain ⟨disk', hrun, hawaits, -, hkeeps⟩ := run_reportAll h (hreports poll List.mem_cons_self)
      have haccepted := hkeeps (.inl hnil)
      rw [waitForVersion, Prog.run_bind_ok hrun]
      split
      · rw [Prog.run_bind, run_checkStartupValidation, haccepted.accept hawaits]
        rfl
      · rename_i hhealth
        refine haccepted.waitForVersion hawaits htail ?_
        obtain ⟨answer, hmem, hanswer⟩ := hanswers.answers
        refine ⟨answer, (List.mem_cons.mp hmem).resolve_left fun heq => ?_, hanswer⟩
        rw [heq] at hanswer
        exact hhealth hanswer

/-! ### What waiting leaves as it is -/

theorem keeps_record (validation : PlatformUpdateStartupValidation) :
    (recordPlatformUpdateStartupValidation validation).Keeps
      (Awaits operationId targetVersion operation) := by
  intro disk h
  rw [run_recordPlatformUpdateStartupValidation validation h.stored]
  split
  · rename_i hadmits
    rw [h.id]
    exact h.writeReport (hadmits.1.symm.trans h.target)
  · exact h

theorem keeps_reportAll (reports : List PlatformUpdateStartupValidation) :
    (reportAll reports).Keeps (Awaits operationId targetVersion operation) := by
  induction reports with
  | nil => exact .ret _
  | cons report reports ih => exact (keeps_record report).bind fun _ => ih

theorem keeps_checkStartupValidation (I : Disk → Prop) (version : String) :
    (checkStartupValidation operationId version true).Keeps I :=
  .bind (.read _) fun _ => .ret _

theorem keeps_waitForVersion (version : String) (polls : List Poll) :
    (waitForVersion operationId version true polls).Keeps
      (Awaits operationId targetVersion operation) := by
  induction polls with
  | nil => exact .ret _
  | cons poll polls ih =>
    refine (keeps_reportAll poll.reports).bind fun _ => ?_
    split
    · refine (keeps_checkStartupValidation _ version).bind fun waits => ?_
      split
      · exact ih
      · exact .ret _
    · exact ih

theorem Awaits.removeOperationDirectory (h : Awaits operationId targetVersion operation disk)
    (directory : String) :
    Awaits operationId targetVersion operation (disk.removeOperationDirectory directory) where
  stored := h.stored
  id := h.id
  target := h.target
  phase := h.phase
  reported validation hstored := by
    by_cases heq : operationId = directory
    · rw [heq, Disk.removeOperationDirectory] at hstored
      simp at hstored
    · refine h.reported validation ?_
      simpa [Disk.removeOperationDirectory, heq] using hstored

theorem keeps_removeDirectories (directories : List String) :
    (removeDirectories directories).Keeps (Awaits operationId targetVersion operation) := by
  induction directories with
  | nil => exact .ret _
  | cons directory directories ih =>
    exact .bind (.step (fun _ h => h.removeOperationDirectory directory) fun _ => .ret _) fun _ => ih

theorem keeps_pruneOldBackups :
    (pruneOldBackupsForTerminalState calls).Keeps (Awaits operationId targetVersion operation) := by
  rw [pruneOldBackupsForTerminalState]
  split
  · exact (keeps_removeDirectories _).bind fun _ => .ret _
  · exact .ret _

theorem returns_pruneOldBackups (disk : Disk) :
    ∃ warning, ((pruneOldBackupsForTerminalState calls).run disk).1 = .ok warning := by
  have hremove : ∀ directories disk, ((removeDirectories directories).run disk).1 = .ok () := by
    intro directories
    induction directories with
    | nil => exact fun _ => rfl
    | cons directory directories ih => exact fun disk => ih (disk.removeOperationDirectory directory)
  rw [pruneOldBackupsForTerminalState]
  split
  · rename_i old _
    refine ⟨none, ?_⟩
    rw [Prog.run_bind, hremove old disk]
    rfl
  · exact ⟨_, rfl⟩

/-- While the target may report, the runner's waiting leaves its progress. -/
theorem Follows.lift {p : Async α} (h : Follows operationId targetVersion far s)
    (hphase : s.1.operation.map (·.phase) = some phase) (hreporting : phase ∈ reportingPhases)
    (hp : ∀ operation, p.Keeps (Awaits operationId targetVersion operation)) :
    (liftM p : RunnerAsync α).Ends s fun _ s' =>
      Follows operationId targetVersion far s' ∧ s'.1.operation = s.1.operation := by
  obtain ⟨operation, hstored, hid, htarget⟩ := h.operation
  rw [hstored, Option.map_some] at hphase
  have hawaits : Awaits operationId targetVersion operation s.1 :=
    ⟨hstored, hid, htarget, (Option.some.inj hphase).symm ▸ hreporting, h.reported⟩
  have hend := hp operation s.1 hawaits
  obtain ⟨disk, vars⟩ := s
  refine .lift ⟨⟨⟨⟨operation, hend.stored, hid, htarget⟩, h.copy, hend.reported⟩, ?_, h.progress⟩, ?_⟩
  · rw [hend.stored, ← hstored]
    exact h.unfinished
  · exact hend.stored.trans hstored.symm

/-! ## The end of an update -/

/-- The calls of a transition return. -/
def RunnerCalls.Records (calls : RunnerCalls) (phase : PlatformUpdatePhase) : Prop :=
  calls.readStatus phase = none ∧ calls.writeStatus phase = none

/-- A transition that is not the last one of a rollback. -/
theorem Follows.ends_transition (h : Follows operationId targetVersion far s)
    (hphase : phase ≠ .rolledBack) :
    (Update.transition calls operationId phase message errorCode).Ends s fun r s' =>
      (Follows operationId targetVersion far s' ∧
        s'.1.startupValidation = s.1.startupValidation) ∧
      match r with
      | .ok _ => calls.Records phase ∧ s'.1.operation.map (·.phase) = some phase
      | .error _ => ¬calls.Records phase := by
  refine ((h.transition hphase).and (Update.ends_transition h.toTracks)).mono
    fun r s' ⟨hs', _, hvars, hr⟩ => ⟨⟨hs', hvars.2⟩, ?_⟩
  cases r with
  | ok _ => exact hr
  | error e => exact hr.1

theorem ends_installUpdate (h : Follows operationId targetVersion far s) :
    (installUpdate calls operationId input).Ends s fun _ s' =>
      Follows operationId targetVersion far s' := by
  refine (ends_call h _).bind (fun _ s₁ hs₁ => ?_) fun _ _ h => h
  refine (ends_call hs₁ _).bind (fun _ s₂ hs₂ => ?_) fun _ _ h => h
  refine (hs₂.transition PlatformUpdatePhase.noConfusion).bind (fun _ s₃ hs₃ => ?_) fun _ _ h => h
  refine (ends_call hs₃ _).bind (fun _ s₄ hs₄ => ?_) fun _ _ h => h
  refine (hs₄.ends_transition PlatformUpdatePhase.noConfusion).bind
    (fun _ s₅ ⟨⟨hs₅, _⟩, _, hphase⟩ => ?_) fun _ _ h => h.1.1
  refine (hs₅.lift hphase (by decide) fun _ => keeps_waitForVersion _ _).bind
    (fun _ s₆ ⟨hs₆, hstored⟩ => ?_) fun _ _ h => h.1
  have hphase₆ : s₆.1.operation.map (·.phase) = some .verifying := by
    rw [hstored]
    exact hphase
  refine (hs₆.lift hphase₆ (by decide) fun _ => keeps_pruneOldBackups).bind
    (fun warning s₇ ⟨hs₇, _⟩ => ?_) fun _ _ h => h.1
  exact hs₇.transition PlatformUpdatePhase.noConfusion

/-- The transitions of a rollback can be recorded. -/
def Recordable (calls : RunnerCalls) : Prop :=
  calls.Records .rollingBack ∧ calls.Records .rolledBack

/-- The version that boots is let back in: it is the target, and no failure of the target from before
is found in its place. -/
def Readmitted (calls : RunnerCalls) (operationId sourceVersion targetVersion : String)
    (disk : Disk) : Prop :=
  targetVersion = sourceVersion ∧
    ¬(Refused operationId disk ∧ AnswersUnreported sourceVersion calls.restoredPolls)

/-- The version that boots is accepted if and only if it is let back in. -/
theorem waitForVersion_iff_readmitted (h : Awaits operationId targetVersion operation disk)
    (hboots : Boots version calls.restoredPolls) :
    ((waitForVersion operationId version true calls.restoredPolls).run disk).1 = .ok () ↔
      Readmitted calls operationId version targetVersion disk := by
  by_cases heq : targetVersion = version
  · subst heq
    refine (waitForVersion_iff h hboots.reports hboots.answers).trans ?_
    exact ⟨fun hnot => ⟨rfl, hnot⟩, fun hback => hback.2⟩
  · rw [run_waitForVersion_of_ne h (fun hversion => heq hversion.symm)
      fun poll hpoll report hr => (hboots.reports poll hpoll report hr).1]
    exact ⟨(nomatch ·), fun hback => absurd hback.1 heq⟩

/-- Where the files are restored and the containers are up again, the version decides. -/
theorem ends_restoreSource (h : Follows operationId targetVersion (true, true, true) s)
    (hphase : s.1.operation.map (·.phase) = some .rollingBack)
    (hrestore : calls.restoreInstallation = none) (hconfig : calls.configRestored = none)
    (hup : calls.upRestored = none) (hboots : Boots input.sourceVersion calls.restoredPolls) :
    (restoreSource calls operationId input).Ends s fun r s' =>
      Follows operationId targetVersion (true, true, true) s' ∧
        ((∃ warning, r = .ok warning) ↔
          Readmitted calls operationId input.sourceVersion targetVersion s.1) := by
  obtain ⟨operation, hstored, hid, htarget⟩ := h.operation
  have hoperation : operation.phase = .rollingBack := by
    rw [hstored] at hphase
    exact Option.some.inj hphase
  have hawaits : Awaits operationId targetVersion operation s.1 :=
    ⟨hstored, hid, htarget, by rw [hoperation]; decide, h.reported⟩
  have hvars : s.2.composeEnvironment = true := congrArg Prod.fst h.progress
  rw [restoreSource, hrestore, hconfig, hup]
  refine (Prog.ends_read_bind _ _).mpr ?_
  rw [hvars, if_pos rfl]
  have hwait : (liftM (waitForVersion operationId input.sourceVersion true calls.restoredPolls) :
      RunnerAsync Unit).Ends s fun r s' =>
      (Follows operationId targetVersion (true, true, true) s' ∧ s'.1.operation = s.1.operation) ∧
        (r = .ok () ↔ Readmitted calls operationId input.sourceVersion targetVersion s.1) := by
    refine ⟨h.lift hphase (by decide) fun _ => keeps_waitForVersion _ _, ?_⟩
    change ((Prog.lift _).run (s.1, s.2)).1 = _ ↔ _
    rw [Prog.run_lift]
    exact waitForVersion_iff_readmitted hawaits hboots
  refine hwait.bind (fun _ s₁ ⟨⟨hs₁, hstored₁⟩, hback⟩ => ?_) fun e s₁ ⟨⟨hs₁, _⟩, hback⟩ => ?_
  · have hphase₁ : s₁.1.operation.map (·.phase) = some .rollingBack := by
      rw [hstored₁]
      exact hphase
    refine ⟨(hs₁.lift hphase₁ (by decide) fun _ => keeps_pruneOldBackups).1, ?_⟩
    obtain ⟨warning, hreturns⟩ : ∃ warning,
        ((pruneOldBackupsForTerminalState calls).run s₁.1).1 = .ok warning :=
      returns_pruneOldBackups s₁.1
    change (∃ warning, ((pruneOldBackupsForTerminalState calls).lift.run (s₁.1, s₁.2)).1 =
      .ok warning) ↔ _
    rw [Prog.run_lift, hreturns]
    exact ⟨fun _ => hback.mp rfl, fun _ => ⟨warning, rfl⟩⟩
  · refine ⟨hs₁, fun heq => ?_, fun hreadmitted => ?_⟩
    · obtain ⟨_, heq⟩ := heq
      cases heq
    · cases hback.mpr hreadmitted

/-- A rollback is recorded if and only if its transitions are and the version is let back in. -/
theorem ends_rollbackUpdate (h : Follows operationId targetVersion (true, true, true) s)
    (hrestore : calls.restoreInstallation = none) (hconfig : calls.configRestored = none)
    (hup : calls.upRestored = none) (hboots : Boots input.sourceVersion calls.restoredPolls) :
    (rollbackUpdate calls operationId input failureCode).Ends s fun _ s' =>
      s'.1.operation.map (·.phase) = some .rolledBack ↔
        Recordable calls ∧
          Readmitted calls operationId input.sourceVersion targetVersion s.1 := by
  refine Prog.Ends.tryCatch (R := fun r s' =>
    match r with
    | .ok _ => s'.1.operation.map (·.phase) = some .rolledBack ∧ Recordable calls ∧
        Readmitted calls operationId input.sourceVersion targetVersion s.1
    | .error _ => Follows operationId targetVersion (true, true, true) s' ∧
        ¬(Recordable calls ∧ Readmitted calls operationId input.sourceVersion targetVersion s.1))
    ?_ (fun _ s' ⟨hphase, hboth⟩ => ⟨fun _ => hboth, fun _ => hphase⟩) fun e s' ⟨hs', hnot⟩ => ?_
  · refine (h.ends_transition PlatformUpdatePhase.noConfusion).bind
      (fun _ s₁ ⟨⟨hs₁, hvalidation⟩, hrecords, hphase⟩ => ?_) fun e s₁ ⟨⟨hs₁, _⟩, hnot⟩ =>
        ⟨hs₁, fun hboth => hnot hboth.1.1⟩
    have hback : Readmitted calls operationId input.sourceVersion targetVersion s₁.1 ↔
        Readmitted calls operationId input.sourceVersion targetVersion s.1 := by
      rw [Readmitted, Readmitted, Refused, Refused, hvalidation]
    refine (ends_restoreSource hs₁ hphase hrestore hconfig hup hboots).bind
      (fun warning s₂ ⟨hs₂, hreadmitted⟩ => ?_) fun e s₂ ⟨hs₂, hreadmitted⟩ => ⟨hs₂, fun hboth => ?_⟩
    · refine (ends_transition hs₂.toTracks).mono fun r s₃ ⟨hs₃, hvars, hr⟩ => ?_
      cases r with
      | ok _ => exact ⟨hr.2, ⟨hrecords, hr.1⟩, hback.mp (hreadmitted.mp ⟨warning, rfl⟩)⟩
      | error e =>
        refine ⟨⟨hs₃, ?_, ?_⟩, fun hboth => hr.1 hboth.1.2⟩
        · rw [hr.2]
          exact hs₂.unfinished
        · rw [hvars.1]
          exact hs₂.progress
    · obtain ⟨warning, heq⟩ := hreadmitted.mpr (hback.mpr hboth.2)
      cases heq
  · refine (hs'.transition PlatformUpdatePhase.noConfusion).mono fun r s'' hs'' => ?_
    exact ⟨fun hphase => absurd hphase hs''.unfinished, fun hboth => absurd hboth hnot⟩

/-- An update that fails once the installation files are changed: the runner starts with the operation
that `status.json` holds, for which nothing but its target has reported. -/
structure FailsInstalled (calls : RunnerCalls) (operationId : String)
    (operation : PlatformUpdateOperation) (input : PlatformUpdateRunnerInput) (disk : Disk)
    (s : Disk × RunnerVars) : Prop where
  given : disk.runnerInput operationId = some input ∧ input.operationId = operationId
  stored : disk.operation = some operation
  id : operation.id = operationId
  reported : ∀ validation, disk.startupValidation operationId = some validation →
    validation.version = operation.targetVersion
  fails : ∃ prepared error,
    (prepareUpdate calls operationId).run (disk, .init operation) = (.ok (), prepared) ∧
      (installUpdate calls operationId input).run prepared = (.error error, s)

theorem FailsInstalled.follows
    (h : FailsInstalled calls operationId operation input disk s) :
    Follows operationId operation.targetVersion (true, true, true) s := by
  obtain ⟨prepared, error, hprepare, hinstall⟩ := h.fails
  have htracks : Tracks operationId operation.targetVersion (disk, .init operation) :=
    ⟨⟨operation, h.stored, h.id, rfl⟩, ⟨h.id, rfl⟩, h.reported⟩
  have hprepared : (prepareUpdate calls operationId).Ends (disk, .init operation) _ :=
    ends_prepareUpdate htracks
  rw [Prog.Ends, hprepare] at hprepared
  have hinstalled : (installUpdate calls operationId input).Ends prepared _ :=
    ends_installUpdate (hprepared rfl)
  rwa [Prog.Ends, hinstall] at hinstalled

/-- Where the installation is restored and the version the update came from boots, the operation ends
as rolled back if and only if that version is the target too, no failure of the target is found in the
place of its report, and the runner can record it. -/
theorem phase_eq_rolledBack_iff (h : FailsInstalled calls operationId operation input disk s)
    (hrestore : calls.restoreInstallation = none) (hconfig : calls.configRestored = none)
    (hup : calls.upRestored = none) (hboots : Boots input.sourceVersion calls.restoredPolls) :
    ((runPlatformUpdate calls operationId).run disk).2.operation.map (·.phase) =
        some .rolledBack ↔
      Recordable calls ∧
        Readmitted calls operationId input.sourceVersion operation.targetVersion s.1 := by
  obtain ⟨prepared, error, hprepare, hinstall⟩ := h.fails
  have hfollows := h.follows
  have hrun : (runPlatformUpdate calls operationId).run disk =
      ((updateInstallation calls operationId input).withVars (.init operation)).run disk := by
    rw [runPlatformUpdate, Prog.run_bind_ok (run_readRunnerInput h.given.1 h.given.2), readOperation,
      Prog.run_read_bind]
    simp only [h.stored, h.id, if_true]
  have hfails : (prepareUpdate calls operationId >>= fun _ =>
      installUpdate calls operationId input).run (disk, .init operation) = (.error error, s) := by
    rw [Prog.run_bind_ok hprepare, hinstall]
  have hdue : s.2.backupComplete = true ∧ s.2.filesChanged = true :=
    ⟨congrArg (·.2.1) hfollows.progress, congrArg (·.2.2) hfollows.progress⟩
  have hrecover : (updateInstallation calls operationId input).run (disk, .init operation) =
      (rollbackUpdate calls operationId input (publicFailureCode error)).run s := by
    rw [updateInstallation, Prog.run_tryCatch, hfails, Prog.onError_error, recoverUpdate, readVars,
      Prog.run_read_bind, if_pos hdue]
  rw [hrun, Prog.run_withVars, hrecover]
  exact ends_rollbackUpdate hfollows hrestore hconfig hup hboots

/-! ### A target that fails its validation -/

/-- From 1.0.0 to 1.1.0, which boots and cannot start Traefik; 1.0.0 then boots again. -/
def traefikFails : RunnerCalls where
  readStatus _ := none
  writeStatus _ := none
  now _ := 1
  readComposeEnvironment := none
  downloadTargetCompose := none
  backupInstallation := none
  pullImage := none
  inspectImage := none
  digestMatches := true
  writeEnvironment := none
  writeCompose := none
  config := none
  up := none
  polls := [⟨[⟨"1.1.0", false, 1, "traefik failed"⟩], some "1.1.0"⟩]
  restoreInstallation := none
  configRestored := none
  upRestored := none
  restoredPolls := [⟨[⟨"1.0.0", true, 2, "ready"⟩], some "1.0.0"⟩, ⟨[], some "1.0.0"⟩]
  pruneOldBackups := .ok []

def traefikInput : PlatformUpdateRunnerInput := ⟨"u1", "1.0.0", "1.1.0"⟩

def traefikOperation : PlatformUpdateOperation where
  id := "u1"
  sourceVersion := "1.0.0"
  targetVersion := "1.1.0"
  phase := .preparing
  startedAt := 0
  updatedAt := 0
  message := none
  errorCode := none
  runnerContainerId := some "runner"

/-- The files that the update starts with. -/
def traefikDisk : Disk where
  writes := [⟨.server 0, traefikOperation⟩]
  runnerInput id := if id = "u1" then some traefikInput else none
  startupValidation _ := none
  starting := true

/-- Where the update has failed. -/
def traefikState : Disk × RunnerVars :=
  ((prepareUpdate traefikFails "u1" >>= fun _ => installUpdate traefikFails "u1" traefikInput).run
    (traefikDisk, .init traefikOperation)).2

theorem traefik_failsInstalled :
    FailsInstalled traefikFails "u1" traefikOperation traefikInput traefikDisk traefikState where
  given := ⟨rfl, rfl⟩
  stored := rfl
  id := rfl
  reported _ h := nomatch h
  fails := ⟨_, _, rfl, rfl⟩

theorem traefik_boots : Boots traefikInput.sourceVersion traefikFails.restoredPolls where
  reports := by decide
  answers := .inl ⟨List.cons_ne_nil _ _, _, List.mem_cons_self, rfl⟩

theorem phase_eq_rolledBack_iff_traefik :
    ((runPlatformUpdate traefikFails "u1").run traefikDisk).2.operation.map (·.phase) =
        some .rolledBack ↔
      Recordable traefikFails ∧ Readmitted traefikFails "u1" "1.0.0" "1.1.0" traefikState.1 :=
  phase_eq_rolledBack_iff traefik_failsInstalled rfl rfl rfl traefik_boots

/-- 1.0.0 is restored, answers and reports, and the operation ends as failed. -/
theorem not_rolledBack :
    ¬∀ calls operationId operation input disk s,
      FailsInstalled calls operationId operation input disk s →
      calls.restoreInstallation = none → calls.configRestored = none → calls.upRestored = none →
      Boots input.sourceVersion calls.restoredPolls →
      ((runPlatformUpdate calls operationId).run disk).2.operation.map (·.phase) =
        some .rolledBack := by
  intro h
  have hphase := h _ _ _ _ _ _ traefik_failsInstalled rfl rfl rfl traefik_boots
  have hfailed : ((runPlatformUpdate traefikFails "u1").run traefikDisk).2.operation.map (·.phase) =
      some .failed := rfl
  rw [hfailed] at hphase
  cases hphase

end OpenLander.Update
