import OpenLander.Theory.RelyGuarantee
import OpenLander.Update.PlatformUpdater
import OpenLander.Update.Runner

/-! # The result of a platform update

The runner of an operation ends it with the phase `completed`, `rolled_back` or `failed`. Runners, one
for each operation, and requests of the server take their steps in any order: a request may take its
copy of the operation, wait for Docker, and write the copy back once the runner has ended, and then the
result is lost (`not_keepsResults`). It is kept in every run in which no request writes a copy that is
older than the runner's result (`keepsResults_of_unraced`).

What a write of a request says of the phase goes by its copy: it has the phase of the copy, or it marks
as failed what was active in the copy (`Sound`). -/

namespace OpenLander.Update
open Theory

def terminalPhases : List PlatformUpdatePhase := [.completed, .rolledBack, .failed]

/-- The write is the runner's result of the operation. -/
def Write.IsResult (write : Write) (operationId : String) : Prop :=
  write.writer = .runner ∧ write.operation.id = operationId ∧
    write.operation.phase ∈ terminalPhases

/-- Once the runner has written its result, no write for the operation has another phase. -/
def KeepsResults (writes : List Write) : Prop :=
  writes.Pairwise fun write later =>
    write.IsResult later.operation.id → later.operation.phase = write.operation.phase

instance (write : Write) (operationId : String) : Decidable (write.IsResult operationId) :=
  inferInstanceAs (Decidable (_ ∧ _ ∧ _))

instance (writes : List Write) : Decidable (KeepsResults writes) :=
  inferInstanceAs (Decidable (List.Pairwise _ _))

/-- The runner of the operation has not written a result. -/
def Unended (operationId : String) (writes : List Write) : Prop :=
  ∀ write ∈ writes, ¬write.IsResult operationId

/-- A request does not write a copy that is older than the result. -/
def Unraced (writes : List Write) (write : Write) : Prop :=
  match write.writer with
  | .runner => True
  | .server since => Unended write.operation.id (writes.drop since)

/-- What the phase of a write goes by. -/
def Sound (writes : List Write) (write : Write) : Prop :=
  match write.writer with
  | .runner => Unended write.operation.id writes
  | .server since =>
    since = 0 ∨ ∃ copy, (writes.take since).getLast? = some copy ∧
      copy.operation.id = write.operation.id ∧
      (write.operation.phase = copy.operation.phase ∨ copy.operation.isActive)

theorem not_isActive_of_terminal {operation : PlatformUpdateOperation}
    (h : operation.phase ∈ terminalPhases) : ¬operation.isActive := by
  rw [PlatformUpdateOperation.isActive]
  revert h
  cases operation.phase <;> decide

theorem KeepsResults.nil : KeepsResults [] := List.Pairwise.nil

/-- A sound write keeps the results if it does not race with one. -/
theorem KeepsResults.snoc (h : KeepsResults writes) (hsound : Sound writes write)
    (hraced : Unraced writes write) : KeepsResults (writes ++ [write]) := by
  refine List.pairwise_append.mpr ⟨h, List.pairwise_singleton _ _, fun result hresult later hlater => ?_⟩
  obtain rfl := List.mem_singleton.mp hlater
  intro hends
  cases hwriter : later.writer with
  | runner =>
    rw [Sound, hwriter] at hsound
    exact absurd hends (hsound result hresult)
  | server since =>
    rw [Sound, hwriter] at hsound
    rw [Unraced, hwriter] at hraced
    rw [← List.take_append_drop since writes] at hresult
    have hbefore : result ∈ writes.take since :=
      (List.mem_append.mp hresult).resolve_right fun hafter => hraced result hafter hends
    obtain rfl | ⟨copy, hcopy, hid, hphase⟩ := hsound
    · exact absurd hbefore List.not_mem_nil
    · -- The copy has the phase of the result, since the writes up to it keep results.
      have hsame : copy.operation.phase = result.operation.phase := by
        obtain ⟨front, hfront⟩ := List.getLast?_eq_some_iff.mp hcopy
        rw [hfront] at hbefore
        obtain hin | hlast := List.mem_append.mp hbefore
        · have hkeeps : KeepsResults (front ++ [copy]) := by
            rw [← hfront]
            exact h.sublist (List.take_sublist since writes)
          refine (List.pairwise_append.mp hkeeps).2.2 result hin copy List.mem_cons_self ?_
          rw [hid]
          exact hends
        · rw [List.mem_singleton.mp hlast]
      obtain heq | hactive := hphase
      · rw [heq, hsame]
      · refine absurd hactive (not_isActive_of_terminal ?_)
        rw [hsame]
        exact hends.2.2

/-! ## Runners and requests side by side -/

inductive Job
  | runner (calls : RunnerCalls) (operationId : String)
  | getStatus (request : Nat) (calls : StatusCalls)
  | startUpdate (request : Nat) (calls : StartCalls) (operationId targetVersion : String)
  /-- A process of the server that boots. The requests of the one before it are not heard of again. -/
  | boot (request : Nat) (validation : PlatformUpdateStartupValidation)

inductive Place
  | runner (operationId : String)
  | server (request : Nat)
  deriving DecidableEq, Repr

def Job.place : Job → Place
  | .runner _ operationId => .runner operationId
  | .getStatus request _ => .server request
  | .startUpdate request _ _ _ => .server request
  | .boot request _ => .server request

def Job.program : Job → Async Unit
  | .runner calls operationId => runPlatformUpdate calls operationId
  | .getStatus _ calls => do
    let _ ← Update.getStatus calls
  | .startUpdate _ calls operationId targetVersion => do
    let _ ← Update.startUpdate calls operationId targetVersion
  | .boot _ validation => do
    releaseStarting
    let _ ← recordPlatformUpdateStartupValidation validation

abbrev System := Pool Place Job Disk Failure Unit Empty

abbrev System.next : System → Pool.Action Place Job → Option System :=
  Pool.act (fun _ => ∅) Job.program Job.place

/-- The step writes no copy that is older than the runner's result. -/
def System.Unraced (P : System) : Pool.Action Place Job → Prop
  | .start _ => True
  | .step place => ∀ job f k, P.jobs place = some (job, .step f k) →
      ∀ write, (f P.store).writes = P.store.writes ++ [write] →
        Update.Unraced P.store.writes write

/-! ## What each of them guarantees -/

/-- Who writes at the place. -/
def Place.Wrote : Place → Write → Prop
  | .runner operationId, write => write.writer = .runner ∧ write.operation.id = operationId
  | .server _, write => write.writer ≠ .runner

/-- Nothing is written, or one thing that is sound, by the place. -/
def guar (place : Place) (disk disk' : Disk) : Prop :=
  disk'.writes = disk.writes ∨
    ∃ write, disk'.writes = disk.writes ++ [write] ∧ Sound disk.writes write ∧ place.Wrote write

def Grows (disk disk' : Disk) : Prop := disk.writes <+: disk'.writes

/-- What a place relies on: others do not write its results, and do not take anything back. -/
def rely : Place → Disk → Disk → Prop
  | .runner operationId, disk, disk' =>
    Unended operationId disk.writes → Unended operationId disk'.writes
  | .server _, disk, disk' => Grows disk disk'

def starts : Place → Disk → Prop
  | .runner operationId, disk => Unended operationId disk.writes
  | .server _, _ => True

theorem rely_refl (place : Place) (disk : Disk) : rely place disk disk := by
  cases place with
  | runner operationId => exact id
  | server request => exact List.prefix_refl _

theorem guar_refl (place : Place) (disk : Disk) : guar place disk disk := .inl rfl

theorem agree : Pool.Agree rely guar starts where
  trans place disk₁ disk₂ disk₃ h h' := by
    cases place with
    | runner operationId => exact fun hunended => h' (h hunended)
    | server request => exact List.IsPrefix.trans h h'
  guar place other disk disk' hne h := by
    cases place with
    | server request =>
      change disk.writes <+: disk'.writes
      obtain heq | ⟨write, heq, -, -⟩ := h
      · rw [heq]
      · rw [heq]
        exact List.prefix_append _ _
    | runner operationId =>
      intro hunended
      obtain heq | ⟨write, heq, -, hwrote⟩ := h
      · rw [heq]
        exact hunended
      · intro result hresult hends
        rw [heq] at hresult
        obtain hin | hlast := List.mem_append.mp hresult
        · exact hunended result hin hends
        · rw [List.mem_singleton.mp hlast] at hends
          cases other with
          | runner operationId' =>
            exact hne (congrArg Place.runner (hends.2.1.symm.trans hwrote.2))
          | server request => exact hwrote hends.1
  starts place disk disk' h h' := by
    cases place with
    | runner operationId => exact h' h
    | server request => trivial

/-! ## Requests -/

section
variable {request : Nat} {disk disk' : Disk} {operation : PlatformUpdateOperation}

/-- The operation was in the file after so many writes. -/
def Taken (disk : Disk) (since : Nat) (operation : PlatformUpdateOperation) : Prop :=
  since ≤ disk.writes.length ∧
    ∃ copy, (disk.writes.take since).getLast? = some copy ∧ copy.operation = operation

theorem Taken.grows (h : Taken disk since operation) (hgrows : Grows disk disk') :
    Taken disk' since operation := by
  obtain ⟨hle, copy, hcopy, hoperation⟩ := h
  obtain ⟨later, hlater⟩ := hgrows
  refine ⟨?_, copy, ?_, hoperation⟩
  · rw [← hlater, List.length_append]
    omega
  · rw [← hlater, List.take_append_of_le_length hle]
    exact hcopy

theorem taken_of_stored (h : disk.operation = some operation) :
    Taken disk disk.writes.length operation := by
  obtain ⟨copy, hcopy, hoperation⟩ := Option.map_eq_some_iff.mp h
  refine ⟨le_rfl, copy, ?_, hoperation⟩
  rw [List.take_length]
  exact hcopy

/-- The steps of a request that are not about what it wrote. -/
abbrev Requests (request : Nat) (p : Async α) (disk : Disk) : Prop :=
  p.Guarantees (rely (.server request)) (guar (.server request)) (fun _ _ => True) disk

theorem guarantees_call {P : Disk → Prop} {rely guar : Disk → Disk → Prop} (h : P disk)
    (failure : Option Failure) : (call failure).Guarantees rely guar (fun _ disk => P disk) disk := by
  cases failure with
  | none => exact h
  | some failure => exact h

/-- The steps of a program that does not write `status.json`. -/
abbrev Unwriting (p : Async α) : Prop := p.Steps fun disk disk' => disk'.writes = disk.writes

theorem unwriting_modify {f : Disk → Disk} (hf : ∀ disk, (f disk).writes = disk.writes) :
    Unwriting (.modify f) :=
  .modify hf

theorem unwriting_read (g : Disk → α) : Unwriting (.read g) :=
  .read (R := fun disk disk' => disk'.writes = disk.writes) (fun _ => rfl) g

theorem Unwriting.requests {p : Async α} (h : Unwriting p) : Requests request p disk :=
  (h.mono fun _ _ => .inl).guarantees

/-- Reading `status.json`, and what the copy is worth from then on. -/
theorem guarantees_readOperation :
    readOperation.Guarantees (rely (.server request)) (guar (.server request))
      (fun r disk' => ∀ snapshot operation, r = .ok snapshot → snapshot.operation = some operation →
        Taken disk' snapshot.since operation) disk := by
  refine .read (guar_refl _) fun disk' _ snapshot operation heq hstored => ?_
  cases heq
  exact taken_of_stored hstored

/-- A copy may be written with its phase, or with another one if it was active. -/
theorem guarantees_writeOperation {written : PlatformUpdateOperation}
    (h : since = 0 ∨ ∃ operation, Taken disk since operation ∧ written.id = operation.id ∧
      (written.phase = operation.phase ∨ operation.isActive)) :
    Requests request (writeOperation (.server since) written) disk := by
  refine .modify fun disk' hgrows => ⟨.inr ⟨⟨.server since, written⟩, rfl, ?_, (nomatch ·)⟩, trivial⟩
  obtain hzero | ⟨operation, htaken, hid, hphase⟩ := h
  · exact .inl hzero
  · obtain ⟨-, copy, hcopy, rfl⟩ := htaken.grows hgrows
    exact .inr ⟨copy, hcopy, hid.symm, hphase⟩

theorem Requests.bind {p : Async α} {k : α → Async β} {Q : Except Failure α → Disk → Prop}
    (hp : p.Guarantees (rely (.server request)) (guar (.server request)) Q disk)
    (hk : ∀ a disk', Q (.ok a) disk' → Requests request (k a) disk') :
    Requests request (p >>= k) disk :=
  Prog.Guarantees.bind hp hk fun _ _ _ => trivial

theorem guarantees_adoptRunner (h : Taken disk since operation) :
    Requests request (adoptRunner calls since operation runner) disk := by
  refine Requests.bind (guarantees_call (P := (Taken · since operation)) h _)
    fun _ disk' htaken => ?_
  exact .bind (guarantees_writeOperation (.inr ⟨operation, htaken, rfl, .inl rfl⟩)) fun _ _ _ => trivial

theorem guarantees_failOperation : Requests request (failOperation calls) disk := by
  refine Requests.bind (guarantees_call (P := fun _ => True) trivial _) fun _ disk₁ _ => ?_
  refine Requests.bind guarantees_readOperation fun latest disk₂ htaken => ?_
  cases hlatest : latest.operation with
  | none => trivial
  | some operation =>
    change Requests request (ite _ _ _) disk₂
    split
    · rename_i hactive
      refine Requests.bind (guarantees_call (P := (Taken · latest.since operation))
        (htaken latest operation rfl hlatest) _) fun _ disk₃ htaken₃ => ?_
      exact .bind (guarantees_writeOperation (.inr ⟨operation, htaken₃, rfl, .inr hactive⟩))
        fun _ _ _ => trivial
    · trivial

theorem guarantees_reconcileOperation {persisted : Snapshot}
    (h : ∀ operation, persisted.operation = some operation → Taken disk persisted.since operation) :
    Requests request (reconcileOperation calls persisted) disk := by
  rw [reconcileOperation]
  split
  · trivial
  · rename_i operation hstored
    split
    · trivial
    split
    · trivial
    split
    · split
      · trivial
      · split
        · exact guarantees_adoptRunner (h operation hstored)
        · exact guarantees_failOperation
    · trivial

theorem guarantees_getStatus : Requests request (getStatus calls) disk := by
  refine Requests.bind (guarantees_call (P := fun _ => True) trivial _) fun _ disk₁ _ => ?_
  refine Requests.bind guarantees_readOperation fun persisted disk₂ htaken => ?_
  exact guarantees_reconcileOperation fun operation => htaken persisted operation rfl

/-- With the variable of `startUpdate`. -/
abbrev Starts (request : Nat) (p : StartAsync α) (s : Disk × PlatformUpdateOperation) : Prop :=
  p.Guarantees (Prog.besideVars (rely (.server request)))
    (fun s s' => guar (.server request) s.1 s'.1) (fun _ _ => True) s

theorem Starts.bind {p : StartAsync α} {k : α → StartAsync β} {s : Disk × PlatformUpdateOperation}
    {Q : Except Failure α → Disk × PlatformUpdateOperation → Prop}
    (hp : p.Guarantees (Prog.besideVars (rely (.server request)))
      (fun s s' => guar (.server request) s.1 s'.1) Q s)
    (hk : ∀ a s', Q (.ok a) s' → Starts request (k a) s') : Starts request (p >>= k) s :=
  Prog.Guarantees.bind hp hk fun _ _ _ => trivial

/-- What the copy that `startUpdate` goes on from is worth. -/
def WorthWriting (disk : Disk) (latest : PlatformUpdateOperation × Nat) : Prop :=
  latest.2 = 0 ∨ Taken disk latest.2 latest.1

theorem WorthWriting.grows {latest : PlatformUpdateOperation × Nat} (h : WorthWriting disk latest)
    (hgrows : Grows disk disk') : WorthWriting disk' latest :=
  h.imp id fun htaken => htaken.grows hgrows

theorem worthWriting_latest {latestOperation : Snapshot}
    (h : ∀ latest, latestOperation.operation = some latest →
      Taken disk latestOperation.since latest) (operation : PlatformUpdateOperation) :
    WorthWriting disk (latestOperation.latest operation) := by
  rw [Snapshot.latest]
  split
  · exact .inl rfl
  · rename_i latest hlatest
    split
    · exact .inr (h latest hlatest)
    · exact .inl rfl

theorem guarantees_startRunner : Starts request (startRunner calls) (disk, operation) := by
  rw [startRunner]
  split
  · trivial
  · refine Starts.bind (.lift (guarantees_call (P := fun _ => True) trivial _)) fun _ s₁ _ => ?_
    refine Starts.bind (.lift guarantees_readOperation) fun latestOperation s₂ ⟨htaken, _⟩ => ?_
    refine Starts.bind (Q := fun r s' => ∀ operation, r = .ok operation →
        WorthWriting s'.1 (latestOperation.latest operation))
      (.read (fun s => guar_refl _ s.1) fun s' hs' operation _ => ?_) fun operation s₃ hworth => ?_
    · exact (worthWriting_latest (fun latest => htaken latestOperation latest rfl) operation).grows
        hs'.1
    · have hworth₃ := hworth operation rfl
      generalize latestOperation.latest operation = latest at hworth₃ ⊢
      obtain ⟨latest, since⟩ := latest
      refine Starts.bind (Q := fun _ s' => WorthWriting s'.1 (latest, since))
        (.modify fun s' hs' => ⟨guar_refl _ s'.1, hworth₃.grows hs'.1⟩) fun _ s₄ hworth₄ => ?_
      refine Starts.bind (.lift (guarantees_call (P := (WorthWriting · (latest, since))) hworth₄ _))
        fun _ s₅ ⟨hworth₅, _⟩ => ?_
      refine Starts.bind (.lift (guarantees_writeOperation ?_)) fun _ _ _ => trivial
      exact hworth₅.imp id fun htaken => ⟨latest, htaken, rfl, .inl rfl⟩

theorem guarantees_failStart : Starts request (failStart calls) (disk, operation) := by
  refine Starts.bind (Q := fun _ _ => True) (.read (fun s => guar_refl _ s.1) fun _ _ => trivial)
    fun operation s₁ _ => ?_
  refine Starts.bind (.lift (guarantees_call (P := fun _ => True) trivial _)) fun _ s₂ _ => ?_
  exact Starts.bind (.lift (guarantees_writeOperation (.inl rfl))) fun _ _ _ => trivial

theorem guarantees_beginUpdate :
    Requests request (beginUpdate calls operationId targetVersion) disk := by
  refine Requests.bind guarantees_getStatus fun current disk₁ _ => ?_
  split
  · trivial
  split
  · trivial
  refine Requests.bind (guarantees_call (P := fun _ => True) trivial _) fun _ disk₂ _ => ?_
  refine Requests.bind (guarantees_call (P := fun _ => True) trivial _) fun _ disk₃ _ => ?_
  refine Requests.bind (Unwriting.requests (unwriting_modify fun _ => rfl)) fun _ disk₄ _ => ?_
  refine Requests.bind (guarantees_call (P := fun _ => True) trivial _) fun _ disk₅ _ => ?_
  refine Requests.bind (guarantees_writeOperation (.inl rfl)) fun _ disk₆ _ => ?_
  refine Prog.Guarantees.withVars (Q := fun _ _ => True) ?_ fun _ _ _ _ => trivial
  exact guarantees_startRunner.tryCatch (fun _ _ _ => trivial) fun _ s _ => guarantees_failStart

theorem guarantees_startUpdate :
    Requests request (startUpdate calls operationId targetVersion) disk := by
  refine Requests.bind (p := acquireStarting) (Q := fun _ _ => True)
    (fun disk' _ => ⟨.inl rfl, trivial⟩) fun acquired disk₁ _ => ?_
  split
  · refine guarantees_beginUpdate.handle fun r disk₂ _ => ?_
    exact (unwriting_modify (f := fun disk => { disk with starting := false }) fun _ =>
      rfl).requests.handle fun _ _ _ => trivial
  · trivial

theorem guarantees_record (validation : PlatformUpdateStartupValidation) :
    Requests request (recordPlatformUpdateStartupValidation validation) disk := by
  refine Requests.bind guarantees_readOperation fun latest disk₁ _ => ?_
  split
  · trivial
  · split
    · exact Requests.bind (Unwriting.requests (unwriting_modify fun _ => rfl)) fun _ _ _ => trivial
    · trivial

end

/-! ## Runners -/

section
variable {operationId : String} {calls : RunnerCalls}

/-- The runner has written no result, and goes on with its operation. -/
structure Going (operationId : String) (s : Disk × RunnerVars) : Prop where
  unended : Unended operationId s.1.writes
  id : s.2.operation.id = operationId

/-- The steps of the runner. -/
abbrev Runs (operationId : String) (p : RunnerAsync α)
    (Q : Except Failure α → Disk × RunnerVars → Prop) (s : Disk × RunnerVars) : Prop :=
  p.Guarantees (Prog.besideVars (rely (.runner operationId)))
    (fun s s' => guar (.runner operationId) s.1 s'.1) Q s

theorem guarantees_of_unwriting {p : Async α} (hp : Unwriting p)
    (h : Unended operationId disk.writes) :
    p.Guarantees (rely (.runner operationId)) (guar (.runner operationId))
      (fun _ disk' => Unended operationId disk'.writes) disk := by
  induction p generalizing disk with
  | ret r => exact h
  | step f k ih =>
    intro disk' hrely
    obtain ⟨hwrites, hrest⟩ := hp disk'
    refine ⟨.inl hwrites, ih disk' hrest ?_⟩
    rw [hwrites]
    exact hrely h

theorem Going.lift {p : Async α} (h : Going operationId s) (hp : Unwriting p) :
    Runs operationId (liftM p) (fun _ s' => Going operationId s' ∧ s'.2 = s.2) s := by
  obtain ⟨disk, vars⟩ := s
  refine (guarantees_of_unwriting hp h.unended).lift.mono (fun _ _ h => h)
    fun r s' ⟨hunended, hvars⟩ => ⟨⟨hunended, ?_⟩, hvars⟩
  rw [hvars]
  exact h.id

theorem Going.assign (h : Going operationId s) {f : RunnerVars → RunnerVars}
    (hf : ∀ vars, (f vars).operation = vars.operation) :
    Runs operationId (Prog.assign f) (fun _ s' => Going operationId s') s := by
  refine .modify fun s' hs' => ⟨guar_refl _ s'.1, hs'.1 h.unended, ?_⟩
  rw [hf, hs'.2]
  exact h.id

theorem unwriting_call (failure : Option Failure) : Unwriting (call failure) := by
  cases failure with
  | none => exact .pure _
  | some failure => exact .throw _

theorem unwriting_readOperation : Unwriting readOperation := unwriting_read _

theorem unwriting_record (validation : PlatformUpdateStartupValidation) :
    Unwriting (recordPlatformUpdateStartupValidation validation) := by
  refine unwriting_readOperation.bind fun latest => ?_
  split
  · exact .pure _
  · split
    · exact (unwriting_modify fun _ => rfl).bind fun _ => .pure _
    · exact .pure _

theorem unwriting_reportAll (reports : List PlatformUpdateStartupValidation) :
    Unwriting (reportAll reports) := by
  induction reports with
  | nil => exact .pure _
  | cons report reports ih => exact (unwriting_record report).bind fun _ => ih

theorem unwriting_waitForVersion (version : String) (required : Bool) (polls : List Poll) :
    Unwriting (waitForVersion operationId version required polls) := by
  induction polls with
  | nil => exact .throw _
  | cons poll polls ih =>
    refine (unwriting_reportAll poll.reports).bind fun _ => ?_
    split
    · refine Prog.Steps.bind ?_ fun waits => ?_
      · rw [checkStartupValidation]
        split
        · exact (unwriting_read _).bind fun _ => .ret _
        · exact .pure _
      · split
        · exact ih
        · exact .pure _
    · exact ih

theorem unwriting_removeDirectories (directories : List String) :
    Unwriting (removeDirectories directories) := by
  induction directories with
  | nil => exact .pure _
  | cons directory directories ih =>
    exact (unwriting_modify (f := (·.removeOperationDirectory directory)) fun _ => rfl).bind fun _ => ih

theorem unwriting_pruneOldBackups : Unwriting (pruneOldBackupsForTerminalState calls) := by
  rw [pruneOldBackupsForTerminalState]
  split
  · exact (unwriting_removeDirectories _).bind fun _ => .pure _
  · exact .pure _

theorem latest_id {vars : RunnerVars} (h : vars.operation.id = operationId)
    (latestOperation : Option PlatformUpdateOperation) :
    (vars.latest operationId latestOperation).id = operationId := by
  cases latestOperation with
  | none => exact h
  | some latestOperation =>
    change (ite _ _ _ : PlatformUpdateOperation).id = operationId
    split
    · assumption
    · exact h

theorem Unended.snoc (h : Unended operationId writes) (hwrite : ¬write.IsResult operationId) :
    Unended operationId (writes ++ [write]) := by
  intro later hlater
  obtain hin | hlast := List.mem_append.mp hlater
  · exact h later hin
  · rw [List.mem_singleton.mp hlast]
    exact hwrite

/-- The last step of a transition to a phase. -/
theorem Going.write (h : Going operationId s) (hphase : s.2.operation.phase = phase) :
    Runs operationId
      (do
        let vars ← readVars
        writeOperation .runner vars.operation)
      (fun r s' => (∃ e, r = .error e) ∨ phase ∉ terminalPhases → Going operationId s') s := by
  refine Prog.Guarantees.bind (Q := fun r s' => r = .ok s'.2 ∧ s'.2 = s.2 ∧
      Unended operationId s'.1.writes) (.read (fun s => guar_refl _ s.1) fun s' hs' =>
        ⟨rfl, hs'.2, hs'.1 h.unended⟩) (fun vars s₁ ⟨heq, hvars, hunended⟩ => ?_)
    fun _ _ hread _ => nomatch hread.1
  obtain rfl : vars = s.2 := (Except.ok.inj heq).trans hvars
  refine Prog.Guarantees.modify fun s' hs' => ?_
  have hunended' : Unended s.2.operation.id s'.1.writes := by
    rw [h.id]
    exact hs'.1 hunended
  refine ⟨.inr ⟨⟨.runner, s.2.operation⟩, rfl, hunended', rfl, h.id⟩, fun hor => ⟨?_, ?_⟩⟩
  · have hphase' : phase ∉ terminalPhases := hor.resolve_left fun ⟨_, herror⟩ => nomatch herror
    refine (hs'.1 hunended).snoc fun hends => hphase' ?_
    rw [← hphase]
    exact hends.2.2
  · change s'.2.operation.id = operationId
    rw [hs'.2, hvars]
    exact h.id

/-- A transition writes the operation, and ends it only with a phase that is terminal. -/
theorem Going.transition (h : Going operationId s) :
    Runs operationId (Update.transition calls operationId phase message errorCode)
      (fun r s' => (∃ e, r = .error e) ∨ phase ∉ terminalPhases → Going operationId s') s := by
  refine (h.lift (unwriting_call _)).bind (fun _ s₁ ⟨hs₁, _⟩ => ?_) fun _ _ h _ => h.1
  refine (hs₁.lift unwriting_readOperation).bind (fun latestOperation s₂ ⟨hs₂, _⟩ => ?_)
    fun _ _ h _ => h.1
  refine Prog.Guarantees.bind (Q := fun _ s' => Going operationId s' ∧
      s'.2.operation.phase = phase) (.modify fun s' hs' => ⟨guar_refl _ s'.1, ⟨hs'.1 hs₂.unended, ?_⟩,
        rfl⟩) (fun _ s₃ ⟨hs₃, hphase⟩ => ?_) fun _ _ h _ => h.1
  · refine latest_id ?_ _
    rw [hs'.2]
    exact hs₂.id
  refine (hs₃.lift (unwriting_call _)).bind (fun _ s₄ ⟨hs₄, hvars⟩ => ?_) fun _ _ h _ => h.1
  refine hs₄.write ?_
  rw [hvars]
  exact hphase

/-- A transition that does not end the operation. -/
theorem Going.go (h : Going operationId s) (hphase : phase ∉ terminalPhases) :
    Runs operationId (Update.transition calls operationId phase message errorCode)
      (fun _ s' => Going operationId s') s :=
  h.transition.mono (fun _ _ h => h) fun _ _ hgoing => hgoing (.inr hphase)

theorem runs_bind {p : RunnerAsync α} {k : α → RunnerAsync β}
    (hp : Runs operationId p (fun _ s' => Going operationId s') s)
    (hk : ∀ a s', Going operationId s' →
      Runs operationId (k a) (fun r s' => (∃ e, r = .error e) → Going operationId s') s') :
    Runs operationId (p >>= k) (fun r s' => (∃ e, r = .error e) → Going operationId s') s :=
  Prog.Guarantees.bind hp hk fun _ _ h _ => h

theorem Going.call (h : Going operationId s) (failure : Option Failure) :
    Runs operationId (liftM (Update.call failure)) (fun _ s' => Going operationId s') s :=
  (h.lift (unwriting_call failure)).mono (fun _ _ h => h) fun _ _ h => h.1

theorem guarantees_prepareUpdate (h : Going operationId s) :
    Runs operationId (prepareUpdate calls operationId) (fun _ s' => Going operationId s') s := by
  refine (h.go (by decide)).bind (fun _ s₁ hs₁ => ?_) fun _ _ h => h
  refine (hs₁.call _).bind (fun _ s₂ hs₂ => ?_) fun _ _ h => h
  refine Prog.Guarantees.bind (hs₂.assign fun _ => rfl) (fun _ s₃ hs₃ => ?_) fun _ _ h => h
  refine (hs₃.call _).bind (fun _ s₄ hs₄ => ?_) fun _ _ h => h
  refine (hs₄.go (by decide)).bind (fun _ s₅ hs₅ => ?_) fun _ _ h => h
  refine (hs₅.call _).bind (fun _ s₆ hs₆ => ?_) fun _ _ h => h
  refine Prog.Guarantees.bind (hs₆.assign fun _ => rfl) (fun _ s₇ hs₇ => ?_) fun _ _ h => h
  refine (hs₇.go (by decide)).bind (fun _ s₈ hs₈ => ?_) fun _ _ h => h
  refine (hs₈.call _).bind (fun _ s₉ hs₉ => ?_) fun _ _ h => h
  refine (hs₉.call _).bind (fun _ s₁₀ hs₁₀ => ?_) fun _ _ h => h
  refine (hs₁₀.call _).bind (fun _ s₁₁ hs₁₁ => ?_) fun _ _ h => h
  refine (hs₁₁.call _).bind (fun _ s₁₂ hs₁₂ => ?_) fun _ _ h => h
  exact hs₁₂.assign fun _ => rfl

theorem guarantees_installUpdate (h : Going operationId s) :
    Runs operationId (installUpdate calls operationId input)
      (fun r s' => (∃ e, r = .error e) → Going operationId s') s := by
  refine runs_bind (h.call _) fun _ s₁ hs₁ => ?_
  refine runs_bind (hs₁.call _) fun _ s₂ hs₂ => ?_
  refine runs_bind (hs₂.go (by decide)) fun _ s₃ hs₃ => ?_
  refine runs_bind (hs₃.call _) fun _ s₄ hs₄ => ?_
  refine runs_bind (hs₄.go (by decide)) fun _ s₅ hs₅ => ?_
  refine (hs₅.lift (unwriting_waitForVersion _ true _)).bind (fun _ s₆ ⟨hs₆, _⟩ => ?_)
    fun _ _ h _ => h.1
  refine (hs₆.lift unwriting_pruneOldBackups).bind (fun warning s₇ ⟨hs₇, _⟩ => ?_) fun _ _ h _ => h.1
  exact hs₇.transition.mono (fun _ _ h => h) fun _ _ hgoing herror => hgoing (.inl herror)

theorem guarantees_restoreSource (h : Going operationId s) :
    Runs operationId (restoreSource calls operationId input) (fun _ s' => Going operationId s') s := by
  refine Prog.Guarantees.bind (Q := fun _ s' => Going operationId s')
    (.read (fun s => guar_refl _ s.1) fun s' hs' => ⟨hs'.1 h.unended, ?_⟩)
    (fun vars s₁ hs₁ => ?_) fun _ _ h => h
  · rw [hs'.2]
    exact h.id
  refine (hs₁.call _).bind (fun _ s₂ hs₂ => ?_) fun _ _ h => h
  refine (hs₂.call _).bind (fun _ s₃ hs₃ => ?_) fun _ _ h => h
  refine (hs₃.call _).bind (fun _ s₄ hs₄ => ?_) fun _ _ h => h
  refine (hs₄.call _).bind (fun _ s₅ hs₅ => ?_) fun _ _ h => h
  refine (hs₅.lift (unwriting_waitForVersion _ true _)).bind (fun _ s₆ ⟨hs₆, _⟩ => ?_)
    fun _ _ h => h.1
  exact (hs₆.lift unwriting_pruneOldBackups).mono (fun _ _ h => h) fun _ _ h => h.1

theorem guarantees_rollbackUpdate (h : Going operationId s) :
    Runs operationId (rollbackUpdate calls operationId input failureCode) (fun _ _ => True) s := by
  refine Prog.Guarantees.tryCatch (Q := fun r s' => (∃ e, r = .error e) → Going operationId s') ?_
    (fun _ _ _ => trivial) fun e s₁ hs₁ => ?_
  · refine runs_bind (h.go (by decide)) fun _ s₁ hs₁ => ?_
    refine runs_bind (guarantees_restoreSource hs₁) fun warning s₂ hs₂ => ?_
    exact hs₂.transition.mono (fun _ _ h => h) fun _ _ hgoing herror => hgoing (.inl herror)
  · exact (hs₁ ⟨e, rfl⟩).transition.mono (fun _ _ h => h) fun _ _ _ => trivial

theorem guarantees_updateInstallation (h : Going operationId s) :
    Runs operationId (updateInstallation calls operationId input) (fun _ _ => True) s := by
  refine Prog.Guarantees.tryCatch (Q := fun r s' => (∃ e, r = .error e) → Going operationId s') ?_
    (fun _ _ _ => trivial) fun e s₁ hs₁ => ?_
  · exact runs_bind (guarantees_prepareUpdate h) fun _ s₁ hs₁ => guarantees_installUpdate hs₁
  · have hgoing := hs₁ ⟨e, rfl⟩
    refine Prog.Guarantees.bind (Q := fun _ s' => Going operationId s')
      (.read (fun s => guar_refl _ s.1) fun s' hs' => ⟨hs'.1 hgoing.unended, ?_⟩)
      (fun vars s₂ hs₂ => ?_) fun _ _ _ => trivial
    · rw [hs'.2]
      exact hgoing.id
    · split
      · exact guarantees_rollbackUpdate hs₂
      · exact hs₂.transition.mono (fun _ _ h => h) fun _ _ _ => trivial

theorem unwriting_readRunnerInput : Unwriting (readRunnerInput operationId) := by
  refine (unwriting_read _).bind fun input => ?_
  split
  · exact .throw _
  · split
    · exact .pure _
    · exact .throw _

theorem guarantees_runPlatformUpdate (h : Unended operationId disk.writes) :
    (runPlatformUpdate calls operationId).Guarantees (rely (.runner operationId))
      (guar (.runner operationId)) (fun _ _ => True) disk := by
  refine (guarantees_of_unwriting unwriting_readRunnerInput h).bind (fun input disk₁ hs₁ => ?_)
    fun _ _ _ => trivial
  refine (guarantees_of_unwriting unwriting_readOperation hs₁).bind (fun stored disk₂ hs₂ => ?_)
    fun _ _ _ => trivial
  split
  · trivial
  · split
    · rename_i storedOperation _ hid
      exact (guarantees_updateInstallation ⟨hs₂, hid⟩).withVars fun _ _ _ _ => trivial
    · trivial

end

/-! ## Every run -/

theorem guarantees_program (job : Job) (disk : Disk) (h : starts job.place disk) :
    job.program.Guarantees (rely job.place) (guar job.place) (fun _ _ => True) disk := by
  cases job with
  | runner calls operationId => exact guarantees_runPlatformUpdate h
  | getStatus request calls => exact Requests.bind guarantees_getStatus fun _ _ _ => trivial
  | startUpdate request calls operationId targetVersion =>
    exact Requests.bind guarantees_startUpdate fun _ _ _ => trivial
  | boot request validation =>
    refine Requests.bind (Unwriting.requests (unwriting_modify fun _ => rfl)) fun _ disk₁ _ => ?_
    exact Requests.bind (guarantees_record validation) fun _ _ _ => trivial

/-- A step that does not race with a result keeps the results. -/
theorem keepsResults_step :
    Preserves (Guarded (Fires System.next) System.Unraced) fun P : System =>
      P.Guaranteed rely guar starts ∧ KeepsResults P.store.writes := by
  intro P action P' hstep hP
  obtain ⟨hguaranteed, hkeeps⟩ := hP
  refine ⟨Pool.Guaranteed.act agree rely_refl guarantees_program hstep.1 hguaranteed, ?_⟩
  obtain ⟨job, -, -, rfl⟩ | ⟨place, job, f, k, rfl, hjob, rfl⟩ := Pool.act_cases hstep.1
  · exact hkeeps
  · change KeepsResults (f P.store).writes
    obtain heq | ⟨write, heq, hsound, -⟩ := hguaranteed.step_guar rely_refl hjob
    · rw [heq]
      exact hkeeps
    · rw [heq]
      exact hkeeps.snoc hsound (hstep.2 job f k hjob write heq)

/-- In every run in which no request writes a copy that is older than the result of the runner, no
write replaces the result. -/
theorem keepsResults_of_unraced
    (hrun : Run (Guarded (Fires System.next) System.Unraced) (Pool.init .empty) actions P) :
    KeepsResults P.store.writes := by
  refine (hrun.invariant keepsResults_step ⟨.init fun place => ?_, .nil⟩).2
  cases place with
  | runner operationId => exact fun write hwrite => absurd hwrite List.not_mem_nil
  | server request => trivial

/-! ### Runs of an update -/

/-- A runner whose calls return, and whose update is accepted at once. -/
def acceptedCalls : RunnerCalls where
  readStatus _ := none
  writeStatus _ := none
  now _ := 1000
  readComposeEnvironment := none
  downloadTargetCompose := none
  backupInstallation := none
  pullImage := none
  inspectImage := none
  digestMatches := true
  writeEnvironment := none
  writeCompose := none
  config := none
  up := none
  polls := [⟨[⟨"1.1.0", true, 1000, "ready"⟩], some "1.1.0"⟩]
  restoreInstallation := none
  configRestored := none
  upRestored := none
  restoredPolls := []
  pruneOldBackups := .ok []

/-- Docker does not answer for the runner's container, and lists it. -/
def inspectFails : StatusCalls where
  readStatus := none
  now := 20000
  inspectContainer := .error .other
  listAllContainers := .ok [⟨"c1", true, some "u1"⟩]
  readLatest := none
  write := none
  written := 20000

def startCalls : StartCalls where
  status := inspectFails
  currentVersion := "1.0.0"
  release := some "1.1.0"
  preflight := none
  writeRunnerInput := none
  writePreparing := none
  runUtilityContainer := .ok "c1"
  readLatest := none
  writeRunner := none
  writeFailed := none
  now := 0

/-- The update is started, and its container recorded. -/
def startActions : List (Pool.Action Place Job) :=
  .start (.startUpdate 0 startCalls "u1" "1.1.0") :: .replicate 9 (.step (.server 0))

/-- A runner that cannot read its environment writes that the update has failed. -/
def failActions : List (Pool.Action Place Job) :=
  startActions ++ .start (.runner { acceptedCalls with readComposeEnvironment := some .other } "u1") ::
    .replicate 11 (.step (.runner "u1"))

/-- No result has been written. -/
def System.Calm (P : System) : Prop := ∀ write ∈ P.store.writes, write.operation.phase ∉ terminalPhases

instance (P : System) : Decidable P.Calm := inferInstanceAs (Decidable (∀ write ∈ _, _))

theorem System.Calm.unraced {P : System} (h : P.Calm) (action : Pool.Action Place Job) :
    P.Unraced action := by
  cases action with
  | start job => trivial
  | step place =>
    intro job f k _ write _
    rw [Update.Unraced]
    split
    · trivial
    · exact fun result hresult hends => h result (List.mem_of_mem_drop hresult) hends.2.2

theorem keepsResults_of_unraced_failed :
    ∃ P, Run (Guarded (Fires System.next) System.Unraced) (Pool.init .empty) failActions P ∧
      P.store.operation.map (·.phase) = some .failed ∧ KeepsResults P.store.writes := by
  have hcalm : Run (Fires fun (P : System) action => if P.Calm then System.next P action else none)
      (Pool.init .empty) failActions _ := .of_exec rfl
  have hrun : Run (Guarded (Fires System.next) System.Unraced) (Pool.init .empty) failActions _ :=
    hcalm.mono fun P action P' hstep => by
      rw [Fires] at hstep
      split at hstep
      · exact ⟨hstep, System.Calm.unraced ‹_› action⟩
      · cases hstep
  exact ⟨_, hrun, rfl, keepsResults_of_unraced hrun⟩

/-- While the runner verifies the new version, a request takes its copy and sees that the runner goes
on; the runner then completes the update, and the request adopts the runner. -/
def adoptActions : List (Pool.Action Place Job) :=
  startActions ++ .start (.runner acceptedCalls "u1") :: .replicate 25 (.step (.runner "u1")) ++
    [.start (.getStatus 1 inspectFails), .step (.server 1)] ++ .replicate 7 (.step (.runner "u1")) ++
    [.step (.server 1)]

/-- The request writes that the completed update is being verified. -/
theorem not_keepsResults :
    ¬∀ actions P, Run (Fires System.next) (Pool.init .empty) actions P →
      KeepsResults P.store.writes := by
  intro h
  have hkeeps := h adoptActions _ (.of_exec rfl)
  exact absurd hkeeps (by decide)

end OpenLander.Update
