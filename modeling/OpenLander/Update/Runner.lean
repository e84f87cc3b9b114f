import OpenLander.Update.StateStore

/-! # The runner of a platform update

`runPlatformUpdate` backs the installation up, replaces its files, restarts OpenLander with Docker
Compose and waits until the new version answers `/health` and has reported its startup validation.
Where that fails after the files were changed, it restores them, restarts OpenLander once more and
waits for the version it came from in the same way.

A process that boots reports between two polls of its health, so that a poll has the reports that
come before it. The reports go through `recordPlatformUpdateStartupValidation`. -/

namespace OpenLander.Update
open Theory

structure Poll where
  reports : List PlatformUpdateStartupValidation
  /-- The version of an answer that is `ok`. Without it the poll fails, or the report of the version
  could not be read. -/
  health : Option String
  deriving DecidableEq, Repr

/-- How the calls of a run end. -/
structure RunnerCalls where
  readStatus : PlatformUpdatePhase → Option Failure
  writeStatus : PlatformUpdatePhase → Option Failure
  now : PlatformUpdatePhase → Nat
  readComposeEnvironment : Option Failure
  downloadTargetCompose : Option Failure
  backupInstallation : Option Failure
  pullImage : Option Failure
  inspectImage : Option Failure
  /-- Whether the pulled image has the digest of the release. -/
  digestMatches : Bool
  writeEnvironment : Option Failure
  writeCompose : Option Failure
  config : Option Failure
  up : Option Failure
  polls : List Poll
  restoreInstallation : Option Failure
  configRestored : Option Failure
  upRestored : Option Failure
  restoredPolls : List Poll
  /-- The directories that `pruneOldBackups` finds to remove. -/
  pruneOldBackups : Except Failure (List String)

/-- The variables that the closures of `runPlatformUpdate` share. -/
structure RunnerVars where
  operation : PlatformUpdateOperation
  backupComplete : Bool
  filesChanged : Bool
  composeEnvironment : Bool
  deriving DecidableEq, Repr

abbrev RunnerAsync := Prog (Disk × RunnerVars) Failure

def readVars : RunnerAsync RunnerVars := .read (·.2)

def publicFailureCode : Failure → String
  | .validation _ => "UPDATE_VERIFICATION_FAILED"
  | .execution _ => "UPDATE_COMMAND_FAILED"
  | _ => "UPDATE_FAILED"

/-! ## `waitForVersion` -/

/-- The reports of a process, one after another. -/
def reportAll : List PlatformUpdateStartupValidation → Async Unit
  | [] => pure ()
  | report :: reports => do
    let _ ← recordPlatformUpdateStartupValidation report
    reportAll reports

/-- What a poll that was answered with the version comes to: whether to wait on. -/
def acceptValidation (expectedVersion : String) :
    Option PlatformUpdateStartupValidation → Except Failure Bool
  | none => .ok true
  | some validation =>
    if validation.version = expectedVersion then
      if validation.ok then .ok false
      else .error (.validation "The updated process failed its Traefik startup validation.")
    else .ok true

def checkStartupValidation (operationId expectedVersion : String)
    (requireStartupValidation : Bool) : Async Bool :=
  if requireStartupValidation then do
    let validation ← readStartupValidation operationId
    Prog.ret (acceptValidation expectedVersion validation)
  else return false

/-- The polls are those that there is time for. -/
def waitForVersion (operationId expectedVersion : String) (requireStartupValidation : Bool) :
    List Poll → Async Unit
  | [] => throw (.validation "The updated process did not pass health verification.")
  | poll :: polls => do
    reportAll poll.reports
    if poll.health = some expectedVersion then
      let waits ← checkStartupValidation operationId expectedVersion requireStartupValidation
      if waits then waitForVersion operationId expectedVersion requireStartupValidation polls
      else return ()
    else waitForVersion operationId expectedVersion requireStartupValidation polls

/-! ## `runPlatformUpdate` -/

/-- What a transition goes on from: the stored operation if it is the one of the runner. -/
def RunnerVars.latest (vars : RunnerVars) (operationId : String) :
    Option PlatformUpdateOperation → PlatformUpdateOperation
  | none => vars.operation
  | some latestOperation =>
    if latestOperation.id = operationId then latestOperation else vars.operation

def transition (calls : RunnerCalls) (operationId : String) (phase : PlatformUpdatePhase)
    (message errorCode : Option String) : RunnerAsync Unit := do
  call (calls.readStatus phase)
  let latestOperation ← readOperation
  Prog.assign fun vars =>
    { vars with
      operation :=
        { vars.latest operationId latestOperation.operation with
          phase := phase
          updatedAt := calls.now phase
          message := message
          errorCode := errorCode } }
  call (calls.writeStatus phase)
  let vars ← readVars
  writeOperation .runner vars.operation

def removeDirectories : List String → Async Unit
  | [] => pure ()
  | directory :: directories => do
    removeOperationDirectory directory
    removeDirectories directories

def pruneOldBackupsForTerminalState (calls : RunnerCalls) : Async (Option String) :=
  match calls.pruneOldBackups with
  | .ok old => do
    removeDirectories old
    return none
  | .error _ =>
    return some "The update finished, but older backup directories could not be pruned."

/-- Up to the first change of the installation files. -/
def prepareUpdate (calls : RunnerCalls) (operationId : String) : RunnerAsync Unit := do
  transition calls operationId .preparing none none
  call calls.readComposeEnvironment
  Prog.assign fun vars => { vars with composeEnvironment := true }
  call calls.downloadTargetCompose
  transition calls operationId .backingUp none none
  call calls.backupInstallation
  Prog.assign fun vars => { vars with backupComplete := true }
  transition calls operationId .pulling none none
  call calls.pullImage
  call calls.inspectImage
  call <| if calls.digestMatches then none
    else some (.validation "The pulled image digest does not match the release.")
  call calls.writeEnvironment
  Prog.assign fun vars => { vars with filesChanged := true }

/-- With the installation files changed. -/
def installUpdate (calls : RunnerCalls) (operationId : String)
    (input : PlatformUpdateRunnerInput) : RunnerAsync Unit := do
  call calls.writeCompose
  call calls.config
  transition calls operationId .restarting none none
  call calls.up
  transition calls operationId .verifying none none
  waitForVersion operationId input.targetVersion true calls.polls
  let retentionWarning ← pruneOldBackupsForTerminalState calls
  transition calls operationId .completed retentionWarning none

/-- The message of an operation that is rolled back. -/
def rolledBackMessage (retentionWarning : Option String) : String :=
  " ".intercalate
    ("The previous version was restored. Review the update error before retrying." ::
      retentionWarning.toList)

/-- The steps of the rollback once `rolling_back` is recorded. -/
def restoreSource (calls : RunnerCalls) (operationId : String)
    (input : PlatformUpdateRunnerInput) : RunnerAsync (Option String) := do
  let vars ← readVars
  call <| if vars.composeEnvironment then none
    else some (.validation "The current Compose environment is unavailable for rollback.")
  call calls.restoreInstallation
  call calls.configRestored
  call calls.upRestored
  waitForVersion operationId input.sourceVersion true calls.restoredPolls
  pruneOldBackupsForTerminalState calls

def rollbackUpdate (calls : RunnerCalls) (operationId : String)
    (input : PlatformUpdateRunnerInput) (failureCode : String) : RunnerAsync Unit :=
  tryCatch
    (do
      transition calls operationId .rollingBack
        (some "Update verification failed; restoring the previous version.") (some failureCode)
      let retentionWarning ← restoreSource calls operationId input
      transition calls operationId .rolledBack (some (rolledBackMessage retentionWarning))
        (some failureCode))
    fun _ =>
      transition calls operationId .failed
        (some "The update and automatic rollback both failed. Manual recovery is required.")
        (some "UPDATE_ROLLBACK_FAILED")

/-- The `catch` of `runPlatformUpdate`. -/
def recoverUpdate (calls : RunnerCalls) (operationId : String)
    (input : PlatformUpdateRunnerInput) (error : Failure) : RunnerAsync Unit := do
  let vars ← readVars
  if vars.backupComplete ∧ vars.filesChanged then
    rollbackUpdate calls operationId input (publicFailureCode error)
  else
    transition calls operationId .failed
      (some "The update stopped before OpenLander was replaced.") (some (publicFailureCode error))

def updateInstallation (calls : RunnerCalls) (operationId : String)
    (input : PlatformUpdateRunnerInput) : RunnerAsync Unit :=
  tryCatch
    (do
      prepareUpdate calls operationId
      installUpdate calls operationId input)
    (recoverUpdate calls operationId input)

def RunnerVars.init (operation : PlatformUpdateOperation) : RunnerVars :=
  ⟨operation, false, false, false⟩

def runPlatformUpdate (calls : RunnerCalls) (operationId : String) : Async Unit := do
  let input ← readRunnerInput operationId
  match (← readOperation).operation with
  | none => throw (.validation "Update operation state does not match the runner.")
  | some storedOperation =>
    if storedOperation.id = operationId then
      (updateInstallation calls operationId input).withVars (.init storedOperation)
    else throw (.validation "Update operation state does not match the runner.")

end OpenLander.Update
