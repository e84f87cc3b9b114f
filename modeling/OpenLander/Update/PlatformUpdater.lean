import OpenLander.Update.StateStore

/-! # The server's side of a platform update

`startUpdate` writes the operation, starts the runner of it in a container of its own, and then records
the container in the operation. Whenever the status is asked for, `reconcileOperation` looks after an
operation that has not been updated for a while: it adopts a runner whose container is not recorded, and
it marks the operation as failed when there is no runner.

Between reading `status.json` and writing it the server waits for Docker, and the runner goes on. -/

namespace OpenLander.Update
open Theory

def activePhases : List PlatformUpdatePhase :=
  [.preparing, .backingUp, .pulling, .restarting, .verifying, .rollingBack]

def PlatformUpdateOperation.isActive (operation : PlatformUpdateOperation) : Prop :=
  operation.phase ∈ activePhases

instance (operation : PlatformUpdateOperation) : Decidable operation.isActive :=
  inferInstanceAs (Decidable (_ ∈ _))

def RUNNER_RECONCILE_GRACE_MS : Nat := 15000

structure Container where
  id : String
  running : Bool
  /-- The label `openlander.update.id`. -/
  updateId : Option String
  deriving DecidableEq, Repr

/-- How the calls of a look at the status end, and what the clock shows. -/
structure StatusCalls where
  /-- The calls of `getStatus` before `reconcileOperation`. -/
  readStatus : Option Failure
  now : Nat
  /-- Whether the runner's container runs. -/
  inspectContainer : Except Failure Bool
  listAllContainers : Except Failure (List Container)
  readLatest : Option Failure
  write : Option Failure
  written : Nat

/-- Whether nothing is known to run the operation. -/
def runnerStopped (calls : StatusCalls) (operation : PlatformUpdateOperation) : Bool :=
  if operation.runnerContainerId.getD "" = "" then true
  else match calls.inspectContainer with
    | .ok running => !running
    | .error _ => true

def recoveredRunner (operation : PlatformUpdateOperation) (containers : List Container) :
    Option Container :=
  containers.find? fun container =>
    container.running && container.updateId == some operation.id

/-- The operation goes on with a runner that was not recorded. -/
def adoptRunner (calls : StatusCalls) (since : Nat) (operation : PlatformUpdateOperation)
    (runner : Container) : Async (Option PlatformUpdateOperation) := do
  let recoveredOperation :=
    { operation with runnerContainerId := some runner.id, updatedAt := calls.written }
  call calls.write
  writeOperation (.server since) recoveredOperation
  return some recoveredOperation

/-- The operation has no runner. -/
def failOperation (calls : StatusCalls) : Async (Option PlatformUpdateOperation) := do
  call calls.readLatest
  let latest ← readOperation
  match latest.operation with
  | none => return none
  | some latestOperation =>
    if latestOperation.isActive then
      let failedOperation :=
        { latestOperation with
          phase := .failed
          updatedAt := calls.written
          message := some "The update runner stopped before it recorded a final result."
          errorCode := some "UPDATE_RUNNER_STOPPED" }
      call calls.write
      writeOperation (.server latest.since) failedOperation
      return some failedOperation
    else return some latestOperation

def reconcileOperation (calls : StatusCalls) (persisted : Snapshot) :
    Async (Option PlatformUpdateOperation) :=
  match persisted.operation with
  | none => return none
  | some operation =>
    if ¬operation.isActive then return some operation
    else if calls.now - operation.updatedAt < RUNNER_RECONCILE_GRACE_MS then return some operation
    else if runnerStopped calls operation then
      match calls.listAllContainers with
      | .error failure => throw failure
      | .ok containers =>
        match recoveredRunner operation containers with
        | some runner => adoptRunner calls persisted.since operation runner
        | none => failOperation calls
    else return some operation

/-- The operation that the status shows. -/
def getStatus (calls : StatusCalls) : Async (Option PlatformUpdateOperation) := do
  call calls.readStatus
  let persistedOperation ← readOperation
  reconcileOperation calls persistedOperation

/-- How the calls of `startUpdate` end. -/
structure StartCalls where
  status : StatusCalls
  currentVersion : String
  /-- The version that is released. -/
  release : Option String
  /-- The checks after those of the operation: deployments, project locks, the installation, the
  manifest and the preflight. -/
  preflight : Option Failure
  writeRunnerInput : Option Failure
  writePreparing : Option Failure
  /-- The id of the runner's container. -/
  runUtilityContainer : Except Failure String
  readLatest : Option Failure
  writeRunner : Option Failure
  writeFailed : Option Failure
  now : Nat

/-- What `startUpdate` goes on from once the runner runs, and since when. -/
def Snapshot.latest (latestOperation : Snapshot) (operation : PlatformUpdateOperation) :
    PlatformUpdateOperation × Nat :=
  match latestOperation.operation with
  | none => (operation, 0)
  | some latest => if latest.id = operation.id then (latest, latestOperation.since) else (operation, 0)

/-- With the variable `operation` of `startUpdate`. -/
abbrev StartAsync := Prog (Disk × PlatformUpdateOperation) Failure

/-- Start the runner and record its container. -/
def startRunner (calls : StartCalls) : StartAsync PlatformUpdateOperation := do
  match calls.runUtilityContainer with
  | .error failure => throw failure
  | .ok runnerContainerId =>
    call calls.readLatest
    let latestOperation ← readOperation
    let operation ← Prog.read (·.2)
    let (latest, since) := latestOperation.latest operation
    let recorded :=
      { latest with runnerContainerId := some runnerContainerId, updatedAt := calls.now }
    Prog.assign fun _ => recorded
    call calls.writeRunner
    writeOperation (.server since) recorded
    return recorded

/-- The failure of a start is recorded whatever `status.json` holds by then. -/
def failStart (calls : StartCalls) : StartAsync PlatformUpdateOperation := do
  let operation ← Prog.read (·.2)
  call calls.writeFailed
  writeOperation (.server 0)
    { operation with
      phase := .failed
      updatedAt := calls.now
      message := some "The update runner could not be started."
      errorCode := some "RUNNER_START_FAILED" }
  throw (.execution "The update runner could not be started.")

/-- The operation of an update that begins. -/
def preparingOperation (calls : StartCalls) (operationId targetVersion : String) :
    PlatformUpdateOperation where
  id := operationId
  sourceVersion := calls.currentVersion
  targetVersion := targetVersion
  phase := .preparing
  startedAt := calls.now
  updatedAt := calls.now
  message := none
  errorCode := none
  runnerContainerId := none

/-- `startUpdate` with the flag `starting` set. -/
def beginUpdate (calls : StartCalls) (operationId targetVersion : String) :
    Async PlatformUpdateOperation := do
  let current ← getStatus calls.status
  if calls.release ≠ some targetVersion then throw (.target targetVersion)
  else if ∃ operation ∈ current, operation.isActive then throw (.busy "update_in_progress")
  else
    call calls.preflight
    let operation := preparingOperation calls operationId targetVersion
    call calls.writeRunnerInput
    writeRunnerInput ⟨operationId, calls.currentVersion, targetVersion⟩
    call calls.writePreparing
    writeOperation (.server 0) operation
    Prog.withVars operation (tryCatch (startRunner calls) fun _ => failStart calls)

/-- Set the flag `starting`, unless it is set. -/
def acquireStarting : Async Bool :=
  .step (fun disk => { disk with starting := true }) fun disk => pure !disk.starting

def releaseStarting : Async Unit := .modify fun disk => { disk with starting := false }

/-- The id is the one that `randomUUID` yields. -/
def startUpdate (calls : StartCalls) (operationId targetVersion : String) :
    Async PlatformUpdateOperation := do
  if ← acquireStarting then
    (beginUpdate calls operationId targetVersion).andFinally releaseStarting
  else throw (.busy "update_in_progress")

end OpenLander.Update
