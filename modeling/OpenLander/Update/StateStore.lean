import Mathlib.Data.List.Basic
import OpenLander.Theory.Prog

/-! # The files of a platform update

`status.json` holds the operation that was written last. The runner of the operation writes it from
a container of its own, and the server that the runner replaces writes it too, neither of them under
a lock. `Disk.writes` is the history of the file, each write with who made it: the content of the file
is the last entry. A write of the server says how much of the history its copy of the operation was
taken from.

Left alone, a file is replaced in one step (`writeJsonAtomic` renames a temporary file). -/

namespace OpenLander.Update
open Theory

inductive PlatformUpdatePhase
  | preparing
  | backingUp
  | pulling
  | restarting
  | verifying
  | completed
  | rollingBack
  | rolledBack
  | failed
  deriving DecidableEq, Repr

structure PlatformUpdateOperation where
  id : String
  sourceVersion : String
  targetVersion : String
  phase : PlatformUpdatePhase
  /-- Times are in milliseconds. -/
  startedAt : Nat
  updatedAt : Nat
  message : Option String
  errorCode : Option String
  runnerContainerId : Option String
  deriving DecidableEq, Repr

structure PlatformUpdateRunnerInput where
  operationId : String
  sourceVersion : String
  targetVersion : String
  deriving DecidableEq, Repr

structure PlatformUpdateStartupValidation where
  version : String
  ok : Bool
  checkedAt : Nat
  message : String
  deriving DecidableEq, Repr

inductive Failure
  /-- `PlatformUpdateValidationError` -/
  | validation (message : String)
  /-- `PlatformUpdateExecutionError` -/
  | execution (message : String)
  /-- `PlatformUpdateBusyError` -/
  | busy (reason : String)
  /-- `PlatformUpdateTargetError` -/
  | target (targetVersion : String)
  | other
  deriving DecidableEq, Repr

inductive Writer
  | runner
  /-- A copy that was read after so many writes, and `0` for a record that does not come from the
  file. -/
  | server (since : Nat)
  deriving DecidableEq, Repr

structure Write where
  writer : Writer
  operation : PlatformUpdateOperation
  deriving DecidableEq, Repr

structure Disk where
  writes : List Write
  runnerInput : String → Option PlatformUpdateRunnerInput
  startupValidation : String → Option PlatformUpdateStartupValidation
  /-- The flag `starting` of the server's `PlatformUpdater`. -/
  starting : Bool

/-- The content of `status.json`. -/
def Disk.operation (disk : Disk) : Option PlatformUpdateOperation :=
  disk.writes.getLast?.map (·.operation)

/-- Nothing has been updated yet. -/
def Disk.empty : Disk := ⟨[], fun _ => none, fun _ => none, false⟩

abbrev Async := Prog Disk Failure

/-- A call that leaves the files as they are. -/
def call (failure : Option Failure) : Async Unit :=
  match failure with
  | none => pure ()
  | some failure => throw failure

/-! ## `PlatformUpdateStateStore` -/

/-- What was read of `status.json`, after so many writes. -/
structure Snapshot where
  operation : Option PlatformUpdateOperation
  since : Nat

def readOperation : Async Snapshot :=
  .read fun disk => ⟨disk.operation, disk.writes.length⟩

def Disk.writeOperation (disk : Disk) (write : Write) : Disk :=
  { disk with writes := disk.writes ++ [write] }

def writeOperation (writer : Writer) (operation : PlatformUpdateOperation) : Async Unit :=
  .modify (·.writeOperation ⟨writer, operation⟩)

def readStartupValidation (operationId : String) :
    Async (Option PlatformUpdateStartupValidation) :=
  .read (·.startupValidation operationId)

def Disk.writeStartupValidation (disk : Disk) (operationId : String)
    (validation : PlatformUpdateStartupValidation) : Disk :=
  { disk with
    startupValidation :=
      Function.update disk.startupValidation operationId (some validation) }

def writeStartupValidation (operationId : String) (validation : PlatformUpdateStartupValidation) :
    Async Unit :=
  .modify (·.writeStartupValidation operationId validation)

def Disk.writeRunnerInput (disk : Disk) (input : PlatformUpdateRunnerInput) : Disk :=
  { disk with runnerInput := Function.update disk.runnerInput input.operationId (some input) }

def writeRunnerInput (input : PlatformUpdateRunnerInput) : Async Unit :=
  .modify (·.writeRunnerInput input)

def readRunnerInput (operationId : String) : Async PlatformUpdateRunnerInput := do
  match ← (.read (·.runnerInput operationId) : Async (Option PlatformUpdateRunnerInput)) with
  | none => throw (.validation "Update runner input could not be read.")
  | some input =>
    if input.operationId = operationId then return input
    else throw (.validation "Update runner input is invalid.")

def Disk.removeOperationDirectory (disk : Disk) (operationId : String) : Disk :=
  { disk with
    runnerInput := Function.update disk.runnerInput operationId none
    startupValidation := Function.update disk.startupValidation operationId none }

def removeOperationDirectory (operationId : String) : Async Unit :=
  .modify (·.removeOperationDirectory operationId)

/-- The phases in which a process that boots reports its startup validation. -/
def reportingPhases : List PlatformUpdatePhase := [.restarting, .verifying, .rollingBack]

/-- Whether the version may report, with this operation in `status.json`. -/
def PlatformUpdateOperation.Admits (operation : PlatformUpdateOperation) (version : String) : Prop :=
  operation.targetVersion = version ∧ operation.phase ∈ reportingPhases

instance (operation : PlatformUpdateOperation) (version : String) :
    Decidable (operation.Admits version) :=
  inferInstanceAs (Decidable (_ ∧ _))

/-- What the version `validation.version` reports once it has booted. -/
def recordPlatformUpdateStartupValidation (validation : PlatformUpdateStartupValidation) :
    Async Bool := do
  match (← readOperation).operation with
  | none => return false
  | some operation =>
    if operation.Admits validation.version then
      writeStartupValidation operation.id validation
      return true
    else return false

/-! ## Lemmas on the files -/

section
variable {disk : Disk}

@[simp] theorem operation_writeOperation (write : Write) :
    (disk.writeOperation write).operation = some write.operation := by
  simp [Disk.operation, Disk.writeOperation]

@[simp] theorem operation_writeStartupValidation (operationId : String)
    (validation : PlatformUpdateStartupValidation) :
    (disk.writeStartupValidation operationId validation).operation = disk.operation := rfl

@[simp] theorem operation_removeOperationDirectory (operationId : String) :
    (disk.removeOperationDirectory operationId).operation = disk.operation := rfl

@[simp] theorem startupValidation_writeOperation (write : Write) :
    (disk.writeOperation write).startupValidation = disk.startupValidation := rfl

@[simp] theorem startupValidation_writeStartupValidation (operationId : String)
    (validation : PlatformUpdateStartupValidation) :
    (disk.writeStartupValidation operationId validation).startupValidation operationId =
      some validation :=
  Function.update_self ..

theorem run_readRunnerInput {input : PlatformUpdateRunnerInput}
    (h : disk.runnerInput operationId = some input) (hid : input.operationId = operationId) :
    (readRunnerInput operationId).run disk = (.ok input, disk) := by
  rw [readRunnerInput, Prog.run_read_bind, h]
  exact congrArg (Prog.run · disk) (if_pos hid)

/-- A process reports if and only if the operation is about its version. -/
theorem run_recordPlatformUpdateStartupValidation (validation : PlatformUpdateStartupValidation)
    (h : disk.operation = some operation) :
    (recordPlatformUpdateStartupValidation validation).run disk =
      if operation.Admits validation.version then
        (.ok true, disk.writeStartupValidation operation.id validation)
      else (.ok false, disk) := by
  rw [recordPlatformUpdateStartupValidation, readOperation, Prog.run_read_bind]
  simp only [h]
  split
  · rfl
  · rfl

end

end OpenLander.Update
