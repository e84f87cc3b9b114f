import OpenLander.Pipeline.Port
import OpenLander.Pipeline.GreenCleanup

/-! # The run step of a deploy

`ContainerRunner.run` (`src/pipeline/deploy/run-step.ts`) allocates a port, makes the network and the
name of the container ready, and starts the container. A port conflict is tried once more, with
another port. -/

namespace OpenLander.Pipeline.RunStep
open Theory
open GreenCleanup (containerName)

/-- How the calls end that `run` awaits, in the order of the code. -/
structure Calls where
  scanUsedPorts : Option (List Nat) := some []
  /-- Whether the database has any limits. -/
  loadResourceLimits : Option Bool := some true
  loadDeployConfig : Bool := true
  saveDeployConfig : Bool := true
  safeRemoveContainer : Option Failure := none
  ensureProjectNetwork : Option Failure := none
  ensureManagedTraefikNetwork : Option Failure := none
  runContainer : RunOutcome := .runs
  /-- The second attempt. -/
  scanUsedPorts₂ : Option (List Nat) := some []
  runContainer₂ : RunOutcome := .runs

structure RunConfig where
  projectName : String
  containerName : Option String := none
  preferredPort : Option Nat := none
  /-- `config.removeExistingContainer !== false` -/
  removeExistingContainer : Bool := true

structure RunResult where
  containerId : ContainerId
  port : Nat
  deriving DecidableEq, Repr

variable (c : Calls) (config : RunConfig)

def runName : String := containerName (config.containerName.getD config.projectName)

/-- Limits that are missing are saved. -/
def loadLimits : Async Unit :=
  match c.loadResourceLimits with
  | none => throw .other
  | some true => pure ()
  | some false => awaitAll [c.loadDeployConfig, c.saveDeployConfig]

def removeExisting : Async Unit :=
  if config.removeExistingContainer then
    call c.safeRemoveContainer (·.removeContainer (.name (runName config)))
  else pure ()

/-- What comes between the allocation of the port and the start of the container. -/
def prepare : Async Unit := do
  loadLimits c
  removeExisting c config
  call c.ensureProjectNetwork
  call c.ensureManagedTraefikNetwork

/-- One turn of the loop. -/
def attempt (outcome : RunOutcome) (port : Nat) : Async RunResult := do
  let containerId ← runContainer outcome (runName config) port
  releasePortReservation port
  return { containerId, port }

def retry : Async RunResult := do
  let port ← allocatePort c.scanUsedPorts₂
  (attempt config c.runContainer₂ port).onThrow (releasePortReservation port)

def start (port : Nat) : Async RunResult :=
  tryCatch (attempt config c.runContainer port) fun error => do
    releasePortReservation port
    if error = .portConflict then retry c config else throw error

def run : Async RunResult := do
  let port ← allocatePort c.scanUsedPorts { preferredPort := config.preferredPort }
  prepare c config
  start c config port

def Calls.loadsLimits (c : Calls) : Bool :=
  match c.loadResourceLimits with
  | none => false
  | some true => true
  | some false => c.loadDeployConfig && c.saveDeployConfig

/-- All that `prepare` awaits resolves. -/
def Calls.prepares (c : Calls) (config : RunConfig) : Bool :=
  c.loadsLimits && (!config.removeExistingContainer || c.safeRemoveContainer.isNone) &&
    c.ensureProjectNetwork.isNone && c.ensureManagedTraefikNetwork.isNone

end OpenLander.Pipeline.RunStep
