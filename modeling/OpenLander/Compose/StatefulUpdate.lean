import OpenLander.Compose.ContainerConfig
import OpenLander.Compose.StatefulGuard
import Mathlib.Data.List.Lex

/-! # The classification of stateful changes

`classifyStatefulComposeChanges` (`src/pipeline/compose-stateful-update.ts`, 72-403) compares the
definition of each stateful service with the inspection of its container. It reads the definition on
its own, so that a container that was created from the very same definition can count as changed. -/

namespace OpenLander.Compose.StatefulUpdate
open Theory

structure StatefulBackupVolume where
  name : String
  destination : String
  deriving DecidableEq, Repr

inductive StatefulError
  | StatefulMigrationRequiredError (serviceName : String) (changedFields : List String)
  | StatefulBackupUnsupportedError (serviceName : String) (mountTypes : List String)
  deriving DecidableEq, Repr

structure StatefulComposeChange (φ : Type) where
  serviceName : String
  serviceId : String
  change : StatefulChange
  changedFields : List String
  containerId : String
  previousFingerprint : Option φ
  currentFingerprint : Option φ
  backupVolumes : List StatefulBackupVolume

structure ExistingStatefulComposeService (N : Numbers) (φ : Type) where
  serviceName : String
  serviceId : String
  runtimeRole : ComposeRuntimeRole
  containerId : Option String
  previousFingerprint : Option φ
  inspection : Option (ContainerInspection N)

/-! ## Volumes -/

/-- An entry with an absolute source has no backup, and a file is no volume. -/
def desiredVolumeContract (host : Host) (projectName : String) (projectPath : Location)
    (service : ComposeService) (mapping : String × Nat) :
    Except StatefulError (List StatefulBackupVolume) :=
  let tokens := (mapping.1.toList.splitOn ':').map String.ofList
  let source := tokens.headD ""
  let destination := tokens.getD 1 ""
  if source.isEmpty || !isAbsolute destination then .ok []
  else if isAbsolute source then .error (.StatefulBackupUnsupportedError service.name ["bind"])
  else if source.toList.head? = some '.' then
    match host.node (resolve projectPath source) with
    | some (.file _) => .ok []
    | _ => .ok [⟨volumeName projectName (.bind service.name mapping.2), destination⟩]
  else .ok [⟨volumeName projectName (.named source), destination⟩]

def desiredVolumeContracts (host : Host) (projectName : String) (projectPath : Location)
    (service : ComposeService) : Except StatefulError (List StatefulBackupVolume) := do
  let contracts ← (service.volumes.getD []).zipIdx.mapM
    (desiredVolumeContract host projectName projectPath service)
  return contracts.flatten

/-- The mounts with a name and a destination. -/
def namedVolumes (mounts : List MountPoint) : List StatefulBackupVolume :=
  (mounts.filter fun mount => !mount.name.isEmpty && !mount.destination.isEmpty).map fun mount =>
    ⟨mount.name, mount.destination⟩

/-- In the order of the mounts. -/
def runtimeBackupVolumes (serviceName : String) (mounts : List MountPoint) :
    Except StatefulError (List StatefulBackupVolume) :=
  if mounts.any fun mount => !mount.isVolume then
    .error (.StatefulBackupUnsupportedError serviceName
      ("bind" :: if mounts.any (·.isVolume) then ["volume"] else []))
  else if (namedVolumes mounts).isEmpty then
    .error (.StatefulBackupUnsupportedError serviceName ["no_named_volume"])
  else .ok (namedVolumes mounts)

def normalizeVolumes (volumes : List StatefulBackupVolume) : String :=
  "|".intercalate ((volumes.map fun volume => volume.name ++ ":" ++ volume.destination).mergeSort
    fun a b => decide (utf16 a ≤ utf16 b))

def sameVolumes (left right : List StatefulBackupVolume) : Bool :=
  normalizeVolumes left = normalizeVolumes right

/-! ## Fields -/

/-- The part of an image in front of its tag. -/
def splitImage (image : String) : List Char × List Char :=
  let withoutDigest := (image.toList.splitOn '@').headD []
  let name := (withoutDigest.reverse.takeWhile (· ≠ '/')).reverse
  if ':' ∈ name then
    let tag := (name.reverse.takeWhile (· ≠ ':')).reverse
    (withoutDigest.take (withoutDigest.length - tag.length - 1), tag)
  else (withoutDigest, [])

structure ImageIdentity where
  family : List Char
  /-- The first number of up to three digits in the tag. -/
  major : Option (List Char)

def imageIdentity (image : String) : ImageIdentity where
  family := (splitImage image).1
  major := ((splitImage image).2.splitOnP (!·.isDigit)).find? fun digits =>
    !digits.isEmpty && digits.length ≤ 3

/-- A change of the image that is no other family or major version. -/
def isCompatible (desired runtime : String) : Bool :=
  let desired := imageIdentity desired
  let runtime := imageIdentity runtime
  desired.family = runtime.family &&
    !(desired.major.isSome && runtime.major.isSome && desired.major ≠ runtime.major)

/-- The image is given and another one runs. -/
def changedImage (desired : Option String) (runtime : String) : Option String :=
  desired.filter fun image => !image.isEmpty && !runtime.isEmpty && image ≠ runtime

/-- `[KEY, value]` of a line of the environment. -/
def splitEnv (line : String) : Option (String × String) :=
  let key := line.toList.takeWhile (· ≠ '=')
  if key.isEmpty || '=' ∉ line.toList then none
  else some (String.ofList key, String.ofList ((line.toList.dropWhile (· ≠ '=')).drop 1))

def envRecord (env : List String) : String → Option String := fromEntries (env.filterMap splitEnv)

def environmentChanged (service : ComposeService) (desiredEnv : List (String × String))
    (env : List String) : Bool :=
  (desiredEnv.any fun (key, value) => envRecord env key ≠ some value) ||
    (service.environment.isSome && desiredEnv.isEmpty)

def normalizeCommand : Option StringOrList → List String
  | some (.list words) => words
  | some (.string command) => if command.isEmpty then [] else [command]
  | none => []

/-- A text is no array. -/
def runtimeWords : Option StringOrList → List String
  | some (.list words) => words
  | _ => []

def desiredContainerPorts (N : Numbers) (service : ComposeService) : List Nat :=
  ((service.ports.getD [] ++ service.expose.getD []).filterMap fun value =>
    let normalized := (value.toList.splitOn '/').headD []
    let target := (normalized.splitOn ':').getLastD []
    if target.isEmpty then none else N.positive (N.parse (String.ofList target))).mergeSort

def TimeUnit.nanoseconds (N : Numbers) (amount : N.Num) : TimeUnit → N.Num
  | .h => N.mul amount (N.ofNat 3600000000000)
  | .m => N.mul amount (N.ofNat 60000000000)
  | .s => N.mul amount (N.ofNat 1000000000)
  | .ms => N.mul amount (N.ofNat 1000000)
  | .us => N.mul amount (N.ofNat 1000)
  | .ns => amount

def composeDurationNanoseconds (N : Numbers) (value : Option String) : N.Num :=
  let normalized := trim (value.getD "").toList
  if normalized.isEmpty then N.ofNat 0
  else if isDecimal normalized then
    N.mul (N.parse (String.ofList normalized)) (N.ofNat 1000000000)
  else
    match durationTokens normalized.length normalized with
    | none => N.ofNat 0
    | some tokens => tokens.foldl (fun nanoseconds (amount, unit) =>
        N.add nanoseconds (TimeUnit.nanoseconds N (N.parse amount) unit)) (N.ofNat 0)

def durationChanged (N : Numbers) (runtime : Option N.Num) (desired : Option String) : Bool :=
  !N.equal (runtime.getD (N.ofNat 0)) (composeDurationNanoseconds N desired)

def healthcheckChanged (N : Numbers) (healthcheck : Option ComposeHealthcheck)
    (runtime : Option (DockerHealthcheck N)) : Bool :=
  match healthcheck, runtime with
  | none, _ => false
  | some _, none => true
  | some desired, some runtime =>
    runtime.test ≠ healthcheckTest desired.test ||
      durationChanged N runtime.interval desired.interval ||
      durationChanged N runtime.timeout desired.timeout ||
      runtime.retries.getD 0 ≠ desired.retries.getD 0 ||
      durationChanged N runtime.startPeriod desired.start_period

/-- The members of the set that has these fields where they are flagged, sorted. -/
def sortedFields (fields : List (String × Bool)) : List String :=
  (((fields.filter (·.2)).map (·.1)).foldl insertLast []).mergeSort fun a b =>
    decide (utf16 a ≤ utf16 b)

structure ChangedFields where
  approvable : List String
  migration : List String

def changedRuntimeFields (N : Numbers) (service : ComposeService) (config : ContainerConfig N)
    (desiredEnv : List (String × String)) : ChangedFields where
  approvable := sortedFields [
    ("image", (changedImage service.image config.image).any (isCompatible · config.image)),
    ("environment", environmentChanged service desiredEnv config.env),
    ("command", service.command.isSome &&
      normalizeCommand service.command ≠ config.cmd.getD []),
    ("command", service.entrypoint.isSome &&
      normalizeCommand service.entrypoint ≠ runtimeWords config.entrypoint),
    ("restart", service.restart.getD "unless-stopped" ≠ config.restartPolicy),
    ("memory", service.memoryLimitBytes.getD 0 ≠ config.memory.getD 0),
    ("ports", !(service.ports.getD [] ++ service.expose.getD []).isEmpty &&
      desiredContainerPorts N service ≠ (config.exposedPorts.filter (0 < ·)).mergeSort),
    ("healthcheck", healthcheckChanged N service.healthcheck config.healthcheck)]
  migration := sortedFields [
    ("image", (changedImage service.image config.image).any (!isCompatible · config.image))]

/-! ## The classification -/

structure ClassifyParams (N : Numbers) (φ : Type) where
  host : Host
  projectName : String
  projectPath : Location
  services : List ComposeService
  runtimeRoles : String → Option ComposeRuntimeRole
  currentFingerprints : String → Option φ
  /-- The entries of the environment of each service. -/
  desiredEnvByService : String → Option (List (String × String))

section
variable {N : Numbers} {φ : Type} [DecidableEq φ] (params : ClassifyParams N φ)

/-- What is reported of an update. -/
def classifyFields (existing : ExistingStatefulComposeService N φ) (containerId : String)
    (backupVolumes : List StatefulBackupVolume) (fields : ChangedFields) :
    Except StatefulError (List (StatefulComposeChange φ)) :=
  let name := existing.serviceName
  let currentFingerprint := params.currentFingerprints name
  let definitionChanged := existing.previousFingerprint.isSome && currentFingerprint.isSome &&
    existing.previousFingerprint ≠ currentFingerprint
  if !fields.migration.isEmpty then throw (.StatefulMigrationRequiredError name fields.migration)
  else if !definitionChanged && fields.approvable.isEmpty then return []
  else
    return [{
      serviceName := name
      serviceId := existing.serviceId
      change := .update
      changedFields := if fields.approvable.isEmpty then ["definition"] else fields.approvable
      containerId
      previousFingerprint := existing.previousFingerprint
      currentFingerprint
      backupVolumes }]

/-- The definition and the container of a resource. -/
def classifyResource (existing : ExistingStatefulComposeService N φ) (containerId : String)
    (inspection : ContainerInspection N) (backupVolumes : List StatefulBackupVolume)
    (desired : ComposeService) : Except StatefulError (List (StatefulComposeChange φ)) := do
  let name := existing.serviceName
  if (params.runtimeRoles name).getD .application ≠ .resource then
    throw (.StatefulMigrationRequiredError name ["runtime_role"])
  else
    let desiredVolumes ← desiredVolumeContracts params.host params.projectName params.projectPath
      desired
    if !sameVolumes desiredVolumes backupVolumes then
      throw (.StatefulMigrationRequiredError name ["volumes"])
    else
      classifyFields params existing containerId backupVolumes
        (changedRuntimeFields N desired inspection.config
          ((params.desiredEnvByService name).getD []))

/-- The role is another one, and one of both is that of a resource. -/
def roleChanged (existing : ExistingStatefulComposeService N φ) : Bool :=
  (serviceByName params.services existing.serviceName).isSome &&
    (params.runtimeRoles existing.serviceName).any fun role =>
      role ≠ existing.runtimeRole && (role = .resource || existing.runtimeRole = .resource)

/-- The body of the loop. -/
def classifyExisting (existing : ExistingStatefulComposeService N φ) :
    Except StatefulError (List (StatefulComposeChange φ)) :=
  let name := existing.serviceName
  if roleChanged params existing then
    throw (.StatefulMigrationRequiredError name ["runtime_role"])
  else if existing.runtimeRole ≠ .resource then return []
  else
    match existing.containerId.filter (!·.isEmpty), existing.inspection with
    | some containerId, some inspection => do
      let backupVolumes ← runtimeBackupVolumes name inspection.mounts
      match serviceByName params.services name with
      | some desired => classifyResource params existing containerId inspection backupVolumes desired
      | none =>
        return [{
          serviceName := name
          serviceId := existing.serviceId
          change := .remove
          changedFields := ["removed"]
          containerId
          previousFingerprint := existing.previousFingerprint
          currentFingerprint := none
          backupVolumes }]
    | _, _ => throw (.StatefulMigrationRequiredError name ["container"])

def classifyStatefulComposeChanges (existingServices : List (ExistingStatefulComposeService N φ)) :
    Except StatefulError (List (StatefulComposeChange φ)) := do
  let changes ← existingServices.mapM (classifyExisting params)
  return changes.flatten

end

end OpenLander.Compose.StatefulUpdate
