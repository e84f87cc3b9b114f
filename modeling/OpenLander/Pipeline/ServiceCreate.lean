import OpenLander.Compose.Interpolate
import OpenLander.Theory.Local

/-! # Creating a managed service

`ServiceManager.create` (`src/pipeline/service-manager.ts`), with what it asks of Docker and of the table
of services. Where a call fails, what was made before is removed again; which calls have returned is
kept in local variables.

A call may come through although its answer is lost. Docker gives back a volume that is there already
when it is asked to create it, refuses a name of a container that is taken, and does not remove a volume
that a container has mounted. -/

namespace OpenLander.ServiceManager.Creation
open Theory
open Compose (trim)

structure Container where
  id : String
  name : String
  /-- The volumes that it has mounted, with their paths. -/
  volumeBinds : List (String × String)
  deriving DecidableEq, Repr

structure ServiceRow where
  id : String
  name : String
  projectId : String
  kind : String
  imageUrl : String
  assignedPort : Nat
  containerName : String
  containerId : Option String := none
  running : Bool := false
  deriving DecidableEq, Repr

/-- What Docker has, and the table of services. -/
structure World where
  containers : List Container := []
  volumes : List String := []
  services : List ServiceRow := []
  deriving DecidableEq, Repr

/-- How a call ends. -/
inductive Outcome
  | returns
  | fails
  /-- The call comes through, but not its answer. -/
  | lost
  deriving DecidableEq, Repr

structure Opts where
  name : String
  projectId : Option String := none
  template : Option String := none
  image : Option String := none
  port : Option Int := none
  version : Option String := none
  deriving DecidableEq, Repr

inductive Error
  | config (message : String)
  | postgresVolumeContractUnsupported (image : String) (declaredVolumes : List String)
      (pgdata : Option String)
  | nameConflict (name : String) (volumeRolledBack : Bool)
  | persistenceCleaned (name serviceId : String) (hostPort : Nat)
  | persistence (id : String)
  /-- Docker's own. -/
  | containerNameInUse
  /-- A call that failed in another way. -/
  | call
  deriving DecidableEq, Repr

/-- What an image declares. -/
structure ImageConfig where
  volumes : List String := []
  env : List String := []
  deriving DecidableEq, Repr

/-- How the calls end, and the identifiers that are made up. -/
structure Calls where
  id : String
  containerId : String
  allocatePort : Option Nat
  pullImage : Bool := true
  inspectImage : Option ImageConfig := some {}
  createVolume : Outcome := .returns
  createContainer : Outcome := .returns
  startContainer : Bool := true
  createService : Outcome := .returns
  updateService : Outcome := .returns
  getService : Bool := true
  deleteService : Outcome := .returns
  removeContainer : Outcome := .returns
  removeVolume : Outcome := .returns
  deriving DecidableEq, Repr

def serviceContainerName (serviceName : String) : String := "ol-svc-" ++ serviceName

def serviceVolumeName (serviceName : String) : String := "ol-svc-data-" ++ serviceName

/-! ## What is to be created -/

structure ServiceTemplate where
  type : String
  image : String
  port : Nat
  deriving DecidableEq, Repr

def SERVICE_TEMPLATES : List (String × ServiceTemplate) :=
  [("postgresql", ⟨"postgresql", "postgres:16-alpine", 5432⟩),
    ("postgres", ⟨"postgresql", "postgres:16-alpine", 5432⟩),
    ("mysql", ⟨"mysql", "mysql:8", 3306⟩),
    ("redis", ⟨"redis", "redis:7-alpine", 6379⟩),
    ("mongodb", ⟨"mongodb", "mongo:7", 27017⟩),
    ("mongo", ⟨"mongodb", "mongo:7", 27017⟩),
    ("neo4j", ⟨"neo4j", "neo4j:2026.07.1", 7687⟩),
    ("minio", ⟨"minio", "minio/minio:RELEASE.2024-11-07T00-52-20Z", 9000⟩),
    ("rabbitmq", ⟨"rabbitmq", "rabbitmq:4.0-management-alpine", 5672⟩)]

/-- The first of the versions on offer. -/
def AVAILABLE_VERSIONS : List (String × String) :=
  [("postgresql", "17-alpine"), ("postgres", "17-alpine"), ("mysql", "9"), ("redis", "8-alpine"),
    ("mongodb", "8"), ("mongo", "8"), ("neo4j", "2026.07.1"),
    ("minio", "RELEASE.2024-11-07T00-52-20Z"), ("rabbitmq", "4.0-management-alpine")]

/-- `image.replace(/:[^:]+$/, …)`, for an image with a tag. -/
def replaceTag (image version : String) : String :=
  String.ofList (image.toList.reverse.dropWhile (· ≠ ':')).reverse ++ version

/-- `getDataMountPath` of the adapter. -/
def getDataMountPath : String → String
  | "postgresql" | "postgres" => "/var/lib/postgresql/data"
  | "mysql" => "/var/lib/mysql"
  | "mongodb" | "mongo" => "/data/db"
  | "rabbitmq" => "/var/lib/rabbitmq"
  | _ => "/data"

def extractTypeFromImage (image : String) : String :=
  let withoutDigest := (image.toList.splitOn '@').headD []
  let nameWithTag := ((withoutDigest.splitOn '/').getLast?).getD []
  let normalized := (trim ((nameWithTag.splitOn ':').headD [])).map Char.toLower
  if normalized.isEmpty then "custom" else String.ofList normalized

structure Spec where
  type : String
  image : String
  port : Int
  dataMountPath : String
  deriving DecidableEq, Repr

def specOf (opts : Opts) : Except Error Spec :=
  match opts.template, opts.image with
  | none, none => .error (.config "Provide at least one of template or image")
  | some templateId, image =>
    match SERVICE_TEMPLATES.lookup templateId with
    | none => .error (.config s!"Unsupported service template: {templateId}")
    | some template =>
      let version := opts.version.getD ((AVAILABLE_VERSIONS.lookup templateId).getD "latest")
      .ok ⟨template.type, image.getD (replaceTag template.image version), template.port,
        getDataMountPath template.type⟩
  | none, some image =>
    if image = "" then .error (.config "image is required when template is not provided")
    else match opts.port with
      | none => .error (.config "port is required when using custom image")
      | some port => .ok ⟨extractTypeFromImage image, image, port, "/data"⟩

def checkPort (spec : Spec) : Except Error Spec :=
  if spec.port ≤ 0 then .error (.config s!"Invalid service port: {spec.port}") else .ok spec

def resolve (opts : Opts) : Except Error Spec := specOf opts >>= checkPort

/-- The value of `PGDATA`. -/
def pgdata (env : List String) : Option String :=
  (env.find? fun entry => "PGDATA=".toList.isPrefixOf entry.toList).map fun entry =>
    String.ofList (entry.toList.drop 7)

def resolvePostgresVolumeMount (image : String) (inspection : ImageConfig) : Except Error String :=
  let parent := "/var/lib/postgresql"
  let data := "/var/lib/postgresql/data"
  let dir := pgdata inspection.env
  if parent ∈ inspection.volumes ∧ data ∉ inspection.volumes ∧
      dir.any ("/var/lib/postgresql/".toList.isPrefixOf ·.toList) ∧ dir ≠ some data then .ok parent
  else if data ∈ inspection.volumes ∧ parent ∉ inspection.volumes ∧ dir = some data then .ok data
  else .error (.postgresVolumeContractUnsupported image (inspection.volumes.mergeSort (· ≤ ·)) dir)

/-- `normalizeKind` (`src/db/repos/service.repo.ts`). -/
def normalizeKind (kind : String) : String :=
  if kind = "postgresql" then "postgres"
  else if kind = "mongodb" then "mongo"
  else if kind ∈ ["git", "image", "compose", "compose-child", "postgres", "mysql", "redis", "mongo",
      "neo4j", "minio"] then kind
  else "image"

/-! ## The calls -/

abbrev Program := Prog World Error

def ofExcept (r : Except Error α) : Program α := .ret r

/-- What a call leaves that changes the world by `f`, unless it is refused. -/
def effect (outcome : Outcome) (refusal : World → Option Error) (f : World → World) (w : World) :
    World :=
  if outcome ≠ .fails ∧ refusal w = none then f w else w

def answer : Outcome → Option Error → Except Error Unit
  | .returns, none => .ok ⟨⟩
  | .returns, some error => .error error
  | .fails, _ | .lost, _ => .error .call

def attempt (outcome : Outcome) (refusal : World → Option Error) (f : World → World) :
    Program Unit :=
  .step (effect outcome refusal f) fun w => .ret (answer outcome (refusal w))

variable (opts : Opts) (calls : Calls)

/-- The image is pulled, and the mount of a PostgreSQL image is read off it. -/
def pullForMount (spec : Spec) : Except Error String :=
  if !calls.pullImage then .error .call
  else if spec.type = "postgresql" then
    match calls.inspectImage with
    | none => .error .call
    | some inspection => resolvePostgresVolumeMount spec.image inspection
  else .ok spec.dataMountPath

def addVolume (w : World) : World :=
  if serviceVolumeName opts.name ∈ w.volumes then w
  else { w with volumes := w.volumes ++ [serviceVolumeName opts.name] }

/-- `VolumeOps.createVolume` (`src/pipeline/docker/volume.ts`). -/
def createVolume : Program Unit := attempt calls.createVolume (fun _ => none) (addVolume opts)

def nameTaken (w : World) : Bool := w.containers.any (·.name = serviceContainerName opts.name)

def volumeInUse (w : World) : Bool :=
  w.containers.any fun c => c.volumeBinds.any (·.1 = serviceVolumeName opts.name)

def container (dataMountPath : String) : Container :=
  { id := calls.containerId, name := serviceContainerName opts.name
    volumeBinds := [(serviceVolumeName opts.name, dataMountPath)] }

def addContainer (dataMountPath : String) (w : World) : World :=
  { w with containers := w.containers ++ [container opts calls dataMountPath] }

/-- `ContainerOps.runServiceContainer` (`src/pipeline/docker/container.ts`). -/
def runServiceContainer (dataMountPath : String) : Program String := do
  attempt calls.createContainer
    (fun w => if nameTaken opts w then some .containerNameInUse else none)
    (addContainer opts calls dataMountPath)
  if calls.startContainer then return calls.containerId else throw .call

def row (spec : Spec) (hostPort : Nat) : ServiceRow :=
  { id := calls.id, name := opts.name, projectId := opts.projectId.getD "__orphan_managed"
    kind := normalizeKind spec.type, imageUrl := spec.image, assignedPort := hostPort
    containerName := serviceContainerName opts.name }

def addRow (spec : Spec) (hostPort : Nat) (w : World) : World :=
  { w with services := w.services ++ [row opts calls spec hostPort] }

/-- The table has one row of a name. -/
def createService (spec : Spec) (hostPort : Nat) : Program Unit :=
  attempt calls.createService
    (fun w => if w.services.any (·.name = opts.name) then some (.persistence calls.id) else none)
    (addRow opts calls spec hostPort)

def markRunning (row : ServiceRow) : ServiceRow :=
  if row.id = calls.id then { row with running := true, containerId := some calls.containerId }
  else row

def updateService : Program Unit :=
  attempt calls.updateService (fun _ => none) fun w =>
    { w with services := w.services.map (markRunning calls) }

def getService : Program ServiceRow := do
  match ← Prog.read fun w : World => w.services.find? (·.id = calls.id) with
  | none => throw (if calls.getService then .persistence calls.id else .call)
  | some row => if calls.getService then return row else throw .call

/-- What is done to the table once the container runs. -/
def saveService (spec : Spec) (hostPort : Nat) : Program ServiceRow := do
  createService opts calls spec hostPort
  updateService calls
  getService calls

def removeRow (w : World) : World := { w with services := w.services.filter (·.id ≠ calls.id) }

def deleteService : Program Unit := attempt calls.deleteService (fun _ => none) (removeRow calls)

def dropContainer (w : World) : World :=
  { w with containers := w.containers.filter (·.id ≠ calls.containerId) }

/-- `ContainerOps.safeRemoveContainer`. -/
def safeRemoveContainer : Program Unit :=
  attempt calls.removeContainer (fun _ => none) (dropContainer calls)

def dropVolume (w : World) : World :=
  { w with volumes := w.volumes.filter (· ≠ serviceVolumeName opts.name) }

/-- `VolumeOps.removeVolume`. -/
def removeVolume : Program Unit :=
  attempt calls.removeVolume (fun w => if volumeInUse opts w then some .call else none)
    (dropVolume opts)

/-! ## `create` -/

/-- The variables of `create`. -/
structure Progress where
  volumeCreated : Bool := false
  containerId : Option String := none
  persistenceStarted : Bool := false
  deriving DecidableEq, Repr

/-- The `try`. -/
def createSteps (spec : Spec) (hostPort : Nat) : Prog (World × Progress) Error ServiceRow := do
  let dataMountPath ← liftM (ofExcept (pullForMount calls spec))
  liftM (createVolume opts calls)
  Prog.assign fun t : Progress => { t with volumeCreated := true }
  let containerId ← liftM (runServiceContainer opts calls dataMountPath)
  Prog.assign fun t : Progress =>
    { t with containerId := some containerId, persistenceStarted := true }
  liftM (saveService opts calls spec hostPort)

/-- Whether a step of the rollback succeeds. -/
def succeeds (p : Program Unit) : Program Bool := p.handle fun r => pure r.toBool

/-- The error that is thrown after a rollback. -/
def rollbackError (t : Progress) (hostPort : Nat) (rollbackClean : Bool) (error : Error) : Error :=
  if !t.persistenceStarted && error = .containerNameInUse then
    .nameConflict opts.name (if t.volumeCreated then rollbackClean else true)
  else if t.persistenceStarted && t.containerId.isSome && t.volumeCreated && rollbackClean then
    .persistenceCleaned opts.name calls.id hostPort
  else error

/-- What is done again of the container or the volume, if it was. -/
def rollbackStep (done : Bool) (p : Program Unit) : Program Bool :=
  if done then succeeds p else pure true

/-- The `catch`. -/
def rollback (hostPort : Nat) (error : Error) : Prog (World × Progress) Error ServiceRow := do
  let t ← Prog.read fun s : World × Progress => s.2
  let row ← liftM (succeeds (deleteService calls))
  let container ← liftM (rollbackStep t.containerId.isSome (safeRemoveContainer calls))
  let volume ← liftM (rollbackStep t.volumeCreated (removeVolume opts calls))
  throw (rollbackError opts calls t hostPort (row && container && volume) error)

def create : Program ServiceRow := do
  let spec ← ofExcept (resolve opts)
  match calls.allocatePort with
  | none => throw .call
  | some hostPort =>
    (tryCatch (createSteps opts calls spec hostPort) (rollback opts calls hostPort)).withVars {}

/-! ## What is its own -/

/-- The container is one that the call makes, one of its name, or one that has mounted its volume. -/
def isOwnContainer (c : Container) : Bool :=
  c.id = calls.containerId || c.name = serviceContainerName opts.name ||
    c.volumeBinds.any (·.1 = serviceVolumeName opts.name)

def isOwnRow (r : ServiceRow) : Bool := r.id = calls.id || r.name = opts.name

/-- What the call has to do with, or the rest. -/
def part (own : Bool) (w : World) : World where
  containers := w.containers.filter (isOwnContainer opts calls · == own)
  volumes := w.volumes.filter fun v => decide (v = serviceVolumeName opts.name) == own
  services := w.services.filter (isOwnRow opts calls · == own)

/-- What the call has to do with stays as it is. -/
def SameOwn (w w' : World) : Prop := part opts calls true w' = part opts calls true w

def SameRest (w w' : World) : Prop := part opts calls false w' = part opts calls false w

section
variable {opts calls}

theorem SameRest.refl (w : World) : SameRest opts calls w w := rfl

theorem isOwnContainer_container {path : String} :
    isOwnContainer opts calls (container opts calls path) = true := by
  simp [isOwnContainer, container]

theorem isOwnRow_row : isOwnRow opts calls (row opts calls spec hostPort) = true := by
  simp [isOwnRow, row]

theorem isOwnRow_markRunning (r : ServiceRow) :
    isOwnRow opts calls (markRunning calls r) = isOwnRow opts calls r := by
  rw [markRunning]
  split <;> rfl

theorem any_filter_of_imp {p q : α → Bool} (h : ∀ a, p a → q a) (l : List α) :
    (l.filter (q · == true)).any p = l.any p := by
  rw [List.any_filter]
  refine congrArg l.any (funext fun a => ?_)
  cases hp : p a with
  | true => simp [h a hp]
  | false => simp

/-- What the call finds of its own, it finds in its own part. -/
theorem nameTaken_part (w : World) : nameTaken opts (part opts calls true w) = nameTaken opts w :=
  any_filter_of_imp (fun c hc => by simp_all [isOwnContainer]) _

theorem volumeInUse_part (w : World) :
    volumeInUse opts (part opts calls true w) = volumeInUse opts w :=
  any_filter_of_imp (fun c hc => by simp_all [isOwnContainer]) _

theorem rowTaken_part (w : World) :
    (part opts calls true w).services.any (·.name = opts.name) =
      w.services.any (·.name = opts.name) :=
  any_filter_of_imp (fun r hr => by simp_all [isOwnRow]) _

theorem mem_volumes_part (w : World) :
    serviceVolumeName opts.name ∈ (part opts calls true w).volumes ↔
      serviceVolumeName opts.name ∈ w.volumes := by
  simp [part]

/-- The change takes place in the part of the call, by what is there. -/
structure Within (opts : Opts) (calls : Calls) (f : World → World) : Prop where
  own : ∀ w, part opts calls true (f w) = f (part opts calls true w)
  rest : ∀ w, SameRest opts calls w (f w)

theorem within_addVolume : Within opts calls (addVolume opts) where
  own w := by
    unfold addVolume
    simp only [mem_volumes_part]
    split <;> simp [part]
  rest w := by
    unfold addVolume
    split <;> simp [SameRest, part]

theorem within_dropVolume : Within opts calls (dropVolume opts) where
  own w := by simp [part, dropVolume, Bool.and_comm]
  rest w := by
    simp [SameRest, part, dropVolume]

theorem within_addContainer {path : String} : Within opts calls (addContainer opts calls path) where
  own w := by simp [part, addContainer, isOwnContainer_container]
  rest w := by simp [SameRest, part, addContainer, isOwnContainer_container]

theorem within_dropContainer : Within opts calls (dropContainer calls) where
  own w := by simp [part, dropContainer, Bool.and_comm]
  rest w := by
    simp only [SameRest, part, dropContainer, List.filter_filter, World.mk.injEq, and_true]
    refine List.filter_congr fun c _ => ?_
    by_cases hid : c.id = calls.containerId <;> simp [isOwnContainer, hid]

theorem within_addRow : Within opts calls (addRow opts calls spec hostPort) where
  own w := by simp [part, addRow, isOwnRow_row]
  rest w := by simp [SameRest, part, addRow, isOwnRow_row]

theorem within_removeRow : Within opts calls (removeRow calls) where
  own w := by simp [part, removeRow, Bool.and_comm]
  rest w := by
    simp only [SameRest, part, removeRow, List.filter_filter, World.mk.injEq, true_and]
    refine List.filter_congr fun r _ => ?_
    by_cases hid : r.id = calls.id <;> simp [isOwnRow, hid]

theorem within_markRunning : Within opts calls fun w =>
    { w with services := w.services.map (markRunning calls) } where
  own w := by
    simp only [part, List.filter_map, Function.comp_def, isOwnRow_markRunning]
  rest w := by
    simp only [SameRest, part, List.filter_map, Function.comp_def, isOwnRow_markRunning,
      World.mk.injEq, true_and]
    refine (List.map_congr_left fun r hr => ?_).trans (List.map_id _)
    have hid : r.id ≠ calls.id := fun h => by simp [isOwnRow, h] at hr
    exact if_neg hid

/-- The program sees its own part, and leaves the rest alone. -/
abbrev Confined (opts : Opts) (calls : Calls) (p : Program α) : Prop :=
  p.Confined (part opts calls true) (SameRest opts calls)

theorem confined_attempt {outcome : Outcome} {refusal : World → Option Error} {f : World → World}
    (hrefusal : ∀ w, refusal (part opts calls true w) = refusal w) (hf : Within opts calls f) :
    Confined opts calls (attempt outcome refusal f) where
  isLocal := by
    refine ⟨fun w w' h => ?_, fun w => .ret _⟩
    have hsame : refusal w = refusal w' := by rw [← hrefusal, h, hrefusal]
    refine ⟨?_, congrArg (fun r => Prog.ret (answer outcome r)) hsame⟩
    rw [effect, effect, hsame]
    split
    · rw [hf.own, h, hf.own]
    · exact h
  steps := by
    refine fun w => ⟨?_, .ret _⟩
    rw [effect]
    split
    · exact hf.rest w
    · rfl

theorem confined_createVolume : Confined opts calls (createVolume opts calls) :=
  confined_attempt (fun _ => rfl) within_addVolume

theorem confined_runServiceContainer {path : String} :
    Confined opts calls (runServiceContainer opts calls path) := by
  refine (confined_attempt (fun w => by rw [nameTaken_part]) within_addContainer).bind fun _ => ?_
  split
  · exact .ret _
  · exact .ret _

theorem confined_createService : Confined opts calls (createService opts calls spec hostPort) :=
  confined_attempt (fun w => by rw [rowTaken_part]) within_addRow

theorem find_filter_of_imp {p q : α → Bool} (h : ∀ a, p a → q a) (l : List α) :
    (l.filter (q · == true)).find? p = l.find? p := by
  rw [List.find?_filter]
  refine congrArg (List.find? · l) (funext fun a => ?_)
  cases hp : p a with
  | true => simp [h a hp]
  | false => simp

theorem confined_getService : Confined opts calls (getService calls) := by
  have hfind (w : World) : (part opts calls true w).services.find? (·.id = calls.id) =
      w.services.find? (·.id = calls.id) :=
    find_filter_of_imp (fun r hr => by simp_all [isOwnRow]) _
  refine Prog.Confined.bind (.read SameRest.refl fun w w' h => ?_) fun found => ?_
  · rw [← hfind, h, hfind]
  cases found with
  | none => exact .ret _
  | some row =>
    dsimp only
    split
    · exact .ret _
    · exact .ret _

theorem confined_saveService : Confined opts calls (saveService opts calls spec hostPort) :=
  confined_createService.bind fun _ =>
    (confined_attempt (fun _ => rfl) within_markRunning).bind fun _ => confined_getService

theorem confined_succeeds {p : Program Unit} (hp : Confined opts calls p) :
    Confined opts calls (succeeds p) :=
  hp.handle fun _ => .ret _

theorem confined_rollbackStep {p : Program Unit} (hp : Confined opts calls p) :
    Confined opts calls (rollbackStep done p) := by
  rw [rollbackStep]
  split
  · exact confined_succeeds hp
  · exact .ret _

theorem confined_create : Confined opts calls (create opts calls) := by
  refine Prog.Confined.bind (.ret _) fun spec => ?_
  cases calls.allocatePort with
  | none => exact .ret _
  | some hostPort =>
    refine (Prog.Confined.tryCatch ?_ fun error => ?_).withVars _
    · refine Prog.Confined.bind (Prog.Confined.lift (.ret _)) fun path => ?_
      refine confined_createVolume.lift.bind fun _ => ?_
      refine Prog.Confined.bind (.assign SameRest.refl _) fun _ => ?_
      refine confined_runServiceContainer.lift.bind fun _ => ?_
      refine Prog.Confined.bind (.assign SameRest.refl _) fun _ => ?_
      exact confined_saveService.lift
    · refine Prog.Confined.bind (.read (fun s => SameRest.refl s.1) fun _ _ h => (Prod.ext_iff.mp h).2) fun t => ?_
      refine (confined_succeeds (confined_attempt (fun _ => rfl) within_removeRow)).lift.bind fun _ => ?_
      refine (confined_rollbackStep
        (confined_attempt (fun _ => rfl) within_dropContainer)).lift.bind fun _ => ?_
      refine (confined_rollbackStep (confined_attempt (fun w => ?_) within_dropVolume)).lift.bind
        fun _ => .ret _
      rw [volumeInUse_part]

end

/-! ## What a failure leaves -/

/-- The volume is asked for. -/
def Reaches : Prop :=
  ∃ spec hostPort path, resolve opts = .ok spec ∧ calls.allocatePort = some hostPort ∧
    pullForMount calls spec = .ok path

/-- Docker makes the container. -/
def Made (w : World) : Prop := calls.createContainer ≠ .fails ∧ nameTaken opts w = false

def Started : Prop := calls.createContainer = .returns ∧ calls.startContainer = true

/-- The error says that everything has been rolled back. -/
def Error.promisesRollback : Error → Bool
  | .nameConflict _ volumeRolledBack => volumeRolledBack
  | .persistenceCleaned .. => true
  | _ => false

/-- What a failure of the steps leaves, and which of them are known to have returned. -/
inductive Left (w : World) : Error → Progress → World → Prop
  | unreached (h : ¬Reaches opts calls ∨ calls.createVolume = .fails)
    (hconflict : error ≠ .containerNameInUse) (hraw : error.promisesRollback = false) :
    Left w error {} w
  | lostVolume (hreaches : Reaches opts calls) (hlost : calls.createVolume = .lost) :
    Left w .call {} (addVolume opts w)
  | volume (hreaches : Reaches opts calls) (hvolume : calls.createVolume = .returns)
    (hmade : ¬Made opts calls w) (hraw : error.promisesRollback = false) :
    Left w error { volumeCreated := true } (addVolume opts w)
  | container (path : String) (hreaches : Reaches opts calls) (hvolume : calls.createVolume = .returns)
    (hmade : Made opts calls w) (hstarted : ¬Started calls) :
    Left w .call { volumeCreated := true } (addContainer opts calls path (addVolume opts w))
  | rows (path : String) (hreaches : Reaches opts calls) (hvolume : calls.createVolume = .returns)
    (hstarted : Started calls) (rows : List ServiceRow)
    (hrows : rows.filter (·.id ≠ calls.id) = w.services)
    (hraw : error.promisesRollback = false) :
    Left w error { volumeCreated := true, containerId := some calls.containerId
                   persistenceStarted := true }
      { addContainer opts calls path (addVolume opts w) with services := rows }

section
variable {opts calls}

theorem run_attempt {outcome : Outcome} {refusal : World → Option Error} {f : World → World}
    (w : World) : (attempt outcome refusal f).run w =
      (answer outcome (refusal w), effect outcome refusal f w) := rfl

theorem effect_cases (outcome : Outcome) (refusal : World → Option Error) (f : World → World)
    (w : World) : effect outcome refusal f w = f w ∨ effect outcome refusal f w = w := by
  rw [effect]
  split
  · exact .inl rfl
  · exact .inr rfl

/-- A call without refusal. -/
theorem attempt_cases (outcome : Outcome) (f : World → World) (w : World) :
    (outcome = .fails ∧ (attempt outcome (fun _ => none) f).run w = (.error .call, w)) ∨
    (outcome = .lost ∧ (attempt outcome (fun _ => none) f).run w = (.error .call, f w)) ∨
    (outcome = .returns ∧ (attempt outcome (fun _ => none) f).run w = (.ok ⟨⟩, f w)) := by
  cases outcome with
  | fails => exact .inl ⟨rfl, rfl⟩
  | lost => exact .inr (.inl ⟨rfl, rfl⟩)
  | returns => exact .inr (.inr ⟨rfl, rfl⟩)

theorem addVolume_containers (w : World) : (addVolume opts w).containers = w.containers := by
  rw [addVolume]
  split <;> rfl

theorem addVolume_services (w : World) : (addVolume opts w).services = w.services := by
  rw [addVolume]
  split <;> rfl

theorem run_runServiceContainer {w : World} {path : String} :
    (∃ e, ¬Made opts calls w ∧ e.promisesRollback = false ∧
      (runServiceContainer opts calls path).run w = (.error e, w)) ∨
    (Made opts calls w ∧ ¬Started calls ∧
      (runServiceContainer opts calls path).run w = (.error .call, addContainer opts calls path w)) ∨
    (Made opts calls w ∧ Started calls ∧ (runServiceContainer opts calls path).run w =
      (.ok calls.containerId, addContainer opts calls path w)) := by
  unfold Made Started
  rw [runServiceContainer, Prog.run_bind, run_attempt, effect]
  cases hname : nameTaken opts w with
  | true =>
    cases houtcome : calls.createContainer <;> simp [answer, Error.promisesRollback]
  | false =>
    cases houtcome : calls.createContainer with
    | fails => simp [answer, Error.promisesRollback]
    | lost => simp [answer]
    | returns => cases hstart : calls.startContainer <;> simp [answer]

/-- The rows may differ in that of the call. -/
def SavedRows (calls : Calls) (w : World) (rows : List ServiceRow) : Prop :=
  rows.filter (·.id ≠ calls.id) = w.services.filter (·.id ≠ calls.id)

theorem savedRows_addRow (w : World) :
    SavedRows calls w (addRow opts calls spec hostPort w).services := by
  simp [SavedRows, addRow, row]

theorem savedRows_markRunning {w : World} (h : SavedRows calls w rows) :
    SavedRows calls w (rows.map (markRunning calls)) := by
  have hid (r : ServiceRow) : (markRunning calls r).id = r.id := by
    rw [markRunning]
    split <;> rfl
  have hsame : ∀ r ∈ rows.filter (·.id ≠ calls.id), markRunning calls r = r := by
    intro r hr
    exact if_neg (of_decide_eq_true (List.mem_filter.mp hr).2)
  rw [SavedRows, List.filter_map, ← h]
  simp only [Function.comp_def, hid]
  exact (List.map_congr_left hsame).trans (List.map_id _)

theorem run_getService (w : World) : ((getService calls).run w).2 = w := by
  rw [getService, Prog.run_read_bind]
  split
  · rfl
  · split <;> rfl

/-- A call that changes the table. -/
theorem ends_attempt_rows {outcome : Outcome} {refusal : World → Option Error} {f : World → World}
    {w : World} (h : SavedRows calls w rows)
    (hf : ∃ rows', f { w with services := rows } = { w with services := rows' } ∧
      SavedRows calls w rows') :
    (attempt outcome refusal f).Ends { w with services := rows } fun _ w' =>
      ∃ rows', w' = { w with services := rows' } ∧ SavedRows calls w rows' := by
  rw [Prog.Ends, run_attempt]
  obtain heffect | heffect := effect_cases outcome refusal f { w with services := rows }
  · rw [heffect]
    exact hf
  · rw [heffect]
    exact ⟨rows, rfl, h⟩

theorem ends_saveService (w : World) :
    (saveService opts calls spec hostPort).Ends w fun _ w' =>
      ∃ rows, w' = { w with services := rows } ∧ SavedRows calls w rows := by
  refine (ends_attempt_rows rfl ⟨_, rfl, savedRows_addRow w⟩).bind (fun _ w' hw' => ?_)
    fun _ _ hw' => hw'
  obtain ⟨rows, rfl, hrows⟩ := hw'
  refine (ends_attempt_rows hrows ⟨_, rfl, savedRows_markRunning hrows⟩).bind (fun _ w' hw' => ?_)
    fun _ _ hw' => hw'
  rw [Prog.Ends, run_getService]
  exact hw'

theorem pullForMount_error (h : pullForMount calls spec = .error e) :
    e ≠ .containerNameInUse ∧ e.promisesRollback = false := by
  rw [pullForMount] at h
  split at h
  · cases h
    exact ⟨by rintro ⟨⟩, rfl⟩
  split at h
  · split at h
    · cases h
      exact ⟨by rintro ⟨⟩, rfl⟩
    · rw [resolvePostgresVolumeMount] at h
      split at h
      · cases h
      · split at h
        · cases h
        · cases h
          exact ⟨by rintro ⟨⟩, rfl⟩
  · cases h

/-- The errors of the calls promise nothing. -/
def Raw (r : Except Error α) : Prop := ∀ e, r = .error e → e.promisesRollback = false

theorem leaves_attempt {outcome : Outcome} {refusal : World → Option Error} {f : World → World}
    (h : ∀ w e, refusal w = some e → e.promisesRollback = false) :
    (attempt outcome refusal f).Leaves Raw := by
  intro w e he
  cases hrefusal : refusal w with
  | none =>
    rw [hrefusal] at he
    cases outcome <;> cases he <;> rfl
  | some error =>
    rw [hrefusal] at he
    cases outcome <;> cases he
    · exact h w _ hrefusal
    · rfl
    · rfl

theorem leaves_saveService : (saveService opts calls spec hostPort).Leaves Raw := by
  have hraw {α β : Type} (e : Error) (h : Raw (.error e : Except Error α)) :
      Raw (.error e : Except Error β) := by
    rintro _ ⟨⟩
    exact h e rfl
  refine Prog.Leaves.bind (leaves_attempt fun w e h => ?_) (fun _ _ => ?_) hraw
  · split at h
    · cases h
      rfl
    · cases h
  refine Prog.Leaves.bind (leaves_attempt ?_) (fun _ _ => ?_) hraw
  · rintro _ _ ⟨⟩
  have hread : (Prog.read fun w : World => w.services.find? (·.id = calls.id) :
      Program (Option ServiceRow)).Leaves Raw := by
    rintro w e ⟨⟩
  refine hread.bind (fun found _ => ?_) hraw
  cases found with
  | none =>
    rintro _ ⟨⟩
    cases calls.getService <;> rfl
  | some row =>
    dsimp only
    split
    · rintro _ ⟨⟩
    · rintro _ ⟨⟩
      rfl

/-- What a failure of the steps leaves. -/
theorem ends_createSteps {w : World} (hresolve : resolve opts = .ok spec)
    (hport : calls.allocatePort = some hostPort) (hid : ∀ r ∈ w.services, r.id ≠ calls.id) :
    (createSteps opts calls spec hostPort).Ends (w, {}) fun r s =>
      ∀ e, r = .error e → Left opts calls w e s.2 s.1 := by
  rw [Prog.Ends, createSteps]
  cases hpull : pullForMount calls spec with
  | error e =>
    rintro _ ⟨⟩
    refine .unreached (.inl fun h => ?_) (pullForMount_error hpull).1 (pullForMount_error hpull).2
    obtain ⟨spec', _, path, hspec, -, hpath⟩ := h
    rw [hresolve] at hspec
    obtain rfl := Except.ok.inj hspec
    rw [hpull] at hpath
    cases hpath
  | ok path =>
    have hreaches : Reaches opts calls := ⟨spec, hostPort, path, hresolve, hport, hpull⟩
    rw [show (liftM (ofExcept (.ok path)) : Prog (World × Progress) Error String) = pure path from rfl,
      Prog.run_pure_bind, Prog.run_lift_bind, createVolume]
    obtain ⟨hvolume, hrun⟩ | ⟨hvolume, hrun⟩ | ⟨hvolume, hrun⟩ :=
      attempt_cases calls.createVolume (addVolume opts) w
    · rw [hrun]
      rintro _ ⟨⟩
      exact .unreached (.inr hvolume) (by rintro ⟨⟩) rfl
    · rw [hrun]
      rintro _ ⟨⟩
      exact .lostVolume hreaches hvolume
    rw [hrun, Prog.onValue_ok, Prog.assign, Prog.run_modify_bind, Prog.run_lift_bind]
    have hmade : Made opts calls (addVolume opts w) ↔ Made opts calls w := by
      rw [Made, Made, nameTaken, nameTaken, addVolume_containers]
    obtain ⟨e, hnot, hraw, hrun⟩ | ⟨hdone, hnot, hrun⟩ | ⟨-, hstarted, hrun⟩ :=
      @run_runServiceContainer opts calls (addVolume opts w) path
    · rw [hrun]
      rintro _ ⟨⟩
      exact .volume hreaches hvolume (mt hmade.mpr hnot) hraw
    · rw [hrun]
      rintro _ ⟨⟩
      exact .container path hreaches hvolume (hmade.mp hdone) hnot
    rw [hrun, Prog.onValue_ok, Prog.assign, Prog.run_modify_bind]
    intro e he
    obtain ⟨rows, hworld, hrows⟩ := @ends_saveService opts calls spec hostPort
      (addContainer opts calls path (addVolume opts w))
    have hlift (t : Progress) := Prog.run_lift (saveService opts calls spec hostPort)
      (addContainer opts calls path (addVolume opts w)) t
    dsimp only
    rw [show (liftM (saveService opts calls spec hostPort) : Prog (World × Progress) Error ServiceRow) =
      (saveService opts calls spec hostPort).lift from rfl, hlift] at he ⊢
    rw [hworld]
    refine .rows path hreaches hvolume hstarted rows (hrows.trans ?_)
      (leaves_saveService.run _ e he)
    rw [addContainer, addVolume_services]
    exact List.filter_eq_self.mpr fun r hr => decide_eq_true (hid r hr)

/-! ## What the rollback leaves -/

/-- What a step of the rollback leaves, and whether it succeeds. -/
def undo (done : Bool) (p : Program Unit) (w : World) : Bool × World :=
  if done then ((p.run w).1.toBool, (p.run w).2) else (true, w)

theorem run_rollbackStep {p : Program Unit} (done : Bool) (w : World) :
    (rollbackStep done p).run w = (.ok (undo done p w).1, (undo done p w).2) := by
  cases done with
  | true => exact Prog.run_handle ..
  | false => rfl

/-- What the rollback leaves, and whether it is clean. -/
def undone (opts : Opts) (calls : Calls) (t : Progress) (w : World) : Bool × World :=
  let row := undo true (deleteService calls) w
  let container := undo t.containerId.isSome (safeRemoveContainer calls) row.2
  let volume := undo t.volumeCreated (removeVolume opts calls) container.2
  (row.1 && container.1 && volume.1, volume.2)

theorem run_rollback (w : World) (t : Progress) (e : Error) :
    (rollback opts calls hostPort e).run (w, t) =
      (.error (rollbackError opts calls t hostPort (undone opts calls t w).1 e),
        (undone opts calls t w).2, t) := by
  rw [rollback, Prog.run_read_bind, Prog.run_lift_bind,
    show succeeds (deleteService calls) = rollbackStep true (deleteService calls) from rfl,
    run_rollbackStep, Prog.onValue_ok, Prog.run_lift_bind, run_rollbackStep, Prog.onValue_ok,
    Prog.run_lift_bind, run_rollbackStep, Prog.onValue_ok]
  rfl

end

/-! ## When nothing is left, and nothing lost -/

/-- The calls of the rollback return. -/
structure Compensates : Prop where
  row : calls.deleteService = .returns
  container : calls.removeContainer = .returns
  volume : calls.removeVolume = .returns

/-- A volume that is there already is one that a container has mounted, which Docker does not remove;
and a container that is made is started. -/
def Undoable (w : World) : Prop :=
  Reaches opts calls →
    match calls.createVolume with
    | .fails => True
    | .lost => serviceVolumeName opts.name ∈ w.volumes
    | .returns => (serviceVolumeName opts.name ∈ w.volumes ↔ volumeInUse opts w = true) ∧
      (Made opts calls w → Started calls)

/-- The identifiers that are made up are new. -/
structure Fresh (w : World) : Prop where
  row : ∀ r ∈ w.services, r.id ≠ calls.id
  container : ∀ c ∈ w.containers, c.id ≠ calls.containerId

section
variable {opts calls}

theorem sameOwn_addVolume_iff {w : World} :
    SameOwn opts calls w (addVolume opts w) ↔ serviceVolumeName opts.name ∈ w.volumes := by
  rw [addVolume]
  split
  next hmem => exact iff_of_true rfl hmem
  next hmem =>
    refine iff_of_false (fun h => ?_) hmem
    rw [← mem_volumes_part, ← show part opts calls true _ = part opts calls true w from h,
      mem_volumes_part] at hmem
    simp at hmem

theorem sameOwn_dropVolume_iff {w : World} :
    SameOwn opts calls w (dropVolume opts w) ↔ serviceVolumeName opts.name ∉ w.volumes := by
  constructor
  · intro h hmem
    rw [← mem_volumes_part, ← show part opts calls true _ = part opts calls true w from h,
      mem_volumes_part] at hmem
    simp [dropVolume] at hmem
  · intro hmem
    have hvolumes : w.volumes.filter (· ≠ serviceVolumeName opts.name) = w.volumes :=
      List.filter_eq_self.mpr fun v hv => decide_eq_true fun heq => hmem (heq ▸ hv)
    rw [SameOwn, dropVolume, hvolumes]

theorem dropVolume_addVolume (w : World) : dropVolume opts (addVolume opts w) = dropVolume opts w := by
  rw [addVolume]
  split
  · rfl
  · simp [dropVolume]

theorem removeRow_eq_self {w : World} (h : ∀ r ∈ w.services, r.id ≠ calls.id) :
    removeRow calls w = w := by
  rw [removeRow, List.filter_eq_self.mpr fun r hr => decide_eq_true (h r hr)]

theorem undo_removeVolume (hcomp : Compensates calls) (w : World) :
    (undo true (removeVolume opts calls) w).2 =
      if volumeInUse opts w then w else dropVolume opts w := by
  rw [undo, if_pos rfl, removeVolume, run_attempt, effect, hcomp.volume]
  cases volumeInUse opts w <;> rfl

theorem undo_deleteService (hcomp : Compensates calls) (w : World) :
    (undo true (deleteService calls) w).2 = removeRow calls w := by
  rw [undo, if_pos rfl, deleteService, run_attempt, effect, hcomp.row]
  rfl

theorem undo_safeRemoveContainer (hcomp : Compensates calls) (w : World) :
    (undo true (safeRemoveContainer calls) w).2 = dropContainer calls w := by
  rw [undo, if_pos rfl, safeRemoveContainer, run_attempt, effect, hcomp.container]
  rfl

/-- The volume is taken away again exactly if it was not there. -/
theorem sameOwn_undo_volume (hcomp : Compensates calls) (w : World) :
    SameOwn opts calls w (undo true (removeVolume opts calls) (addVolume opts w)).2 ↔
      (serviceVolumeName opts.name ∈ w.volumes ↔ volumeInUse opts w = true) := by
  have huse : volumeInUse opts (addVolume opts w) = volumeInUse opts w := by
    rw [volumeInUse, volumeInUse, addVolume_containers]
  rw [undo_removeVolume hcomp, huse, dropVolume_addVolume]
  cases volumeInUse opts w with
  | true => simp [sameOwn_addVolume_iff]
  | false => simp [sameOwn_dropVolume_iff]

theorem removeVolume_containers (w : World) :
    ((removeVolume opts calls).run w).2.containers = w.containers := by
  rw [removeVolume, run_attempt]
  obtain h | h := effect_cases calls.removeVolume
    (fun w => if volumeInUse opts w then some .call else none) (dropVolume opts) w
  · rw [h, dropVolume]
  · rw [h]

/-- Without the row and the container, the volume is left. -/
theorem removed_rows {w : World} {path : String} (hfresh : Fresh calls w)
    (hrows : rows.filter (·.id ≠ calls.id) = w.services) :
    dropContainer calls (removeRow calls
      { addContainer opts calls path (addVolume opts w) with services := rows }) =
        addVolume opts w := by
  have hold : w.containers.filter (·.id ≠ calls.containerId) = w.containers :=
    List.filter_eq_self.mpr fun c hc => decide_eq_true (hfresh.container c hc)
  rw [dropContainer, removeRow, addContainer, List.filter_append, addVolume_containers, hold, hrows]
  unfold addVolume
  split <;> simp [container]

/-- What was there is there again exactly if the failure can be undone. -/
theorem sameOwn_undone_iff {w w' : World} (hfresh : Fresh calls w) (hcomp : Compensates calls)
    (hleft : Left opts calls w e t w') :
    SameOwn opts calls w (undone opts calls t w').2 ↔ Undoable opts calls w := by
  have hrow : removeRow calls w = w := removeRow_eq_self hfresh.row
  have haddVolume : removeRow calls (addVolume opts w) = addVolume opts w :=
    removeRow_eq_self (by rw [addVolume_services]; exact hfresh.row)
  unfold undone Undoable
  dsimp only
  rw [undo_deleteService hcomp]
  cases hleft with
  | unreached h =>
    rw [hrow]
    refine iff_of_true rfl fun hreaches => ?_
    rw [h.resolve_left (not_not_intro hreaches)]
    trivial
  | lostVolume hreaches hlost =>
    rw [haddVolume, hlost, forall_prop_of_true hreaches]
    exact sameOwn_addVolume_iff
  | volume hreaches hvolume hmade =>
    rw [haddVolume, hvolume, forall_prop_of_true hreaches, and_iff_left fun h => absurd h hmade]
    exact sameOwn_undo_volume hcomp w
  | container path hreaches hvolume hmade hstarted =>
    rw [hvolume, forall_prop_of_true hreaches]
    refine iff_of_false (fun h => ?_) fun h => hstarted (h.2 hmade)
    have hcontainers := congrArg World.containers h
    dsimp only [undo, part] at hcontainers
    rw [if_pos rfl, removeVolume_containers] at hcontainers
    have hmem : container opts calls path ∈
        (removeRow calls (addContainer opts calls path (addVolume opts w))).containers.filter
          (isOwnContainer opts calls · == true) := by
      simp [removeRow, addContainer, isOwnContainer_container]
    have hold := hcontainers ▸ hmem
    exact hfresh.container _ (List.mem_of_mem_filter hold) rfl
  | rows path hreaches hvolume hstarted rows hrows =>
    rw [hvolume, forall_prop_of_true hreaches, and_iff_left fun _ => hstarted]
    rw [show (some calls.containerId).isSome = true from rfl, undo_safeRemoveContainer hcomp,
      removed_rows hfresh hrows]
    exact sameOwn_undo_volume hcomp w

/-! ## `create` -/

theorem sameOwn_refl (w : World) : SameOwn opts calls w w := rfl

theorem specOf_error (h : specOf opts = .error e) : e.promisesRollback = false := by
  unfold specOf at h
  split at h
  · cases h
    rfl
  · split at h
    · cases h
      rfl
    · cases h
  · split at h
    · cases h
      rfl
    · split at h
      · cases h
        rfl
      · cases h

theorem resolve_error (h : resolve opts = .error e) : e.promisesRollback = false := by
  cases hspec : specOf opts with
  | error e' =>
    rw [resolve, hspec] at h
    cases h
    exact specOf_error hspec
  | ok spec =>
    rw [resolve, hspec] at h
    change checkPort spec = .error e at h
    rw [checkPort] at h
    split at h
    · cases h
      rfl
    · cases h

/-- An end of `create` in an error: the steps were not begun, or they are rolled back. -/
theorem create_error {w : World} (hfresh : Fresh calls w)
    (h : ((create opts calls).run w).1 = .error e) :
    (((create opts calls).run w).2 = w ∧ ¬Reaches opts calls ∧ e.promisesRollback = false) ∨
    ∃ e' t w' hostPort, ((create opts calls).run w).2 = (undone opts calls t w').2 ∧
      e = rollbackError opts calls t hostPort (undone opts calls t w').1 e' ∧
      Left opts calls w e' t w' := by
  rw [create] at h ⊢
  cases hresolve : resolve opts with
  | error e' =>
    rw [hresolve] at h
    cases h
    refine .inl ⟨rfl, ?_, resolve_error hresolve⟩
    rintro ⟨_, _, _, hspec, -, -⟩
    rw [hresolve] at hspec
    cases hspec
  | ok spec =>
    rw [hresolve] at h
    cases hport : calls.allocatePort with
    | none =>
      rw [hport] at h
      cases h
      refine .inl ⟨rfl, ?_, rfl⟩
      rintro ⟨_, _, _, -, hsome, -⟩
      rw [hport] at hsome
      cases hsome
    | some hostPort =>
      rw [hport] at h
      have hends := ends_createSteps hresolve hport hfresh.row
      change ((Prog.withVars {} (tryCatch (createSteps opts calls spec hostPort)
        (rollback opts calls hostPort))).run w).1 = .error e at h
      show ((Prog.withVars {} (tryCatch (createSteps opts calls spec hostPort)
        (rollback opts calls hostPort))).run w).2 = w ∧ _ ∨ ∃ e' t w' port,
          ((Prog.withVars {} (tryCatch (createSteps opts calls spec hostPort)
            (rollback opts calls hostPort))).run w).2 = _ ∧ _
      rw [Prog.run_withVars, Prog.run_tryCatch] at h ⊢
      rw [Prog.Ends] at hends
      generalize (createSteps opts calls spec hostPort).run (w, {}) = fate at h hends ⊢
      obtain ⟨r, w', t⟩ := fate
      cases r with
      | ok row => cases h
      | error e' =>
        rw [Prog.onError_error, run_rollback] at h ⊢
        cases h
        exact .inr ⟨e', t, w', hostPort, rfl, rfl, hends e' rfl⟩

/-- A failure leaves everything as it was exactly if it can be undone. -/
theorem atomic_iff {w : World} (hfresh : Fresh calls w) (hcomp : Compensates calls)
    (h : ((create opts calls).run w).1 = .error e) :
    SameOwn opts calls w ((create opts calls).run w).2 ↔ Undoable opts calls w := by
  obtain ⟨hworld, hreaches, -⟩ | ⟨e', t, w', hostPort, hworld, -, hleft⟩ := create_error hfresh h
  · rw [hworld]
    exact iff_of_true rfl fun hreaches' => absurd hreaches' hreaches
  · rw [hworld]
    exact sameOwn_undone_iff hfresh hcomp hleft

def dbOpts : Opts := { name := "db", template := some "redis" }

def dbCalls : Calls := { id := "s", containerId := "c", allocatePort := some 5000 }

def dbTaken : World where
  containers := [⟨"c1", "ol-svc-db", [("ol-svc-data-db", "/data")]⟩]
  volumes := ["ol-svc-data-db"]

/-- Next to others that leave its own alone, a call leaves alone what is not its own; and if it fails,
its own is as before exactly if the failure can be undone. -/
theorem create_guarantees {w : World} (hfresh : Fresh calls w) (hcomp : Compensates calls) :
    (create opts calls).Guarantees (SameOwn opts calls) (SameRest opts calls)
      (fun r w' => ∀ e, r = .error e → (SameOwn opts calls w w' ↔ Undoable opts calls w)) w := by
  refine confined_create.guarantees.mono (fun _ _ h => h) fun r w' hend e he => ?_
  obtain ⟨rfl, hview⟩ := hend
  rw [SameOwn, hview]
  exact atomic_iff hfresh hcomp he

/-- The name is taken by a container that has the volume mounted. -/
theorem create_guarantees_taken :
    (create dbOpts dbCalls).Guarantees (SameOwn dbOpts dbCalls) (SameRest dbOpts dbCalls)
      (fun r w' => ∀ e, r = .error e →
        (SameOwn dbOpts dbCalls dbTaken w' ↔ Undoable dbOpts dbCalls dbTaken)) dbTaken :=
  create_guarantees ⟨List.forall_mem_nil _, by simp [dbTaken, dbCalls]⟩ ⟨rfl, rfl, rfl⟩

/-! ## Promises -/

theorem undo_clean {outcome : Outcome} {refusal : World → Option Error} {f : World → World}
    {w : World} (h : (undo true (attempt outcome refusal f) w).1 = true) :
    (undo true (attempt outcome refusal f) w).2 = f w := by
  rw [undo, if_pos rfl, run_attempt] at h ⊢
  rw [effect]
  cases hrefusal : refusal w with
  | none =>
    rw [hrefusal] at h
    cases outcome with
    | fails => cases h
    | lost => cases h
    | returns => simp
  | some error =>
    rw [hrefusal] at h
    cases outcome <;> cases h

/-- After a rollback that says so, all is as before but for the volume, which is gone. -/
theorem undone_clean {w w' : World} (hfresh : Fresh calls w) (hleft : Left opts calls w e t w')
    (hpromise : (rollbackError opts calls t hostPort
      (undone opts calls t w').1 e).promisesRollback = true) :
    (undone opts calls t w').2 = dropVolume opts w := by
  have haddVolume : removeRow calls (addVolume opts w) = addVolume opts w :=
    removeRow_eq_self (by rw [addVolume_services]; exact hfresh.row)
  have hclean : (undone opts calls t w').1 = true := by
    cases hleft with
    | unreached h hconflict hraw => simp [rollbackError, hconflict, hraw] at hpromise
    | lostVolume => cases hpromise
    | container => cases hpromise
    | volume hreaches hvolume hmade hraw =>
      by_cases hconflict : e = .containerNameInUse
      · simpa [rollbackError, hconflict, Error.promisesRollback] using hpromise
      · simp [rollbackError, hconflict, hraw] at hpromise
    | rows path hreaches hvolume hstarted rows hrows hraw =>
      by_contra hdirty
      simp [rollbackError, hdirty, hraw] at hpromise
  unfold undone at hclean ⊢
  dsimp only at hclean ⊢
  rw [Bool.and_eq_true_iff, Bool.and_eq_true_iff] at hclean
  obtain ⟨⟨hrow, hcontainer⟩, hvolume⟩ := hclean
  rw [deleteService, undo_clean hrow] at hcontainer hvolume ⊢
  cases hleft with
  | unreached h hconflict hraw => simp [rollbackError, hconflict, hraw] at hpromise
  | lostVolume => cases hpromise
  | container => cases hpromise
  | volume =>
    change (undo true (attempt _ _ _) _).2 = _
    rw [undo_clean hvolume, haddVolume]
    exact dropVolume_addVolume w
  | rows path hreaches hreturns hstarted rows hrows hraw =>
    change (undo true (attempt _ _ _) (undo true (attempt _ _ _) _).2).2 = _
    change (undo true (attempt _ _ _) (undo true (attempt _ _ _) _).2).1 = true at hvolume
    rw [undo_clean hcontainer] at hvolume ⊢
    rw [undo_clean hvolume, removed_rows hfresh hrows, dropVolume_addVolume]

/-- An error that says that all has been rolled back: the containers and the rows are as before, and
of the volume nothing is left, whether or not it was there before. -/
theorem promise_kept {w : World} (hfresh : Fresh calls w) :
    (create opts calls).Guarantees (SameOwn opts calls) (SameRest opts calls)
      (fun r w' => ∀ e, r = .error e → e.promisesRollback = true →
        SameOwn opts calls (dropVolume opts w) w') w := by
  refine confined_create.guarantees.mono (fun _ _ h => h) fun r w' hend e he hpromise => ?_
  obtain ⟨rfl, hview⟩ := hend
  rw [SameOwn, hview]
  obtain ⟨-, -, hraw⟩ | ⟨e', t, w', hostPort, hworld, rfl, hleft⟩ := create_error hfresh he
  · rw [hraw] at hpromise
    cases hpromise
  · rw [hworld, undone_clean hfresh hleft hpromise]

theorem promise_kept_taken :
    (create dbOpts dbCalls).Guarantees (SameOwn dbOpts dbCalls) (SameRest dbOpts dbCalls)
      (fun r w' => ∀ e, r = .error e → e.promisesRollback = true →
        SameOwn dbOpts dbCalls (dropVolume dbOpts dbTaken) w') dbTaken :=
  promise_kept ⟨List.forall_mem_nil _, by simp [dbTaken, dbCalls]⟩

end

end OpenLander.ServiceManager.Creation
