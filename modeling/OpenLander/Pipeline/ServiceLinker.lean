import OpenLander.Db.AttachService
import OpenLander.Pipeline.EnvInject

/-! # Connecting a managed service to a project

`ManagedServiceLinker` (`src/pipeline/managed-service-linker.ts`) for one project and one managed
service. `connect` moves the service under the project, records the connection with a workload of
the project if there is one, and sets the variables of the service; their keys go to the record.
`disconnect` deletes the keys on record. Both work on the variables of the deployable service of the
project, or on those of the project where it has none. -/

namespace OpenLander.Pipeline.ServiceLinker
open Theory
open ResolveEnv (Record Store EnvVarRow)
open Db.AttachService (Tables AttachError attachServiceToProject)
open EnvInject

/-! ## Variables by their scope -/

/-- The owner of a variable that is set for all environments. -/
inductive EnvScope
  | group (projectId : String)
  | service (serviceId : String)
deriving DecidableEq

namespace EnvScope

def covers : EnvScope → EnvVarRow → Bool
  | group projectId, row =>
    row.projectId == projectId && row.serviceId == none && row.environmentId == none
  | service serviceId, row => row.serviceId == some serviceId && row.environmentId == none

def serviceId : EnvScope → Option String
  | group _ => none
  | service serviceId => some serviceId

/-- A new row has the project that it was set through. -/
def row (scope : EnvScope) (projectId key value : String) : EnvVarRow :=
  { projectId := match scope with | group id => id | service _ => projectId
    serviceId := scope.serviceId, key, value }

end EnvScope

/-- `getEnvVars`, and `getEnvVarsForService`. -/
def getVars (store : Store) (scope : EnvScope) : Record := store.select scope.covers

/-- A row of the scope and key gets the value, or a new one is inserted. -/
def upsertEnvVar (projectId : String) (store : Store) (scope : EnvScope) (key value : String) :
    Store :=
  let isKey (row : EnvVarRow) : Bool := scope.covers row && row.key == key
  if store.envVars.any isKey then
    { store with
      envVars := store.envVars.map fun row => if isKey row then { row with value } else row }
  else { store with envVars := store.envVars ++ [scope.row projectId key value] }

def setVars (projectId : String) (store : Store) (scope : EnvScope)
    (vars : List (String × String)) : Store :=
  vars.foldl (fun store entry => upsertEnvVar projectId store scope entry.1 entry.2) store

def deleteEnvVar (store : Store) (scope : EnvScope) (key : String) : Store :=
  { store with envVars := store.envVars.filter fun row => !(scope.covers row && row.key == key) }

def deleteVars (store : Store) (scope : EnvScope) (keys : List String) : Store :=
  keys.foldl (deleteEnvVar · scope ·) store

/-! ## Connections -/

/-- A row of `service_connections`, told by the two services that it connects. -/
structure ConnectionRow where
  consumer : String
  provider : String
  autoInjectedEnvKeys : Option (List String) := none
deriving DecidableEq

/-- The keys on record. -/
def ConnectionRow.keys (row : ConnectionRow) : List String := row.autoInjectedEnvKeys.getD []

structure LinkedTables extends Tables where
  connections : List ConnectionRow := []

/-- The service to connect, with the columns that `connect` reads. -/
structure ConnectableService where
  id : String
  name : String
  kind : String
  type : Option String := none

/-- A query with `LIMIT 1` and no order gives one of the rows. -/
structure LimitOne where
  pick : List ConnectionRow → Option ConnectionRow
  mem_of_pick : ∀ rows row, pick rows = some row → row ∈ rows
  eq_nil_of_pick : ∀ rows, pick rows = none → rows = []

/-- The project and the service. -/
structure Pair where
  projectId : String
  service : ConnectableService
  /-- The `kind` column of the services. -/
  kind : String → String
  limitOne : LimitOne

namespace LinkedTables
variable (pair : Pair) (db : LinkedTables)

/-- The id of the deployable service of the project. -/
def canonicalId (projectId : String) : String := projectId ++ "__svc"

def isDeployable : Db.AttachService.ServiceKind → Bool
  | .git | .image | .compose => true
  | .composeChild | .managed => false

/-- The workloads of the project, the one updated last first. -/
def getDeployablesByGroup (projectId : String) : List Db.AttachService.ServiceRow :=
  db.services.filter fun row => row.projectId = some projectId ∧ isDeployable row.kind

def consumer (projectId : String) : Option Db.AttachService.ServiceRow :=
  let workloads := db.getDeployablesByGroup projectId
  (workloads.find? (·.id = canonicalId projectId)).or workloads.head?

/-- The scope that the variables of the project are kept in. -/
def envScope (projectId : String) : EnvScope :=
  if projectId ∈ db.projects ∧ db.services.any (·.id = canonicalId projectId) then
    .service (canonicalId projectId)
  else .group projectId

def consumerBelongsToProject (projectId : String) (connection : ConnectionRow) : Bool :=
  connection.consumer = canonicalId projectId ∨
    db.services.any fun row => row.id = connection.consumer ∧ row.projectId = some projectId

/-- The rows that connect the project to the service. -/
def pairRows : List ConnectionRow :=
  db.connections.filter fun connection =>
    connection.provider = pair.service.id ∧ db.consumerBelongsToProject pair.projectId connection

def getServiceConnectionByProjectAndService : Option ConnectionRow :=
  pair.limitOne.pick (db.pairRows pair)

def upsertServiceConnection (consumer : String) : LinkedTables :=
  if db.connections.any fun connection =>
      connection.consumer = consumer ∧ connection.provider = pair.service.id then db
  else { db with connections := db.connections ++ [{ consumer, provider := pair.service.id }] }

def updateServiceConnection (connection : ConnectionRow) (keys : List String) : LinkedTables :=
  { db with connections := db.connections.map fun row =>
      if row.consumer = connection.consumer ∧ row.provider = connection.provider then
        { row with autoInjectedEnvKeys := some keys }
      else row }

/-- Some other service that the project is connected to is of the type. -/
def hasSameTypeConnection (serviceType : String) : Bool :=
  db.connections.any fun connection =>
    db.consumerBelongsToProject pair.projectId connection ∧
      connection.provider ≠ pair.service.id ∧ db.services.any (·.id = connection.provider) ∧
        normalizeServiceType (pair.kind connection.provider) = normalizeServiceType serviceType

/-! ## The two operations -/

structure Credentials where
  credentials : Record := .empty
  connectionEnv : Option (List (String × String)) := none

/-- What `connect` sets, once the connection is recorded. -/
def injectedVars (given : Credentials) : List (String × String) :=
  let serviceType := pair.service.type.getD (kindToLegacyType pair.service.kind)
  valuesToSet
    { serviceName := pair.service.name, serviceType, credentials := given.credentials
      connectionEnv := given.connectionEnv }
    (getVars db.toStore (db.envScope pair.projectId)) (db.hasSameTypeConnection pair serviceType)

/-- The connection row, if there is a workload to connect. -/
def recordConnection : LinkedTables :=
  match db.consumer pair.projectId with
  | some consumer => db.upsertServiceConnection pair consumer.id
  | none => db

/-- The tables after `autoInjectServiceEnv`. -/
def inject (vars : List (String × String)) : LinkedTables :=
  { db with
    toStore := setVars pair.projectId db.toStore (db.envScope pair.projectId) vars }

/-- The keys go to the record of a connection, unless there are none. -/
def recordKeys (keys : List String) : LinkedTables :=
  match (db.consumer pair.projectId).bind fun _ =>
      db.getServiceConnectionByProjectAndService pair with
  | some connection => if keys = [] then db else db.updateServiceConnection connection keys
  | none => db

/-- The rest of `connect`, once the service is under the project. -/
def link (given : Credentials) : List String × LinkedTables :=
  let recorded := db.recordConnection pair
  let vars := recorded.injectedVars pair given
  (vars.map (·.1), (recorded.inject pair vars).recordKeys pair (vars.map (·.1)))

def connect (given : Credentials) : Except AttachError (List String × LinkedTables) :=
  (attachServiceToProject pair.projectId pair.service.id db.toTables).map fun moved =>
    link pair { db with toTables := moved.2 } given

def disconnect : LinkedTables :=
  match db.getServiceConnectionByProjectAndService pair with
  | none => db
  | some connection =>
    { db with
      toStore := deleteVars db.toStore (db.envScope pair.projectId)
        connection.keys
      connections := db.connections.filter (· ∉ db.pairRows pair) }

end LinkedTables

/-! ## What happens to the tables -/

/-- The tables, with an account of the variables: those that `connect` has set and nobody has
changed since, and all that it has ever set. -/
structure State where
  db : LinkedTables
  injected : List (EnvScope × String)
  ever : List (EnvScope × String)

inductive Event
  | connect (given : LinkedTables.Credentials)
  | createWorkload (row : Db.AttachService.ServiceRow)
  | attachWorkload (serviceId : String)
  /-- Somebody updates a service row, which now comes first. -/
  | touch (serviceId : String)
  /-- Somebody sets a variable or deletes it. -/
  | edit (scope : EnvScope) (key : String) (value : Option String)
  | disconnect

def touchService (db : LinkedTables) (serviceId : String) : LinkedTables :=
  { db with services :=
      db.services.filter (·.id = serviceId) ++ db.services.filter (·.id ≠ serviceId) }

def editVar (projectId : String) (store : Store) (scope : EnvScope) (key : String) :
    Option String → Store
  | some value => upsertEnvVar projectId store scope key value
  | none => deleteEnvVar store scope key

/-- A call of `connect` that is rejected changes nothing. -/
def next (pair : Pair) (s : State) : Event → Option State
  | .connect given =>
    match s.db.connect pair given with
    | .error _ => some s
    | .ok (keys, db) =>
      let entries := keys.map (db.envScope pair.projectId, ·)
      some { db, injected := entries ++ s.injected, ever := entries ++ s.ever }
  | .createWorkload row =>
    if row.projectId = some pair.projectId ∧ LinkedTables.isDeployable row.kind ∧
        ∀ other ∈ s.db.services, other.id ≠ row.id then
      some { s with db := { s.db with services := row :: s.db.services } }
    else none
  | .attachWorkload serviceId =>
    if ∃ row ∈ s.db.services, row.id = serviceId ∧ LinkedTables.isDeployable row.kind then
      match attachServiceToProject pair.projectId serviceId s.db.toTables with
      | .error _ => some s
      | .ok moved => some { s with db := touchService { s.db with toTables := moved.2 } serviceId }
    else none
  | .touch serviceId => some { s with db := touchService s.db serviceId }
  | .edit scope key value =>
    some { s with
      db := { s.db with toStore := editVar pair.projectId s.db.toStore scope key value }
      injected := s.injected.filter (· ≠ (scope, key)) }
  | .disconnect => some { s with db := s.db.disconnect pair, injected := [] }

end OpenLander.Pipeline.ServiceLinker
