import OpenLander.Security.OperationPermissions
import OpenLander.Compose.Interpolate
import OpenLander.Theory.Worklist

/-! # The tables of projects and services

What `src/db/repos/service.repo.ts` and `src/db/repos/project.repo.ts` look up of the rows of the tools of
agents, and the Compose children of a row by both of the loops that collect them. -/

namespace OpenLander.Db.Services
open Theory Security
open Compose (trim)

inductive ServiceKind
  | git
  | image
  | compose
  | composeChild
  | postgres
  | mysql
  | redis
  | mongo
  | neo4j
  | minio
  deriving DecidableEq, Repr

/-- The kind is one of `MANAGED_SERVICE_KINDS`. -/
def isManagedKind : ServiceKind → Bool
  | .postgres | .mysql | .redis | .mongo | .neo4j | .minio => true
  | .git | .image | .compose | .composeChild => false

structure ServiceRow where
  id : String
  projectId : String
  name : String
  kind : ServiceKind
  parentServiceId : Option String := none
  containerId : Option String := none
  containerName : Option String := none
  archived : Bool := false
  deriving DecidableEq, Repr

structure ProjectRow where
  id : String
  name : String
  deriving DecidableEq, Repr

/-- The tables, with what the database keeps unique. A name may occur in more than one service. -/
structure Database where
  /-- The latest update first. -/
  services : List ServiceRow
  projects : List ProjectRow
  settings : Settings
  nodup_serviceIds : (services.map (·.id)).Nodup
  nodup_projectIds : (projects.map (·.id)).Nodup

/-- The errors of the tools, without their texts. -/
inductive Error
  | permission (error : PermissionError)
  | projectNotFound (identifier : String)
  | serviceNotFound (identifier : String)
  | serviceOperationUnsupported (operation : String) (kind : ServiceKind)
  | serviceSelectionRequired (identifier : String)
  /-- With its reason. -/
  | scopeViolation (reason : String)
  | invalidCleanupTarget
  /-- The deploy locks are taken, or another check of the pipeline fails. -/
  | pipeline
  | archived
  deriving DecidableEq, Repr

namespace Database
variable (db : Database)

def getService (id : String) : Option ServiceRow := db.services.find? (·.id = id)

def getProject (id : String) : Option ProjectRow := db.projects.find? (·.id = id)

def getProjectByName (name : String) : Option ProjectRow :=
  if name = "__orphan_managed" then none else db.projects.find? (·.name = name)

def getDeployablesByGroup (projectId : String) : List ServiceRow :=
  db.services.filter fun row =>
    row.projectId = projectId && !isManagedKind row.kind && row.kind ≠ .composeChild

variable {db} {id root : String}

theorem getService_eq_some (h : db.getService id = some row) : row ∈ db.services ∧ row.id = id :=
  ⟨List.mem_of_find?_eq_some h, of_decide_eq_true (List.find?_some h :)⟩

theorem getService_of_mem (h : row ∈ db.services) : db.getService row.id = some row := by
  obtain ⟨found, hfound⟩ : ∃ found, db.getService row.id = some found := by
    rw [← Option.isSome_iff_exists, getService, List.find?_isSome]
    exact ⟨row, h, decide_eq_true rfl⟩
  obtain ⟨hmem, hid⟩ := getService_eq_some hfound
  rw [hfound, List.inj_on_of_nodup_map db.nodup_serviceIds hmem h hid]

/-! ## Compose children -/

variable (db)

/-- `child` is the row of a service below `parent`. -/
def Child (parent child : String) : Prop :=
  ∃ row ∈ db.services, row.parentServiceId = some parent ∧ row.id = child

instance : Decidable (db.Child parent child) :=
  inferInstanceAs (Decidable (∃ row ∈ db.services, row.parentServiceId = some parent ∧ row.id = child))

/-- The service and all below it. -/
def Below (root id : String) : Prop := Relation.ReflTransGen db.Child root id

def childEdges : List (String × String) :=
  db.services.filterMap fun row => row.parentServiceId.map (·, row.id)

/-- The passes over all services that `maybeHandleMcpSafety` and `stopService` make. -/
def expandedIds (root : String) : List String := saturate db.childEdges [root]

def childGraph : Graph String where
  next parent := (db.services.filter (·.parentServiceId = some parent)).map (·.id)
  nodes := db.services.map (·.id)
  next_subset _ := List.map_subset _ (List.filter_subset_self _)

/-- The list of targets that `deleteService` and `inspectAppCleanup` go through while it grows. -/
def descendantIds (root : String) : List String := db.childGraph.closure [root] [root]

variable {db} {id root : String}

theorem mem_childEdges : (parent, child) ∈ db.childEdges ↔ db.Child parent child := by
  simp only [childEdges, List.mem_filterMap, Option.map_eq_some_iff, Prod.mk.injEq, Child]
  constructor
  · rintro ⟨row, hrow, _, hparent, rfl, hchild⟩
    exact ⟨row, hrow, hparent, hchild⟩
  · rintro ⟨row, hrow, hparent, hchild⟩
    exact ⟨row, hrow, parent, hparent, rfl, hchild⟩

theorem mem_expandedIds : id ∈ db.expandedIds root ↔ db.Below root id := by
  rw [expandedIds, mem_saturate_iff]
  simp only [mem_childEdges, List.mem_singleton, exists_eq_left]
  rfl

theorem mem_descendantIds : id ∈ db.descendantIds root ↔ db.Below root id := by
  have hedge : db.childGraph.Edge = db.Child := by
    funext parent child
    simp only [Graph.Edge, childGraph, List.mem_map, List.mem_filter, decide_eq_true_eq, Child,
      and_assoc]
  rw [descendantIds, Graph.mem_closure_iff, hedge]
  simp only [List.mem_singleton, exists_eq_left]
  rfl

end Database

/-! ## Arguments -/

/-- The arguments of a tool that name services and projects. What its schema does not have is not
there. -/
structure Args where
  serviceIds : List String := []
  serviceId : Option String := none
  serviceName : Option String := none
  projectId : Option String := none
  projectName : Option String := none
  deriving DecidableEq, Repr

/-- A text without the spaces around it, unless nothing else is in it. -/
def readString (value : Option String) : Option String :=
  (value.map fun text => String.ofList (trim text.toList)).filter (· ≠ "")

/-- The service is `block`ed for the permission. -/
def Database.Blocked (db : Database) (permission : PermissionKey) (row : ServiceRow) : Prop :=
  Blocks permission db.settings { projectId := row.projectId, serviceId := row.id }

instance (db : Database) : Decidable (db.Blocked permission row) :=
  inferInstanceAs (Decidable (Blocks ..))

end OpenLander.Db.Services
