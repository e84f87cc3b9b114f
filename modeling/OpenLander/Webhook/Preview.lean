import Mathlib.Data.List.Nodup
import Mathlib.Logic.Function.Basic
import OpenLander.Theory.Run
import OpenLander.Theory.Worklist

/-! # Preview environments of pull requests

`handleWebhook` deploys a preview for each event of a pull request but the closing one, which
removes it. A preview is told by its name while it is deployed, and by three columns of its service
row when it is removed. The handlers of several events interleave between their calls of the
database; `origin` keeps account of which project `deployPreview` created for which pull request,
and which ones its deployments added below. -/

namespace OpenLander.Webhook
open Theory

/-- The columns of a service row that tie a preview to its parent. -/
structure Columns where
  parentProjectId : Option String
  isPreview : Bool
  prNumber : Option Nat
deriving DecidableEq

/-- A project, with the columns of its service row if it has one. -/
structure Project where
  id : String
  name : String
  service : Option Columns
deriving DecidableEq

def Project.parentProjectId (p : Project) : Option String := p.service.bind (·.parentProjectId)

/-- The project whose webhook the events come to. -/
structure Parent where
  id : String
  name : String

def Parent.previewName (parent : Parent) (prNumber : Nat) : String :=
  parent.name ++ "-pr-" ++ toString prNumber

/-- What `deployPreview` writes to the row of a preview. -/
def Parent.columns (parent : Parent) (prNumber : Nat) : Columns :=
  ⟨some parent.id, true, some prNumber⟩

/-- The pull request that a project was made for, and the preview it is or belongs to. -/
structure Origin where
  prNumber : Nat
  root : String
deriving DecidableEq

/-! ## The projects -/

structure Db where
  projects : List Project
  /-- The ids that were given out. -/
  used : List String
  origin : String → Option Origin

namespace Db

def Exists (db : Db) (id : String) : Prop := ∃ p ∈ db.projects, p.id = id

instance (db : Db) (id : String) : Decidable (db.Exists id) :=
  inferInstanceAs (Decidable (∃ p ∈ db.projects, p.id = id))

/-- The project is there, and `deployPreview` created it for the pull request. -/
def PreviewOf (db : Db) (prNumber : Nat) (id : String) : Prop :=
  db.Exists id ∧ db.origin id = some ⟨prNumber, id⟩

def getProjectByName (db : Db) (name : String) : Option Project :=
  db.projects.find? (·.name = name)

/-- The first of `getPreviewProjects` with the number of the pull request. -/
def findPreview (db : Db) (parent : Parent) (prNumber : Nat) : Option Project :=
  db.projects.find? (·.service = some (parent.columns prNumber))

/-- `updateProject` with the columns of a preview. -/
def updateProject (db : Db) (id : String) (columns : Columns) : Db :=
  { db with projects := db.projects.map fun p =>
      if p.id = id then { p with service := p.service.map fun _ => columns } else p }

/-- `createProject`, which gives the project its service row as well. -/
def createProject (db : Db) (id name : String) (parentProjectId : Option String)
    (origin : Origin) : Db where
  projects := ⟨id, name, some ⟨parentProjectId, false, none⟩⟩ :: db.projects
  used := id :: db.used
  origin := Function.update db.origin id (some origin)

/-- The projects by the parent of their service rows. -/
def children (db : Db) : Graph String where
  next id := (db.projects.filter (·.parentProjectId = some id)).map (·.id)
  nodes := db.projects.map (·.id)
  next_subset _ := List.map_subset _ (List.filter_subset_self _)

/-- The project and what is below it. -/
def below (db : Db) (id : String) : List String := db.children.closure [id] [id]

def removeTree (db : Db) (id : String) : Db :=
  { db with projects := db.projects.filter (·.id ∉ db.below id) }

end Db

/-! ## The handlers -/

inductive Action
  | opened | synchronize | closed
deriving DecidableEq

/-- What a handler is about to do. -/
inductive Phase
  /-- `deployPreview`: look the preview up by its name. -/
  | lookup
  | marking (id : String)
  | redeploying (id : String)
  /-- The redeploy of a preview that is there is under way. -/
  | rebuilding (id : String)
  | creating
  /-- The first deploy of a preview is under way. -/
  | deploying (id : String)
  | recording (id : String)
  | deployed
  /-- `cleanupPreview`: look the preview up by its columns. -/
  | listing
  | removing (id : String)
  | cleaned
  | failed
deriving DecidableEq

namespace Phase

def first : Action → Phase
  | .opened | .synchronize => lookup
  | .closed => listing

/-- Where the handler ends if the call it is about to make fails: `deployPreview` catches. -/
def onFailure : Phase → Option Phase
  | deployed | cleaned | failed => none
  | listing | removing _ => some failed
  | _ => some deployed

/-- The project that the handler goes on to work on. -/
def target : Phase → Option String
  | marking id | redeploying id | rebuilding id | deploying id | recording id | removing id =>
    some id
  | _ => none

/-- The preview whose deployment is under way. -/
def deployment : Phase → Option String
  | rebuilding id | deploying id => some id
  | _ => none

def InFlight (p : Phase) : Prop := p.onFailure ≠ none

/-- The closing event has been looked after, or its preview has been found. -/
def Listed : Phase → Prop
  | removing _ | cleaned => True
  | _ => False

instance : DecidablePred InFlight := fun p => inferInstanceAs (Decidable (p.onFailure ≠ none))

instance : DecidablePred Listed := fun p => by
  cases p <;> first | exact isTrue trivial | exact isFalse id

end Phase

structure Handler where
  prNumber : Nat
  phase : Phase
deriving DecidableEq

structure State (ι : Type) where
  db : Db
  handlers : ι → Option Handler
  /-- The handler of the last event of a pull request. -/
  latest : Nat → Option ι
  /-- The projects that were re-parented, redeployed or removed, each for a pull request. -/
  touched : List (String × Nat)

inductive Event (ι : Type)
  | deliver (h : ι) (prNumber : Nat) (action : Action)
  | step (h : ι)
  | createProject (h : ι) (id : String)
  /-- The deployment under way adds a project below its preview. -/
  | addChild (h : ι) (id name : String)
  /-- The removal under way has come to a project below its preview. -/
  | removeChild (h : ι) (id : String)
  | fail (h : ι)
deriving DecidableEq

namespace State
variable {ι : Type} [DecidableEq ι]

def goTo (s : State ι) (h : ι) (prNumber : Nat) (phase : Phase) : State ι :=
  { s with handlers := Function.update s.handlers h (some ⟨prNumber, phase⟩) }

/-- Account for what is done to a project that is there. -/
def touch (s : State ι) (prNumber : Nat) (id : String) : State ι :=
  if s.db.Exists id then { s with touched := (id, prNumber) :: s.touched } else s

def updateProject (s : State ι) (id : String) (prNumber : Nat) (columns : Columns) : State ι :=
  { s.touch prNumber id with db := s.db.updateProject id columns }

/-- `remove` does nothing for a project that is not there. -/
def remove (s : State ι) (prNumber : Nat) (id : String) : State ι :=
  if s.db.Exists id then
    { s with
      db := s.db.removeTree id
      touched := (s.db.below id).map (·, prNumber) ++ s.touched }
  else s

def advance (parent : Parent) (s : State ι) (h : ι) (pr : Nat) : Phase → Option (State ι)
  | .lookup =>
    match s.db.getProjectByName (parent.previewName pr) with
    | some existing => some (s.goTo h pr (.marking existing.id))
    | none => some (s.goTo h pr .creating)
  | .marking id =>
    some ((s.updateProject id pr (parent.columns pr)).goTo h pr (.redeploying id))
  | .redeploying id =>
    if s.db.Exists id then some ((s.touch pr id).goTo h pr (.rebuilding id))
    else some (s.goTo h pr .deployed)
  | .rebuilding _ => some (s.goTo h pr .deployed)
  | .deploying id => some (s.goTo h pr (.recording id))
  | .recording id =>
    some ((s.updateProject id pr (parent.columns pr)).goTo h pr .deployed)
  | .listing =>
    match s.db.findPreview parent pr with
    | some target => some (s.goTo h pr (.removing target.id))
    | none => some (s.goTo h pr .cleaned)
  | .removing id => some ((s.remove pr id).goTo h pr .cleaned)
  | .creating | .deployed | .cleaned | .failed => none

/-- A name that is taken makes `createProject` throw. -/
def create (parent : Parent) (s : State ι) (h : ι) (pr : Nat) (id : String) : State ι :=
  match s.db.getProjectByName (parent.previewName pr) with
  | some _ => s.goTo h pr .deployed
  | none =>
    { s.goTo h pr (.deploying id) with
      db := s.db.createProject id (parent.previewName pr) none ⟨pr, id⟩ }

end State

variable {ι : Type} [DecidableEq ι]

/-- The steps of the handlers. An event is delivered to a parent that is there; a new id is one
that was never given out; a service row refers to a parent that is there. -/
def next (parent : Parent) (s : State ι) : Event ι → Option (State ι)
  | .deliver h pr action =>
    if s.handlers h = none ∧ s.db.Exists parent.id then
      some { s.goTo h pr (.first action) with latest := Function.update s.latest pr (some h) }
    else none
  | .step h => (s.handlers h).bind fun x => s.advance parent h x.prNumber x.phase
  | .createProject h id => (s.handlers h).bind fun x =>
    if x.phase = .creating ∧ id ∉ s.db.used then some (s.create parent h x.prNumber id) else none
  | .addChild h id name => (s.handlers h).bind fun x => x.phase.deployment.bind fun root =>
    if id ∉ s.db.used ∧ s.db.getProjectByName name = none ∧ s.db.Exists root then
      some { s with db := s.db.createProject id name (some root) ⟨x.prNumber, root⟩ }
    else none
  | .removeChild h id => (s.handlers h).bind fun x =>
    match x.phase with
    | .removing target =>
      if s.db.Exists target ∧ id ≠ target ∧ id ∈ s.db.below target then
        some (s.remove x.prNumber id)
      else none
    | _ => none
  | .fail h => (s.handlers h).bind fun x => x.phase.onFailure.map fun phase =>
    s.goTo h x.prNumber phase

end OpenLander.Webhook
