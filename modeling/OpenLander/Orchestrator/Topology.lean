import OpenLander.Theory.LayeredSort
import Mathlib.Data.List.Sort
import Mathlib.Data.List.Perm.Subperm

/-! # The topology of a deployment

`DeployOrchestrator.buildTopology` (`src/pipeline/orchestrator.ts`) orders the services of a
deployment in layers. The coordinates of the repository, which it copies into its result, are left
out. -/

namespace OpenLander.Orchestrator
open Theory

structure ServiceNode where
  name : String
  dependsOn : List String
  deriving DecidableEq, Repr

structure ServiceTopology where
  services : List ServiceNode
  executionOrder : List (List String)
  deriving DecidableEq, Repr

inductive TopologyError
  | duplicateServiceName (name : String)
  | missingDependencyReferences (references : List String)
  | circularDependency
  deriving DecidableEq, Repr

def TopologyError.message : TopologyError → String
  | duplicateServiceName name => s!"Duplicate service name: {name}"
  | missingDependencyReferences references =>
    "Missing dependency references: " ++ ", ".intercalate references
  | circularDependency => "Circular dependency detected in service topology"

/-- The UTF-16 code units of a string, by which the source sorts strings. -/
def utf16Units (s : String) : List Nat :=
  s.toList.flatMap fun c =>
    let n := c.toNat
    if n < 0x10000 then [n]
    else [0xD800 + (n - 0x10000) / 0x400, 0xDC00 + (n - 0x10000) % 0x400]

section Build
variable (services : List ServiceNode)

/-- The first name that occurred before. -/
def duplicateName (seen : List String) : List ServiceNode → Option String
  | [] => none
  | service :: services =>
    if service.name ∈ seen then some service.name
    else duplicateName (service.name :: seen) services

def serviceNames : List String := services.map (·.name)

def missingDependencies : List String :=
  services.flatMap fun service =>
    (service.dependsOn.filter (· ∉ serviceNames services)).map fun dependency =>
      s!"{service.name} -> {dependency}"

def dependsOn (name : String) : List String :=
  ((services.find? (·.name = name)).map (·.dependsOn)).getD []

def orderIndex (name : String) : Nat := (serviceNames services).idxOf name

def sortByIndex (names : List String) : List String :=
  names.insertionSort fun left right => orderIndex services left ≤ orderIndex services right

def inDegree (name : String) : Int := (dependsOn services name).length

def executionOrder : List (List String) :=
  LayeredSort.layers (dependsOn services) (serviceNames services) (sortByIndex services)
    services.length (inDegree services)
    (sortByIndex services ((serviceNames services).filter (inDegree services · = 0)))

def buildTopology : Except TopologyError ServiceTopology :=
  match duplicateName [] services with
  | some name => .error (.duplicateServiceName name)
  | none =>
    if missingDependencies services ≠ [] then
      .error (.missingDependencyReferences ((missingDependencies services).insertionSort
        fun left right => ¬utf16Units right < utf16Units left))
    else if (executionOrder services).flatten.length ≠ services.length then
      .error .circularDependency
    else .ok { services, executionOrder := executionOrder services }

/-! ## What is built -/

variable {services}

theorem duplicateName_eq_none {seen : List String} (h : duplicateName seen services = none) :
    (serviceNames services).Nodup ∧ ∀ name ∈ seen, name ∉ serviceNames services := by
  induction services generalizing seen with
  | nil => exact ⟨.nil, fun _ _ h => (nomatch h)⟩
  | cons service services ih =>
    rw [duplicateName] at h
    split at h
    · cases h
    next hnot =>
      obtain ⟨hnodup, hdisj⟩ := ih h
      have hself : service.name ∉ serviceNames services :=
        hdisj service.name (List.mem_cons_self ..)
      refine ⟨List.nodup_cons.mpr ⟨hself, hnodup⟩, fun name hseen hmem => ?_⟩
      rcases List.mem_cons.mp hmem with rfl | hmem
      · exact hnot hseen
      · exact hdisj name (List.mem_cons_of_mem _ hseen) hmem

/-- Every service is in exactly one layer. -/
structure ServiceTopology.Layered (t : ServiceTopology) : Prop where
  nodup : (t.services.map (·.name)).Nodup
  perm : t.executionOrder.flatten.Perm (t.services.map (·.name))

theorem buildTopology_layered (h : buildTopology services = .ok t) :
    t.services = services ∧ t.Layered := by
  rw [buildTopology] at h
  split at h
  · cases h
  next hdup =>
    obtain ⟨hnodup, -⟩ := duplicateName_eq_none hdup
    split at h
    · cases h
    split at h
    · cases h
    next hlength =>
      cases h
      have hsort : ∀ l, (sortByIndex services l).Perm l := fun l => List.perm_insertionSort _ l
      have hstart : LayeredSort.Inv (dependsOn services) (serviceNames services) [] _ _ :=
        (LayeredSort.Inv.start hnodup).perm hsort
      obtain ⟨horder, hsub⟩ := hstart.layers hnodup hsort services.length
      refine ⟨rfl, hnodup, (List.subperm_of_subset horder hsub).perm_of_length_le ?_⟩
      rw [serviceNames, List.length_map]
      exact (not_not.mp hlength).ge

end Build
end OpenLander.Orchestrator
