import OpenLander.Theory.CycleSearch
import OpenLander.Theory.Collections
import OpenLander.Orchestrator.Layers
import Mathlib.Data.List.Infix

/-! # The dependencies of a monorepo

`detectMonorepoDependencies` (`src/pipeline/deploy/monorepo-deps.ts`) lets a service depend on every
sibling whose container name occurs in one of its environment values, and drops all dependencies if
there is a cycle. A container is reached by its name. The warnings are left out. -/

namespace OpenLander.MonorepoDeps
open Theory Orchestrator

/-- `parentName.replace(/\//g, '-')`. -/
def normalizeParent (parentName : String) : String :=
  String.ofList (parentName.toList.map fun c => if c = '/' then '-' else c)

def containerName (parentName serviceName : String) : String :=
  "ol-" ++ normalizeParent parentName ++ "-" ++ serviceName

/-- The entries of `containerToService`. Two of one key are equal. -/
def containerToService (parentName : String) (services : List ServiceNode) :
    List (String × String) :=
  services.map fun service => (containerName parentName service.name, service.name)

/-- `value.includes(containerName)`. -/
def includes (value containerName : String) : Bool :=
  containerName.toList <:+: value.toList

/-- One round of the innermost loop. -/
def addDependency (serviceName value : String) (dependencies : List String)
    (entry : String × String) : List String :=
  if entry.2 = serviceName then dependencies
  else if includes value entry.1 then insertLast dependencies entry.2
  else dependencies

def dependencies (containers : List (String × String)) (serviceName : String)
    (envVars : List (String × String)) : List String :=
  envVars.foldl
    (fun dependencies (_, value) => containers.foldl (addDependency serviceName value) dependencies) []

/-- The dependencies of the last service of this name that are services themselves. -/
def listedDependencies (services : List ServiceNode) (name : String) : List String :=
  let serviceMap := fromEntries (services.map fun service => (service.name, service))
  ((serviceMap name).map fun service =>
    service.dependsOn.filter fun dependency => (serviceMap dependency).isSome).getD []

def hasCircularDependency (services : List ServiceNode) : Bool :=
  (CycleSearch.search (listedDependencies services) (serviceNames services).length
    (serviceNames services)).isNone

/-- The loop over the services. -/
def scanServices (services : List ServiceNode) (parentName : String)
    (getEnvVarsForService : String → List (String × String)) : List ServiceNode :=
  services.map fun service =>
    { service with
      dependsOn := dependencies (containerToService parentName services) service.name
        (getEnvVarsForService service.name) }

def detectMonorepoDependencies (services : List ServiceNode) (parentName : String)
    (getEnvVarsForService : String → List (String × String)) : List ServiceNode :=
  let services := scanServices services parentName getEnvVarsForService
  if hasCircularDependency services then
    services.map fun service => { service with dependsOn := [] }
  else services

/-! ## The cycle check -/

variable {services : List ServiceNode} {parentName : String}
  {env : String → List (String × String)} {a b : String}

theorem listedDependencies_subset (name : String) :
    listedDependencies services name ⊆ serviceNames services := by
  intro dependency h
  cases hservice : fromEntries (services.map fun service => (service.name, service)) name with
  | none => simp [listedDependencies, hservice] at h
  | some service =>
    simp only [listedDependencies, hservice, Option.map_some, Option.getD_some, List.mem_filter,
      fromEntries_isSome, List.map_map] at h
    exact h.2

theorem listedDependencies_eq_nil (h : a ∉ serviceNames services) :
    listedDependencies services a = [] := by
  cases hservice : fromEntries (services.map fun service => (service.name, service)) a with
  | none => simp [listedDependencies, hservice]
  | some service =>
    have hsome := fromEntries_isSome.mp (by rw [hservice]; rfl)
    rw [List.map_map] at hsome
    exact absurd hsome h

/-- What the check follows are the dependencies, where the names differ and all are listed. -/
theorem mem_listedDependencies (hnodup : (serviceNames services).Nodup)
    (hlisted : ∀ service ∈ services, ∀ dependency ∈ service.dependsOn,
      dependency ∈ serviceNames services) :
    b ∈ listedDependencies services a ↔ Depends services a b := by
  constructor
  · intro h
    cases hservice : fromEntries (services.map fun service => (service.name, service)) a with
    | none => simp [listedDependencies, hservice] at h
    | some service =>
      obtain ⟨service', hmem, heq⟩ := List.mem_map.mp (mem_of_fromEntries hservice)
      cases heq
      simp only [listedDependencies, hservice, Option.map_some, Option.getD_some,
        List.mem_filter] at h
      exact ⟨service, hmem, rfl, h.1⟩
  · intro ⟨service, hmem, hname, hb⟩
    cases hservice : fromEntries (services.map fun service => (service.name, service)) a with
    | none =>
      have hsome : (fromEntries (services.map fun service => (service.name, service)) a).isSome :=
        fromEntries_isSome.mpr (by
          rw [List.map_map]
          exact List.mem_map.mpr ⟨service, hmem, hname⟩)
      rw [hservice] at hsome
      exact nomatch hsome
    | some found =>
      obtain ⟨found', hfound, heq⟩ := List.mem_map.mp (mem_of_fromEntries hservice)
      obtain ⟨hfoundName, rfl⟩ := Prod.mk.inj heq
      have hsame : found' = service :=
        List.inj_on_of_nodup_map hnodup hfound hmem (hfoundName.trans hname.symm)
      subst hsame
      have hsome : (fromEntries (services.map fun service => (service.name, service)) b).isSome :=
        fromEntries_isSome.mpr (by
          rw [List.map_map]
          exact hlisted found' hmem b hb)
      simp only [listedDependencies, hservice, Option.map_some, Option.getD_some, List.mem_filter]
      exact ⟨hb, hsome⟩

/-- The check finds a cycle exactly if there is one. -/
theorem hasCircularDependency_iff (hnodup : (serviceNames services).Nodup)
    (hlisted : ∀ service ∈ services, ∀ dependency ∈ service.dependsOn,
      dependency ∈ serviceNames services) :
    hasCircularDependency services = true ↔
      ∃ name, Relation.TransGen (Depends services) name name := by
  have hedge : CycleSearch.Edge (listedDependencies services) = Depends services := by
    funext a b
    exact propext (mem_listedDependencies hnodup hlisted)
  rw [hasCircularDependency, Option.isNone_iff_eq_none,
    CycleSearch.search_eq_none_iff (fun a _ => listedDependencies_subset a)
      (fun a => listedDependencies_eq_nil), hedge]

/-- On services that pass the other checks, it agrees with `buildTopology`. -/
theorem hasCircularDependency_iff_buildTopology (hnodup : (serviceNames services).Nodup)
    (hlisted : ∀ service ∈ services, ∀ dependency ∈ service.dependsOn,
      dependency ∈ serviceNames services) :
    hasCircularDependency services = true ↔ buildTopology services = .error .circularDependency := by
  have hok := exists_buildTopology_iff services
  rw [hasCircularDependency_iff hnodup hlisted]
  constructor
  · intro hcycle
    cases hbuilt : buildTopology services with
    | ok t => exact absurd hcycle (not_exists.mpr (hok.mp ⟨t, hbuilt⟩).acyclic)
    | error e =>
      simp only [buildTopology, duplicateName_of_nodup hnodup fun _ _ => List.not_mem_nil,
        missingDependencies_eq_nil.mpr hlisted, ne_eq, not_true, if_false] at hbuilt
      split at hbuilt
      · exact hbuilt.symm
      · cases hbuilt
  · intro herror
    by_contra hacyclic
    obtain ⟨t, ht⟩ := hok.mpr ⟨hnodup, hlisted, not_exists.mp hacyclic⟩
    rw [herror] at ht
    cases ht

/-! ## What is detected -/

/-- A value of the first service contains the container name of the second, which is a sibling. -/
def Mentions (services : List ServiceNode) (parentName : String)
    (env : String → List (String × String)) (a b : String) : Prop :=
  a ∈ serviceNames services ∧ b ∈ serviceNames services ∧ b ≠ a ∧
    ∃ entry ∈ env a, includes entry.2 (containerName parentName b) = true

theorem mem_foldl_addDependency (containers : List (String × String)) (name value : String)
    (found : List String) :
    b ∈ containers.foldl (addDependency name value) found ↔
      b ∈ found ∨ ∃ entry ∈ containers, entry.2 = b ∧ b ≠ name ∧ includes value entry.1 = true := by
  refine foldl_iff_exists (p := fun found : List String => b ∈ found) (fun found entry => ?_) _ _
  rw [addDependency]
  split
  next hself =>
    refine (or_iff_left ?_).symm
    rintro ⟨rfl, hne, -⟩
    exact hne hself
  next hself =>
    split
    next hincludes =>
      rw [mem_insertLast]
      refine or_congr_right ⟨?_, fun h => h.1.symm⟩
      rintro rfl
      exact ⟨rfl, hself, hincludes⟩
    next hincludes => exact (or_iff_left fun h => hincludes h.2.2).symm

theorem mem_dependencies (containers : List (String × String)) (name : String)
    (envVars : List (String × String)) :
    b ∈ dependencies containers name envVars ↔
      ∃ entry ∈ envVars, ∃ container ∈ containers,
        container.2 = b ∧ b ≠ name ∧ includes entry.2 container.1 = true := by
  rw [dependencies, foldl_iff_exists (p := fun found : List String => b ∈ found)
    fun found entry => mem_foldl_addDependency containers name entry.2 found]
  simp only [List.not_mem_nil, false_or]

theorem serviceNames_map_dependsOn (f : ServiceNode → List String) :
    serviceNames (services.map fun service => { service with dependsOn := f service }) =
      serviceNames services := by
  simp only [serviceNames, List.map_map, Function.comp_def]

theorem serviceNames_scanServices :
    serviceNames (scanServices services parentName env) = serviceNames services :=
  serviceNames_map_dependsOn fun service =>
    dependencies (containerToService parentName services) service.name (env service.name)

/-- Before the cycle check a service depends on the siblings that it mentions. -/
theorem depends_scanServices :
    Depends (scanServices services parentName env) a b ↔ Mentions services parentName env a b := by
  constructor
  · rintro ⟨_, hservice, rfl, hb⟩
    obtain ⟨service, hmem, rfl⟩ := List.mem_map.mp hservice
    obtain ⟨entry, hentry, container, hcontainer, rfl, hne, hincludes⟩ :=
      (mem_dependencies _ _ _).mp hb
    obtain ⟨sibling, hsibling, rfl⟩ := List.mem_map.mp hcontainer
    exact ⟨List.mem_map.mpr ⟨service, hmem, rfl⟩, List.mem_map.mpr ⟨sibling, hsibling, rfl⟩, hne, entry,
      hentry, hincludes⟩
  · rintro ⟨ha, hb, hne, entry, hentry, hincludes⟩
    obtain ⟨service, hmem, rfl⟩ := List.mem_map.mp ha
    obtain ⟨sibling, hsibling, rfl⟩ := List.mem_map.mp hb
    refine ⟨_, List.mem_map_of_mem hmem, rfl, (mem_dependencies _ _ _).mpr ?_⟩
    exact ⟨entry, hentry, _, List.mem_map_of_mem hsibling, rfl, hne, hincludes⟩

theorem scanServices_listed :
    ∀ service ∈ scanServices services parentName env, ∀ dependency ∈ service.dependsOn,
      dependency ∈ serviceNames (scanServices services parentName env) := by
  intro service hservice dependency hdependency
  have hmentions := depends_scanServices.mp ⟨service, hservice, rfl, hdependency⟩
  rw [serviceNames_scanServices]
  exact hmentions.2.1

theorem hasCircularDependency_scanServices (hnodup : (serviceNames services).Nodup) :
    hasCircularDependency (scanServices services parentName env) = true ↔
      ∃ name, Relation.TransGen (Mentions services parentName env) name name := by
  have hedge : Depends (scanServices services parentName env) = Mentions services parentName env := by
    funext a b
    exact propext depends_scanServices
  have hnodup' : (serviceNames (scanServices services parentName env)).Nodup := by
    rwa [serviceNames_scanServices]
  rw [hasCircularDependency_iff hnodup' scanServices_listed, hedge]

/-- A service depends on the siblings it mentions, unless there is a cycle of mentions. -/
theorem depends_detect (hnodup : (serviceNames services).Nodup) :
    Depends (detectMonorepoDependencies services parentName env) a b ↔
      Mentions services parentName env a b ∧
        ¬∃ name, Relation.TransGen (Mentions services parentName env) name name := by
  rw [← hasCircularDependency_scanServices hnodup, detectMonorepoDependencies]
  split
  next hcycle =>
    refine iff_of_false ?_ fun h => h.2 hcycle
    rintro ⟨_, hservice, -, hb⟩
    obtain ⟨service, -, rfl⟩ := List.mem_map.mp hservice
    exact nomatch hb
  next hcycle => rw [depends_scanServices, and_iff_left hcycle]

theorem serviceNames_detect :
    serviceNames (detectMonorepoDependencies services parentName env) = serviceNames services := by
  rw [detectMonorepoDependencies]
  split
  · exact (serviceNames_map_dependsOn fun _ => []).trans serviceNames_scanServices
  · exact serviceNames_scanServices

/-! ## The result can be deployed -/

theorem sortable_detect (hnodup : (serviceNames services).Nodup) :
    Sortable (detectMonorepoDependencies services parentName env) where
  nodup := by rwa [serviceNames_detect]
  listed service hservice dependency hdependency := by
    have hdepends := (depends_detect hnodup).mp ⟨service, hservice, rfl, hdependency⟩
    rw [serviceNames_detect]
    exact hdepends.1.2.1
  acyclic name hcycle := by
    obtain ⟨b, hstep, -⟩ := Relation.TransGen.head'_iff.mp hcycle
    have hmentions : Relation.TransGen (Mentions services parentName env) name name :=
      hcycle.lift id fun _ _ h => ((depends_detect hnodup).mp h).1
    exact ((depends_detect hnodup).mp hstep).2 ⟨name, hmentions⟩

/-- The detected dependencies make a topology; the two cycle checks agree on every graph of listed
services with different names; and no service depends on itself or on a service that is not listed. -/
theorem detect_deployable (hnodup : (serviceNames services).Nodup) :
    (∃ t, buildTopology (detectMonorepoDependencies services parentName env) = .ok t) ∧
      (∀ nodes : List ServiceNode, (serviceNames nodes).Nodup →
        (∀ node ∈ nodes, ∀ dependency ∈ node.dependsOn, dependency ∈ serviceNames nodes) →
        (hasCircularDependency nodes = true ↔
          buildTopology nodes = .error .circularDependency)) ∧
      ∀ service ∈ detectMonorepoDependencies services parentName env,
        ∀ dependency ∈ service.dependsOn,
          dependency ≠ service.name ∧ dependency ∈ serviceNames services := by
  refine ⟨(exists_buildTopology_iff _).mpr (sortable_detect hnodup),
    fun nodes hnodup hlisted => hasCircularDependency_iff_buildTopology hnodup hlisted, ?_⟩
  intro service hservice dependency hdependency
  obtain ⟨⟨-, hlisted, hne, -⟩, -⟩ :=
    (depends_detect hnodup).mp ⟨service, hservice, rfl, hdependency⟩
  exact ⟨hne, hlisted⟩

theorem detect_deployable_two :
    ∃ t, buildTopology (detectMonorepoDependencies [⟨"api", []⟩, ⟨"web", []⟩] "mono" fun
      | "web" => [("API_URL", "http://ol-mono-api:4000")]
      | _ => []) = .ok t :=
  (detect_deployable (by decide)).1

/-! ## Names as whole tokens -/

/-- A character of a container name: one of `[\w-]`. -/
def isNameChar (c : Char) : Bool := c.isAlphanum || c == '_' || c == '-'

/-- The name occurs in the text with no character of a name next to it. -/
def OccursWhole (name text : List Char) : Prop :=
  ∃ before after, text = before ++ name ++ after ∧
    (∀ c ∈ before.getLast?, isNameChar c = false) ∧ ∀ c ∈ after.head?, isNameChar c = false

theorem occursWhole_iff {name text : List Char} :
    OccursWhole name text ↔ ∃ i ∈ List.range (text.length + 1),
      (text.drop i).take name.length = name ∧
        (text.take i).getLast?.all (!isNameChar ·) = true ∧
        (text.drop (i + name.length)).head?.all (!isNameChar ·) = true := by
  simp only [Option.all_eq_true, Bool.not_eq_true']
  constructor
  · rintro ⟨before, after, rfl, hbefore, hafter⟩
    refine ⟨before.length, List.mem_range.mpr (by simp only [List.length_append]; omega), ?_⟩
    rw [List.append_assoc, List.drop_left, List.take_left, List.take_left, ← List.append_assoc,
      ← List.length_append, List.drop_left]
    exact ⟨rfl, hbefore, hafter⟩
  · rintro ⟨i, -, hname, hbefore, hafter⟩
    refine ⟨text.take i, text.drop (i + name.length), ?_, hbefore, hafter⟩
    calc text = text.take i ++ text.drop i := (List.take_append_drop i text).symm
      _ = text.take i ++ ((text.drop i).take name.length ++ (text.drop i).drop name.length) := by
        rw [List.take_append_drop name.length, List.take_append_drop]
      _ = text.take i ++ name ++ text.drop (i + name.length) := by
        rw [hname, List.drop_drop, List.append_assoc]

open scoped Members in
instance (name text : List Char) : Decidable (OccursWhole name text) :=
  decidable_of_iff _ occursWhole_iff.symm

/-- A value of the first service refers to the container of the second, which is a sibling. -/
def References (services : List ServiceNode) (parentName : String)
    (env : String → List (String × String)) (a b : String) : Prop :=
  a ∈ serviceNames services ∧ b ∈ serviceNames services ∧ b ≠ a ∧
    ∃ entry ∈ env a, OccursWhole (containerName parentName b).toList entry.2.toList

/-- A service depends exactly on the siblings it refers to, if these references make no cycle. -/
def Exact (services : List ServiceNode) (parentName : String)
    (env : String → List (String × String)) : Prop :=
  ∀ a b, Depends (detectMonorepoDependencies services parentName env) a b ↔
    References services parentName env a b ∧
      ¬∃ name, Relation.TransGen (References services parentName env) name name

theorem Mentions.of_references (h : References services parentName env a b) :
    Mentions services parentName env a b := by
  obtain ⟨ha, hb, hne, entry, hentry, before, after, htext, -, -⟩ := h
  refine ⟨ha, hb, hne, entry, hentry, ?_⟩
  rw [includes, decide_eq_true_eq, htext]
  exact List.infix_append ..

/-- The detection is exact if and only if every sibling that is mentioned is also referred to, or
the mentions have a cycle and the references have one too or there is none. -/
theorem exact_iff (hnodup : (serviceNames services).Nodup) :
    Exact services parentName env ↔
      (∀ a b, Mentions services parentName env a b → References services parentName env a b) ∨
      (∃ name, Relation.TransGen (Mentions services parentName env) name name) ∧
        ((∃ name, Relation.TransGen (References services parentName env) name name) ∨
          ∀ a b, ¬References services parentName env a b) := by
  have hcycle : (∃ name, Relation.TransGen (References services parentName env) name name) →
      ∃ name, Relation.TransGen (Mentions services parentName env) name name :=
    fun ⟨name, h⟩ => ⟨name, h.lift id fun _ _ => .of_references⟩
  simp only [Exact, depends_detect hnodup]
  constructor
  · intro H
    by_cases hmentions : ∃ name, Relation.TransGen (Mentions services parentName env) name name
    · refine .inr ⟨hmentions, or_iff_not_imp_left.mpr fun hreferences a b h => ?_⟩
      exact ((H a b).mpr ⟨h, hreferences⟩).2 hmentions
    · exact .inl fun a b h => ((H a b).mp ⟨h, hmentions⟩).1
  · rintro (hsame | ⟨hmentions, hreferences | hnone⟩) a b
    · have hiff : Mentions services parentName env = References services parentName env := by
        funext a b
        exact propext ⟨hsame a b, .of_references⟩
      rw [hiff]
    · exact iff_of_false (fun h => h.2 hmentions) fun h => h.2 hreferences
    · exact iff_of_false (fun h => h.2 hmentions) fun h => hnone a b h.1

/-- `web` refers to `api-gateway` only, whose name starts with that of `api`. -/
def gatewayServices : List ServiceNode := [⟨"api", []⟩, ⟨"api-gateway", []⟩, ⟨"web", []⟩]

def gatewayEnv : String → List (String × String)
  | "web" => [("GATEWAY_URL", "http://ol-mono-api-gateway:80")]
  | _ => []

theorem exact_iff_gateway : Exact gatewayServices "mono" gatewayEnv ↔
    (∀ a b, Mentions gatewayServices "mono" gatewayEnv a b →
      References gatewayServices "mono" gatewayEnv a b) ∨
    (∃ name, Relation.TransGen (Mentions gatewayServices "mono" gatewayEnv) name name) ∧
      ((∃ name, Relation.TransGen (References gatewayServices "mono" gatewayEnv) name name) ∨
        ∀ a b, ¬References gatewayServices "mono" gatewayEnv a b) :=
  exact_iff (by decide)

/-- `web` depends on `api` too. -/
theorem not_exact_gateway : ¬Exact gatewayServices "mono" gatewayEnv := by
  intro H
  have hdepends : Depends (detectMonorepoDependencies gatewayServices "mono" gatewayEnv) "web" "api" :=
    ⟨⟨"web", ["api", "api-gateway"]⟩, by decide, rfl, by decide⟩
  obtain ⟨⟨-, -, -, entry, hentry, hwhole⟩, -⟩ := (H _ _).mp hdepends
  cases List.mem_singleton.mp hentry
  exact absurd hwhole (by decide)

end OpenLander.MonorepoDeps
