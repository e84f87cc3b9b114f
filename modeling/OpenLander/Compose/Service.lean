import OpenLander.Theory.Collections

/-! # Compose services

The data of a parsed Compose service, its runtime role (`inferComposeRuntimeRoles`) and the
fingerprints of a project (`src/pipeline/compose.ts`). The hash of a definition is a parameter:
the code applies SHA-256 to the definition as JSON with sorted keys. -/

namespace OpenLander.Compose
open Theory

inductive ComposeDependencyCondition
  | service_started | service_healthy | service_completed_successfully
  deriving DecidableEq, Repr

inductive ComposeRuntimeRole
  | application | job | resource
  deriving DecidableEq, Repr

/-- `string | string[]`. -/
inductive StringOrList
  | string (value : String)
  | list (values : List String)
  deriving DecidableEq, Repr

/-- `string | { context; dockerfile? }`. -/
inductive ComposeBuild
  | path (context : String)
  | spec (context : String) (dockerfile : Option String)
  deriving DecidableEq, Repr

/-- `Record<string, string> | string[]`. -/
inductive ComposeEnvironment
  | map (entries : List (String × String))
  | list (entries : List String)
  deriving DecidableEq, Repr

structure ComposeEnvFile where
  path : String
  required : Bool
  deriving DecidableEq, Repr

structure ComposeHealthcheck where
  test : StringOrList
  interval : Option String := none
  timeout : Option String := none
  retries : Option Nat := none
  start_period : Option String := none
  deriving DecidableEq, Repr

structure ComposeService where
  name : String
  image : Option String := none
  build : Option ComposeBuild := none
  ports : Option (List String) := none
  expose : Option (List String) := none
  profiles : Option (List String) := none
  environment : Option ComposeEnvironment := none
  envFile : Option (List ComposeEnvFile) := none
  dependsOn : Option (List String) := none
  dependsOnConditions : Option (List (String × ComposeDependencyCondition)) := none
  volumes : Option (List String) := none
  command : Option StringOrList := none
  entrypoint : Option StringOrList := none
  restart : Option String := none
  memoryLimitBytes : Option Nat := none
  healthcheck : Option ComposeHealthcheck := none
  deriving DecidableEq, Repr

namespace ComposeService

/-- `service.dependsOn ?? []`. -/
def dependencies (service : ComposeService) : List String := service.dependsOn.getD []

/-- `service.dependsOnConditions?.[dependency]`. -/
def condition (service : ComposeService) (dependency : String) :
    Option ComposeDependencyCondition :=
  service.dependsOnConditions.bind (fromEntries · dependency)

/-- The service waits for the dependency to run to completion. -/
def awaitsCompletion (service : ComposeService) (dependency : String) : Bool :=
  service.condition dependency == some .service_completed_successfully

end ComposeService

/-- The patterns of `RESOURCE_SIGNATURES`, each a choice of substrings whatever their case, with
the port of the resource. -/
def RESOURCE_SIGNATURES : List (List String × Nat) :=
  [(["postgres", "pgvector"], 5432), (["mysql", "mariadb"], 3306), (["redis"], 6379),
    (["mongo"], 27017), (["rabbitmq"], 5672), (["minio"], 9000)]

/-- The word stands somewhere in the text. -/
def occursIn (word : List Char) : List Char → Bool
  | [] => word.isEmpty
  | c :: text => word.isPrefixOf (c :: text) || occursIn word text

/-- `pattern.test(signature)` for a pattern of `RESOURCE_SIGNATURES`: letters match whatever their
case, and only the ASCII ones occur in the patterns. -/
def matchesSignature (pattern : List String) (signature : String) : Bool :=
  pattern.any fun word => occursIn word.toList (signature.toList.map Char.toLower)

def ComposeService.signature (service : ComposeService) : String :=
  service.name ++ " " ++ service.image.getD ""

/-- The name or the image of the service is that of a stateful resource. -/
def ComposeService.isResource (service : ComposeService) : Bool :=
  RESOURCE_SIGNATURES.any fun (pattern, _) => matchesSignature pattern service.signature

/-- The names that some service awaits the completion of. -/
def jobNames (services : List ComposeService) : List String :=
  services.flatMap fun service => service.dependencies.filter service.awaitsCompletion

def runtimeRole (services : List ComposeService) (service : ComposeService) : ComposeRuntimeRole :=
  if service.name ∈ jobNames services then .job
  else if service.isResource then .resource
  else .application

/-- The entries of the map that `inferComposeRuntimeRoles` returns. -/
def runtimeRoleEntries (services : List ComposeService) : List (String × ComposeRuntimeRole) :=
  services.map fun service => (service.name, runtimeRole services service)

def inferComposeRuntimeRoles (services : List ComposeService) :
    String → Option ComposeRuntimeRole :=
  fromEntries (runtimeRoleEntries services)

/-- `new Map(services.map((service) => [service.name, service]))`. -/
def serviceByName (services : List ComposeService) : String → Option ComposeService :=
  fromEntries (services.map fun service => (service.name, service))

def fingerprintComposeServices (hash : ComposeService → φ) (services : List ComposeService) :
    String → Option φ :=
  fromEntries (services.map fun service => (service.name, hash service))

variable {services : List ComposeService} {name : String}

theorem mem_of_serviceByName (h : serviceByName services name = some service) :
    service ∈ services ∧ service.name = name := by
  have := mem_of_fromEntries h
  simp only [List.mem_map, Prod.mk.injEq] at this
  obtain ⟨s, hs, hn, rfl⟩ := this
  exact ⟨hs, hn⟩

theorem serviceByName_isSome :
    (serviceByName services name).isSome = true ↔ ∃ service ∈ services, service.name = name := by
  simp [serviceByName, fromEntries_isSome, Function.comp_def]

theorem inferComposeRuntimeRoles_eq :
    inferComposeRuntimeRoles services name =
      (serviceByName services name).map (runtimeRole services) :=
  fromEntries_map ..

theorem fingerprintComposeServices_eq (hash : ComposeService → φ) :
    fingerprintComposeServices hash services name = (serviceByName services name).map hash :=
  fromEntries_map ..

end OpenLander.Compose
