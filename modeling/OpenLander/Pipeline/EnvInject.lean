import OpenLander.Compose.Files
import OpenLander.Pipeline.ResolveEnv

/-! # The variables that a managed service adds

What `autoInjectServiceEnv` (`src/pipeline/env-inject.ts`) sets for a service that is connected to
a project: the variables that its caller chose, or those that go with the type of the service. A
variable that is there is left alone unless its value only holds the place. -/

namespace OpenLander.Pipeline.EnvInject
open Compose (trim recordEntries)
open ResolveEnv (Record)

def kindToLegacyType (kind : String) : String :=
  if kind = "postgres" then "postgresql" else if kind = "mongo" then "mongodb" else kind

def normalizeServiceType (serviceType : String) : String :=
  let normalized := String.ofList ((trim serviceType.toList).map Char.toLower)
  if normalized = "postgres" then "postgresql"
  else if normalized = "mongo" then "mongodb"
  else if normalized = "mariadb" then "mysql"
  else normalized

/-- The variable of a type of service, and its value by the name of the service. -/
def SERVICE_ENV_MAP (serviceType : String) : Option (String × (String → String)) :=
  if serviceType ∈ ["postgres", "postgresql"] then
    some ("DATABASE_URL", fun s => "postgresql://postgres:postgres@" ++ s ++ ":5432/app")
  else if serviceType ∈ ["mysql", "mariadb"] then
    some ("DATABASE_URL", fun s => "mysql://root:root@" ++ s ++ ":3306/app")
  else if serviceType = "redis" then some ("REDIS_URL", fun s => "redis://" ++ s ++ ":6379")
  else if serviceType ∈ ["mongo", "mongodb"] then
    some ("MONGODB_URI", fun s => "mongodb://" ++ s ++ ":27017/app")
  else if serviceType = "neo4j" then some ("NEO4J_URI", fun s => "neo4j://" ++ s ++ ":7687")
  else if serviceType = "rabbitmq" then some ("AMQP_URL", fun s => "amqp://" ++ s ++ ":5672")
  else none

/-- The words of letters and digits, joined by underscores. -/
def toServiceNamePrefix (serviceName : String) : String :=
  let upper := serviceName.toList.map Char.toUpper
  let words := (upper.splitOnP fun c => !(c.isUpper || c.isDigit)).filter (· ≠ [])
  String.ofList (['_'].intercalate words)

/-! ## Values that hold the place -/

def isWordChar (c : Char) : Bool := c.isLower || c.isDigit

def atBoundary : List Char → Bool
  | [] => true
  | c :: _ => !isWordChar c

/-- One of the alternatives of the pattern, up to a boundary. After `your-` there always is one. -/
def startsPlaceholder (s : List Char) : Bool :=
  ["changeme", "change-me", "change_me", "replaceme", "replace-me", "replace_me", "placeholder",
      "todo", "fixme"].any (fun word =>
    word.toList.isPrefixOf s && atBoundary (s.drop word.length)) ||
  "xxx".toList.isPrefixOf s && atBoundary (s.dropWhile (· = 'x')) ||
  "your-".toList.isPrefixOf s || "your_".toList.isPrefixOf s

def searchPlaceholder (boundary : Bool) : List Char → Bool
  | [] => false
  | c :: rest =>
    boundary && startsPlaceholder (c :: rest) || searchPlaceholder (!isWordChar c) rest

def isPlaceholderEnvValue (value : String) : Bool :=
  let normalized := (trim value.toList).map Char.toLower
  normalized.isEmpty || searchPlaceholder true normalized

/-- There is no value, or it only holds the place. -/
def isMissing (allVars : Record) (key : String) : Bool :=
  match allVars key with
  | none => true
  | some value => isPlaceholderEnvValue value

/-! ## The variables -/

structure InjectParams where
  serviceName : String
  serviceType : String
  credentials : Record
  connectionEnv : Option (List (String × String))

/-- What is set, by the variables that are there, and whether the project is connected to another
service of the type. -/
def valuesToSet (params : InjectParams) (allVars : Record) (hasSameTypeConnection : Bool) :
    List (String × String) :=
  match params.connectionEnv with
  | some connectionEnv =>
    recordEntries (connectionEnv.filter fun entry => isMissing allVars entry.1)
  | none =>
    match SERVICE_ENV_MAP (normalizeServiceType params.serviceType) with
    | none => []
    | some (varName, template) =>
      let keyPrefix :=
        if hasSameTypeConnection then toServiceNamePrefix params.serviceName ++ "_" else ""
      let connectionString :=
        String.ofList (trim ((params.credentials "connectionString").getD "").toList)
      let envValue :=
        if connectionString = "" then template params.serviceName else connectionString
      if normalizeServiceType params.serviceType = "neo4j" then
        let username := (params.credentials "user").getD ""
        let password := (params.credentials "password").getD ""
        if (trim username.toList).isEmpty ∨ password = "" then []
        else [(keyPrefix ++ "NEO4J_URI", envValue), (keyPrefix ++ "NEO4J_USERNAME", username),
          (keyPrefix ++ "NEO4J_PASSWORD", password)].filter fun entry => isMissing allVars entry.1
      else if isMissing allVars (keyPrefix ++ varName) then [(keyPrefix ++ varName, envValue)]
      else []

end OpenLander.Pipeline.EnvInject
