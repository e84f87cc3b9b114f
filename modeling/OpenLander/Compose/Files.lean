import OpenLander.Compose.Interpolate
import OpenLander.Compose.Names
import OpenLander.Theory.PosixPath

/-! # The files that a Compose project refers to

The functions of `src/pipeline/compose.ts` that look up what a service names on the host: the
missing `env_file`s, which `checkEnvFileReferences` creates, the build contexts, the environment of
a container, and its mounts. What they read, create or hand to Docker goes to a log of accesses. A
look whether something exists is no access. The paths are those of `node:path`. -/

namespace OpenLander.Compose
open Theory
open scoped Texts

/-- What is at a path. The content of a file, or the failure to read it. -/
inductive Node
  | file (content : Except String String)
  | directory
  | other

structure Host where
  node : Location → Option Node
  /-- What `mkdirSync` and `writeFileSync` fail with. -/
  mkdirError : Location → Option String := fun _ => none
  writeError : Location → Option String := fun _ => none
  /-- A path without symbolic links. -/
  realpath : Location → Location := id

inductive Access
  | read (location : Location)
  | create (location : Location)
  | buildContext (location : Location)
  | seed (location : Location)
  deriving DecidableEq, Repr

def Access.location : Access → Location
  | read location | create location | buildContext location | seed location => location

inductive DeployError
  | config (error : ServiceConfigError)
  | other (message : String)
  deriving DecidableEq, Repr

structure World where
  host : Host
  accesses : List Access := []

def Host.write (host : Host) (location : Location) (node : Node) : Host :=
  { host with node := Function.update host.node location (some node) }

/-- With a slash at its end a path only leads to a directory. -/
def Host.existsSync (host : Host) (location : Location) (slash : Bool) : Bool :=
  match host.node location with
  | none => false
  | some .directory => true
  | some _ => !slash

def Host.readFileSync (host : Host) (location : Location) : Except String String :=
  match host.node location with
  | some (.file content) => content
  | some .directory => .error "EISDIR: illegal operation on a directory, read"
  | some .other => .error "ENXIO: no such device or address"
  | none => .error "ENOENT: no such file or directory"

/-! ## Environment files (`src/pipeline/env-inject.ts`) -/

def unquoteEnvValue (rawValue : List Char) : List Char :=
  match rawValue with
  | first :: rest =>
    if (first = '"' ∨ first = '\'') ∧ rest.getLast? = some first then rest.dropLast else rawValue
  | [] => rawValue

def parseEnvLine (line : List Char) : Option (String × String) :=
  let trimmed := trim line
  let key := trim (trimmed.takeWhile (· ≠ '='))
  if trimmed.isEmpty ∨ trimmed.head? = some '#' ∨ '=' ∉ trimmed ∨ key.isEmpty then none
  else
    let rawValue := trim ((trimmed.dropWhile (· ≠ '=')).drop 1)
    some (String.ofList key, String.ofList (unquoteEnvValue rawValue))

/-- The entries of a record, in the order of their first assignments. -/
def recordEntries (assignments : List (String × String)) : List (String × String) :=
  (keys assignments).filterMap fun key => (fromEntries assignments key).map (key, ·)

theorem nodup_recordEntries (l : List (String × String)) :
    ((recordEntries l).map (·.1)).Nodup := by
  have hguard : (fun key => ((fromEntries l key).map (key, ·)).map (·.1)) =
      Option.guard fun key => (fromEntries l key).isSome := by
    funext key
    cases hvalue : fromEntries l key with
    | none => rw [Option.guard, hvalue]; rfl
    | some value => rw [Option.guard, hvalue]; rfl
  rw [recordEntries, List.map_filterMap, hguard, List.filterMap_eq_filter]
  exact (nodup_foldl_insertLast List.nodup_nil).filter _

/-- The map that `parseEnvFile` returns. -/
def parseEnvContent (content : String) : List (String × String) :=
  recordEntries ((content.toList.splitOn '\n').filterMap parseEnvLine)

inductive EnvVarClassification
  | default | secret | internal
  deriving DecidableEq, Repr

/-- `SECRET_PATTERNS`, whatever the case of the letters. -/
def isSecretKey (key : String) : Bool :=
  let upper := key.toList.map Char.toUpper
  ["_SECRET", "_KEY", "_TOKEN", "_PASSWORD"].any (fun suffix => suffix.toList.isSuffixOf upper) ||
    ["SECRET_", "API_KEY", "AUTH_"].any fun start => start.toList.isPrefixOf upper

def isLineTerminator (c : Char) : Bool := c ∈ ['\n', '\r', '\u2028', '\u2029']

/-- `/^your[-_].+/`. -/
def isPlaceholder : List Char → Bool
  | 'y' :: 'o' :: 'u' :: 'r' :: c :: d :: _ => (c == '-' || c == '_') && !isLineTerminator d
  | _ => false

def classifyVar (key value : String) : EnvVarClassification :=
  let normalized := (trim value.toList).map Char.toLower
  if isSecretKey key then .secret
  else if normalized ∈ ["", "changeme", "change-me", "xxx"].map String.toList ∨
      isPlaceholder normalized then .secret
  else .default

def escapeEnvChar (c : Char) : List Char :=
  if c = '\n' then ['\\', 'n']
  else if c = '\r' then ['\\', 'r']
  else if c ∈ ['\\', '"', '$', '\x60'] then ['\\', c]
  else [c]

def formatEnvValue (value : String) : String :=
  let needsQuotes (c : Char) : Bool :=
    Pipeline.isWhitespace c || c ∈ ['#', '"', '\'', '$', '\x60', '\\', '=']
  if value.toList.any needsQuotes then
    "\"" ++ String.ofList (value.toList.flatMap escapeEnvChar) ++ "\""
  else value

/-! ## The check ahead -/

structure EnvFileReferenceError where
  service : String
  envFilePath : String
  requiredVars : List String
  templatePath : Option Location
  deriving DecidableEq, Repr

structure ComposeProject where
  services : List ComposeService
  projectPath : Location

/-- The template next to a missing file. -/
def templateIn (host : Host) (envDir : Location) : Option Location :=
  ([".env.example", ".env.sample", ".env.template"].map fun name => envDir ++ [name]).find?
    fun candidate => host.existsSync candidate false

/-- The lines of a created file: those of the template, and the other variables. -/
def envLines (providedVars templateVars : List (String × String)) : List String :=
  let fromTemplate := templateVars.flatMap fun (key, templateValue) =>
    match fromEntries providedVars key with
    | some value => [key ++ "=" ++ formatEnvValue value]
    | none =>
      if classifyVar key templateValue = .secret then ["# TODO: Set " ++ key, key ++ "="]
      else [key ++ "=" ++ formatEnvValue templateValue]
  let others := (recordEntries providedVars).filter fun (key, _) => key ∉ templateVars.map (·.1)
  fromTemplate ++ others.map fun (key, value) => key ++ "=" ++ formatEnvValue value

def access (a : Access) : Prog World DeployError PUnit :=
  Prog.modify fun w => { w with accesses := w.accesses ++ [a] }

def parseEnvFile (filePath : Location) : Prog World DeployError (List (String × String)) := do
  access (.read filePath)
  match ← Prog.read fun w => w.host.readFileSync filePath with
  | .ok content => return parseEnvContent content
  | .error message => throw (.other message)

def mkdirSync (location : Location) : Prog World DeployError PUnit := do
  access (.create location)
  match ← Prog.read fun w => w.host.mkdirError location with
  | some message => throw (.other message)
  | none =>
    Prog.modify fun w => { w with
      host := location.inits.foldl
        (fun host directory =>
          if (host.node directory).isNone then host.write directory .directory else host) w.host }

def writeFileSync (location : Location) (slash : Bool) (content : String) :
    Prog World DeployError PUnit := do
  access (.create location)
  match ← Prog.read fun w => w.host.writeError location with
  | some message => throw (.other message)
  | none =>
    if slash then throw (.other "EISDIR: illegal operation on a directory, open")
    else Prog.modify fun w => { w with host := w.host.write location (.file (.ok content)) }

/-- One round of the loops of `checkEnvFileReferences`. -/
def checkEnvFileReference (projectPath : Location) (providedVars : List (String × String))
    (service : String) (envFileRef : ComposeEnvFile) :
    Prog World DeployError (List EnvFileReferenceError) := do
  let fullPath := join projectPath envFileRef.path
  let slash := envFileRef.path.toList.getLast? == some '/'
  let envDir := fullPath.dropLast
  if ← Prog.read fun w => w.host.existsSync fullPath slash then return []
  else if !envFileRef.required then return []
  else
    match ← Prog.read fun w => templateIn w.host envDir with
    | some templatePath =>
      let templateVars ← parseEnvFile templatePath
      mkdirSync envDir
      writeFileSync fullPath slash
        ("\n".intercalate (envLines providedVars templateVars) ++ "\n")
      return []
    | none =>
      if !providedVars.isEmpty then
        mkdirSync envDir
        writeFileSync fullPath slash ("\n".intercalate (envLines providedVars []) ++ "\n")
        return []
      else
        -- Without a template there is nothing to read the variables off.
        return [{ service, envFilePath := envFileRef.path, requiredVars := [], templatePath := none }]

/-- The references of the services, in the order of the loops. -/
def envFileReferences (services : List ComposeService) : List (String × ComposeEnvFile) :=
  services.flatMap fun service => (service.envFile.getD []).map (service.name, ·)

def checkReferences (projectPath : Location) (providedVars : List (String × String)) :
    List (String × ComposeEnvFile) → Prog World DeployError (List EnvFileReferenceError)
  | [] => return []
  | (service, envFileRef) :: references => do
    let error ← checkEnvFileReference projectPath providedVars service envFileRef
    let errors ← checkReferences projectPath providedVars references
    return error ++ errors

def checkEnvFileReferences (composeProject : ComposeProject)
    (providedVars : List (String × String)) :
    Prog World DeployError (List EnvFileReferenceError) :=
  checkReferences composeProject.projectPath providedVars
    (envFileReferences composeProject.services)

end OpenLander.Compose
