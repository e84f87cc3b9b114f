import OpenLander.Compose.Files

/-! # The deployment of one Compose service

`deployService` (`src/pipeline/compose.ts`, 1761-1905) prepares the image of a service, removes the
container that runs, and only then resolves the ports, the environment and the mounts of the new
one. What Docker and the tools of the host answer to a call is an argument. What a successful
deployment records is left out. -/

namespace OpenLander.Compose
open Theory
open scoped Texts

/-- A call of `deployService` that may fail for reasons outside the definition. Those on a container
have the number of the attempt. -/
inductive Call
  | image | cleanup | allocate | reallocate | recleanup
  | seed (index : Nat)
  /-- Before the container is created. -/
  | prepare (attempt : Nat)
  | create (attempt : Nat)
  /-- The copy of a file to the staging directory. -/
  | stage (attempt index : Nat)
  | archive (attempt : Nat)
  | start (attempt : Nat)
  deriving DecidableEq, Repr

/-- What the calls fail with. -/
abbrev Outcomes := Call → Option String

def call (outcomes : Outcomes) (c : Call) : Prog World DeployError PUnit :=
  match outcomes c with
  | none => return ⟨⟩
  | some message => throw (.other message)

def orThrow : Except ServiceConfigError α → Prog World DeployError α
  | .ok a => return a
  | .error e => throw (.config e)

def throwConfig (message : String) (service : ComposeService) : Prog World DeployError α :=
  throw (.config { message, details := [("service", [service.name])] })

/-- A loop that collects what its rounds return. -/
def collect (f : β → Prog World DeployError (List α)) : List β → Prog World DeployError (List α)
  | [] => return []
  | b :: bs => do
    let first ← f b
    let rest ← collect f bs
    return first ++ rest

def interpolate (env : Environment) (value : String) : Prog World DeployError String :=
  orThrow (interpolateComposeValue env value)

/-! ## Images -/

def resolveBuildContext (projectPath : Location) (service : ComposeService) :
    Except DeployError (Location × Option String) :=
  match service.build with
  | none => .error (.other ("Service " ++ service.name ++ " does not have build configuration"))
  | some (.path context) => .ok (join projectPath context, none)
  | some (.spec context dockerfile) => .ok (join projectPath context, dockerfile)

def resolveComposeServiceImageTag (env : Environment) (service : ComposeService)
    (projectName : String) : Prog World DeployError String :=
  match service.image.filter fun image => !image.isEmpty with
  | some image => interpolate env image
  | none =>
    if service.build.isSome then
      return Pipeline.GreenCleanup.composeContainerName projectName service.name ++ ":latest"
    else
      throw (.other ("Service " ++ service.name ++ " must define either build or image"))

/-- Build the image from its context, or pull it. -/
def prepareImage (outcomes : Outcomes) (projectPath : Location) (service : ComposeService) :
    Prog World DeployError PUnit :=
  match resolveBuildContext projectPath service with
  | .ok (contextPath, _) => do
    access (.buildContext contextPath)
    call outcomes .image
  | .error _ => call outcomes .image

/-! ## Ports -/

/-- The values that the container ports are read off. -/
def resolveServiceContainerPorts (env : Environment) (service : ComposeService) :
    Prog World DeployError (List String) :=
  collect (fun mapping => do return [← interpolate env mapping])
    (service.ports.getD [] ++ service.expose.getD [])

/-! ## Environment -/

/-- The path leaves the directory. The check is for the directory followed by a slash. -/
def escapes (root location : Location) : Bool :=
  !(location == root || (!root.isEmpty && root.isPrefixOf location))

def resolveEnvFile (env : Environment) (projectPath : Location) (service : ComposeService)
    (envFile : ComposeEnvFile) : Prog World DeployError (List (String × String)) := do
  let envFilePath := resolve projectPath envFile.path
  if escapes projectPath envFilePath then
    throwConfig ("Compose env_file escapes the repository: " ++ envFile.path) service
  else if !(← Prog.read fun w => w.host.existsSync envFilePath false) then return []
  else
    let vars ← parseEnvFile envFilePath
    collect (fun (key, value) => do return [(key, ← interpolate env value)]) vars

/-- The key and the value of an item with an equals sign. -/
def splitItem (line : List Char) : List Char × List Char :=
  (trim (line.takeWhile (· ≠ '=')), (line.dropWhile (· ≠ '=')).drop 1)

/-- An item without an equals sign takes the value of a variable. -/
def resolveItem (env : Environment) (resolved : List (String × String)) (item : String) :
    Prog World DeployError (List (String × String)) :=
  let line := trim item.toList
  let name := String.ofList line
  if line.isEmpty then return resolved
  else if '=' ∉ line then
    return resolved ++ [(name, ((fromEntries env.envVars name).or
      ((fromEntries resolved name).or (env.processEnv name))).getD "")]
  else if (splitItem line).1.isEmpty then return resolved
  else do
    let value ← interpolate env (String.ofList (splitItem line).2)
    return resolved ++ [(String.ofList (splitItem line).1, value)]

def resolveItems (env : Environment) :
    List (String × String) → List String → Prog World DeployError (List (String × String))
  | resolved, [] => return resolved
  | resolved, item :: items => do
    let resolved ← resolveItem env resolved item
    resolveItems env resolved items

/-- The record, as the assignments to it. -/
def resolveComposeServiceRuntimeEnv (env : Environment) (projectPath : Location)
    (service : ComposeService) : Prog World DeployError (List (String × String)) := do
  let resolved ← collect (resolveEnvFile env projectPath service) (service.envFile.getD [])
  match service.environment with
  | none => return resolved
  | some (.list items) => resolveItems env resolved items
  | some (.map entries) => do
    let assigned ← collect (fun (key, value) => do return [(key, ← interpolate env value)]) entries
    return resolved ++ assigned

/-! ## Mounts -/

inductive Mount
  | bind (mapping : String)
  | fileCopy (sourcePath : Location) (targetPath : String) (readOnly : Bool)
  deriving DecidableEq, Repr

/-- A volume mapping, split at its colons. -/
structure Mapping where
  source : String
  target : String
  mode : String
  deriving DecidableEq, Repr

/-- The part before the first colon, that up to the second one, and the rest. -/
def parseMapping (volume : List Char) : Mapping :=
  let tokens := volume.splitOn ':'
  { source := String.ofList (trim (tokens.headD []))
    target := String.ofList (trim (tokens.getD 1 []))
    mode := String.ofList (trim ([':'].intercalate (tokens.drop 2))) }

def withMode (mapping mode : String) : String :=
  if mode.isEmpty then mapping else mapping ++ ":" ++ mode

def isReadOnly (mode : String) : Bool := "ro".toList ∈ mode.toList.splitOn ','

/-- A source that begins with a dot: a file is copied, a directory seeds a volume. -/
def resolveBindSource (outcomes : Outcomes) (projectName : String) (service : ComposeService)
    (projectPath : Location) (mapping : Mapping) (index : Nat) :
    Prog World DeployError (List Mount) := do
  let absoluteSource := resolve projectPath mapping.source
  let escape := "Compose bind mount escapes the repository: " ++ mapping.source
  if escapes projectPath absoluteSource then throwConfig escape service
  else
    let host ← Prog.read fun w => w.host
    if !host.existsSync absoluteSource false then
      throwConfig ("Imported Compose bind source does not exist: " ++ mapping.source) service
    else
      let canonicalSource := host.realpath absoluteSource
      if escapes (host.realpath projectPath) canonicalSource then throwConfig escape service
      else
        match host.node canonicalSource with
        | none => throw (.other "ENOENT: no such file or directory, stat")
        | some (.file _) =>
          return [.fileCopy canonicalSource mapping.target (isReadOnly mapping.mode)]
        | some .other =>
          throwConfig ("Imported Compose bind source must be a file or directory: " ++
            mapping.source) service
        | some .directory =>
          let name := volumeName projectName (.bind service.name index)
          access (.seed canonicalSource)
          call outcomes (.seed index)
          return [.bind (withMode (name ++ ":" ++ mapping.target) mapping.mode)]

/-- One round of the loop over the volumes. -/
def resolveMount (outcomes : Outcomes) (env : Environment) (projectName : String)
    (service : ComposeService) (projectPath : Location) (rawVolume : String × Nat) :
    Prog World DeployError (List Mount) := do
  let volume := trim (← interpolate env rawVolume.1).toList
  let text := String.ofList volume
  let mapping := parseMapping volume
  if volume.isEmpty then return []
  else if ':' ∉ volume then
    if !isAbsolute text then throwConfig ("Invalid Compose volume target: " ++ text) service
    else
      return [.bind (volumeName projectName (.anonymous service.name rawVolume.2) ++ ":" ++ text)]
  else if mapping.source.isEmpty || !isAbsolute mapping.target then
    throwConfig ("Invalid Compose volume mapping: " ++ text) service
  else if mapping.source.toList.head? == some '.' then
    resolveBindSource outcomes projectName service projectPath mapping rawVolume.2
  else if isAbsolute mapping.source then
    throwConfig ("Absolute host bind mounts are not allowed in imported Compose projects: " ++
      mapping.source) service
  else
    let name := volumeName projectName (.named mapping.source)
    return [.bind (withMode (name ++ ":" ++ mapping.target) mapping.mode)]

def resolveComposeServiceMounts (outcomes : Outcomes) (env : Environment) (projectName : String)
    (service : ComposeService) (projectPath : Location) : Prog World DeployError (List Mount) :=
  collect (resolveMount outcomes env projectName service projectPath)
    (service.volumes.getD []).zipIdx

/-! ## The container (`src/pipeline/docker/container.ts`) -/

/-- `/[;&|`$(){}]/` matches a command that is one text. -/
def hasShellMetacharacters : Option StringOrList → Bool
  | some (.string command) =>
    command.toList.any fun c => c ∈ [';', '&', '|', '\x60', '$', '(', ')', '\x7b', '\x7d']
  | _ => false

def fileCopies (mounts : List Mount) : List (Location × String) :=
  mounts.filterMap fun
    | .bind _ => none
    | .fileCopy sourcePath targetPath _ => some (sourcePath, targetPath)

/-- Where a file is staged. -/
def stagedPath (targetPath : String) : Location := walk [] (segments targetPath)

/-- A staged file stands where the directory of another one would be. -/
def collides (staged : List Location) (path : Location) : Bool :=
  staged.any fun other => other != path && (other.isPrefixOf path || path.isPrefixOf other)

def stageFiles (outcomes : Outcomes) (attempt : Nat) :
    List Location → List ((Location × String) × Nat) → Prog World DeployError PUnit
  | _, [] => return ⟨⟩
  | staged, ((sourcePath, targetPath), index) :: rest => do
    if stagedPath targetPath = [] then
      throw (.config { message := "Invalid Compose file mount target: " ++ targetPath })
    else if collides staged (stagedPath targetPath) then
      throw (.other "EEXIST: file already exists")
    else
      access (.read sourcePath)
      call outcomes (.stage attempt index)
      stageFiles outcomes attempt (staged ++ [stagedPath targetPath]) rest

/-- A failure of `tar` is one of the host, whatever the class of its error. -/
def copyFilesIntoContainer (outcomes : Outcomes) (attempt : Nat)
    (copies : List (Location × String)) : Prog World DeployError PUnit :=
  if copies.isEmpty then return ⟨⟩
  else do
    stageFiles outcomes attempt [] copies.zipIdx
    call outcomes (.archive attempt)

def runComposeService (outcomes : Outcomes) (service : ComposeService) (mounts : List Mount)
    (attempt : Nat) : Prog World DeployError PUnit := do
  call outcomes (.prepare attempt)
  if hasShellMetacharacters service.command then
    throw (.other "Command contains disallowed shell metacharacters")
  else
    call outcomes (.create attempt)
    copyFilesIntoContainer outcomes attempt (fileCopies mounts)
    call outcomes (.start attempt)

/-! ## The service -/

def DeployError.message : DeployError → String
  | config error => error.message
  | other message => message

def includes (text word : String) : Bool := occursIn word.toList text.toList

def isPortConflict (message : String) : Bool :=
  includes message "port is already allocated" || includes message "address already in use"

def isDockerEndpointConflictError (message : String) : Bool :=
  includes message "endpoint with name" && includes message "already exists in network"

/-- Ports are allocated only for an application with ports. If not, nothing fails here. -/
def allocateComposePortMappings (outcomes : Outcomes) (env : Environment) (service : ComposeService)
    (allocation : Call) : Prog World DeployError PUnit := do
  let _ ← resolveServiceContainerPorts env service
  call outcomes allocation

/-- A second attempt is made after a conflict of ports or of endpoints. -/
def startService (outcomes : Outcomes) (env : Environment) (service : ComposeService)
    (mounts : List Mount) : Prog World DeployError PUnit :=
  tryCatch (runComposeService outcomes service mounts 0) fun error =>
    if isPortConflict error.message then do
      allocateComposePortMappings outcomes env service .reallocate
      runComposeService outcomes service mounts 1
    else if isDockerEndpointConflictError error.message then do
      call outcomes .recleanup
      runComposeService outcomes service mounts 1
    else throw error

/-- What comes after `cleanupComposeContainer`. -/
def replaceContainer (outcomes : Outcomes) (env : Environment) (projectName : String)
    (projectPath : Location) (service : ComposeService) : Prog World DeployError PUnit := do
  let _ ← resolveServiceContainerPorts env service
  allocateComposePortMappings outcomes env service .allocate
  let _ ← resolveComposeServiceRuntimeEnv env projectPath service
  let mounts ← resolveComposeServiceMounts outcomes env projectName service projectPath
  startService outcomes env service mounts

/-- The image may have been prepared ahead. -/
def prepareService (outcomes : Outcomes) (env : Environment) (projectName : String)
    (projectPath : Location) (service : ComposeService) (prepared : Bool) :
    Prog World DeployError PUnit :=
  if prepared then return ⟨⟩
  else do
    let _ ← resolveComposeServiceImageTag env service projectName
    prepareImage outcomes projectPath service

/-- The running container is removed in between. -/
def deployService (outcomes : Outcomes) (env : Environment) (projectName : String)
    (projectPath : Location) (service : ComposeService) (prepared : Bool) :
    Prog World DeployError PUnit := do
  prepareService outcomes env projectName projectPath service prepared
  call outcomes .cleanup
  replaceContainer outcomes env projectName projectPath service

end OpenLander.Compose
