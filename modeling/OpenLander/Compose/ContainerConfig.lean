import OpenLander.Compose.Rejection

/-! # The configuration of the container of a resource

What `deployService` (`src/pipeline/compose.ts`, 1779-1857) and `runComposeService`
(`src/pipeline/docker/container.ts`, 393-481) hand to Docker for a resource, and what an inspection
that returns exactly that says. A resource publishes no ports. -/

namespace OpenLander.Compose
open Theory

/-- The arithmetic of the language, as far as durations and ports need it. -/
structure Numbers where
  Num : Type
  ofNat : Nat → Num
  /-- `Number(text)`. -/
  parse : String → Num
  add : Num → Num → Num
  mul : Num → Num → Num
  div : Num → Num → Num
  isFinite : Num → Bool
  /-- `===`. -/
  equal : Num → Num → Bool
  /-- The positive integer that the number is. -/
  positive : Num → Option Nat

/-! ## Durations -/

inductive TimeUnit
  | ns | us | ms | s | m | h
  deriving DecidableEq, Repr

/-- `ns|us|ms|s|m|h`, in this order. -/
def matchUnit : List Char → Option (TimeUnit × List Char)
  | 'n' :: 's' :: rest => some (.ns, rest)
  | 'u' :: 's' :: rest => some (.us, rest)
  | 'm' :: 's' :: rest => some (.ms, rest)
  | 's' :: rest => some (.s, rest)
  | 'm' :: rest => some (.m, rest)
  | 'h' :: rest => some (.h, rest)
  | _ => none

/-- `[0-9]*\.?[0-9]+`, as long as it gets. -/
def matchAmount (text : List Char) : List Char × List Char :=
  let whole := text.takeWhile (·.isDigit)
  match text.dropWhile (·.isDigit) with
  | '.' :: rest =>
    let decimals := rest.takeWhile (·.isDigit)
    if decimals.isEmpty then (whole, '.' :: rest)
    else (whole ++ '.' :: decimals, rest.dropWhile (·.isDigit))
  | rest => (whole, rest)

def matchDuration (text : List Char) : Option ((String × TimeUnit) × List Char) :=
  let (amount, rest) := matchAmount text
  if amount.isEmpty then none
  else
    (matchUnit (rest.dropWhile Pipeline.isWhitespace)).map fun (unit, rest) =>
      ((String.ofList amount, unit), rest)

/-- The tokens that the whole text is made of. The number bounds how many there are. -/
def durationTokens : Nat → List Char → Option (List (String × TimeUnit))
  | _, [] => some []
  | 0, _ => none
  | bound + 1, text =>
    (matchDuration text).bind fun (token, rest) => (durationTokens bound rest).map (token :: ·)

/-- `/^\d+(\.\d+)?$/`. -/
def isDecimal (text : List Char) : Bool :=
  let (amount, rest) := matchAmount text
  rest.isEmpty && (amount.head?.any (·.isDigit))

section
variable (N : Numbers)

def TimeUnit.seconds (amount : N.Num) : TimeUnit → N.Num
  | .h => N.mul amount (N.ofNat 3600)
  | .m => N.mul amount (N.ofNat 60)
  | .s => amount
  | .ms => N.div amount (N.ofNat 1000)
  | .us => N.div amount (N.ofNat 1000000)
  | .ns => N.div amount (N.ofNat 1000000000)

def parseComposeDurationSeconds (value : Option String) : Option N.Num :=
  let normalized := trim (value.getD "").toList
  if normalized.isEmpty then none
  else if isDecimal normalized then
    some (N.parse (String.ofList normalized)) |>.filter N.isFinite
  else
    match durationTokens normalized.length normalized with
    | none => none
    | some tokens =>
      if tokens.all fun (amount, _) => N.isFinite (N.parse amount) then
        some (tokens.foldl (fun seconds (amount, unit) =>
          N.add seconds (unit.seconds N (N.parse amount))) (N.ofNat 0)) |>.filter N.isFinite
      else none

/-! ## Ports -/

/-- `/^\d+$/`. -/
def isNumeric (token : List Char) : Bool := !token.isEmpty && token.all (·.isDigit)

/-- The container port of a mapping. -/
def parseComposePortMapping (portMapping : String) : Option Nat :=
  let withoutProtocol := ((trim portMapping.toList).splitOn '/').headD []
  let tokens := ((withoutProtocol.splitOn ':').map trim).filter isNumeric
  tokens.getLast?.map fun token => Nat.ofDigitChars 10 token 0

/-- `(?:localhost|127\.0\.0\.1|\[::1\]):(\d{1,5})`, behind `http://` or `https://`. -/
def healthcheckPortAt (text : List Char) : Option Nat :=
  let after (start : String) (text : List Char) : Option (List Char) :=
    if start.toList.isPrefixOf (text.map Char.toLower) then some (text.drop start.length) else none
  ((after "http://" text).or (after "https://" text)).bind fun rest =>
    ((after "localhost:" rest).or ((after "127.0.0.1:" rest).or (after "[::1]:" rest))).bind
      fun rest =>
        let port := (rest.takeWhile (·.isDigit)).take 5
        if port.isEmpty then none else some (Nat.ofDigitChars 10 port 0)

/-- The first match in the text. -/
def healthcheckPort (text : List Char) : Option Nat := text.tails.findSome? healthcheckPortAt

def inferComposeHealthcheckPort (service : ComposeService) : Option Nat :=
  service.healthcheck.bind fun healthcheck =>
    let command := match healthcheck.test with
      | .string command => command
      | .list words => " ".intercalate words
    (healthcheckPort command.toList).filter fun port => 0 < port && port ≤ 65535

/-- The container ports, read off the interpolated values. -/
def serviceContainerPorts (service : ComposeService) (values : List String) : List Nat :=
  let containerPorts := values.filterMap parseComposePortMapping
  (if containerPorts.isEmpty then (inferComposeHealthcheckPort service).toList
    else containerPorts).foldl insertLast []

def knownComposeResourcePort (service : ComposeService) : Option Nat :=
  (RESOURCE_SIGNATURES.find? fun (pattern, _) => matchesSignature pattern service.signature).map
    (·.2)

/-- The port of a resource. -/
def internalContainerPort (service : ComposeService) (values : List String) : Option Nat :=
  (serviceContainerPorts service values).head?.or (knownComposeResourcePort service)

/-! ## The container -/

structure DockerHealthcheck where
  test : List String
  interval : Option N.Num
  timeout : Option N.Num
  retries : Option Nat
  startPeriod : Option N.Num

/-- What is handed to `createContainer`. A key `5432/tcp` is given by its port. -/
structure ContainerConfig where
  image : String
  env : List String
  exposedPorts : List Nat
  cmd : Option (List String)
  entrypoint : Option StringOrList
  healthcheck : Option (DockerHealthcheck N)
  binds : List String
  restartPolicy : String
  memory : Option Nat

structure RunComposeServiceOptions where
  imageTag : String
  /-- The entries of the record. -/
  envVars : List (String × String)
  containerPort : Option Nat
  command : Option StringOrList
  entrypoint : Option StringOrList
  restart : Option String
  healthcheck : Option ComposeHealthcheck
  secretBinds : List String
  volumeBinds : List String
  extraBinds : List String
  memoryLimitBytes : Option Nat

def healthcheckTest : StringOrList → List String
  | .string command => ["CMD-SHELL", command]
  | .list words => words

/-- A duration of the healthcheck, in nanoseconds. -/
def dockerDuration (value : Option String) : Option N.Num :=
  (parseComposeDurationSeconds N value).map fun seconds => N.mul seconds (N.ofNat 1000000000)

def dockerHealthcheck (healthcheck : ComposeHealthcheck) : DockerHealthcheck N where
  test := healthcheckTest healthcheck.test
  interval := dockerDuration N healthcheck.interval
  timeout := dockerDuration N healthcheck.timeout
  retries := healthcheck.retries
  startPeriod := dockerDuration N healthcheck.start_period

def restartPolicies : List String := ["no", "always", "on-failure", "unless-stopped"]

def restartPolicyName (restart : Option String) : String :=
  (restart.filter (· ∈ restartPolicies)).getD "unless-stopped"

def dockerCommand : Option StringOrList → Option (List String)
  | none => none
  | some (.string command) => some ["sh", "-c", command]
  | some (.list words) => some words

/-- What `runComposeService` makes of its options. -/
def createOptions (opts : RunComposeServiceOptions) : Except DeployError (ContainerConfig N) :=
  if hasShellMetacharacters opts.command then
    .error (.other "Command contains disallowed shell metacharacters")
  else
    .ok
      { image := opts.imageTag
        env := opts.envVars.map fun (key, value) => key ++ "=" ++ value
        exposedPorts := opts.containerPort.toList
        cmd := dockerCommand opts.command
        entrypoint := opts.entrypoint
        healthcheck := opts.healthcheck.map (dockerHealthcheck N)
        binds := opts.secretBinds ++ opts.volumeBinds ++ opts.extraBinds
        restartPolicy := restartPolicyName opts.restart
        memory := opts.memoryLimitBytes.filter (· ≠ 0) }

/-! ## Inspections -/

/-- A mount of the container. Other mounts than those of volumes are binds. -/
structure MountPoint where
  isVolume : Bool
  name : String
  destination : String
  deriving DecidableEq, Repr

/-- What Docker makes of a bind. -/
def mountPoint (bind : String) : MountPoint :=
  let tokens := bind.toList.splitOn ':'
  { isVolume := !isAbsolute bind
    name := if isAbsolute bind then "" else String.ofList (tokens.headD [])
    destination := String.ofList (tokens.getD 1 []) }

structure ContainerInspection where
  config : ContainerConfig N
  mounts : List MountPoint

/-- An inspection that returns what was passed. -/
def ContainerConfig.inspect (config : ContainerConfig N) : ContainerInspection N where
  config
  mounts := config.binds.map mountPoint

end

/-! ## Resources -/

def bindMappings (mounts : List Mount) : List String :=
  mounts.filterMap fun
    | .bind mapping => some mapping
    | .fileCopy .. => none

/-- A resource that the pipeline has created from its definition: what the definition resolves to, the
binds of the secret files and of the project's own volumes, and the options of Docker. -/
structure DeployedResource (N : Numbers) where
  env : Environment
  outcomes : Outcomes
  world : World
  projectName : String
  projectPath : Location
  service : ComposeService
  imageTag : String
  portValues : List String
  envVars : List (String × String)
  mounts : List Mount
  secretBinds : List String
  volumeBinds : List String
  config : ContainerConfig N
  imageTag_eq : ((resolveComposeServiceImageTag env service projectName).run world).1 = .ok imageTag
  portValues_eq : ((resolveServiceContainerPorts env service).run world).1 = .ok portValues
  envVars_eq :
    ((resolveComposeServiceRuntimeEnv env projectPath service).run world).1 = .ok envVars
  mounts_eq : ((resolveComposeServiceMounts outcomes env projectName service projectPath).run
    world).1 = .ok mounts
  config_eq : createOptions N
    { imageTag
      envVars := recordEntries envVars
      containerPort := (internalContainerPort service portValues).filter (· ≠ 0)
      command := service.command
      entrypoint := service.entrypoint
      restart := service.restart
      healthcheck := service.healthcheck
      secretBinds
      volumeBinds
      extraBinds := bindMappings mounts
      memoryLimitBytes := service.memoryLimitBytes } = .ok config

end OpenLander.Compose
