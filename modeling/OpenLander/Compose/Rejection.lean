import OpenLander.Compose.DeployService
import Mathlib.Data.List.Lex

/-! # Definitions that are rejected too late

Ahead of a deployment, `deployComposeViaDockerode` validates the profiles, the interpolation of some
values, and the `env_file`s that are there. What `deployService` resolves after it has removed the
container of a service is more than that: `firstFault` says what the first thing is that fails. -/

namespace OpenLander.Compose
open Theory

variable {env : Environment} {host : Host} {outcomes : Outcomes} {service : ComposeService}

/-! ## The validation ahead -/

/-- The order of `sort()`. -/
def utf16 (s : String) : List Nat :=
  s.toList.flatMap fun c =>
    if c.toNat < 0x10000 then [c.toNat]
    else [0xd800 + (c.toNat - 0x10000) / 0x400, 0xdc00 + (c.toNat - 0x10000) % 0x400]

def validateComposeProfiles (services : List ComposeService) (activeProfiles : List String) :
    Except ServiceConfigError Unit :=
  let availableProfiles := (services.flatMap fun service => service.profiles.getD []).foldl
    insertLast []
  let unknownProfiles := activeProfiles.filter fun profile => profile ∉ availableProfiles
  if unknownProfiles.isEmpty then .ok ⟨⟩
  else
    .error
      { message := "Unknown Compose profile(s): " ++ ", ".intercalate unknownProfiles
        details :=
          [("requested", activeProfiles),
            ("available", availableProfiles.mergeSort fun a b => decide (utf16 a ≤ utf16 b))] }

/-- A service without profiles is active. -/
def isActive (activeProfiles : List String) (service : ComposeService) : Bool :=
  (service.profiles.getD []).isEmpty || (service.profiles.getD []).any (· ∈ activeProfiles)

/-- A deployment: the declared services, the profiles, and the services that it includes. -/
structure ComposeDeploy where
  declared : List ComposeService
  projectPath : Location
  activeProfiles : List String := []
  includedServices : List String

/-- `filteredComposeProject`. The functions here use no dependencies. -/
def ComposeDeploy.filteredComposeProject (deploy : ComposeDeploy) : ComposeProject where
  services := (deploy.declared.filter (isActive deploy.activeProfiles)).filter fun service =>
    service.name ∈ deploy.includedServices
  projectPath := deploy.projectPath

/-- The host as the validation leaves it, unless it rejects the project. -/
def ComposeDeploy.preflight (deploy : ComposeDeploy) (env : Environment) (host : Host) :
    Option Host :=
  let composeProject := deploy.filteredComposeProject
  match validateComposeProfiles deploy.declared deploy.activeProfiles,
      validateComposeInterpolation env composeProject.services with
  | .ok _, .ok _ =>
    match (checkEnvFileReferences composeProject env.envVars).run ⟨host, []⟩ with
    | (.ok [], w) => some w.host
    | _ => none
  | _, _ => none

/-! ## Faults -/

/-- A `ServiceConfigError`, or another error. -/
inductive Fault
  | config | other
  deriving DecidableEq

def DeployError.fault : DeployError → Fault
  | config _ => .config
  | other _ => .other

/-- The value does not interpolate. -/
def valueFault (env : Environment) (value : String) : Option Fault :=
  if Interpolates env value then none else some .config

/-- The path escapes, or a value of an existing file does not interpolate. -/
def envFileFault (env : Environment) (host : Host) (projectPath : Location)
    (envFile : ComposeEnvFile) : Option Fault :=
  let envFilePath := resolve projectPath envFile.path
  if escapes projectPath envFilePath then some .config
  else if !host.existsSync envFilePath false then none
  else
    match host.readFileSync envFilePath with
    | .error _ => some .other
    | .ok content => (parseEnvContent content).findSome? fun entry => valueFault env entry.2

/-- What follows the equals sign does not interpolate by itself. -/
def itemFault (env : Environment) (item : String) : Option Fault :=
  let line := trim item.toList
  if '=' ∈ line ∧ (splitItem line).1 ≠ [] then
    valueFault env (String.ofList (splitItem line).2)
  else none

def environmentFault (env : Environment) : Option ComposeEnvironment → Option Fault
  | none => none
  | some (.list items) => items.findSome? (itemFault env)
  | some (.map entries) => entries.findSome? fun entry => valueFault env entry.2

/-- A source in the clone leads to a file, which is copied, or to a directory. -/
def bindSource (host : Host) (projectPath : Location) (mapping : Mapping) :
    Except Fault (List (Location × String)) :=
  let absoluteSource := resolve projectPath mapping.source
  let canonicalSource := host.realpath absoluteSource
  if escapes projectPath absoluteSource ∨ host.existsSync absoluteSource false = false ∨
      escapes (host.realpath projectPath) canonicalSource then .error .config
  else
    match host.node canonicalSource with
    | none => .error .other
    | some (.file _) => .ok [(canonicalSource, mapping.target)]
    | some .directory => .ok []
    | some .other => .error .config

/-- The files that a volume mapping copies, or what is wrong with it. -/
def volumeCopies (env : Environment) (host : Host) (projectPath : Location) (rawVolume : String) :
    Except Fault (List (Location × String)) :=
  match interpolateComposeValue env rawVolume with
  | .error _ => .error .config
  | .ok value =>
    let volume := trim value.toList
    let mapping := parseMapping volume
    if volume = [] then .ok []
    else if ':' ∉ volume then
      if isAbsolute (String.ofList volume) then .ok [] else .error .config
    else if mapping.source = "" ∨ isAbsolute mapping.target = false then .error .config
    else if mapping.source.toList.head? = some '.' then bindSource host projectPath mapping
    else if isAbsolute mapping.source then .error .config
    else .ok []

/-- What is wrong with it. -/
def faultOf (copies : Except Fault (List (Location × String))) : Option Fault :=
  match copies with
  | .error fault => some fault
  | .ok _ => none

def volumeFault (env : Environment) (host : Host) (projectPath : Location) (rawVolume : String) :
    Option Fault :=
  faultOf (volumeCopies env host projectPath rawVolume)

/-- A file is mounted at the root directory. -/
def stagingFault : List Location → List (Location × String) → Option Fault
  | _, [] => none
  | staged, (_, targetPath) :: rest =>
    if stagedPath targetPath = [] then some .config
    else if collides staged (stagedPath targetPath) then some .other
    else stagingFault (staged ++ [stagedPath targetPath]) rest

def copyFault (service : ComposeService) (copies : List (Location × String)) : Option Fault :=
  if hasShellMetacharacters service.command then some .other else stagingFault [] copies

/-- An image that is not prepared ahead has a name or a build. -/
def imageFault (service : ComposeService) (prepared : Bool) : Option Fault :=
  if prepared ∨ service.imageValues ≠ [] ∨ service.build.isSome then none else some .other

/-- The first thing that fails in the deployment of a service that was validated, when all calls to
Docker and to the tools of the host succeed. -/
def firstFault (env : Environment) (host : Host) (projectPath : Location) (service : ComposeService)
    (prepared : Bool) : Option Fault :=
  let volumes := service.volumes.getD []
  (imageFault service prepared).or <|
    ((service.envFile.getD []).findSome? (envFileFault env host projectPath)).or <|
      (environmentFault env service.environment).or <|
        (volumes.findSome? (volumeFault env host projectPath)).or <|
          copyFault service (volumes.flatMap fun rawVolume =>
            (volumeCopies env host projectPath rawVolume).toOption.getD [])

/-! ## What a stage fails with -/

/-- No call fails. -/
def Smooth (outcomes : Outcomes) : Prop := ∀ c, outcomes c = none

/-- The end of a stage with a fault: in that fault, or in the failure of a call. Without a fault it
returns a value that meets `P`, unless a call fails. The host stays as it is. -/
def Meets (host : Host) (outcomes : Outcomes) (fault : Option Fault) (P : α → Prop) :
    Except DeployError α → World → Prop
  | .ok a, w => w.host = host ∧ fault = none ∧ P a
  | .error e, w => w.host = host ∧ (fault = some e.fault ∨ ¬Smooth outcomes ∧ e.fault = .other)

section
variable {w : World} {f g : Option Fault} {P : α → Prop} {Q : β → Prop}

theorem meets_pure {a : α} (hw : w.host = host) (ha : P a) :
    (pure a : Prog World DeployError α).Ends w (Meets host outcomes none P) := ⟨hw, rfl, ha⟩

theorem meets_throw {e : DeployError} (hw : w.host = host) :
    (throw e : Prog World DeployError α).Ends w (Meets host outcomes (some e.fault) P) :=
  ⟨hw, .inl rfl⟩

theorem meets_bind {p : Prog World DeployError α} {k : α → Prog World DeployError β}
    (hp : p.Ends w (Meets host outcomes f P))
    (hk : ∀ a w', w'.host = host → P a → (k a).Ends w' (Meets host outcomes g Q)) :
    (p >>= k).Ends w (Meets host outcomes (f.or g) Q) := by
  refine hp.bind (fun a w' ⟨hw, hf, ha⟩ => ?_) (fun e w' ⟨hw, he⟩ => ⟨hw, ?_⟩)
  · rw [hf, Option.none_or]
    exact hk a w' hw ha
  · exact he.imp_left fun hf => by rw [hf, Option.some_or]

/-- A stage after which the next one has no fault of its own. -/
theorem meets_bind_none {p : Prog World DeployError α} {k : α → Prog World DeployError β}
    (hp : p.Ends w (Meets host outcomes f P))
    (hk : ∀ a w', w'.host = host → P a → (k a).Ends w' (Meets host outcomes none Q)) :
    (p >>= k).Ends w (Meets host outcomes f Q) := by
  have h := meets_bind hp hk
  rwa [Option.or_none] at h

theorem meets_none_bind {p : Prog World DeployError α} {k : α → Prog World DeployError β}
    (hp : p.Ends w (Meets host outcomes none P))
    (hk : ∀ a w', w'.host = host → P a → (k a).Ends w' (Meets host outcomes g Q)) :
    (p >>= k).Ends w (Meets host outcomes g Q) := by
  have h := meets_bind hp hk
  rwa [Option.none_or] at h

theorem meets_call (hw : w.host = host) (c : Call) :
    (call outcomes c).Ends w (Meets host outcomes none fun _ => True) := by
  rw [call]
  cases hc : outcomes c with
  | none => exact meets_pure hw trivial
  | some message => exact ⟨hw, .inr ⟨fun h => (nomatch (h c).symm.trans hc), rfl⟩⟩

theorem meets_access (hw : w.host = host) (a : Access) :
    (access a).Ends w (Meets host outcomes none fun _ => True) := ⟨hw, rfl, trivial⟩

theorem meets_throwConfig (hw : w.host = host) (message : String) :
    (throwConfig message service : Prog World DeployError α).Ends w
      (Meets host outcomes (some .config) P) := meets_throw hw

theorem meets_read_bind {γ : Type} {look : World → γ} {k : γ → Prog World DeployError α}
    (h : (k (look w)).Ends w (Meets host outcomes f P)) :
    (Prog.read look >>= k).Ends w (Meets host outcomes f P) :=
  (Prog.ends_read_bind look k).mpr h

theorem findSome?_cons_eq_or {fault : β → Option γ} {b : β} {bs : List β} :
    (b :: bs).findSome? fault = (fault b).or (bs.findSome? fault) := by
  rw [List.findSome?_cons]
  cases fault b <;> rfl

/-- A loop fails with the first fault of a round, and returns what `φ` says of all rounds. -/
theorem meets_collect {γ : Type} {φ : List α → List γ} (hnil : φ [] = [])
    (happend : ∀ x y, φ (x ++ y) = φ x ++ φ y) {step : β → Prog World DeployError (List α)}
    {fault : β → Option Fault} {result : β → List γ} {bs : List β}
    (hstep : ∀ b ∈ bs, ∀ w : World, w.host = host →
      (step b).Ends w (Meets host outcomes (fault b) fun as => φ as = result b))
    (hw : w.host = host) :
    (collect step bs).Ends w
      (Meets host outcomes (bs.findSome? fault) fun as => φ as = bs.flatMap result) := by
  induction bs generalizing w with
  | nil => exact meets_pure hw hnil
  | cons b bs ih =>
    rw [findSome?_cons_eq_or]
    refine meets_bind (hstep b (.head _) w hw) fun first w' hw' hfirst => ?_
    refine meets_bind_none (ih (fun b hb => hstep b (.tail _ hb)) hw') fun rest w'' hw'' hrest => ?_
    refine meets_pure hw'' ?_
    rw [happend, hfirst, hrest, List.flatMap_cons]

/-- A loop of whose values nothing is asked. -/
theorem meets_collect_any {step : β → Prog World DeployError (List α)} {fault : β → Option Fault}
    {bs : List β} (hstep : ∀ b ∈ bs, ∀ w : World, w.host = host →
      (step b).Ends w (Meets host outcomes (fault b) fun _ => True)) (hw : w.host = host) :
    (collect step bs).Ends w (Meets host outcomes (bs.findSome? fault) fun _ => True) := by
  have hunit : ∀ b ∈ bs, ∀ w : World, w.host = host → (step b).Ends w (Meets host outcomes (fault b)
      fun as => (fun _ => [] : List α → List Unit) as = []) := by
    intro b hb w hw
    exact (hstep b hb w hw).mono fun
      | .ok _, _, h => ⟨h.1, h.2.1, rfl⟩
      | .error _, _, h => h
  refine (meets_collect rfl (fun _ _ => rfl) hunit hw).mono fun
    | .ok _, _, h => ⟨h.1, h.2.1, trivial⟩
    | .error _, _, h => h

end

/-! ## The stages -/

variable {w : World}

theorem meets_interpolate (hw : w.host = host) (value : String) :
    (interpolate env value).Ends w (Meets host outcomes (valueFault env value)
      fun s => interpolateComposeValue env value = .ok s) := by
  rw [interpolate, valueFault]
  cases hvalue : interpolateComposeValue env value with
  | ok s =>
    rw [if_pos (interpolateComposeValue_eq_ok.mp ⟨s, hvalue⟩)]
    exact meets_pure hw rfl
  | error e =>
    rw [if_neg fun h => ?_]
    · exact meets_throw hw
    · obtain ⟨s, hs⟩ := interpolateComposeValue_eq_ok.mpr h
      exact nomatch hvalue.symm.trans hs

theorem valueFault_eq_none {value : String} : valueFault env value = none ↔ Interpolates env value := by
  rw [valueFault]
  split <;> simp_all

theorem meets_entries (hw : w.host = host) (entries : List (String × String)) :
    (collect (fun entry => do return [(entry.1, ← interpolate env entry.2)]) entries).Ends w
      (Meets host outcomes (entries.findSome? fun entry => valueFault env entry.2)
        fun _ => True) :=
  meets_collect_any (fun entry _ _ hw =>
    meets_bind_none (meets_interpolate hw entry.2) fun _ _ hw _ => meets_pure hw trivial) hw

/-- The ports have been validated. -/
theorem meets_ports (hw : w.host = host)
    (hports : ∀ value ∈ service.ports.getD [] ++ service.expose.getD [], Interpolates env value) :
    (resolveServiceContainerPorts env service).Ends w (Meets host outcomes none fun _ => True) := by
  have hnone : (service.ports.getD [] ++ service.expose.getD []).findSome? (valueFault env) = none :=
    List.findSome?_eq_none_iff.mpr fun value hvalue => valueFault_eq_none.mpr (hports value hvalue)
  rw [← hnone]
  exact meets_collect_any (fun value _ _ hw =>
    meets_bind_none (meets_interpolate hw value) fun _ _ hw _ => meets_pure hw trivial) hw

theorem meets_parseEnvFile (hw : w.host = host) (filePath : Location) :
    (parseEnvFile filePath).Ends w (Meets host outcomes
      (match host.readFileSync filePath with | .error _ => some .other | .ok _ => none)
      fun vars => ∃ content, host.readFileSync filePath = .ok content ∧
        vars = parseEnvContent content) := by
  rw [parseEnvFile]
  refine meets_none_bind (meets_access hw _) fun _ w' hw' _ => ?_
  refine meets_read_bind ?_
  rw [hw']
  cases hread : host.readFileSync filePath with
  | error message => exact meets_throw hw'
  | ok content => exact meets_pure hw' ⟨content, rfl, rfl⟩

theorem meets_envFile (hw : w.host = host) (projectPath : Location) (envFile : ComposeEnvFile) :
    (resolveEnvFile env projectPath service envFile).Ends w
      (Meets host outcomes (envFileFault env host projectPath envFile) fun _ => True) := by
  rw [resolveEnvFile, envFileFault]
  by_cases hescapes : escapes projectPath (resolve projectPath envFile.path) = true
  · rw [if_pos hescapes, if_pos hescapes]
    exact meets_throwConfig hw _
  · rw [if_neg hescapes, if_neg hescapes]
    refine meets_read_bind ?_
    rw [hw]
    split
    · exact meets_pure hw trivial
    · have hparse : (parseEnvFile (resolve projectPath envFile.path)).Ends w
          (Meets host outcomes _ _) :=
        meets_parseEnvFile hw (resolve projectPath envFile.path)
      cases hread : host.readFileSync (resolve projectPath envFile.path) with
      | error message =>
        rw [hread] at hparse
        refine meets_bind_none hparse fun _ _ _ ⟨content, hcontent, _⟩ => ?_
        exact nomatch hcontent
      | ok content =>
        rw [hread] at hparse
        refine meets_none_bind hparse fun vars _ hw ⟨content', hcontent, hvars⟩ => ?_
        cases hcontent
        rw [hvars]
        exact meets_entries hw _

theorem meets_item (hw : w.host = host) (resolved : List (String × String)) (item : String) :
    (resolveItem env resolved item).Ends w (Meets host outcomes (itemFault env item)
      fun _ => True) := by
  simp only [resolveItem, itemFault]
  generalize trim item.toList = line
  by_cases hequals : '=' ∈ line
  · rw [if_neg fun h => List.not_mem_nil (List.isEmpty_iff.mp h ▸ hequals),
      if_neg (not_not_intro hequals)]
    by_cases hkey : (splitItem line).1 = []
    · rw [if_pos (List.isEmpty_iff.mpr hkey), if_neg fun h => h.2 hkey]
      exact meets_pure hw trivial
    · rw [if_neg fun h => hkey (List.isEmpty_iff.mp h), if_pos ⟨hequals, hkey⟩]
      exact meets_bind_none (meets_interpolate hw _) fun _ _ hw _ => meets_pure hw trivial
  · rw [if_pos hequals, if_neg (c := '=' ∈ line ∧ (splitItem line).1 ≠ []) fun h => hequals h.1]
    split
    · exact meets_pure hw trivial
    · exact meets_pure hw trivial

theorem meets_items (hw : w.host = host) (resolved : List (String × String)) (items : List String) :
    (resolveItems env resolved items).Ends w (Meets host outcomes (items.findSome? (itemFault env))
      fun _ => True) := by
  induction items generalizing w resolved with
  | nil => exact meets_pure hw trivial
  | cons item items ih =>
    rw [findSome?_cons_eq_or]
    exact meets_bind (meets_item hw resolved item) fun resolved _ hw _ => ih hw resolved

/-- The first fault is that of an `env_file`, or else that of the environment. -/
theorem meets_runtimeEnv (hw : w.host = host) (projectPath : Location) :
    (resolveComposeServiceRuntimeEnv env projectPath service).Ends w (Meets host outcomes
      (((service.envFile.getD []).findSome? (envFileFault env host projectPath)).or
        (environmentFault env service.environment)) fun _ => True) := by
  refine meets_bind (meets_collect_any (fun envFile _ w hw => meets_envFile hw projectPath envFile)
    hw) fun resolved w' hw' _ => ?_
  cases service.environment with
  | none => exact meets_pure hw' trivial
  | some environment =>
    cases environment with
    | list items => exact meets_items hw' resolved items
    | map entries =>
      exact meets_bind_none (meets_entries hw' entries) fun _ _ hw _ => meets_pure hw trivial

/-! ### Mounts -/

theorem meets_bindSource (hw : w.host = host) (projectName : String) (projectPath : Location)
    (mapping : Mapping) (index : Nat) :
    (resolveBindSource outcomes projectName service projectPath mapping index).Ends w
      (Meets host outcomes (faultOf (bindSource host projectPath mapping)) fun mounts =>
        fileCopies mounts = (bindSource host projectPath mapping).toOption.getD []) := by
  rw [resolveBindSource, bindSource]
  by_cases hescapes : escapes projectPath (resolve projectPath mapping.source) = true
  · simp only [hescapes, if_true, true_or]
    exact meets_throwConfig hw _
  simp only [hescapes]
  refine meets_read_bind ?_
  rw [hw]
  by_cases hexists : host.existsSync (resolve projectPath mapping.source) false = true
  · by_cases hreal : escapes (host.realpath projectPath)
        (host.realpath (resolve projectPath mapping.source)) = true
    · simp only [hexists, hreal, Bool.not_true, if_true, or_true]
      exact meets_throwConfig hw _
    · simp only [hexists, hreal, Bool.not_true, Bool.true_eq_false]
      cases host.node (host.realpath (resolve projectPath mapping.source)) with
      | none => exact meets_throw hw
      | some node =>
        cases node with
        | file content => exact meets_pure hw rfl
        | other => exact meets_throwConfig hw _
        | directory =>
          refine meets_none_bind (meets_access hw _) fun _ _ hw _ => ?_
          refine meets_none_bind (meets_call hw _) fun _ _ hw _ => ?_
          exact meets_pure hw rfl
  · rw [Bool.not_eq_true] at hexists
    simp only [hexists, Bool.not_false, if_true, true_or]
    exact meets_throwConfig hw _

theorem meets_mount (hw : w.host = host) (projectName : String) (projectPath : Location)
    (rawVolume : String × Nat) :
    (resolveMount outcomes env projectName service projectPath rawVolume).Ends w
      (Meets host outcomes (volumeFault env host projectPath rawVolume.1) fun mounts =>
        fileCopies mounts = (volumeCopies env host projectPath rawVolume.1).toOption.getD []) := by
  rw [resolveMount, volumeFault, volumeCopies, interpolate]
  cases interpolateComposeValue env rawVolume.1 with
  | error e => exact ⟨hw, .inl rfl⟩
  | ok value =>
    refine meets_none_bind (meets_pure hw (rfl : value = value)) fun value' w hw hvalue => ?_
    subst hvalue
    simp only
    generalize trim value.toList = volume
    by_cases hempty : volume = []
    · rw [if_pos (List.isEmpty_iff.mpr hempty), if_pos hempty]
      exact meets_pure hw rfl
    rw [if_neg fun h => hempty (List.isEmpty_iff.mp h), if_neg hempty]
    by_cases hcolon : ':' ∈ volume
    · rw [if_neg (not_not_intro hcolon), if_neg (not_not_intro hcolon)]
      generalize parseMapping volume = mapping
      by_cases hshape : mapping.source = "" ∨ isAbsolute mapping.target = false
      · rw [if_pos (by simpa [String.isEmpty_iff] using hshape), if_pos hshape]
        exact meets_throwConfig hw _
      rw [if_neg (by simpa [String.isEmpty_iff] using hshape), if_neg hshape]
      by_cases hdot : mapping.source.toList.head? = some '.'
      · rw [if_pos (beq_iff_eq.mpr hdot), if_pos hdot]
        exact meets_bindSource hw projectName projectPath mapping rawVolume.2
      rw [if_neg fun h => hdot (beq_iff_eq.mp h), if_neg hdot]
      split
      · exact meets_throwConfig hw _
      · exact meets_pure hw rfl
    · rw [if_pos hcolon, if_pos hcolon]
      cases isAbsolute (String.ofList volume) with
      | true => exact meets_pure hw rfl
      | false => exact meets_throwConfig hw _

theorem meets_mounts (hw : w.host = host) (projectName : String) (projectPath : Location) :
    (resolveComposeServiceMounts outcomes env projectName service projectPath).Ends w
      (Meets host outcomes ((service.volumes.getD []).findSome? (volumeFault env host projectPath))
        fun mounts => fileCopies mounts = (service.volumes.getD []).flatMap fun rawVolume =>
          (volumeCopies env host projectPath rawVolume).toOption.getD []) := by
  generalize hvolumes : (service.volumes.getD []).zipIdx = volumes
  have hfst : service.volumes.getD [] = volumes.map (·.1) := by
    rw [← hvolumes, List.zipIdx_map_fst]
  rw [resolveComposeServiceMounts, hvolumes, hfst, List.findSome?_map, List.flatMap_map]
  exact meets_collect rfl (fun _ _ => List.filterMap_append)
    (fun rawVolume _ _ hw => meets_mount hw projectName projectPath rawVolume) hw

/-! ### The container -/

theorem meets_stageFiles (hw : w.host = host) (attempt : Nat) (staged : List Location)
    (copies : List ((Location × String) × Nat)) :
    (stageFiles outcomes attempt staged copies).Ends w
      (Meets host outcomes (stagingFault staged (copies.map (·.1))) fun _ => True) := by
  induction copies generalizing w staged with
  | nil => exact meets_pure hw trivial
  | cons copy copies ih =>
    obtain ⟨⟨sourcePath, targetPath⟩, index⟩ := copy
    rw [stageFiles, List.map_cons, stagingFault]
    by_cases hroot : stagedPath targetPath = []
    · rw [if_pos hroot, if_pos hroot]
      exact meets_throw hw
    rw [if_neg hroot, if_neg hroot]
    by_cases hcollides : collides staged (stagedPath targetPath) = true
    · rw [if_pos hcollides, if_pos hcollides]
      exact meets_throw hw
    rw [if_neg hcollides, if_neg hcollides]
    refine meets_none_bind (meets_access hw _) fun _ _ hw _ => ?_
    exact meets_none_bind (meets_call hw _) fun _ _ hw _ => ih hw _

theorem meets_copyFiles (hw : w.host = host) (attempt : Nat) (copies : List (Location × String)) :
    (copyFilesIntoContainer outcomes attempt copies).Ends w
      (Meets host outcomes (stagingFault [] copies) fun _ => True) := by
  rw [copyFilesIntoContainer]
  split
  · next h =>
    rw [List.isEmpty_iff.mp h]
    exact meets_pure hw trivial
  · have h : (stageFiles outcomes attempt [] copies.zipIdx).Ends w (Meets host outcomes _ _) :=
      meets_stageFiles hw attempt [] copies.zipIdx
    rw [List.zipIdx_map_fst] at h
    exact meets_bind_none h fun _ _ hw _ => meets_call hw _

theorem meets_run (hw : w.host = host) (mounts : List Mount) (attempt : Nat) :
    (runComposeService outcomes service mounts attempt).Ends w
      (Meets host outcomes (copyFault service (fileCopies mounts)) fun _ => True) := by
  rw [runComposeService, copyFault]
  refine meets_none_bind (meets_call hw _) fun _ _ hw _ => ?_
  by_cases hcommand : hasShellMetacharacters service.command = true
  · rw [if_pos hcommand, if_pos hcommand]
    exact meets_throw hw
  rw [if_neg hcommand, if_neg hcommand]
  refine meets_none_bind (meets_call hw _) fun _ _ hw _ => ?_
  exact meets_bind_none (meets_copyFiles hw attempt _) fun _ _ hw _ => meets_call hw _

theorem meets_allocate (hw : w.host = host)
    (hports : ∀ value ∈ service.ports.getD [] ++ service.expose.getD [], Interpolates env value)
    (allocation : Call) :
    (allocateComposePortMappings outcomes env service allocation).Ends w
      (Meets host outcomes none fun _ => True) :=
  meets_none_bind (meets_ports hw hports) fun _ _ hw _ => meets_call hw _

/-- A second attempt has the same fault. -/
theorem meets_start (hw : w.host = host)
    (hports : ∀ value ∈ service.ports.getD [] ++ service.expose.getD [], Interpolates env value)
    (mounts : List Mount) :
    (startService outcomes env service mounts).Ends w
      (Meets host outcomes (copyFault service (fileCopies mounts)) fun _ => True) := by
  refine (meets_run hw mounts 0).tryCatch (fun _ _ h => h) fun error w' ⟨hw', hfault⟩ => ?_
  split
  · exact meets_none_bind (meets_allocate hw' hports _) fun _ _ hw _ => meets_run hw mounts 1
  · split
    · exact meets_none_bind (meets_call hw' _) fun _ _ hw _ => meets_run hw mounts 1
    · exact ⟨hw', hfault⟩

/-! ### The service -/

theorem mem_validatedValues {value : String} :
    value ∈ service.validatedValues ↔ value ∈ service.imageValues ∨
      value ∈ service.ports.getD [] ++ service.expose.getD [] ∨ value ∈ service.volumes.getD [] ∨
        value ∈ (service.environment.map (·.values)).getD [] := by
  simp only [ComposeService.validatedValues, List.mem_append, or_assoc]

theorem meets_imageTag (hw : w.host = host) (projectName : String)
    (himage : ∀ value ∈ service.imageValues, Interpolates env value) :
    (resolveComposeServiceImageTag env service projectName).Ends w
      (Meets host outcomes (imageFault service false) fun _ => True) := by
  rw [resolveComposeServiceImageTag, imageFault]
  rw [ComposeService.imageValues] at himage ⊢
  generalize (service.image.filter fun image => !image.isEmpty) = image at himage ⊢
  cases image with
  | some image =>
    have hnone : valueFault env image = none := valueFault_eq_none.mpr (himage image (.head _))
    change (interpolate env image).Ends w _
    rw [if_pos (.inr (.inl (List.cons_ne_nil _ _))), ← hnone]
    exact (meets_interpolate hw image).mono fun
      | .ok _, _, h => ⟨h.1, h.2.1, trivial⟩
      | .error _, _, h => h
  | none =>
    cases service.build with
    | none => exact meets_throw hw
    | some build => exact meets_pure hw trivial

theorem meets_prepareImage (hw : w.host = host) (projectPath : Location) :
    (prepareImage outcomes projectPath service).Ends w (Meets host outcomes none fun _ => True) := by
  rw [prepareImage]
  split
  · exact meets_none_bind (meets_access hw _) fun _ _ hw _ => meets_call hw _
  · exact meets_call hw _

theorem meets_prepare (hw : w.host = host) (projectName : String) (projectPath : Location)
    (himage : ∀ value ∈ service.imageValues, Interpolates env value) (prepared : Bool) :
    (prepareService outcomes env projectName projectPath service prepared).Ends w
      (Meets host outcomes (imageFault service prepared) fun _ => True) := by
  cases prepared with
  | true => exact meets_pure hw trivial
  | false =>
    exact meets_bind_none (meets_imageTag hw projectName himage) fun _ _ hw _ =>
      meets_prepareImage hw projectPath

theorem meets_replaceContainer (hw : w.host = host) (projectName : String) (projectPath : Location)
    (hports : ∀ value ∈ service.ports.getD [] ++ service.expose.getD [], Interpolates env value) :
    (replaceContainer outcomes env projectName projectPath service).Ends w
      (Meets host outcomes (firstFault env host projectPath service true) fun _ => True) := by
  rw [replaceContainer, firstFault, imageFault, if_pos (.inl rfl), Option.none_or]
  refine meets_none_bind (meets_ports hw hports) fun _ _ hw _ => ?_
  refine meets_none_bind (meets_allocate hw hports _) fun _ _ hw _ => ?_
  rw [← Option.or_assoc]
  refine meets_bind (meets_runtimeEnv hw projectPath) fun _ _ hw _ => ?_
  refine meets_bind (meets_mounts hw projectName projectPath) fun mounts _ hw hmounts => ?_
  rw [← hmounts]
  exact meets_start hw hports mounts

theorem firstFault_eq (projectPath : Location) (prepared : Bool) :
    firstFault env host projectPath service prepared =
      (imageFault service prepared).or (firstFault env host projectPath service true) := by
  simp only [firstFault, imageFault, true_or, if_true, Option.none_or]

/-- A validated service ends in its first fault, unless a call fails. -/
theorem meets_deployService (hw : w.host = host) (projectName : String) (projectPath : Location)
    (hvalid : ∀ value ∈ service.validatedValues, Interpolates env value) (prepared : Bool) :
    (deployService outcomes env projectName projectPath service prepared).Ends w
      (Meets host outcomes (firstFault env host projectPath service prepared) fun _ => True) := by
  have himage : ∀ value ∈ service.imageValues, Interpolates env value := fun value h =>
    hvalid value (mem_validatedValues.mpr (.inl h))
  have hports : ∀ value ∈ service.ports.getD [] ++ service.expose.getD [], Interpolates env value :=
    fun value h => hvalid value (mem_validatedValues.mpr (.inr (.inl h)))
  rw [deployService, firstFault_eq]
  refine meets_bind (meets_prepare hw projectName projectPath himage prepared) fun _ _ hw _ => ?_
  refine meets_none_bind (meets_call hw _) fun _ _ hw _ => ?_
  exact meets_replaceContainer hw projectName projectPath hports

/-! ## Rejection -/

/-- No `ServiceConfigError` ends the deployment of the service, whatever the calls answer. -/
def NotRejected (env : Environment) (host : Host) (projectName : String) (projectPath : Location)
    (service : ComposeService) (prepared : Bool) : Prop :=
  ∀ (outcomes : Outcomes) (w : World) (e : ServiceConfigError), w.host = host →
    ((deployService outcomes env projectName projectPath service prepared).run w).1 ≠
      .error (.config e)

theorem validated_of_preflight {deploy : ComposeDeploy} {host' : Host}
    (h : deploy.preflight env host = some host')
    (hservice : service ∈ deploy.filteredComposeProject.services) :
    ∀ value ∈ service.validatedValues, Interpolates env value := by
  rw [ComposeDeploy.preflight] at h
  split at h
  · next _ hvalid => exact validateComposeInterpolation_eq_ok.mp hvalid service hservice
  · exact nomatch h

/-- A service that is validated ahead is not rejected exactly if its first fault is not a
`ServiceConfigError`. -/
theorem notRejected_iff {deploy : ComposeDeploy} {host' : Host}
    (hpreflight : deploy.preflight env host = some host')
    (hservice : service ∈ deploy.filteredComposeProject.services) (projectName : String)
    (prepared : Bool) :
    NotRejected env host' projectName deploy.projectPath service prepared ↔
      firstFault env host' deploy.projectPath service prepared ≠ some .config := by
  have hvalid := validated_of_preflight hpreflight hservice
  constructor
  · intro h hfault
    have hends : (deployService (fun _ => none) env projectName deploy.projectPath service
        prepared).Ends ⟨host', []⟩ _ :=
      meets_deployService rfl projectName deploy.projectPath hvalid prepared
    have hnot := h (fun _ => none) ⟨host', []⟩
    rw [Prog.Ends] at hends
    generalize ((deployService _ _ _ _ _ _).run _).1 = r at hends hnot
    cases r with
    | ok _ => cases hends.2.1.symm.trans hfault
    | error e =>
      cases e with
      | config e => exact hnot e rfl rfl
      | other message =>
        rcases hends.2 with hother | ⟨hsmooth, -⟩
        · cases hother.symm.trans hfault
        · exact hsmooth fun _ => rfl
  · intro hfault outcomes w e hw hrun
    have hends : (deployService outcomes env projectName deploy.projectPath service
        prepared).Ends w _ :=
      meets_deployService hw projectName deploy.projectPath hvalid prepared
    rw [Prog.Ends, hrun] at hends
    rcases hends.2 with hconfig | ⟨-, hother⟩
    · exact hfault hconfig
    · cases hother

/-- A clone without files. -/
def emptyClone : Host where
  node location := if location = ["clone"] then some .directory else none

def deployOf (service : ComposeService) : ComposeDeploy where
  declared := [service]
  projectPath := ["clone"]
  includedServices := [service.name]

/-- A service with a named volume is not rejected. -/
theorem notRejected_named :
    NotRejected {} emptyClone "shop" ["clone"]
      { name := "web", image := some "nginx", volumes := some ["data:/data"] } false :=
  (@notRejected_iff {} emptyClone _
    (deployOf { name := "web", image := some "nginx", volumes := some ["data:/data"] }) emptyClone rfl
    (by decide) "shop" false).mpr (by decide)

/-- The source of a mount is missing. -/
theorem not_notRejected :
    ¬∀ (deploy : ComposeDeploy) (env : Environment) (host host' : Host) (service : ComposeService)
      (projectName : String) (prepared : Bool), deploy.preflight env host = some host' →
        service ∈ deploy.filteredComposeProject.services →
          NotRejected env host' projectName deploy.projectPath service prepared := by
  intro h
  exact h (deployOf { name := "web", image := some "nginx", volumes := some ["./conf:/conf"] }) {}
    emptyClone emptyClone _ "shop" false rfl (.head _) (fun _ => none) ⟨emptyClone, []⟩ _ rfl rfl

/-- A validated service that is rejected has lost its container by then. -/
theorem rejected_after_cleanup {w : World} {projectName : String} {projectPath : Location}
    {prepared : Bool} {e : ServiceConfigError}
    (hvalid : ∀ value ∈ service.validatedValues, Interpolates env value)
    (h : ((deployService outcomes env projectName projectPath service prepared).run w).1 =
      .error (.config e)) :
    ∃ w', (do
        prepareService outcomes env projectName projectPath service prepared
        call outcomes .cleanup).run w = (.ok ⟨⟩, w') ∧
      ((replaceContainer outcomes env projectName projectPath service).run w').1 =
        .error (.config e) := by
  have himage : ∀ value ∈ service.imageValues, Interpolates env value := fun value h =>
    hvalid value (mem_validatedValues.mpr (.inl h))
  have hprepare : (prepareService outcomes env projectName projectPath service prepared).Ends w _ :=
    meets_prepare rfl projectName projectPath himage prepared
  rw [deployService, Prog.run_bind] at h
  rw [Prog.Ends] at hprepare
  rw [Prog.run_bind]
  generalize (prepareService _ _ _ _ _ _).run w = fate at h hprepare ⊢
  obtain ⟨r, w'⟩ := fate
  cases r with
  | error error =>
    cases h
    rcases hprepare.2 with hfault | ⟨-, hother⟩
    · rw [imageFault] at hfault
      split at hfault
      · cases hfault
      · cases hfault
    · cases hother
  | ok _ =>
    rw [Prog.onValue_ok, call] at h
    rw [Prog.onValue_ok, call]
    cases hcleanup : outcomes .cleanup with
    | none =>
      rw [hcleanup] at h
      exact ⟨w', rfl, h⟩
    | some message =>
      rw [hcleanup] at h
      cases h

end OpenLander.Compose
