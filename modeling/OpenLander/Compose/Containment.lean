import OpenLander.Compose.Rejection
import OpenLander.Theory.Run

/-! # The clone of a Compose project

What the processing of a Compose project touches on the host, as a system: the references to
`env_file`s are checked one after another, and once all of them have passed, images are prepared and
services deployed, in any order. A run stays in the clone exactly if none of its steps creates a
missing `env_file` outside, or builds from a directory outside, `StaysInside`. -/

namespace OpenLander.Compose.Containment
open Theory Compose

structure State where
  world : World
  /-- The references that have not been checked. -/
  pending : List (String × ComposeEnvFile)
  errors : List EnvFileReferenceError := []
  /-- An error has been thrown. -/
  thrown : Bool := false

inductive Event
  | check
  | prepare (service : ComposeService) (outcomes : Outcomes)
  | deploy (service : ComposeService) (prepared : Bool) (outcomes : Outcomes)

/-- The references have been checked, and the project was not rejected. -/
def State.accepted (s : State) : Bool := s.pending.isEmpty && s.errors.isEmpty && !s.thrown

section
variable (env : Environment) (composeProject : ComposeProject) (projectName : String)

/-- The interpolation is validated before. -/
def init (host : Host) : State :=
  match validateComposeInterpolation env composeProject.services with
  | .ok _ => { world := ⟨host, []⟩, pending := envFileReferences composeProject.services }
  | .error _ => { world := ⟨host, []⟩, pending := [], thrown := true }

def next (s : State) : Event → Option State
  | .check =>
    match s.pending with
    | [] => none
    | (service, envFileRef) :: pending =>
      if s.thrown then none
      else
        match (checkEnvFileReference composeProject.projectPath env.envVars service envFileRef).run
          s.world with
        | (.ok errors, world) => some { s with world, pending, errors := s.errors ++ errors }
        | (.error _, world) => some { s with world, pending, thrown := true }
  | .prepare service outcomes =>
    if s.accepted ∧ service ∈ composeProject.services then
      some { s with world := ((prepareService outcomes env projectName composeProject.projectPath
        service false).run s.world).2 }
    else none
  | .deploy service prepared outcomes =>
    if s.accepted ∧ service ∈ composeProject.services then
      some { s with world := ((deployService outcomes env projectName composeProject.projectPath
        service prepared).run s.world).2 }
    else none

end

/-- The path is in the clone, under the name of the clone or its name without symbolic links. -/
def Inside (host : Host) (projectPath location : Location) : Prop :=
  projectPath <+: location ∨ host.realpath projectPath <+: location

def Contained (projectPath : Location) (w : World) : Prop :=
  ∀ a ∈ w.accesses, Inside w.host projectPath a.location

/-- The reference creates no file, or one in the clone, from a template in the clone. -/
def CreatesInside (env : Environment) (projectPath : Location) (host : Host)
    (envFileRef : ComposeEnvFile) : Prop :=
  let fullPath := join projectPath envFileRef.path
  let slash := envFileRef.path.toList.getLast? == some '/'
  host.existsSync fullPath slash = false → envFileRef.required = true →
    match templateIn host fullPath.dropLast with
    | some templatePath => Inside host projectPath templatePath ∧
      ((host.readFileSync templatePath).isOk → Inside host projectPath fullPath.dropLast)
    | none => env.envVars ≠ [] → Inside host projectPath fullPath.dropLast

/-- The service has no build, or its context is in the clone. -/
def BuildsInside (projectPath : Location) (host : Host) (service : ComposeService) : Prop :=
  ∀ context ∈ (resolveBuildContext projectPath service).toOption, Inside host projectPath context.1

def StaysInside (env : Environment) (composeProject : ComposeProject) (s : State) : Event → Prop
  | .check => ∀ reference ∈ s.pending.head?,
      CreatesInside env composeProject.projectPath s.world.host reference.2
  | .prepare service _ => BuildsInside composeProject.projectPath s.world.host service
  | .deploy service prepared _ =>
    prepared = false → BuildsInside composeProject.projectPath s.world.host service

variable {env : Environment} {host : Host} {projectPath location : Location} {outcomes : Outcomes}
  {service : ComposeService} {w : World} {C : Prop}

/-! ## Accesses -/

theorem inside_of_prefix (h : projectPath <+: location) : Inside host projectPath location := .inl h

theorem prefix_of_not_escapes {root : Location} (h : ¬escapes root location = true) :
    root <+: location := by
  simp only [escapes, Bool.not_eq_true, Bool.not_eq_false', Bool.or_eq_true, beq_iff_eq,
    Bool.and_eq_true, List.isPrefixOf_iff_prefix] at h
  rcases h with rfl | ⟨-, h⟩
  · exact List.prefix_refl location
  · exact h

theorem contained_access {a : Access} :
    Contained projectPath { w with accesses := w.accesses ++ [a] } ↔
      Contained projectPath w ∧ Inside w.host projectPath a.location := by
  simp only [Contained, List.forall_mem_append, List.forall_mem_singleton]

/-- The host is as it was, and the accesses are in the clone exactly if `C`. -/
def Kept (projectPath : Location) (host : Host) (C : Prop) (w : World) : Prop :=
  w.host = host ∧ (Contained projectPath w ↔ C)

theorem keeps_access {a : Access} (h : Inside host projectPath a.location) :
    Prog.Keeps (Kept projectPath host C) (access a) := by
  intro w ⟨hw, hC⟩
  refine ⟨hw, ?_⟩
  rw [← hC]
  exact contained_access.trans (and_iff_left (hw ▸ h))

theorem keeps_call (c : Call) : Prog.Keeps (Kept projectPath host C) (call outcomes c) := by
  rw [call]
  split
  · exact .ret _
  · exact .ret _

theorem keeps_throwConfig {α : Type} (message : String) :
    Prog.Keeps (Kept projectPath host C)
      (throwConfig message service : Prog World DeployError α) := .ret _

theorem keeps_interpolate (value : String) :
    Prog.Keeps (Kept projectPath host C) (interpolate env value) := by
  rw [interpolate]
  cases interpolateComposeValue env value with
  | ok s => exact .ret _
  | error e => exact .ret _

theorem keeps_collect {α β : Type} {step : β → Prog World DeployError (List α)}
    (h : ∀ b, Prog.Keeps (Kept projectPath host C) (step b)) (bs : List β) :
    Prog.Keeps (Kept projectPath host C) (collect step bs) := by
  induction bs with
  | nil => exact .ret _
  | cons b bs ih => exact (h b).bind fun _ => ih.bind fun _ => .ret _

theorem keeps_entries (entries : List (String × String)) :
    Prog.Keeps (Kept projectPath host C)
      (collect (fun entry => do return [(entry.1, ← interpolate env entry.2)]) entries) := by
  refine keeps_collect (fun entry => ?_) entries
  exact (keeps_interpolate entry.2).bind fun _ => .ret _

/-- What comes after a stage may rest on its value. -/
theorem keeps_bind_of_meets {α β : Type} {p : Prog World DeployError α}
    {k : α → Prog World DeployError β} {f : Option Fault} {P : α → Prop}
    (hp : Prog.Keeps (Kept projectPath host C) p)
    (hmeets : ∀ w : World, w.host = host → p.Ends w (Meets host outcomes f P))
    (hk : ∀ a, P a → Prog.Keeps (Kept projectPath host C) (k a)) :
    Prog.Keeps (Kept projectPath host C) (p >>= k) := by
  intro w hw
  have hends := hmeets w hw.1
  have hkept := hp w hw
  rw [Prog.Ends] at hends
  rw [Prog.run_bind]
  generalize p.run w = fate at hends hkept ⊢
  obtain ⟨r, w'⟩ := fate
  cases r with
  | ok a => exact hk a hends.2.2 w' hkept
  | error e => exact hkept

/-! ## The stages of a deployment -/

theorem keeps_parseEnvFile {filePath : Location} (h : Inside host projectPath filePath) :
    Prog.Keeps (Kept projectPath host C) (parseEnvFile filePath) := by
  refine (keeps_access h).bind fun _ => .bind (.read _) fun content => ?_
  cases content with
  | ok content => exact .ret _
  | error message => exact .ret _

theorem keeps_envFile (envFile : ComposeEnvFile) :
    Prog.Keeps (Kept projectPath host C) (resolveEnvFile env projectPath service envFile) := by
  rw [resolveEnvFile]
  by_cases hescapes : escapes projectPath (resolve projectPath envFile.path) = true
  · rw [if_pos hescapes]
    exact keeps_throwConfig _
  · rw [if_neg hescapes]
    refine .bind (.read _) fun found => ?_
    split
    · exact .ret _
    · refine (keeps_parseEnvFile (.inl (prefix_of_not_escapes hescapes))).bind fun vars => ?_
      exact keeps_entries vars

theorem keeps_items (resolved : List (String × String)) (items : List String) :
    Prog.Keeps (Kept projectPath host C) (resolveItems env resolved items) := by
  induction items generalizing resolved with
  | nil => exact .ret _
  | cons item items ih =>
    refine .bind ?_ ih
    simp only [resolveItem]
    generalize trim item.toList = line
    split
    · exact .ret _
    · split
      · exact .ret _
      · split
        · exact .ret _
        · exact (keeps_interpolate _).bind fun _ => .ret _

theorem keeps_runtimeEnv :
    Prog.Keeps (Kept projectPath host C)
      (resolveComposeServiceRuntimeEnv env projectPath service) := by
  refine (keeps_collect keeps_envFile _).bind fun resolved => ?_
  cases service.environment with
  | none => exact .ret _
  | some environment =>
    cases environment with
    | list items => exact keeps_items resolved items
    | map entries =>
      exact (keeps_entries entries).bind fun _ => .ret _

theorem inside_of_not_escapes
    (h : ¬escapes (host.realpath projectPath) (host.realpath location) = true) :
    Inside host projectPath (host.realpath location) := .inr (prefix_of_not_escapes h)

theorem keeps_bindSource (projectName : String) (mapping : Mapping) (index : Nat) :
    Prog.Keeps (Kept projectPath host C)
      (resolveBindSource outcomes projectName service projectPath mapping index) := by
  rw [resolveBindSource]
  by_cases hescapes : escapes projectPath (resolve projectPath mapping.source) = true
  · simp only [hescapes, if_true]
    exact keeps_throwConfig _
  simp only [hescapes]
  refine .read_bind fun w hw => ?_
  have hkept : ∀ p : Prog World DeployError (List Mount), Prog.Keeps (Kept projectPath host C) p →
      Kept projectPath host C (p.run w).2 := fun p hp => hp w hw
  rw [hw.1]
  refine hkept _ ?_
  split
  · exact keeps_throwConfig _
  · split
    · exact keeps_throwConfig _
    · next hreal =>
      split
      · exact .ret _
      · exact .ret _
      · exact keeps_throwConfig _
      · refine (keeps_access (inside_of_not_escapes hreal)).bind fun _ => ?_
        exact (keeps_call _).bind fun _ => .ret _

theorem keeps_mounts (projectName : String) :
    Prog.Keeps (Kept projectPath host C)
      (resolveComposeServiceMounts outcomes env projectName service projectPath) := by
  refine keeps_collect (fun rawVolume => (keeps_interpolate _).bind fun value => ?_) _
  simp only
  split
  · exact .ret _
  · split
    · split
      · exact keeps_throwConfig _
      · exact .ret _
    · split
      · exact keeps_throwConfig _
      · split
        · exact keeps_bindSource projectName _ _
        · split
          · exact keeps_throwConfig _
          · exact .ret _

/-- A file that is copied is in the clone. -/
theorem inside_of_volumeCopies {rawVolume : String} {copies : List (Location × String)}
    (h : volumeCopies env host projectPath rawVolume = .ok copies) :
    ∀ copy ∈ copies, Inside host projectPath copy.1 := by
  intro copy hcopy
  rw [volumeCopies] at h
  have hnil : (.ok [] : Except Fault (List (Location × String))) ≠ .ok copies := by
    rintro ⟨⟩
    cases hcopy
  split at h
  · cases h
  simp only at h
  generalize parseMapping _ = mapping at h
  split at h
  · exact absurd h hnil
  split at h
  · split at h
    · exact absurd h hnil
    · cases h
  split at h
  · cases h
  split at h
  · rw [bindSource] at h
    split at h
    · cases h
    · next hfault =>
      split at h
      · cases h
      · cases h
        obtain rfl := List.mem_singleton.mp hcopy
        exact inside_of_not_escapes fun hescapes => hfault (.inr (.inr hescapes))
      · exact absurd h hnil
      · cases h
  split at h
  · cases h
  · exact absurd h hnil

theorem keeps_stageFiles (attempt : Nat) (staged : List Location)
    {copies : List ((Location × String) × Nat)}
    (h : ∀ copy ∈ copies, Inside host projectPath copy.1.1) :
    Prog.Keeps (Kept projectPath host C) (stageFiles outcomes attempt staged copies) := by
  induction copies generalizing staged with
  | nil => exact .ret _
  | cons copy copies ih =>
    obtain ⟨⟨sourcePath, targetPath⟩, index⟩ := copy
    rw [stageFiles]
    split
    · exact .ret _
    · split
      · exact .ret _
      · refine (keeps_access (h _ (.head _))).bind fun _ => (keeps_call _).bind fun _ => ?_
        exact ih _ fun copy hcopy => h copy (.tail _ hcopy)

theorem keeps_run {mounts : List Mount} (attempt : Nat)
    (h : ∀ copy ∈ fileCopies mounts, Inside host projectPath copy.1) :
    Prog.Keeps (Kept projectPath host C) (runComposeService outcomes service mounts attempt) := by
  rw [runComposeService]
  refine (keeps_call _).bind fun _ => ?_
  split
  · exact .ret _
  · refine (keeps_call _).bind fun _ => .bind ?_ fun _ => keeps_call _
    rw [copyFilesIntoContainer]
    split
    · exact .ret _
    · refine .bind (keeps_stageFiles attempt [] fun copy hcopy => ?_) fun _ => keeps_call _
      exact h copy.1 (List.fst_mem_of_mem_zipIdx hcopy)

theorem keeps_ports :
    Prog.Keeps (Kept projectPath host C) (resolveServiceContainerPorts env service) :=
  keeps_collect (fun value => (keeps_interpolate value).bind fun _ => .ret _) _

theorem keeps_start {mounts : List Mount}
    (h : ∀ copy ∈ fileCopies mounts, Inside host projectPath copy.1) :
    Prog.Keeps (Kept projectPath host C) (startService outcomes env service mounts) := by
  refine (keeps_run 0 h).tryCatch fun error => ?_
  split
  · exact (keeps_ports.bind fun _ => keeps_call _).bind fun _ => keeps_run 1 h
  · split
    · exact (keeps_call _).bind fun _ => keeps_run 1 h
    · exact .ret _

/-- From the cleanup on, nothing outside the clone is touched. -/
theorem keeps_replaceContainer (projectName : String) :
    Prog.Keeps (Kept projectPath host C)
      (replaceContainer outcomes env projectName projectPath service) := by
  refine keeps_ports.bind fun _ => (keeps_ports.bind fun _ => keeps_call _).bind fun _ =>
    keeps_runtimeEnv.bind fun _ => ?_
  refine keeps_bind_of_meets (keeps_mounts projectName)
    (fun w hw => meets_mounts hw projectName projectPath) fun mounts hmounts => ?_
  refine keeps_start fun copy hcopy => ?_
  rw [hmounts] at hcopy
  obtain ⟨rawVolume, -, hcopy⟩ := List.mem_flatMap.mp hcopy
  cases hcopies : volumeCopies env host projectPath rawVolume with
  | error fault =>
    rw [hcopies] at hcopy
    exact nomatch hcopy
  | ok copies =>
    rw [hcopies] at hcopy
    exact inside_of_volumeCopies hcopies copy hcopy

theorem prepareImage_contained :
    Kept projectPath w.host (Contained projectPath w ∧ BuildsInside projectPath w.host service)
      ((prepareImage outcomes projectPath service).run w).2 := by
  rw [prepareImage, BuildsInside]
  cases resolveBuildContext projectPath service with
  | error e => exact keeps_call _ w ⟨rfl, (and_iff_left (by rintro _ ⟨⟩)).symm⟩
  | ok context =>
    refine keeps_call _ { w with accesses := w.accesses ++ [.buildContext context.1] } ⟨rfl, ?_⟩
    rw [contained_access]
    refine and_congr_right fun _ => ⟨fun h context' hcontext => ?_, fun h => h context rfl⟩
    cases hcontext
    exact h

/-- A tag is found without an access, unless the service has no build. -/
theorem imageTag_run (projectName : String)
    (himage : ∀ value ∈ service.imageValues, Interpolates env value) :
    (∃ tag, (resolveComposeServiceImageTag env service projectName).run w = (.ok tag, w)) ∨
      service.build = none ∧ ∃ e,
        (resolveComposeServiceImageTag env service projectName).run w = (.error e, w) := by
  rw [resolveComposeServiceImageTag]
  rw [ComposeService.imageValues] at himage
  generalize (service.image.filter fun image => !image.isEmpty) = image at himage ⊢
  cases image with
  | some image =>
    obtain ⟨tag, htag⟩ := interpolateComposeValue_eq_ok.mpr (himage image (.head _))
    refine .inl ⟨tag, ?_⟩
    change (interpolate env image).run w = _
    rw [interpolate, htag]
    rfl
  | none =>
    cases service.build with
    | none => exact .inr ⟨rfl, _, rfl⟩
    | some build => exact .inl ⟨_, rfl⟩

/-- The preparation of an image builds from the context of the service. -/
theorem prepare_contained (projectName : String)
    (himage : ∀ value ∈ service.imageValues, Interpolates env value) (prepared : Bool) :
    Kept projectPath w.host
      (Contained projectPath w ∧ (prepared = false → BuildsInside projectPath w.host service))
      ((prepareService outcomes env projectName projectPath service prepared).run w).2 := by
  cases prepared with
  | true => exact ⟨rfl, (and_iff_left (by rintro ⟨⟩)).symm⟩
  | false =>
    rw [prepareService, if_neg Bool.false_ne_true]
    rcases imageTag_run (w := w) projectName himage with ⟨tag, htag⟩ | ⟨hbuild, e, herror⟩
    · rw [Prog.run_bind_ok htag]
      obtain ⟨hhost, hcontained⟩ : Kept projectPath w.host _
          ((prepareImage outcomes projectPath service).run w).2 := prepareImage_contained
      exact ⟨hhost, hcontained.trans (and_congr_right fun _ => ⟨fun h _ => h, fun h => h rfl⟩)⟩
    · rw [Prog.run_bind_error herror]
      refine ⟨rfl, (and_iff_left fun _ context hcontext => ?_).symm⟩
      rw [resolveBuildContext, hbuild] at hcontext
      cases hcontext

theorem deploy_contained (projectName : String)
    (himage : ∀ value ∈ service.imageValues, Interpolates env value) (prepared : Bool) :
    Kept projectPath w.host
      (Contained projectPath w ∧ (prepared = false → BuildsInside projectPath w.host service))
      ((deployService outcomes env projectName projectPath service prepared).run w).2 := by
  have hprepare : Kept projectPath w.host _
      ((prepareService outcomes env projectName projectPath service prepared).run w).2 :=
    prepare_contained projectName himage prepared
  rw [deployService, Prog.run_bind]
  generalize (prepareService _ _ _ _ _ _).run w = fate at hprepare ⊢
  obtain ⟨r, w'⟩ := fate
  cases r with
  | error e => exact hprepare
  | ok _ =>
    exact (keeps_call .cleanup).bind (fun _ => keeps_replaceContainer projectName) w' hprepare

/-! ## The checks -/

/-- The world after more accesses, on a host with the same links. -/
structure Extends (w : World) (accesses : List Access) (w' : World) : Prop where
  realpath : w'.host.realpath = w.host.realpath
  accesses : w'.accesses = w.accesses ++ accesses

theorem Extends.trans {w w' w'' : World} {l l' : List Access} (h : Extends w l w')
    (h' : Extends w' l' w'') : Extends w (l ++ l') w'' where
  realpath := h'.realpath.trans h.realpath
  accesses := by rw [h'.accesses, h.accesses, List.append_assoc]

theorem Extends.contained {w w' : World} {l : List Access} (h : Extends w l w') :
    Contained projectPath w' ↔
      Contained projectPath w ∧ ∀ a ∈ l, Inside w.host projectPath a.location := by
  simp only [Contained, h.accesses, Inside, h.realpath, List.forall_mem_append]

theorem mkdirSync_extends (directory : Location) :
    Extends w [.create directory] ((mkdirSync directory).run w).2 := by
  have hrealpath : ∀ (directories : List Location) (host : Host), (directories.foldl
      (fun host directory =>
        if (host.node directory).isNone then host.write directory .directory else host)
      host).realpath = host.realpath := by
    refine foldl_eq_of_step (p := Host.realpath) fun host directory => ?_
    split
    · rfl
    · rfl
  rw [mkdirSync, access, Prog.run_modify_bind, Prog.run_read_bind]
  split
  · exact ⟨rfl, rfl⟩
  · exact ⟨hrealpath _ _, rfl⟩

theorem writeFileSync_extends (fullPath : Location) (slash : Bool) (content : String) :
    Extends w [.create fullPath] ((writeFileSync fullPath slash content).run w).2 := by
  rw [writeFileSync, access, Prog.run_modify_bind, Prog.run_read_bind]
  split
  · exact ⟨rfl, rfl⟩
  · split
    · exact ⟨rfl, rfl⟩
    · exact ⟨rfl, rfl⟩

/-- To create a file is to touch its directory, and the file if that succeeds. -/
theorem create_contained {p : Location} (fullPath : Location) (slash : Bool) (content : String) :
    ∃ l, Extends w l ((do
        mkdirSync fullPath.dropLast
        writeFileSync fullPath slash content
        return ([] : List EnvFileReferenceError)).run w).2 ∧
      ((∀ a ∈ l, Inside w.host p a.location) ↔ Inside w.host p fullPath.dropLast) := by
  have hmkdir := mkdirSync_extends (w := w) fullPath.dropLast
  rw [Prog.run_bind]
  generalize (mkdirSync fullPath.dropLast).run w = fate at hmkdir ⊢
  obtain ⟨r, w'⟩ := fate
  cases r with
  | error e => exact ⟨_, hmkdir, List.forall_mem_singleton⟩
  | ok _ =>
    have hwrite := writeFileSync_extends (w := w') fullPath slash content
    rw [Prog.onValue_ok, Prog.run_bind]
    generalize (writeFileSync fullPath slash content).run w' = fate at hwrite ⊢
    obtain ⟨r, w''⟩ := fate
    have hinside : (∀ a ∈ [Access.create fullPath.dropLast] ++ [.create fullPath],
        Inside w.host p a.location) ↔ Inside w.host p fullPath.dropLast := by
      simp only [List.cons_append, List.nil_append, List.forall_mem_cons, List.not_mem_nil,
        false_imp_iff, implies_true, and_true, Access.location]
      exact and_iff_left_of_imp fun h =>
        h.imp prefix_of_prefix_dropLast prefix_of_prefix_dropLast
    cases r with
    | ok _ => exact ⟨_, hmkdir.trans hwrite, hinside⟩
    | error e => exact ⟨_, hmkdir.trans hwrite, hinside⟩

theorem check_contained (service : String) (envFileRef : ComposeEnvFile) :
    ∃ l, Extends w l ((checkEnvFileReference projectPath env.envVars service envFileRef).run w).2 ∧
      ((∀ a ∈ l, Inside w.host projectPath a.location) ↔
        CreatesInside env projectPath w.host envFileRef) := by
  have hsame : ∀ {C : Prop}, C → ∃ l, Extends w l w ∧
      ((∀ a ∈ l, Inside w.host projectPath a.location) ↔ C) := fun h =>
    ⟨[], ⟨rfl, (List.append_nil _).symm⟩, iff_of_true (by intro _ ha; cases ha) h⟩
  simp only [checkEnvFileReference, CreatesInside, Prog.run_read_bind]
  generalize join projectPath envFileRef.path = fullPath
  generalize (envFileRef.path.toList.getLast? == some '/') = slash
  cases w.host.existsSync fullPath slash with
  | true => exact hsame fun h => by cases h
  | false =>
    cases envFileRef.required with
    | false => exact hsame fun _ h => by cases h
    | true =>
      simp only [Bool.false_eq_true, if_false, Bool.not_true, forall_const, Prog.run_read_bind]
      cases templateIn w.host fullPath.dropLast with
      | none =>
        simp only
        split
        · next hvars =>
          have hne : env.envVars ≠ [] := by simpa using hvars
          obtain ⟨l, hl, hinside⟩ := create_contained (p := projectPath) (w := w) fullPath
            slash ("\n".intercalate (envLines env.envVars []) ++ "\n")
          exact ⟨l, hl, hinside.trans (imp_iff_right hne).symm⟩
        · next hvars =>
          exact hsame fun hne => absurd (by simpa using hvars) hne
      | some templatePath =>
        have hread : Extends w [.read templatePath]
            { w with accesses := w.accesses ++ [.read templatePath] } := ⟨rfl, rfl⟩
        simp only [parseEnvFile, access]
        rw [Prog.run_bind, Prog.run_modify_bind, Prog.run_read_bind]
        cases w.host.readFileSync templatePath with
        | error message =>
          refine ⟨_, hread, List.forall_mem_singleton.trans ?_⟩
          exact (and_iff_left (by rintro ⟨⟩)).symm
        | ok content =>
          obtain ⟨l, hl, hinside⟩ := create_contained (p := projectPath)
            (w := { w with accesses := w.accesses ++ [.read templatePath] }) fullPath slash
            ("\n".intercalate (envLines env.envVars (parseEnvContent content)) ++ "\n")
          refine ⟨_, hread.trans hl, ?_⟩
          rw [List.forall_mem_append, hinside, List.forall_mem_singleton]
          exact and_congr_right fun _ => (imp_iff_right rfl).symm

/-! ## Runs -/

variable {composeProject : ComposeProject} {projectName : String}

/-- Unless the project was rejected, the values of its services have been validated. -/
def Validated (env : Environment) (composeProject : ComposeProject) (s : State) : Prop :=
  s.thrown = false → ∀ service ∈ composeProject.services, ∀ value ∈ service.validatedValues,
    Interpolates env value

theorem init_validated : Validated env composeProject (init env composeProject host) := by
  intro hthrown
  rw [init] at hthrown
  split at hthrown
  · next hvalid => exact validateComposeInterpolation_eq_ok.mp hvalid
  · exact nomatch hthrown

/-- What a step does: a check goes on with the next reference, and the others change the world. -/
theorem next_cases {s t : State} {e : Event} (h : next env composeProject projectName s e = some t) :
    (∃ service envFileRef pending, e = .check ∧ s.pending = (service, envFileRef) :: pending ∧
      (t.thrown = false → s.thrown = false) ∧
      t.world = ((checkEnvFileReference composeProject.projectPath env.envVars service
        envFileRef).run s.world).2) ∨
    (∃ service outcomes, e = .prepare service outcomes ∧ s.thrown = false ∧ t.thrown = false ∧
      service ∈ composeProject.services ∧
      t.world = ((prepareService outcomes env projectName composeProject.projectPath service
        false).run s.world).2) ∨
    (∃ service prepared outcomes, e = .deploy service prepared outcomes ∧ s.thrown = false ∧
      t.thrown = false ∧ service ∈ composeProject.services ∧
      t.world = ((deployService outcomes env projectName composeProject.projectPath service
        prepared).run s.world).2) := by
  have hnot : s.accepted = true → s.thrown = false := by
    intro haccepted
    rw [State.accepted, Bool.and_eq_true, Bool.not_eq_true'] at haccepted
    exact haccepted.2
  cases e with
  | check =>
    rw [next] at h
    split at h
    · exact nomatch h
    · next service envFileRef pending hpending =>
      refine .inl ⟨service, envFileRef, pending, rfl, hpending, ?_⟩
      split at h
      · exact nomatch h
      · next hthrown =>
        split at h
        · next hrun =>
          cases h
          exact ⟨id, by rw [hrun]⟩
        · next hrun =>
          cases h
          exact ⟨fun h => (nomatch h), by rw [hrun]⟩
  | prepare service outcomes =>
    rw [next] at h
    split at h
    · next hs =>
      cases h
      exact .inr (.inl ⟨service, outcomes, rfl, hnot hs.1, hnot hs.1, hs.2, rfl⟩)
    · exact nomatch h
  | deploy service prepared outcomes =>
    rw [next] at h
    split at h
    · next hs =>
      cases h
      exact .inr (.inr ⟨service, prepared, outcomes, rfl, hnot hs.1, hnot hs.1, hs.2, rfl⟩)
    · exact nomatch h

theorem validated_step : Preserves (Fires (next env composeProject projectName))
    (Validated env composeProject) := by
  intro s e t h hs
  rcases next_cases h with ⟨_, _, _, rfl, _, hthrown, _⟩ | ⟨_, _, rfl, hs', _, _, _⟩ |
    ⟨_, _, _, rfl, hs', _, _, _⟩
  · exact fun ht => hs (hthrown ht)
  · exact fun _ => hs hs'
  · exact fun _ => hs hs'

/-- A step keeps to the clone exactly if it creates and builds there. -/
theorem contained_step {s t : State} {e : Event}
    (h : Fires (next env composeProject projectName) s e t) (hs : Validated env composeProject s) :
    Contained composeProject.projectPath t.world ↔
      Contained composeProject.projectPath s.world ∧ StaysInside env composeProject s e := by
  have himage : s.thrown = false → ∀ service ∈ composeProject.services,
      ∀ value ∈ service.imageValues, Interpolates env value := fun hthrown service hservice value hv =>
    hs hthrown service hservice value (mem_validatedValues.mpr (.inl hv))
  rcases next_cases h with ⟨service, envFileRef, pending, rfl, hpending, _, hworld⟩ |
    ⟨service, outcomes, rfl, hthrown, _, hservice, hworld⟩ |
    ⟨service, prepared, outcomes, rfl, hthrown, _, hservice, hworld⟩
  · obtain ⟨l, hl, hinside⟩ : ∃ l, Extends s.world l ((checkEnvFileReference
        composeProject.projectPath env.envVars service envFileRef).run s.world).2 ∧ _ :=
      check_contained service envFileRef
    rw [hworld, hl.contained, hinside, StaysInside, hpending]
    refine and_congr_right fun _ => ⟨fun h reference hreference => ?_, fun h => ?_⟩
    · cases hreference
      exact h
    · exact h (service, envFileRef) rfl
  · rw [hworld, (prepare_contained projectName (himage hthrown service hservice) false).2]
    exact and_congr_right fun _ => imp_iff_right rfl
  · rw [hworld, (deploy_contained projectName (himage hthrown service hservice) prepared).2]
    rfl

/-- A run keeps to the clone exactly if each of its steps creates and builds there. -/
theorem contained_iff {es : List Event} {s : State}
    (h : Run (Fires (next env composeProject projectName)) (init env composeProject host) es s) :
    Contained composeProject.projectPath s.world ↔
      Run (Guarded (Fires (next env composeProject projectName)) (StaysInside env composeProject))
        (init env composeProject host) es s := by
  have hinit : Contained composeProject.projectPath (init env composeProject host).world := by
    rw [init]
    split
    · exact fun _ ha => nomatch ha
    · exact fun _ ha => nomatch ha
  rw [h.iff_guarded Fires.det init_validated
    validated_step fun _ _ _ hstep hs => contained_step hstep hs]
  exact and_iff_right hinit

/-- The checks, one after another, are `checkEnvFileReferences`. -/
theorem run_checks {s : State} (hthrown : s.thrown = false) {errors : List EnvFileReferenceError}
    {w : World} (h : (checkReferences composeProject.projectPath env.envVars s.pending).run s.world =
      (.ok errors, w)) :
    Run (Fires (next env composeProject projectName)) s (List.replicate s.pending.length .check)
      { s with world := w, pending := [], errors := s.errors ++ errors } := by
  obtain ⟨world, pending, errors', thrown⟩ := s
  induction pending generalizing world errors' errors with
  | nil =>
    cases h
    rw [List.append_nil]
    exact .nil
  | cons reference pending ih =>
    obtain ⟨service, envFileRef⟩ := reference
    simp only at hthrown h
    rw [checkReferences, Prog.run_bind] at h
    cases hcheck : (checkEnvFileReference composeProject.projectPath env.envVars service
      envFileRef).run world with
    | mk r world' =>
      rw [hcheck] at h
      cases r with
      | error e => exact nomatch h
      | ok first =>
        rw [Prog.onValue_ok, Prog.run_bind] at h
        cases hrest : (checkReferences composeProject.projectPath env.envVars pending).run world' with
        | mk r world'' =>
          rw [hrest] at h
          cases r with
          | error e => exact nomatch h
          | ok rest =>
            cases h
            refine .cons (t := ⟨world', pending, errors' ++ first, thrown⟩) ?_ ?_
            · rw [Fires, next]
              simp only [hthrown, Bool.false_eq_true, if_false, hcheck]
            · rw [← List.append_assoc]
              exact ih world' (errors' ++ first) hthrown hrest

/-- An `env_file` path without a step up is not created outside. -/
theorem createsInside_of_no_parent {envFileRef : ComposeEnvFile}
    (hroot : host.node projectPath = some .directory) (hup : ".." ∉ segments envFileRef.path) :
    CreatesInside env projectPath host envFileRef := by
  intro hmissing _
  have hprefix : projectPath <+: join projectPath envFileRef.path := prefix_join hup
  have hdir : projectPath <+: (join projectPath envFileRef.path).dropLast := by
    obtain ⟨rest, hrest⟩ := hprefix
    cases rest using List.reverseRecOn with
    | nil =>
      rw [List.append_nil] at hrest
      rw [← hrest, Host.existsSync, hroot] at hmissing
      exact nomatch hmissing
    | append_singleton rest name =>
      rw [← hrest, ← List.append_assoc, List.dropLast_concat]
      exact List.prefix_append _ _
  split
  · next templatePath htemplate =>
    refine ⟨.inl ?_, fun _ => .inl hdir⟩
    obtain ⟨name, -, rfl⟩ := List.mem_map.mp (List.mem_of_find?_eq_some htemplate)
    exact hdir.trans (List.prefix_append _ _)
  · exact fun _ => .inl hdir

/-- A context without a step up is not outside. -/
theorem buildsInside_of_no_parent
    (hup : ∀ context dockerfile, service.build = some (.path context) ∨
      service.build = some (.spec context dockerfile) → ".." ∉ segments context) :
    BuildsInside projectPath host service := by
  intro context hcontext
  rw [resolveBuildContext] at hcontext
  split at hcontext
  · exact nomatch hcontext
  · next path hbuild =>
    cases hcontext
    exact .inl (prefix_join (hup path none (.inl hbuild)))
  · next path dockerfile hbuild =>
    cases hcontext
    exact .inl (prefix_join (hup path dockerfile (.inr hbuild)))

/-- A service with a build context and an `env_file`. -/
def webProject (context envFilePath : String) : ComposeProject where
  services := [{
    name := "web"
    build := some (.path context)
    envFile := some [⟨envFilePath, true⟩] }]
  projectPath := ["srv", "clone"]

def providedVars : Environment where
  envVars := [("PORT", "80")]

/-- The clone is empty. -/
def emptyHost : Host where
  node location := if location = ["srv", "clone"] then some .directory else none

/-- The `env_file` is created in the clone, and the image built from a directory in it. -/
theorem contained_inside :
    ∃ s, Run (Fires (next providedVars (webProject "app" "config/.env") "shop"))
        (init providedVars (webProject "app" "config/.env") emptyHost)
        [.check, .prepare (webProject "app" "config/.env").services[0] fun _ => none] s ∧
      Contained ["srv", "clone"] s.world := by
  have hrun : Run (Fires (next providedVars (webProject "app" "config/.env") "shop"))
      (init providedVars (webProject "app" "config/.env") emptyHost)
      [.check, .prepare (webProject "app" "config/.env").services[0] fun _ => none] _ := .of_exec rfl
  refine ⟨_, hrun, (contained_iff hrun).mpr (.cons ⟨rfl, ?_⟩ (.cons ⟨rfl, ?_⟩ .nil))⟩
  · intro reference hreference
    cases hreference
    exact fun _ _ _ => .inl (by decide)
  · intro context hcontext
    cases hcontext
    exact .inl (by decide)

/-- A missing `env_file` next to the clone is created from the variables. -/
theorem not_contained :
    ¬∀ (env : Environment) (composeProject : ComposeProject) (projectName : String) (host : Host)
      (es : List Event) (s : State),
      Run (Fires (next env composeProject projectName)) (init env composeProject host) es s →
        Contained composeProject.projectPath s.world := by
  intro h
  have hrun : Run (Fires (next providedVars (webProject "app" "../web.env") "shop"))
      (init providedVars (webProject "app" "../web.env") emptyHost) [.check] _ := .of_exec rfl
  have hnot : ¬["srv", "clone"] <+: ["srv", "web.env"] := by decide
  rcases h _ _ _ _ _ _ hrun (.create ["srv", "web.env"]) (.tail _ (.head _)) with hin | hin
  · exact hnot hin
  · exact hnot hin

end OpenLander.Compose.Containment
