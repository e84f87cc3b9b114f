import Mathlib.Data.List.DropRight
import OpenLander.Compose.EnvironmentForms
import OpenLander.Compose.Rejection
import OpenLander.Theory.Lines

/-! # What a generated environment file delivers

`checkEnvFileReferences` (`src/pipeline/compose.ts`) writes the variables that the deploy provides
into a missing `env_file`, and `resolveComposeServiceRuntimeEnv` reads the file for the container. On
the way a value is escaped, read back with its backslashes, and interpolated. -/

namespace OpenLander.Compose.EnvFileDelivery
open Theory
open Pipeline (isWhitespace)
open Pipeline.EnvFile

/-! ## Values -/

/-- The value has no character that is escaped, and does not contain the stand-in for `$$`. -/
def Plain (s : List Char) : Prop := (∀ c ∈ s, isEscaped c = false) ∧ ¬escapedDollar <:+: s

def escaped (s : List Char) : List Char := s.flatMap escapeEnvChar

section
variable {env : Environment} {s t : List Char}

/-- The escaped text with its references resolved. -/
def resolved (env : Environment) (s : List Char) : Except ServiceConfigError (List Char) :=
  resolvePieces env (scan 0 (escaped s))

/-- The stand-ins for `$$` are dollar signs again. -/
def restore (t : List Char) : List Char := replaceAll escapedDollar ['$'] 0 t

end

/-! ## The keys of a template -/

/-- The variables of the template next to the file. -/
def templateVars (host : Host) (location : Location) : List (String × String) :=
  match templateIn host location.dropLast with
  | some templatePath =>
    match host.readFileSync templatePath with
    | .ok content => parseEnvContent content
    | .error _ => []
  | none => []

def generatedFile (providedVars templateVars : List (String × String)) : String :=
  "\n".intercalate (envLines providedVars templateVars) ++ "\n"

section
variable {providedVars vars : List (String × String)}

/-- Each line of a written file is parsed, and so is the empty text behind the last one. -/
theorem parse_lines {lines : List String} (h : ∀ line ∈ lines, '\n' ∉ line.toList) :
    parseEnvContent ("\n".intercalate lines ++ "\n") =
      recordEntries (lines.filterMap (parseEnvLine ·.toList)) := by
  have hjoined : ∀ {line : String} {lines : List String},
      ("\n".intercalate (line :: lines) ++ "\n").toList =
        joined ((line :: lines).map String.toList) [] := by
    intro line lines
    rw [String.toList_append, String.toList_intercalate]
    induction lines generalizing line with
    | nil => simp [joined, unlines]
    | cons next lines ih =>
      rw [List.map_cons, List.map_cons, joined_cons, ← List.map_cons, ← ih]
      simp [List.intercalate_cons_cons]
  have hplain : Theory.Plain (lines.map String.toList) := by
    intro p hp
    obtain ⟨line, hline, rfl⟩ := List.mem_map.mp hp
    exact h line hline
  rw [parseEnvContent]
  cases lines with
  | nil => rfl
  | cons line lines =>
    rw [hjoined, splitOn_joined hplain List.not_mem_nil, List.filterMap_append, List.filterMap_map]
    exact congrArg recordEntries (List.append_nil _)

end

/-! ## The creation of a file -/

section
variable {projectPath location : Location} {providedVars : List (String × String)}
  {service : String} {envFileRef : ComposeEnvFile} {w w' : World}

/-- A round of the loop writes the file that is missing. Nothing that is there changes, and what is new
besides the file is directories. -/
structure Writes (projectPath : Location) (providedVars : List (String × String))
    (envFileRef : ComposeEnvFile) (w w' : World) : Prop where
  missing : w.host.node (join projectPath envFileRef.path) = none
  written : w'.host.node (join projectPath envFileRef.path) = some (.file (.ok
    (generatedFile providedVars (templateVars w.host (join projectPath envFileRef.path)))))
  kept : ∀ l node, w.host.node l = some node → w'.host.node l = some node
  fresh : ∀ l, w.host.node l = none → l ≠ join projectPath envFileRef.path →
    w'.host.node l = none ∨ w'.host.node l = some .directory

/-- `mkdirSync` makes directories where nothing is. -/
theorem run_mkdirSync (h : (mkdirSync directory).run w = (.ok ⟨⟩, w')) (l : Location) :
    w'.host.node l = w.host.node l ∨ w.host.node l = none ∧ w'.host.node l = some .directory := by
  have hfold : ∀ (directories : List Location) (host : Host),
      let host' := directories.foldl (fun host directory =>
        if (host.node directory).isNone then host.write directory .directory else host) host
      host'.node l = host.node l ∨ host.node l = none ∧ host'.node l = some .directory := by
    intro directories
    induction directories with
    | nil => exact fun host => .inl rfl
    | cons d directories ih =>
      intro host
      rw [List.foldl_cons]
      split
      next hnone =>
        by_cases hl : l = d
        · subst hl
          have hwritten : (host.write l .directory).node l = some .directory := Function.update_self ..
          refine .inr ⟨Option.isNone_iff_eq_none.mp hnone, ?_⟩
          rcases ih (host.write l .directory) with h | ⟨h, -⟩
          · exact h.trans hwritten
          · exact nomatch hwritten.symm.trans h
        · have hsame : (host.write d .directory).node l = host.node l := Function.update_of_ne hl ..
          rw [← hsame]
          exact ih _
      next => exact ih host
  rw [mkdirSync, access, Prog.run_modify_bind, Prog.run_read_bind] at h
  split at h
  · exact nomatch (Prod.mk.inj h).1
  · obtain rfl := (Prod.mk.inj h).2
    exact hfold directory.inits w.host

theorem run_writeFileSync (h : (writeFileSync location slash content).run w = (.ok ⟨⟩, w')) :
    slash = false ∧ w'.host.node = Function.update w.host.node location (some (.file (.ok content))) := by
  rw [writeFileSync, access, Prog.run_modify_bind, Prog.run_read_bind] at h
  split at h
  · exact nomatch (Prod.mk.inj h).1
  · split at h
    · exact nomatch (Prod.mk.inj h).1
    next hslash =>
      obtain rfl := (Prod.mk.inj h).2
      exact ⟨Bool.eq_false_iff.mpr hslash, rfl⟩

/-- The end of a round that writes. -/
theorem writes_of_run {vars : List (String × String)} {host : Host} (hhost : w.host = host)
    (hslash : host.existsSync (join projectPath envFileRef.path)
      (envFileRef.path.toList.getLast? == some '/') = false)
    (hvars : vars = templateVars host (join projectPath envFileRef.path))
    (h : (do
      mkdirSync (join projectPath envFileRef.path).dropLast
      writeFileSync (join projectPath envFileRef.path) (envFileRef.path.toList.getLast? == some '/')
        ("\n".intercalate (envLines providedVars vars) ++ "\n")
      return [] : Prog World DeployError (List EnvFileReferenceError)).run w = (.ok errors, w')) :
    Writes projectPath providedVars envFileRef w w' := by
  subst hhost
  obtain ⟨⟨⟩, w₁, hmkdir, h⟩ := Prog.run_bind_eq_ok h
  obtain ⟨⟨⟩, w₂, hwrite, h⟩ := Prog.run_bind_eq_ok h
  obtain rfl := (Prod.mk.inj h).2
  obtain ⟨hfile, hnode⟩ := run_writeFileSync hwrite
  have hmissing : w.host.node (join projectPath envFileRef.path) = none := by
    rw [Host.existsSync, hfile] at hslash
    split at hslash
    · assumption
    · cases hslash
    · cases hslash
  refine ⟨hmissing, ?_, fun l node hl => ?_, fun l hl hne => ?_⟩
  · rw [hnode, Function.update_self, hvars]
    rfl
  · have hne : l ≠ join projectPath envFileRef.path := by
      rintro rfl
      cases hl.symm.trans hmissing
    rw [hnode, Function.update_of_ne hne]
    rcases run_mkdirSync hmkdir l with hsame | ⟨hnone, -⟩
    · exact hsame.trans hl
    · cases hl.symm.trans hnone
  · rw [hnode, Function.update_of_ne hne]
    rcases run_mkdirSync hmkdir l with hsame | ⟨-, hdirectory⟩
    · exact .inl (hsame.trans hl)
    · exact .inr hdirectory

/-- A round of the loop that ends well leaves the host alone or writes the file. -/
theorem checkEnvFileReference_cases
    (h : (checkEnvFileReference projectPath providedVars service envFileRef).run w = (.ok errors, w')) :
    w'.host = w.host ∨ Writes projectPath providedVars envFileRef w w' := by
  rw [checkEnvFileReference] at h
  simp only [Prog.run_read_bind] at h
  split at h
  · exact .inl (congrArg World.host (Prod.mk.inj h).2.symm)
  next hexists =>
    rw [Bool.not_eq_true] at hexists
    rcases Bool.eq_false_or_eq_true envFileRef.required with hrequired | hrequired
    · rw [hrequired, if_neg (by decide), Prog.run_read_bind] at h
      split at h
      next templatePath htemplate =>
        right
        obtain ⟨vars, w₁, hparse, h⟩ := Prog.run_bind_eq_ok h
        rw [parseEnvFile, access, Prog.run_modify_bind, Prog.run_read_bind] at hparse
        split at hparse
        next content hcontent =>
          obtain ⟨hvars, rfl⟩ := Prod.mk.inj hparse
          have hsame : vars = templateVars w.host (join projectPath envFileRef.path) := by
            rw [templateVars, htemplate]
            simp only [hcontent]
            exact (Except.ok.inj hvars).symm
          obtain ⟨hmissing, hwritten, hkept, hfresh⟩ : Writes projectPath providedVars envFileRef
            { w with accesses := w.accesses ++ [.read templatePath] } w' :=
            writes_of_run rfl hexists hsame h
          exact ⟨hmissing, hwritten, hkept, hfresh⟩
        next => cases (Prod.mk.inj hparse).1
      next htemplate =>
        split at h
        · exact .inr (writes_of_run rfl hexists (by rw [templateVars, htemplate]) h)
        · exact .inl (congrArg World.host (Prod.mk.inj h).2.symm)
    · rw [hrequired] at h
      exact .inl (congrArg World.host (Prod.mk.inj h).2.symm)

/-- What is there stays. -/
theorem checkReferences_kept {references : List (String × ComposeEnvFile)}
    (h : (checkReferences projectPath providedVars references).run w = (.ok errors, w'))
    (hl : w.host.node location = some node) : w'.host.node location = some node := by
  induction references generalizing w errors with
  | nil => rwa [← (Prod.mk.inj h).2]
  | cons reference references ih =>
    obtain ⟨error, w₁, hround, h⟩ := Prog.run_bind_eq_ok h
    obtain ⟨errors', w₂, hrest, h⟩ := Prog.run_bind_eq_ok h
    obtain rfl := (Prod.mk.inj h).2
    refine ih hrest ?_
    rcases checkEnvFileReference_cases hround with hsame | hwrites
    · rw [hsame, hl]
    · exact hwrites.kept location node hl

/-- One more round at the end of the loop. -/
theorem run_checkReferences_concat {references : List (String × ComposeEnvFile)}
    {reference : String × ComposeEnvFile}
    (h : (checkReferences projectPath providedVars references).run w = (.ok errors, w'))
    (hround : (checkEnvFileReference projectPath providedVars reference.1 reference.2).run w' =
      (.ok error, w'')) :
    ∃ errors', (checkReferences projectPath providedVars (references ++ [reference])).run w =
      (.ok errors', w'') := by
  induction references generalizing w errors with
  | nil =>
    obtain rfl := (Prod.mk.inj h).2
    exact ⟨error ++ [], by rw [List.nil_append, checkReferences, Prog.run_bind_ok hround]; rfl⟩
  | cons first references ih =>
    obtain ⟨error', w₁, hfirst, hloop⟩ := Prog.run_bind_eq_ok h
    obtain ⟨errors', w₂, hrest, hend⟩ := Prog.run_bind_eq_ok hloop
    obtain rfl := (Prod.mk.inj hend).2
    obtain ⟨errors'', hconcat⟩ := ih hrest
    refine ⟨error' ++ errors'', ?_⟩
    rw [List.cons_append, checkReferences, Prog.run_bind_ok hfirst, Prog.run_bind_ok hconcat]
    rfl

/-- `checkEnvFileReferences` comes to a missing file in the world `w`, creates it, and ends in `w'`. -/
inductive Creates (composeProject : ComposeProject) (providedVars : List (String × String))
    (location : Location) (w₀ w w' : World) : Prop
  | intro (references : envFileReferences composeProject.services = before ++ reference :: after)
    (comes : (checkReferences composeProject.projectPath providedVars before).run w₀ = (.ok errors, w))
    (missing : w.host.node location = none)
    (creates : (checkEnvFileReference composeProject.projectPath providedVars reference.1 reference.2).run
      w = (.ok error, w₁))
    (created : w₁.host.node location = some (.file content))
    (ends : (checkReferences composeProject.projectPath providedVars after).run w₁ = (.ok errors', w'))

/-- A file that is only there after the loop is created in a round of it. -/
theorem exists_creates {composeProject : ComposeProject} {w₀ : World}
    (hrun : (checkEnvFileReferences composeProject providedVars).run w₀ = (.ok errors, w'))
    (hmissing : w₀.host.node location = none)
    (hcreated : w'.host.node location = some (.file content)) :
    ∃ w, Creates composeProject providedVars location w₀ w w' := by
  have hloop {references : List (String × ComposeEnvFile)} : ∀ {before : List (String × ComposeEnvFile)}
      {errors errors' : List EnvFileReferenceError} {w : World},
      envFileReferences composeProject.services = before ++ references →
      (checkReferences composeProject.projectPath providedVars before).run w₀ = (.ok errors, w) →
      w.host.node location = none →
      (checkReferences composeProject.projectPath providedVars references).run w = (.ok errors', w') →
      ∃ w, Creates composeProject providedVars location w₀ w w' := by
    induction references with
    | nil =>
      intro _ _ _ w _ _ hnone hrest
      rw [← (Prod.mk.inj hrest).2] at hcreated
      exact nomatch hcreated.symm.trans hnone
    | cons reference references ih =>
      intro before errors errors' w hreferences hbefore hnone hrest
      obtain ⟨error, w₁, hround, hloop⟩ := Prog.run_bind_eq_ok hrest
      obtain ⟨errors'', w₂, hafter, hend⟩ := Prog.run_bind_eq_ok hloop
      obtain rfl := (Prod.mk.inj hend).2
      cases hnode : w₁.host.node location with
      | none =>
        obtain ⟨_, hbefore⟩ := run_checkReferences_concat hbefore hround
        exact ih (by rw [hreferences, List.append_cons]) hbefore hnode hafter
      | some node =>
        cases node with
        | file content => exact ⟨w, .intro hreferences hbefore hnone hround hnode hafter⟩
        | directory => exact nomatch hcreated.symm.trans (checkReferences_kept hafter hnode)
        | other => exact nomatch hcreated.symm.trans (checkReferences_kept hafter hnode)
  exact @hloop _ [] [] errors w₀ rfl rfl hmissing hrun

/-- The file has the variables of the template of that moment, and those that are provided. -/
theorem Creates.node {composeProject : ComposeProject} {w₀ : World}
    (h : Creates composeProject providedVars location w₀ w w') :
    w'.host.node location =
      some (.file (.ok (generatedFile providedVars (templateVars w.host location)))) := by
  obtain @⟨_, reference, _, _, _, _, _, _, -, -, hmissing, hround, hcreated, hends⟩ := h
  refine checkReferences_kept hends ?_
  rcases checkEnvFileReference_cases hround with hsame | hwrites
  · rw [hsame, hmissing] at hcreated
    cases hcreated
  · by_cases heq : location = join composeProject.projectPath reference.2.path
    · rw [heq]
      exact hwrites.written
    · rcases hwrites.fresh location hmissing heq with hnone | hdirectory
      · exact nomatch hcreated.symm.trans hnone
      · exact nomatch hcreated.symm.trans hdirectory

end

/-! ## The environment of the container -/

/-- The name that an item of a list sets. -/
def itemKey (item : String) : Option String :=
  let line := trim item.toList
  if line.isEmpty then none
  else if '=' ∉ line then some (String.ofList line)
  else if (splitItem line).1.isEmpty then none
  else some (String.ofList (splitItem line).1)

/-- The names that the environment block of a service sets. -/
def blockKeys : Option ComposeEnvironment → List String
  | none => []
  | some (.list items) => items.filterMap itemKey
  | some (.map entries) => entries.map (·.1)

/-- A record takes no text under `__proto__`. -/
def returned (resolved : List (String × String)) (key : String) : Option String :=
  if key = "__proto__" then none else fromEntries resolved key

/-- What the file holds gives every such variable its value. -/
def Holds (env : Environment) (service : ComposeService) (vars : List (String × String)) : Prop :=
  ∀ key value, fromEntries env.envVars key = some value → key ∉ blockKeys service.environment →
    key ≠ "__proto__" ∧
      ∃ held, fromEntries vars key = some held ∧ interpolateComposeValue env held = .ok value

section
variable {env : Environment} {projectPath location : Location} {service : ComposeService}
  {envFileRef : ComposeEnvFile} {w w' : World}

end

/-! ## Examples -/

def web : ComposeService where
  name := "web"
  envFile := some [{ path := "web.env", required := true }]

def composeProject : ComposeProject where
  services := [web]
  projectPath := ["clone"]

end OpenLander.Compose.EnvFileDelivery
