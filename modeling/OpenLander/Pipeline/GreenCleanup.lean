import Mathlib.Data.List.Nodup

/-! # The cleanup of stale green containers

Before a blue-green promotion, `cleanupStaleGreenContainers` (`src/pipeline/deploy-core.ts`) stops
and removes the containers that carry the green labels of the project, or a name with its green
prefix. Container names are built from project names, which are free text over the same letters. -/

namespace OpenLander.Pipeline.GreenCleanup

def startsWith (s start : String) : Bool := start.toList.isPrefixOf s.toList

/-- `/^[a-z0-9][a-z0-9-]*$/`, which `validateProjectName` tests. -/
def PROJECT_NAME_REGEX (name : String) : Bool :=
  let alphanumeric (c : Char) := ('a' ≤ c && c ≤ 'z') || ('0' ≤ c && c ≤ '9')
  match name.toList with
  | [] => false
  | c :: cs => alphanumeric c && cs.all fun c => alphanumeric c || c == '-'

structure Project where
  id : String
  name : String
  valid : PROJECT_NAME_REGEX name
  deriving DecidableEq

def CONTAINER_PREFIX : String := "ol-"

def containerName (projectName : String) : String := CONTAINER_PREFIX ++ projectName

def composeContainerName (parentName serviceName : String) : String :=
  CONTAINER_PREFIX ++ parentName ++ "-" ++ serviceName

/-- The suffix is `Date.now().toString(36)`. -/
def makeGreenContainerName (projectName suffix : String) : String :=
  containerName (projectName ++ "-green-" ++ suffix)

/-- The blue-green labels. -/
structure Labels where
  role : Option String := none
  projectId : Option String := none
  deriving DecidableEq

def makeGreenContainerLabels (projectId : String) : Labels := ⟨some "green", some projectId⟩

/-- What the program creates containers for. -/
inductive Kind
  | project
  /-- A base 36 numeral has no hyphen. -/
  | green (suffix : String) (base36 : '-' ∉ suffix.toList)
  | composeChild (serviceName : String)
  deriving DecidableEq

/-- A managed container, with the project for which it was created. For a Compose child that is the
parent, from whose name its name is built. -/
structure Container where
  id : String
  owner : Project
  kind : Kind
  deriving DecidableEq

def Container.name (c : Container) : String :=
  match c.kind with
  | .project => containerName c.owner.name
  | .green suffix _ => makeGreenContainerName c.owner.name suffix
  | .composeChild serviceName => composeContainerName c.owner.name serviceName

def Container.labels (c : Container) : Labels :=
  match c.kind with
  | .green .. => makeGreenContainerLabels c.owner.id
  | _ => {}

/-- What `listManagedContainers` lists. -/
structure Docker where
  containers : List Container
  nodup : (containers.map (·.id)).Nodup

/-- The arguments of the cleanup. -/
structure Params where
  project : Project
  activeContainerId : String

def Params.greenNamePrefix (params : Params) : String :=
  containerName (params.project.name ++ "-green-")

def Params.labelMatch (params : Params) (c : Container) : Bool :=
  c.labels.role == some "green" && c.labels.projectId == some params.project.id

def Params.legacyNameMatch (params : Params) (c : Container) : Bool :=
  startsWith c.name params.greenNamePrefix

def staleGreens (params : Params) (docker : Docker) : List Container :=
  docker.containers.filter fun c =>
    if c.id = params.activeContainerId then false
    else params.labelMatch c || params.legacyNameMatch c

/-- A call to Docker. -/
inductive Op
  | stop (containerId : String)
  | remove (containerId : String)
  deriving DecidableEq

def Op.containerId : Op → String
  | .stop containerId | .remove containerId => containerId

/-- A failure of either call is logged. -/
def cleanupGreenContainer (containerId : String) : List Op :=
  [.stop containerId, .remove containerId]

/-- The containers are not listed if Docker fails. -/
def cleanupStaleGreenContainers (params : Params) (docker : Option Docker) : List Op :=
  match docker with
  | none => []
  | some docker => (staleGreens params docker).flatMap fun c => cleanupGreenContainer c.id

/-- The calls only concern containers of the project, and not the active one. -/
def TouchesOnlyOwn (params : Params) (docker : Docker) : Prop :=
  ∀ op ∈ cleanupStaleGreenContainers params (some docker),
    op.containerId ≠ params.activeContainerId ∧
      ∀ c ∈ docker.containers, c.id = op.containerId → c.owner.id = params.project.id

/-! ## Names -/

variable {p q s : List Char}

theorem startsWith_iff {s t : String} : startsWith s t = true ↔ t.toList <+: s.toList := by
  rw [startsWith, List.isPrefixOf_iff_prefix]

/-- The green infix. -/
def green : List Char := "-green-".toList

theorem green_eq : green = ['-', 'g', 'r', 'e', 'e', 'n', '-'] := rfl

/-- Two occurrences of the infix overlap at most in a hyphen. -/
theorem green_append_eq {a t : List Char} (h : green ++ t = a ++ (green ++ s)) :
    a = [] ∨ a = "-green".toList ∨ green <+: a := by
  simp only [green_eq] at h ⊢
  match a with
  | [] => exact .inl rfl
  | [_] | [_, _] | [_, _, _] | [_, _, _, _] | [_, _, _, _, _] => simp at h
  | [_, _, _, _, _, _] =>
    simp only [List.cons_append, List.nil_append, List.cons.injEq] at h
    obtain ⟨rfl, rfl, rfl, rfl, rfl, rfl, -⟩ := h
    exact .inr (.inl rfl)
  | _ :: _ :: _ :: _ :: _ :: _ :: _ :: a =>
    simp only [List.cons_append, List.nil_append, List.cons.injEq] at h
    obtain ⟨rfl, rfl, rfl, rfl, rfl, rfl, rfl, -⟩ := h
    exact .inr (.inr ⟨a, rfl⟩)

/-- A green name has the green prefix of another project only if the name of its own project is that
of the other one, or goes on with `-green` or with the green infix. -/
theorem prefix_green_iff (hs : '-' ∉ s) :
    p ++ green <+: q ++ green ++ s ↔
      q = p ∨ q = p ++ "-green".toList ∨ p ++ green <+: q := by
  constructor
  · rintro ⟨t, h⟩
    simp only [List.append_assoc] at h
    rcases List.append_eq_append_iff.mp h with ⟨a, rfl, ha⟩ | ⟨c, rfl, hc⟩
    · rcases green_append_eq ha with rfl | rfl | ⟨a', rfl⟩
      · exact .inl (List.append_nil p)
      · exact .inr (.inl rfl)
      · exact .inr (.inr ⟨a', by simp⟩)
    · have hmem : '-' ∈ green := .head _
      rcases green_append_eq hc with rfl | rfl | ⟨c', rfl⟩
      · exact .inl (List.append_nil q).symm
      · refine absurd ?_ hs
        have hs' : s = "green-".toList ++ t := by simpa [green_eq] using hc
        rw [hs']
        exact List.mem_append_left _ (by decide)
      · refine absurd ?_ hs
        have hs' : s = c' ++ (green ++ t) := by simpa using hc
        rw [hs']
        exact List.mem_append_right _ (List.mem_append_left _ hmem)
  · rintro (rfl | rfl | h)
    · exact List.prefix_append _ _
    · exact ⟨"green-".toList ++ s, by simp [green_eq]⟩
    · exact (List.append_assoc q green s) ▸ h.trans (List.prefix_append q _)

/-! ## The containers that are taken -/

/-- The name of a container of another project does not begin with the green prefix. -/
def Clear (params : Params) (c : Container) : Prop :=
  let name := params.project.name
  match c.kind with
  | .project => ¬startsWith c.owner.name (name ++ "-green-")
  | .green .. => c.owner.name ≠ name ∧ c.owner.name ≠ name ++ "-green" ∧
      ¬startsWith c.owner.name (name ++ "-green-")
  | .composeChild serviceName =>
    ¬startsWith (c.owner.name ++ "-" ++ serviceName) (name ++ "-green-")

theorem legacyNameMatch_iff {params : Params} {c : Container} :
    params.legacyNameMatch c = true ↔ ¬Clear params c := by
  rw [Params.legacyNameMatch, startsWith_iff, Clear]
  have hcontainer : ∀ a b : String, (containerName a).toList <+: (containerName b).toList ↔
      a.toList <+: b.toList := by
    intro a b
    simp only [containerName, String.toList_append, List.prefix_append_right_inj]
  cases hkind : c.kind with
  | project =>
    simp only [Container.name, hkind, Params.greenNamePrefix, hcontainer, startsWith_iff, not_not]
  | green suffix base36 =>
    simp only [Container.name, hkind, Params.greenNamePrefix, makeGreenContainerName, hcontainer,
      startsWith_iff, String.toList_append]
    rw [show "-green-".toList = green from rfl, prefix_green_iff base36]
    simp only [ne_eq, ← String.toList_inj, String.toList_append]
    tauto
  | composeChild serviceName =>
    have hname : composeContainerName c.owner.name serviceName =
        containerName (c.owner.name ++ "-" ++ serviceName) := by
      simp [composeContainerName, containerName, String.append_assoc]
    simp only [Container.name, hkind, Params.greenNamePrefix, hname, hcontainer, startsWith_iff,
      not_not]

/-- The labels say whose a container is. -/
theorem owner_of_labelMatch {params : Params} {c : Container} (h : params.labelMatch c = true) :
    c.owner.id = params.project.id := by
  simp only [Params.labelMatch, Bool.and_eq_true, beq_iff_eq, Container.labels] at h
  split at h
  · exact Option.some.inj h.2
  · exact nomatch h.1

theorem mem_staleGreens {params : Params} {docker : Docker} {c : Container} :
    c ∈ staleGreens params docker ↔ c ∈ docker.containers ∧ c.id ≠ params.activeContainerId ∧
      (params.labelMatch c = true ∨ ¬Clear params c) := by
  rw [staleGreens, List.mem_filter, ← legacyNameMatch_iff]
  refine and_congr_right fun _ => ?_
  split <;> simp_all

theorem mem_cleanupStaleGreenContainers {params : Params} {docker : Docker} {op : Op} :
    op ∈ cleanupStaleGreenContainers params (some docker) →
      ∃ c ∈ staleGreens params docker, c.id = op.containerId := by
  simp only [cleanupStaleGreenContainers, List.mem_flatMap, cleanupGreenContainer, List.mem_cons,
    List.not_mem_nil, or_false]
  rintro ⟨c, hc, rfl | rfl⟩
  · exact ⟨c, hc, rfl⟩
  · exact ⟨c, hc, rfl⟩

/-- The cleanup touches only containers of its project exactly when no other project has a container
whose name begins with the green prefix. -/
theorem touchesOnlyOwn_iff (params : Params) (docker : Docker) :
    TouchesOnlyOwn params docker ↔
      ∀ c ∈ docker.containers, c.owner.id ≠ params.project.id →
        c.id ≠ params.activeContainerId → Clear params c := by
  constructor
  · intro H c hc howner hactive
    by_contra hclear
    have hstale := mem_staleGreens.mpr ⟨hc, hactive, .inr hclear⟩
    have hop : Op.stop c.id ∈ cleanupStaleGreenContainers params (some docker) :=
      List.mem_flatMap.mpr ⟨c, hstale, .head _⟩
    exact howner ((H _ hop).2 c hc rfl)
  · intro H op hop
    obtain ⟨c, hstale, hid⟩ := mem_cleanupStaleGreenContainers hop
    obtain ⟨hc, hactive, hmatch⟩ := mem_staleGreens.mp hstale
    refine ⟨hid ▸ hactive, fun c' hc' hid' => ?_⟩
    have heq : c' = c := List.inj_on_of_nodup_map docker.nodup hc' hc (hid'.trans hid.symm)
    subst heq
    rcases hmatch with hlabel | hclear
    · exact owner_of_labelMatch hlabel
    · by_contra howner
      exact hclear (H c' hc howner hactive)

/-- The active container of the project `app-green-x` is taken for a stale one of `app`. -/
theorem not_touchesOnlyOwn :
    ¬∀ (params : Params) (docker : Docker), TouchesOnlyOwn params docker := by
  intro h
  let app : Project := ⟨"1", "app", by decide⟩
  let other : Project := ⟨"2", "app-green-x", by decide⟩
  have hop : .stop "c" ∈ cleanupStaleGreenContainers ⟨app, "blue"⟩
      (some ⟨[⟨"c", other, .project⟩], by decide⟩) := by decide
  exact absurd ((h _ _ _ hop).2 _ (.head _) rfl) (by decide)

end OpenLander.Pipeline.GreenCleanup
