import Mathlib.Data.List.TakeWhile
import Mathlib.Logic.Relation
import OpenLander.Pipeline.Archive

/-! # What an attempt to archive writes

An attempt makes its calls one after another, up to the first that rejects. `calls` lists them for a
project with its services, given the rows that the attempt finds, and `Progress` says that a run has
written the marker to the rows of those that come before the first failure, and to no others. -/

namespace OpenLander.Pipeline.Lifecycle
open Theory

/-! ## Trees -/

mutual

/-- The projects below that are reached by children with `keep`, and the project itself. -/
def ProjectTree.selected (keep : String → Bool) : ProjectTree κ → List String
  | .node projectId _ children => selectedAll keep children ++ [projectId]

def ProjectTree.selectedAll (keep : String → Bool) : List (ProjectTree κ) → List String
  | [] => []
  | child :: children =>
    (if keep child.projectId then child.selected keep else []) ++ selectedAll keep children

end

def ProjectTree.ids (tree : ProjectTree κ) : List String := tree.selected fun _ => true

mutual

/-- The children are those that the database has for their parents. -/
def ProjectTree.Lists (childOf : String → String → Prop) : ProjectTree κ → Prop
  | .node projectId _ children =>
    (∀ v, childOf projectId v ↔ v ∈ children.map (·.projectId)) ∧ ListsAll childOf children

def ProjectTree.ListsAll (childOf : String → String → Prop) : List (ProjectTree κ) → Prop
  | [] => True
  | child :: children => child.Lists childOf ∧ ListsAll childOf children

end

open ProjectTree (selectedAll ListsAll)

@[simp] theorem selected_node (keep : String → Bool) (c : κ) (children : List (ProjectTree κ)) :
    (ProjectTree.node p c children).selected keep = selectedAll keep children ++ [p] := by
  rw [ProjectTree.selected]

theorem mem_selectedAll {keep : String → Bool} {trees : List (ProjectTree κ)} :
    v ∈ selectedAll keep trees ↔ ∃ t ∈ trees, keep t.projectId ∧ v ∈ t.selected keep := by
  induction trees with
  | nil => simp [selectedAll]
  | cons t ts ih =>
    rw [selectedAll, List.mem_append, ih, List.exists_mem_cons_iff]
    cases keep t.projectId <;> simp

theorem listsAll_iff {childOf : String → String → Prop} {trees : List (ProjectTree κ)} :
    ListsAll childOf trees ↔ ∀ t ∈ trees, t.Lists childOf := by
  induction trees with
  | nil => simp [ListsAll]
  | cons t ts ih => rw [ListsAll, ih, List.forall_mem_cons]

/-- Along the children that the database has. -/
def Below (childOf : String → String → Prop) (keep : String → Bool) : String → String → Prop :=
  Relation.ReflTransGen fun p v => childOf p v ∧ keep v

mutual

theorem mem_selected {childOf : String → String → Prop} {keep : String → Bool} :
    (tree : ProjectTree κ) → tree.Lists childOf →
      (v ∈ tree.selected keep ↔ Below childOf keep tree.projectId v)
  | .node p c children, h => by
    have hchildren (t : ProjectTree κ) (ht : t ∈ children) :
        v ∈ t.selected keep ↔ Below childOf keep t.projectId v :=
      mem_selected_children children h.2 t ht
    rw [selected_node, List.mem_append, mem_selectedAll, List.mem_singleton, or_comm, Below,
      Relation.ReflTransGen.cases_head_iff]
    refine or_congr eq_comm ?_
    constructor
    · intro ⟨t, ht, hkeep, hv⟩
      exact ⟨t.projectId, ⟨(h.1 _).mpr (List.mem_map_of_mem ht), hkeep⟩, (hchildren t ht).mp hv⟩
    · intro ⟨u, ⟨hu, hkeep⟩, hbelow⟩
      obtain ⟨t, ht, rfl⟩ := List.mem_map.mp ((h.1 u).mp hu)
      exact ⟨t, ht, hkeep, (hchildren t ht).mpr hbelow⟩

theorem mem_selected_children {childOf : String → String → Prop} {keep : String → Bool} :
    (trees : List (ProjectTree κ)) → ListsAll childOf trees → ∀ t ∈ trees,
      (v ∈ t.selected keep ↔ Below childOf keep t.projectId v)
  | [], _, _, h => nomatch h
  | child :: children, h, t, ht => by
    cases ht with
    | head => exact mem_selected child h.1
    | tail _ ht => exact mem_selected_children children h.2 t ht

end

def ProjectTree.idsAll (trees : List (ProjectTree κ)) : List String :=
  selectedAll (fun _ => true) trees

@[simp] theorem ids_node (c : κ) (children : List (ProjectTree κ)) :
    (ProjectTree.node p c children).ids = ProjectTree.idsAll children ++ [p] := selected_node ..

@[simp] theorem idsAll_cons (t : ProjectTree κ) (ts : List (ProjectTree κ)) :
    ProjectTree.idsAll (t :: ts) = t.ids ++ ProjectTree.idsAll ts := by
  rw [ProjectTree.idsAll, selectedAll, if_pos rfl]
  rfl

mutual

theorem selected_subset {keep : String → Bool} :
    (tree : ProjectTree κ) → tree.selected keep ⊆ tree.ids
  | .node p c children => by
    rw [selected_node, ids_node]
    have hchildren : selectedAll keep children ⊆ ProjectTree.idsAll children ++ [p] :=
      List.subset_append_of_subset_left [p] (selectedAll_subset children)
    exact List.append_subset.mpr ⟨hchildren, List.subset_append_right ..⟩

theorem selectedAll_subset {keep : String → Bool} :
    (trees : List (ProjectTree κ)) → selectedAll keep trees ⊆ ProjectTree.idsAll trees
  | [] => by
    rw [selectedAll]
    exact List.nil_subset _
  | child :: children => by
    have hchild : (if keep child.projectId then child.selected keep else []) ⊆ child.ids := by
      split
      · exact selected_subset child
      · exact List.nil_subset _
    rw [selectedAll, idsAll_cons]
    exact List.append_subset.mpr ⟨List.subset_append_of_subset_left _ hchild,
      List.subset_append_of_subset_right _ (selectedAll_subset children)⟩

end

theorem projectId_mem_ids : (tree : ProjectTree κ) → tree.projectId ∈ tree.ids
  | .node p c children => by simp [ProjectTree.projectId]

mutual

theorem selected_congr {keep keep' : String → Bool} : (tree : ProjectTree κ) →
    (∀ v ∈ tree.ids, keep v = keep' v) → tree.selected keep = tree.selected keep'
  | .node p c children, h => by
    rw [selected_node, selected_node, selectedAll_congr children fun v hv => h v (by simp [hv])]

theorem selectedAll_congr {keep keep' : String → Bool} : (trees : List (ProjectTree κ)) →
    (∀ v ∈ ProjectTree.idsAll trees, keep v = keep' v) →
      selectedAll keep trees = selectedAll keep' trees
  | [], _ => by rw [selectedAll, selectedAll]
  | child :: children, h => by
    rw [selectedAll, selectedAll, h _ (by simp [projectId_mem_ids]),
      selected_congr child fun v hv => h v (by simp [hv]),
      selectedAll_congr children fun v hv => h v (by simp [hv])]

end

/-! ## Rows -/

/-- The service row of the project. -/
def World.service (w : World) (projectId : String) : Option ServiceRow :=
  w.services (projectIdToDeployableServiceId projectId)

def serviceIds (ids : List String) : List String := ids.map projectIdToDeployableServiceId

/-- The rows of the projects with these ids have got the marker. -/
structure Archives (m : String) (ids : List String) (w w' : World) : Prop where
  projects : ∀ p, w'.projects p =
    if p ∈ ids then (w.projects p).map ({ · with archivedAt := some m }) else w.projects p
  archivedAt : ∀ p ∈ ids, (World.service w' p).map (·.archivedAt) =
    (World.service w p).map fun _ => some m
  services : ∀ s ∉ serviceIds ids, w'.services s = w.services s

variable {m : String} {w w' w'' : World}

theorem Archives.of_rows (hp : w'.projects = w.projects) (hs : w'.services = w.services) :
    Archives m [] w w' where
  projects p := by rw [hp, if_neg (List.not_mem_nil)]
  archivedAt _ h := nomatch h
  services s _ := by rw [hs]

theorem Archives.refl : Archives m [] w w := .of_rows rfl rfl

theorem Archives.isSome_project (h : Archives m ids w w') (p : String) :
    (w'.projects p).isSome = (w.projects p).isSome := by
  rw [h.projects]
  split
  · exact Option.isSome_map
  · rfl

theorem Archives.map_service (h : Archives m ids w w') (p : String) (a : Option String) :
    ((World.service w' p).map fun _ => a) = (World.service w p).map fun _ => a := by
  by_cases hp : projectIdToDeployableServiceId p ∈ serviceIds ids
  · obtain ⟨q, hq, hqp⟩ := List.mem_map.mp hp
    have hmap := congrArg (Option.map fun _ => a) (h.archivedAt q hq)
    rw [Option.map_map, Option.map_map] at hmap
    rw [World.service, World.service, ← hqp]
    exact hmap
  · rw [World.service, h.services _ hp]
    rfl

theorem Archives.trans (h : Archives m ids w w') (h' : Archives m ids' w' w'') :
    Archives m (ids ++ ids') w w'' where
  projects p := by
    rw [h'.projects, h.projects]
    by_cases hp : p ∈ ids <;> by_cases hp' : p ∈ ids' <;> simp [hp, hp', Function.comp_def]
  archivedAt p hp := by
    by_cases hp' : projectIdToDeployableServiceId p ∈ serviceIds ids'
    · obtain ⟨q, hq, hqp⟩ := List.mem_map.mp hp'
      have hmap := h'.archivedAt q hq
      rw [World.service, World.service, hqp] at hmap
      exact hmap.trans (h.map_service p _)
    · have hids' : p ∉ ids' := fun hmem => hp' (List.mem_map_of_mem hmem)
      rw [World.service, h'.services _ hp']
      exact h.archivedAt p ((List.mem_append.mp hp).resolve_right hids')
  services s hs := by
    rw [serviceIds, List.map_append, List.mem_append, not_or] at hs
    rw [h'.services s hs.2, h.services s hs.1]

theorem archives_archiveProject (retainedRuntime : Option RetainedRuntime) :
    Archives m [p] w (World.archiveProject w p m retainedRuntime) where
  projects q := by
    by_cases hq : q = p
    · subst hq
      rw [if_pos (List.mem_singleton_self _)]
      exact Function.update_self ..
    · rw [if_neg (hq ∘ List.mem_singleton.mp)]
      exact Function.update_of_ne hq ..
  archivedAt q hq := by
    rw [List.mem_singleton] at hq
    subst hq
    have hrow : World.service (World.archiveProject w q m retainedRuntime) q =
        (World.service w q).map (archivedRow m retainedRuntime) := Function.update_self ..
    rw [hrow, Option.map_map]
    rfl
  services s hs := by
    have hne : s ≠ projectIdToDeployableServiceId p := fun h => hs (List.mem_singleton.mpr h)
    exact Function.update_of_ne hne ..

/-! ## Calls -/

/-- A call of an attempt, with the project to whose rows it writes the marker. -/
structure Call where
  resolves : Bool
  archives : Option String := none

/-- What all the calls would write. -/
def writes (l : List Call) : List String := l.filterMap (·.archives)

/-- What the calls before the first that rejects write. -/
def written (l : List Call) : List String := writes (l.takeWhile (·.resolves))

section
variable {l l' : List Call}

theorem written_append_of_all (h : l.all (·.resolves) = true) :
    written (l ++ l') = writes l ++ written l' := by
  rw [written, List.takeWhile_append_of_pos (List.all_eq_true.mp h), writes, List.filterMap_append]
  rfl

theorem written_of_all (h : l.all (·.resolves) = true) : written l = writes l := by
  rw [written, List.takeWhile_eq_self_iff.mpr (List.all_eq_true.mp h)]

theorem written_append_of_not_all (h : l.all (·.resolves) = false) :
    written (l ++ l') = written l := by
  induction l with
  | nil => exact nomatch h
  | cons call l ih =>
    obtain ⟨resolves, archives⟩ := call
    cases resolves with
    | false => rfl
    | true =>
      have hcons (l : List Call) : written (⟨true, archives⟩ :: l) = archives.toList ++ written l := by
        cases archives <;> rfl
      rw [List.cons_append, hcons, hcons, ih h]

theorem written_subset : written l ⊆ writes l :=
  (List.takeWhile_sublist _).filterMap _ |>.subset

/-- A run has written the marker to the rows that its calls come to. -/
structure Progress (m : String) (l : List Call) (w : World) (r : Except Failure α) (w' : World) :
    Prop where
  archives : Archives m (written l) w w'
  isOk : r.isOk = l.all (·.resolves)

theorem Progress.pure (a : α) : Progress m [] w (.ok a) w := ⟨.refl, rfl⟩

theorem Progress.append {r : Except Failure α} (h : Archives m (writes l) w w')
    (hall : l.all (·.resolves) = true) (h' : Progress m l' w' r w'') :
    Progress m (l ++ l') w r w'' where
  archives := by
    rw [written_append_of_all hall]
    exact h.trans h'.archives
  isOk := by
    rw [h'.isOk, List.all_append, hall, Bool.true_and]

theorem Progress.append_of_error {e : Failure} (h : Progress m l w (.error e : Except _ α) w') :
    Progress m (l ++ l') w (.error e : Except _ β) w' := by
  have hall : l.all (·.resolves) = false := h.isOk.symm
  constructor
  · rw [written_append_of_not_all hall]
    exact h.archives
  · rw [List.all_append, hall]
    rfl

theorem Progress.archives_of_ok {a : α} (h : Progress m l w (.ok a) w') :
    Archives m (writes l) w w' ∧ l.all (·.resolves) = true := by
  have hall : l.all (·.resolves) = true := h.isOk.symm
  exact ⟨written_of_all hall ▸ h.archives, hall⟩

theorem progress_bind {p : Async α} {k : α → Async β} (h : p.Ends w (Progress m l w))
    (hk : ∀ a w', Archives m (writes l) w w' → (k a).Ends w' (Progress m u w')) :
    (p >>= k).Ends w (Progress m (l ++ u) w) :=
  h.bind
    (fun a w' hp => (hk a w' hp.archives_of_ok.1).mono fun _ _ =>
      .append hp.archives_of_ok.1 hp.archives_of_ok.2)
    fun _ _ hp => hp.append_of_error

theorem progress_lift_bind {τ : Type} {t : τ} {p : Async α} {k : α → Prog (World × τ) Failure β}
    (h : p.Ends w (Progress m l w))
    (hk : ∀ a w', Archives m (writes l) w w' →
      (k a).Ends (w', t) fun r s => Progress m u w' r s.1) :
    ((liftM p : Prog (World × τ) Failure α) >>= k).Ends (w, t) fun r s =>
      Progress m (l ++ u) w r s.1 :=
  h.lift_bind
    (fun a w' hp => (hk a w' hp.archives_of_ok.1).mono fun _ _ =>
      .append hp.archives_of_ok.1 hp.archives_of_ok.2)
    fun _ _ hp => hp.append_of_error

theorem progress_vars_bind {τ : Type} {t : τ} {p : Prog (World × τ) Failure α}
    {k : α → Prog (World × τ) Failure β} (h : p.Ends (w, t) fun r s => Progress m l w r s.1)
    (hk : ∀ a w' t', Archives m (writes l) w w' →
      (k a).Ends (w', t') fun r s => Progress m l' w' r s.1) :
    (p >>= k).Ends (w, t) fun r s => Progress m (l ++ l') w r s.1 :=
  h.bind
    (fun a s hp => (hk a s.1 s.2 hp.archives_of_ok.1).mono fun _ _ =>
      .append hp.archives_of_ok.1 hp.archives_of_ok.2)
    fun _ _ hp => hp.append_of_error

theorem progress_await (resolves : Bool) {effect : World → World}
    (hp : ∀ w, (effect w).projects = w.projects) (hs : ∀ w, (effect w).services = w.services) :
    (await resolves effect).Ends w (Progress m [⟨resolves, none⟩] w) := by
  cases resolves with
  | true => exact ⟨.of_rows (hp w) (hs w), rfl⟩
  | false => exact ⟨.refl, rfl⟩

theorem progress_await_id (resolves : Bool) :
    (await resolves).Ends w (Progress m [⟨resolves, none⟩] w) :=
  progress_await resolves (fun _ => rfl) fun _ => rfl

end

/-! ## The calls of an attempt -/

section
variable (c : ArchiveCalls) (projectId : String)

def keepCalls (service : PreservedContainer.Service) (originalName : String) : List Call :=
  [⟨c.stopContainer, none⟩] ++ ([⟨c.disconnectContainerFromNetwork, none⟩] ++
    ((if originalName ≠ service.preservedName then [⟨c.renameContainer, none⟩] else []) ++
      [⟨c.archiveProject, some projectId⟩]))

/-- The calls of `archiveSelf`. The failures of those after the write are logged. -/
def selfCalls (project : Project) (service : Option ServiceRow) : List Call :=
  match retained c service (serviceViewFromRows project service) with
  | some (_, originalName) =>
    keepCalls c projectId ⟨c.containerIdText, project.name⟩ originalName
  | none => [⟨c.archiveProject, some projectId⟩]

end

mutual

/-- The calls of `archiveRuntimeProject` with a marker, in the rows of `w`. -/
def calls (w : World) : ProjectTree ArchiveCalls → List Call
  | .node projectId c children =>
    [⟨c.getProject, none⟩] ++
      match w.getProject projectId with
      | none => []
      | some project =>
        [⟨c.loadServiceViewRecord, none⟩] ++
          if alreadyArchived project (World.service w projectId) then []
          else
            [⟨c.getComposeChildProjects, none⟩] ++ (callsAll w children ++
              selfCalls c projectId project (World.service w projectId))

def callsAll (w : World) : List (ProjectTree ArchiveCalls) → List Call
  | [] => []
  | child :: children => calls w child ++ callsAll w children

end

section
variable {c : ArchiveCalls} {p : String}

theorem progress_archiveProject {retainedRuntime : Option RetainedRuntime}
    (hp : (w.projects p).isSome) (resolves : Bool) :
    (archiveProject resolves p m retainedRuntime).Ends w (Progress m [⟨resolves, some p⟩] w) := by
  cases resolves with
  | false => exact ⟨.refl, rfl⟩
  | true =>
    have hrun : (archiveProject true p m retainedRuntime).run w =
        (.ok (), World.archiveProject w p m retainedRuntime) := by
      unfold archiveProject
      rw [run_await_bind, if_pos rfl, id_eq, Prog.run_read_bind]
      rw [Option.isNone_eq_false_iff.mpr hp]
      rfl
    exact .of_run hrun ⟨archives_archiveProject retainedRuntime, rfl⟩

theorem progress_retireName (service : PreservedContainer.Service) (originalName : String)
    (containerId : ContainerId) (t : PreservedContainer.ArchiveVars) :
    (retireName c service originalName containerId).Ends (w, t) fun r s =>
      Progress m (if originalName ≠ service.preservedName then [⟨c.renameContainer, none⟩] else [])
        w r s.1 := by
  unfold retireName
  by_cases h : originalName ≠ service.preservedName
  · rw [if_pos h, if_pos h]
    refine progress_lift_bind (u := []) (progress_await _ ?_ ?_) ?_
    · exact fun _ => rfl
    · exact fun _ => rfl
    · exact fun _ _ _ => ⟨.refl, rfl⟩
  · rw [if_neg h, if_neg h]
    exact ⟨.refl, rfl⟩

theorem progress_keepContainer (hp : (w.projects p).isSome) (service : PreservedContainer.Service)
    (originalName : String) (containerId : ContainerId) (imageTag : Option String) :
    (keepContainer c p service originalName m containerId imageTag).Ends (w, {}) fun r s =>
      Progress m (keepCalls c p service originalName) w r s.1 := by
  refine progress_lift_bind (progress_await _ (fun _ => rfl) fun _ => rfl) fun _ w₁ h₁ => ?_
  rw [Prog.ends_assign_bind]
  refine progress_lift_bind (progress_await_id _) fun _ w₂ h₂ => ?_
  rw [Prog.ends_assign_bind]
  refine progress_vars_bind (progress_retireName ..) fun _ w₃ t₃ h₃ => .lift ?_
  refine progress_archiveProject ?_ _
  rw [h₃.isSome_project, h₂.isSome_project, h₁.isSome_project]
  exact hp

/-- What the `catch` does leaves the rows. -/
theorem undoKeep_ends (originalName : String) (containerId : ContainerId) (error : Failure)
    (t : PreservedContainer.ArchiveVars) :
    (undoKeep c originalName containerId error).Ends (w, t) fun r s =>
      r.isOk = false ∧ s.1.projects = w.projects ∧ s.1.services = w.services := by
  have hawait (done resolves : Bool) {effect : World → World}
      {k : Unit → Prog (World × PreservedContainer.ArchiveVars) Failure Unit} {w₁ : World}
      (hw₁ : w₁.projects = w.projects ∧ w₁.services = w.services)
      (he : ∀ w, (effect w).projects = w.projects ∧ (effect w).services = w.services)
      (hk : ∀ w', w'.projects = w.projects ∧ w'.services = w.services →
        (k ()).Ends (w', t) fun r s =>
          r.isOk = false ∧ s.1.projects = w.projects ∧ s.1.services = w.services) :
      ((liftM (awaitIf done resolves effect) :
        Prog (World × PreservedContainer.ArchiveVars) Failure Unit) >>= k).Ends (w₁, t) fun r s =>
          r.isOk = false ∧ s.1.projects = w.projects ∧ s.1.services = w.services := by
    cases done with
    | false => exact hk _ hw₁
    | true =>
      cases resolves with
      | false => exact ⟨rfl, hw₁⟩
      | true => exact hk _ ⟨(he w₁).1.trans hw₁.1, (he w₁).2.trans hw₁.2⟩
  unfold undoKeep
  rw [Prog.ends_read_bind]
  refine hawait _ _ ⟨rfl, rfl⟩ (fun _ => ⟨rfl, rfl⟩) fun w₁ h₁ => ?_
  refine hawait _ _ h₁ (fun _ => ⟨rfl, rfl⟩) fun w₂ h₂ => ?_
  exact hawait _ _ h₂ (fun _ => ⟨rfl, rfl⟩) fun w₃ h₃ => ⟨rfl, h₃⟩

theorem progress_archiveResource {project : Project} (hp : (w.projects p).isSome)
    (originalName : String) (containerId : ContainerId) (imageTag : Option String) :
    (archiveResource c p project originalName m containerId imageTag).Ends w
      (Progress m (keepCalls c p ⟨c.containerIdText, project.name⟩ originalName) w) := by
  refine .withVars ((progress_keepContainer hp _ originalName containerId imageTag).tryCatch
    (fun _ _ h => h) fun e s h => ?_)
  refine (undoKeep_ends originalName containerId e s.2).mono fun r s' ⟨hr, hprojects, hservices⟩ => ?_
  constructor
  · rw [← List.append_nil (written _)]
    exact h.archives.trans (.of_rows hprojects hservices)
  · exact hr.trans h.isOk

theorem progress_settle (resolves : Bool) {effect : World → World}
    (hp : ∀ w, (effect w).projects = w.projects) (hs : ∀ w, (effect w).services = w.services) :
    (await resolves effect).settle.Ends w (Progress m [] w) := by
  cases resolves with
  | true => exact ⟨.of_rows (hp w) (hs w), rfl⟩
  | false => exact .pure ()

theorem progress_dropRuntime (containerId : Option ContainerId) (imageTag : Option String) :
    (dropRuntime c containerId imageTag).Ends w (Progress m [] w) := by
  have himage {w : World} : (dropRuntime c none imageTag).Ends w (Progress m [] w) := by
    cases imageTag with
    | none => exact .pure ()
    | some imageTag => exact progress_settle _ (fun _ => rfl) fun _ => rfl
  cases containerId with
  | none => exact himage
  | some containerId =>
    refine progress_bind (l := []) (progress_settle _ (fun _ => rfl) fun _ => rfl) fun _ _ _ => ?_
    exact progress_bind (l := []) (progress_settle _ (fun _ => rfl) fun _ => rfl) fun _ _ _ => himage

theorem progress_archiveSelf {project : Project} {service : Option ServiceRow}
    (hp : (w.projects p).isSome) :
    (archiveSelf c p (some m) project service).Ends w
      (Progress m (selfCalls c p project service) w) := by
  have hrecord : (archiveRecord c p (some m) service (serviceViewFromRows project service)).Ends w
      (Progress m [⟨c.archiveProject, some p⟩] w) :=
    progress_bind (u := []) (progress_archiveProject hp _) fun _ _ _ => progress_dropRuntime ..
  unfold archiveSelf selfCalls
  dsimp only
  cases retained c service (serviceViewFromRows project service) with
  | none => exact hrecord
  | some kept => exact progress_archiveResource hp _ _ _

end

/-! ## The whole attempt -/

theorem progress_await_bind (resolves : Bool) {k : Unit → Async α} {l : List Call}
    (hk : (k ()).Ends w (Progress m l w)) :
    (await resolves >>= k).Ends w (Progress m ([⟨resolves, none⟩] ++ l) w) := by
  cases resolves with
  | true => exact hk.mono fun _ _ h => .append (l := [⟨true, none⟩]) .refl rfl h
  | false => exact ⟨.refl, rfl⟩

/-- Both worlds have the same rows for the projects. -/
def SameRows (ids : List String) (w w' : World) : Prop :=
  ∀ p ∈ ids, w'.projects p = w.projects p ∧ World.service w' p = World.service w p

theorem SameRows.subset (h : SameRows ids w w') (hids : ids' ⊆ ids) : SameRows ids' w w' :=
  fun p hp => h p (hids hp)

theorem SameRows.getProject (h : SameRows ids w w') (hp : p ∈ ids) :
    w'.getProject p = w.getProject p := by
  obtain ⟨hproject, hservice⟩ := h p hp
  unfold World.getProject
  rw [hproject, show w'.services _ = w.services _ from hservice]

theorem Archives.sameRows (h : Archives m ids w w')
    (hdisjoint : ∀ p ∈ ids', projectIdToDeployableServiceId p ∉ serviceIds ids) :
    SameRows ids' w w' := by
  intro p hp
  have hids : p ∉ ids := fun hmem => hdisjoint p hp (List.mem_map_of_mem hmem)
  exact ⟨by rw [h.projects, if_neg hids], h.services _ (hdisjoint p hp)⟩

mutual

theorem calls_congr : (tree : ProjectTree ArchiveCalls) → SameRows tree.ids w w' →
    calls w' tree = calls w tree
  | .node p c children, h => by
    have hp : p ∈ (ProjectTree.node p c children).ids := by simp
    have hchildren := callsAll_congr children (h.subset (by simp))
    rw [calls, calls, h.getProject hp, (h p hp).2, hchildren]

theorem callsAll_congr : (trees : List (ProjectTree ArchiveCalls)) →
    SameRows (ProjectTree.idsAll trees) w w' → callsAll w' trees = callsAll w trees
  | [], _ => by rw [callsAll, callsAll]
  | child :: children, h => by
    have hchild := calls_congr child (h.subset (by simp))
    have hchildren := callsAll_congr children (h.subset (by simp))
    rw [callsAll, callsAll, hchild, hchildren]

end

@[simp] theorem writes_append (l l' : List Call) : writes (l ++ l') = writes l ++ writes l' :=
  List.filterMap_append

@[simp] theorem writes_selfCalls (c : ArchiveCalls) (project : Project)
    (service : Option ServiceRow) : writes (selfCalls c p project service) = [p] := by
  unfold selfCalls
  cases retained c service (serviceViewFromRows project service) with
  | none => rfl
  | some kept =>
    show writes (keepCalls ..) = [p]
    unfold keepCalls
    split <;> rfl

mutual

theorem writes_calls_subset (w : World) : (tree : ProjectTree ArchiveCalls) →
    writes (calls w tree) ⊆ tree.ids
  | .node p c children => by
    have hchildren := writes_callsAll_subset w children
    have hself (c : ArchiveCalls) (project : Project) (service : Option ServiceRow) :
        writes (callsAll w children ++ selfCalls c p project service) ⊆
          ProjectTree.idsAll children ++ [p] := by
      rw [writes_append, writes_selfCalls]
      exact List.append_subset.mpr
        ⟨List.subset_append_of_subset_left _ hchildren, List.subset_append_right ..⟩
    rw [calls, ids_node]
    cases w.getProject p with
    | none => exact List.nil_subset _
    | some project =>
      dsimp only
      split
      · exact List.nil_subset _
      · exact hself ..

theorem writes_callsAll_subset (w : World) : (trees : List (ProjectTree ArchiveCalls)) →
    writes (callsAll w trees) ⊆ ProjectTree.idsAll trees
  | [] => by
    rw [callsAll]
    exact List.nil_subset _
  | child :: children => by
    rw [callsAll, writes_append, idsAll_cons]
    exact List.append_subset.mpr
      ⟨List.subset_append_of_subset_left _ (writes_calls_subset w child),
        List.subset_append_of_subset_right _ (writes_callsAll_subset w children)⟩

end

mutual

theorem progress_archiveRuntimeProject : (tree : ProjectTree ArchiveCalls) →
    (serviceIds tree.ids).Nodup → ∀ w : World,
      (archiveRuntimeProject (some m) tree).Ends w (Progress m (calls w tree) w)
  | .node p c children, hnodup, w => by
    rw [ids_node, serviceIds, List.map_append] at hnodup
    have hchildren := progress_archiveChildren children hnodup.of_append_left w
    rw [archiveRuntimeProject, calls]
    refine progress_await_bind _ ?_
    rw [Prog.ends_read_bind]
    cases hproject : w.getProject p with
    | none => exact .pure ()
    | some project =>
      refine progress_await_bind _ ?_
      rw [Prog.ends_read_bind]
      by_cases harchived : alreadyArchived project (World.service w p)
      · have hskip : ((some m).isSome && alreadyArchived project (World.service w p)) = true := by
          rw [harchived]
          rfl
        rw [if_pos (by exact hskip), if_pos harchived]
        exact .pure ()
      · have hgo : ((some m).isSome && alreadyArchived project (World.service w p)) ≠ true := by
          simpa using harchived
        rw [if_neg (by exact hgo), if_neg harchived]
        refine progress_await_bind _ (progress_bind hchildren fun _ w' hw' => ?_)
        refine progress_archiveSelf ?_
        rw [hw'.isSome_project]
        obtain ⟨row, hrow, -⟩ := Option.map_eq_some_iff.mp hproject
        rw [hrow]
        rfl

theorem progress_archiveChildren : (trees : List (ProjectTree ArchiveCalls)) →
    (serviceIds (ProjectTree.idsAll trees)).Nodup → ∀ w : World,
      (archiveChildren (some m) trees).Ends w (Progress m (callsAll w trees) w)
  | [], _, w => by
    rw [archiveChildren, callsAll]
    exact .pure ()
  | child :: children, hnodup, w => by
    rw [idsAll_cons, serviceIds, List.map_append] at hnodup
    rw [archiveChildren, callsAll]
    refine progress_bind (progress_archiveRuntimeProject child hnodup.of_append_left w) ?_
    intro _ w' hw'
    have hrows : SameRows (ProjectTree.idsAll children) w w' := by
      refine hw'.sameRows fun p hp hmem => ?_
      have hchild := List.map_subset projectIdToDeployableServiceId (writes_calls_subset w child) hmem
      exact (List.disjoint_of_nodup_append hnodup) hchild (List.mem_map_of_mem hp)
    rw [← callsAll_congr children hrows]
    exact progress_archiveChildren children hnodup.of_append_right w'

end

/-! ## What is written where no call rejects -/

/-- The projects have their rows. -/
def Stored (ids : List String) (w : World) : Prop :=
  ∀ p ∈ ids, (w.projects p).isSome ∧ (World.service w p).isSome

theorem Stored.subset (h : Stored ids w) (hids : ids' ⊆ ids) : Stored ids' w :=
  fun p hp => h p (hids hp)

theorem alreadyArchived_eq {project : Project} (h : (World.service w p).isSome) :
    alreadyArchived project (World.service w p) = World.isArchived w p := by
  obtain ⟨row, hrow⟩ := Option.isSome_iff_exists.mp h
  rw [World.isArchived, show w.services _ = some row from hrow, hrow]
  rfl

/-- The services that a marker is written to: those that are active, below others that are. -/
def taken (w : World) (tree : ProjectTree κ) : List String :=
  if World.isArchived w tree.projectId then [] else tree.selected (!World.isArchived w ·)

mutual

theorem writes_calls : (tree : ProjectTree ArchiveCalls) → Stored tree.ids w →
    writes (calls w tree) = taken w tree
  | .node p c children, h => by
    have hchildren := writes_callsAll children (h.subset (by simp))
    obtain ⟨hproject, hservice⟩ := h p (by simp)
    obtain ⟨row, hrow⟩ := Option.isSome_iff_exists.mp hproject
    have hget : w.getProject p = some ⟨row, p, World.service w p⟩ := by
      rw [World.getProject, hrow]
      rfl
    rw [calls, hget, taken, ProjectTree.projectId]
    dsimp only
    rw [alreadyArchived_eq hservice]
    by_cases harchived : World.isArchived w p
    · rw [if_pos harchived, if_pos harchived]
      rfl
    · rw [if_neg harchived, if_neg harchived, selected_node, ← hchildren]
      have hself := writes_append (callsAll w children)
        (selfCalls c p ⟨row, p, World.service w p⟩ (World.service w p))
      rw [writes_selfCalls] at hself
      exact hself

theorem writes_callsAll : (trees : List (ProjectTree ArchiveCalls)) →
    Stored (ProjectTree.idsAll trees) w →
      writes (callsAll w trees) = selectedAll (!World.isArchived w ·) trees
  | [], _ => by
    rw [callsAll, selectedAll]
    rfl
  | child :: children, h => by
    have hchild := writes_calls child (h.subset (by simp))
    have hchildren := writes_callsAll children (h.subset (by simp))
    rw [callsAll, selectedAll, writes_append, hchild, hchildren, taken]
    cases World.isArchived w child.projectId <;> rfl

end

end OpenLander.Pipeline.Lifecycle
