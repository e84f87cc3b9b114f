import OpenLander.Pipeline.ArchiveSpec

/-! # What a restore brings back

A restore that succeeds takes the markers off the project and off the services below it that are
reached along children with its marker, and off no other row. -/

namespace OpenLander.Pipeline.Lifecycle
open Theory
open ProjectTree (selectedAll idsAll)

variable {w w' w'' : World}

/-- The marker in the row of the project. -/
def World.projectMarker (w : World) (projectId : String) : Option String :=
  (w.projects projectId).bind (·.archivedAt)

/-- The marker in the row of the service. -/
def World.serviceMarker (w : World) (serviceId : String) : Option String :=
  (w.services serviceId).bind (·.archivedAt)

/-- The markers of the projects with these ids are taken off. -/
structure Restores (ids : List String) (w w' : World) : Prop where
  rows : ∀ p, (w'.projects p).isSome = (w.projects p).isSome
  projects : ∀ p, World.projectMarker w' p = if p ∈ ids then none else World.projectMarker w p
  services : ∀ s, World.serviceMarker w' s =
    if s ∈ serviceIds ids then none else World.serviceMarker w s

theorem Restores.of_rows (hp : w'.projects = w.projects) (hs : w'.services = w.services) :
    Restores [] w w' where
  rows p := by rw [hp]
  projects p := by rw [if_neg List.not_mem_nil, World.projectMarker, hp]; rfl
  services s := by
    rw [if_neg (by exact List.not_mem_nil), World.serviceMarker, hs]
    rfl

theorem Restores.refl : Restores [] w w := .of_rows rfl rfl

theorem Restores.trans (h : Restores ids w w') (h' : Restores ids' w' w'') :
    Restores (ids ++ ids') w w'' where
  rows p := (h'.rows p).trans (h.rows p)
  projects p := by
    rw [h'.projects, h.projects]
    by_cases hp : p ∈ ids <;> by_cases hp' : p ∈ ids' <;> simp [hp, hp']
  services s := by
    rw [h'.services, h.services, serviceIds, serviceIds, serviceIds, List.map_append]
    by_cases hs : s ∈ ids.map projectIdToDeployableServiceId <;>
      by_cases hs' : s ∈ ids'.map projectIdToDeployableServiceId <;> simp [hs, hs']

theorem Restores.of_mem_iff (h : Restores ids w w') (hids : ∀ p, p ∈ ids ↔ p ∈ ids') :
    Restores ids' w w' where
  rows := h.rows
  projects p := by
    rw [h.projects]
    exact if_congr (hids p) rfl rfl
  services s := by
    rw [h.services]
    refine if_congr ?_ rfl rfl
    simp only [serviceIds, List.mem_map, hids]

/-- A run that succeeds takes off these markers. -/
def Restoring (ids : List String) (w : World) (r : Except Failure α) (w' : World) : Prop :=
  r.isOk → Restores ids w w'

theorem Restoring.error (e : Failure) : Restoring ids w (.error e : Except Failure α) w' :=
  fun h => nomatch h

theorem restoring_bind {p : Async α} {k : α → Async β} (h : p.Ends w (Restoring l w))
    (hk : ∀ a w', Restores l w w' → (k a).Ends w' (Restoring u w')) :
    (p >>= k).Ends w (Restoring (l ++ u) w) :=
  h.bind
    (fun a w' hp => (hk a w' (hp rfl)).mono fun _ _ h' hr => (hp rfl).trans (h' hr))
    fun e _ _ => .error e

theorem restoring_await (resolves : Bool) {effect : World → World}
    (h : Restores ids w (effect w)) : (await resolves effect).Ends w (Restoring ids w) := by
  cases resolves with
  | true => exact fun _ => h
  | false => exact Restoring.error _

theorem restoring_call (failure : Option Failure) {effect : World → World}
    (h : Restores ids w (effect w)) : (call failure effect).Ends w (Restoring ids w) := by
  cases failure with
  | none => exact fun _ => h
  | some failure => exact Restoring.error _

theorem restores_updateService {f : ServiceRow → ServiceRow} {s : String}
    (hf : ∀ row, w.services s = some row → (f row).archivedAt = row.archivedAt) :
    Restores [] w (w.updateService s f) where
  rows _ := rfl
  projects _ := by
    rw [if_neg List.not_mem_nil]
    rfl
  services s' := by
    rw [if_neg (by exact List.not_mem_nil)]
    unfold World.serviceMarker World.updateService
    by_cases h : s' = s
    · subst h
      cases hrow : w.services s' with
      | none => simp
      | some row => simp [hf row hrow]
    · simp [h]

/-- Both statements of `unarchiveProject`. -/
theorem restores_unarchiveProject {f : ServiceRow → ServiceRow}
    (hf : ∀ row, (f row).archivedAt = none) :
    Restores [p] w ((clearArchivedAt p w).updateProject p f) where
  rows q := by
    by_cases h : q = p
    · subst h
      simp [clearArchivedAt, World.updateProject, World.updateService]
    · simp [clearArchivedAt, World.updateProject, World.updateService, h]
  projects q := by
    unfold World.projectMarker
    by_cases h : q = p
    · subst h
      rw [if_pos (List.mem_singleton_self q)]
      cases hrow : w.projects q <;>
        simp [clearArchivedAt, World.updateProject, World.updateService, hrow]
    · rw [if_neg (h ∘ List.mem_singleton.mp)]
      simp [clearArchivedAt, World.updateProject, World.updateService, h]
  services s := by
    unfold World.serviceMarker
    by_cases h : s = projectIdToDeployableServiceId p
    · subst h
      rw [if_pos (by exact List.mem_singleton_self _)]
      cases hrow : w.services (projectIdToDeployableServiceId p) <;>
        simp [clearArchivedAt, World.updateProject, World.updateService, hrow, hf]
    · rw [if_neg (by exact h ∘ List.mem_singleton.mp)]
      simp [clearArchivedAt, World.updateProject, World.updateService, h]

/-! ## One project -/

section
variable {c : UnarchiveCalls}

theorem restoring_unarchiveProject : (unarchiveProject c p).Ends w (Restoring [p] w) := by
  unfold unarchiveProject updateProject
  cases c.unarchiveProject with
  | false => exact Restoring.error _
  | true =>
    cases c.unarchiveService with
    | false => exact Restoring.error _
    | true => exact fun _ => restores_unarchiveProject fun _ => rfl

theorem keeps_checkNameFree {I : World → Prop} (name : String) (containerId : ContainerId) :
    Prog.Keeps I (checkNameFree c name containerId) := by
  have hcall : Prog.Keeps I (call c.inspectContainer) := by
    cases c.inspectContainer with
    | none => exact .step (fun _ hw => hw) fun _ => .ret _
    | some failure => exact .ret _
  refine .tryCatch (.bind hcall fun _ => .bind (.read _) fun conflicting => ?_) fun error => ?_
  · cases conflicting with
    | none => exact .ret _
    | some conflicting =>
      dsimp only
      split
      · exact .ret _
      · exact .ret _
  · split
    · exact .ret _
    · exact .ret _

theorem restoring_checkNameFree (name : String) (containerId : ContainerId) :
    (checkNameFree c name containerId).Ends w (Restoring [] w) := by
  intro _
  rw [keeps_checkNameFree (I := (· = w)) name containerId w rfl]
  exact .refl

/-- A call that moves the container next to a variable that says so. -/
theorem restoring_lift_bind {τ : Type} {t : τ} {p : Async α} {k : α → Prog (World × τ) Failure β}
    (h : p.Ends w (Restoring l w))
    (hk : ∀ a w', Restores l w w' →
      (k a).Ends (w', t) fun r s => Restoring u w' r s.1) :
    ((liftM p : Prog (World × τ) Failure α) >>= k).Ends (w, t) fun r s =>
      Restoring (l ++ u) w r s.1 :=
  h.lift_bind
    (fun a w' hp => (hk a w' (hp rfl)).mono fun _ _ h' hr => (hp rfl).trans (h' hr))
    fun e _ _ => .error e

theorem restoring_vars_bind {τ : Type} {t : τ} {p : Prog (World × τ) Failure α}
    {k : α → Prog (World × τ) Failure β} (h : p.Ends (w, t) fun r s => Restoring l w r s.1)
    (hk : ∀ a w' t', Restores l w w' →
      (k a).Ends (w', t') fun r s => Restoring u w' r s.1) :
    (p >>= k).Ends (w, t) fun r s => Restoring (l ++ u) w r s.1 :=
  h.bind
    (fun a s hp => (hk a s.1 s.2 (hp rfl)).mono fun _ _ h' hr => (hp rfl).trans (h' hr))
    fun e _ _ => .error e

theorem restoring_takeName (name preservedName : String) (containerId : ContainerId)
    (t : RestoreVars) :
    (takeName c name preservedName containerId).Ends (w, t) fun r s => Restoring [] w r s.1 := by
  unfold takeName
  split
  · refine restoring_lift_bind (l := []) (restoring_call _ ?_) ?_
    · exact .of_rows rfl rfl
    · exact fun _ _ _ _ => .refl
  · exact fun _ => .refl

theorem restoring_startContainer (resolves : Bool) (containerId : ContainerId) :
    (startContainer resolves containerId).Ends w (Restoring [] w) := by
  rw [Prog.Ends, startContainer, run_changeRunning]
  split
  · exact Restoring.error _
  · split
    · exact Restoring.error _
    · exact fun _ => .of_rows rfl rfl

theorem restoring_restoreContainer (name preservedName : String) (containerId : ContainerId) :
    (restoreContainer c p name preservedName containerId).Ends (w, {}) fun r s =>
      Restoring [p] w r s.1 := by
  refine restoring_lift_bind (l := []) (restoring_checkNameFree _ _) fun _ w₁ _ => ?_
  refine restoring_vars_bind (l := []) (restoring_takeName _ _ _ _) fun _ w₂ t₂ _ => ?_
  refine restoring_lift_bind (l := []) (restoring_call _ .refl) fun _ w₃ _ => ?_
  refine restoring_lift_bind (l := []) (restoring_call _ .refl) fun _ w₄ _ => ?_
  rw [Prog.ends_assign_bind]
  refine restoring_lift_bind (l := []) (restoring_startContainer _ _) fun _ w₅ _ => ?_
  refine restoring_lift_bind (u := []) restoring_unarchiveProject fun _ w₆ h₆ => .lift ?_
  -- The second write of the service finds the marker taken off.
  refine restoring_await _ (restores_updateService fun row hrow => ?_)
  have hmarker := h₆.services (projectIdToDeployableServiceId p)
  rw [World.serviceMarker, hrow, if_pos (by exact List.mem_singleton_self _)] at hmarker
  exact hmarker.symm

/-- The `catch` throws. -/
theorem restoring_undoRestore (preservedName : String) (containerId : ContainerId)
    (error : Failure) (s : World × RestoreVars) :
    (undoRestore c preservedName containerId error).Ends s fun r s' => Restoring ids w r s'.1 := by
  have hfails : (undoRestore c preservedName containerId error).Fails :=
    .bind_right _ fun _ => .bind_right _ fun _ => .bind_right _ fun _ => .throw _
  obtain ⟨e, he⟩ := hfails.run s
  rw [Prog.Ends, he]
  exact Restoring.error e

theorem restoring_restoreComposeChild (project : Project) (preservedName : String)
    (containerId : ContainerId) :
    (restoreComposeChild c p project preservedName containerId).Ends w (Restoring [p] w) := by
  refine .withVars (.tryCatch (restoring_restoreContainer _ _ _) (fun _ _ h => h) ?_)
  exact fun _ _ _ => restoring_undoRestore _ _ _ _

theorem restoring_allocatePort (scan : Option (List Nat)) :
    (allocatePort scan).Ends w (Restoring [] w) := by
  rw [Prog.Ends, run_allocatePort]
  split
  · exact Restoring.error _
  · exact Restoring.error _
  · exact fun _ => .of_rows rfl rfl

theorem restoring_restoreRecord (service : Option ServiceRow) :
    (restoreRecord c p service).Ends w (Restoring [p] w) := by
  refine restoring_bind (u := []) restoring_unarchiveProject fun _ w₁ _ => ?_
  split
  · refine restoring_bind (l := []) (u := []) (restoring_allocatePort _) fun _ w₂ _ => ?_
    exact restoring_await _ (restores_updateService fun _ _ => rfl)
  · exact fun _ => .refl

theorem restoring_restoreSelf (project : Project) (service : Option ServiceRow) :
    (restoreSelf c p project service).Ends w (Restoring [p] w) := by
  unfold restoreSelf
  split
  · exact restoring_restoreComposeChild _ _ _
  · exact restoring_restoreRecord _

end

/-! ## The whole tree -/

/-- The marker of a project that is archived, which tells the restore set. -/
def World.restoreMarker (w : World) (projectId : String) : Option String :=
  (World.projectMarker w projectId).or
    (World.serviceMarker w (projectIdToDeployableServiceId projectId))

/-- The projects that a restore takes up. -/
def restored (w : World) (tree : ProjectTree κ) : List String :=
  match World.restoreMarker w tree.projectId with
  | none => []
  | some restoreMarker => tree.selected fun v => World.projectMarker w v = some restoreMarker

theorem restored_subset (tree : ProjectTree κ) : restored w tree ⊆ tree.ids := by
  unfold restored
  split
  · exact List.nil_subset _
  · exact selected_subset tree

theorem restored_congr {tree : ProjectTree κ}
    (hp : ∀ v ∈ tree.ids, World.projectMarker w' v = World.projectMarker w v)
    (hs : World.serviceMarker w' (projectIdToDeployableServiceId tree.projectId) =
      World.serviceMarker w (projectIdToDeployableServiceId tree.projectId)) :
    restored w' tree = restored w tree := by
  unfold restored World.restoreMarker
  rw [hp _ (projectId_mem_ids tree), hs]
  split
  · rfl
  · exact selected_congr tree fun v hv => by rw [hp v hv]

mutual

theorem restoring_unarchiveRuntimeProject : (tree : ProjectTree UnarchiveCalls) →
    (serviceIds tree.ids).Nodup → ∀ w : World, (w.projects tree.projectId).isSome →
      (unarchiveRuntimeProject tree).Ends w (Restoring (restored w tree) w)
  | .node p c children, hnodup, w, hproject => by
    obtain ⟨row, hrow⟩ := Option.isSome_iff_exists.mp hproject
    rw [ids_node, serviceIds, List.map_append] at hnodup
    have hmarker : row.archivedAt.or
        ((w.services (projectIdToDeployableServiceId p)).bind (·.archivedAt)) =
          World.restoreMarker w p := by
      rw [World.restoreMarker, World.projectMarker, show w.projects p = _ from hrow]
      rfl
    rw [unarchiveRuntimeProject, restored, ProjectTree.projectId]
    refine ends_await_bind _ (.error _) fun _ => ?_
    rw [Prog.ends_read_bind, World.getProject, show w.projects p = _ from hrow]
    refine ends_await_bind _ (.error _) fun _ => ?_
    rw [Prog.ends_read_bind]
    dsimp only
    rw [hmarker]
    cases World.restoreMarker w p with
    | none => exact fun _ => .refl
    | some restoreMarker =>
      refine ends_await_bind _ (.error _) fun _ => ?_
      rw [Prog.ends_read_bind]
      dsimp only
      rw [selected_node]
      exact restoring_bind
        (restoring_unarchiveChildren children hnodup.of_append_left w fun _ _ => rfl)
        fun _ _ _ => restoring_restoreSelf _ _

theorem restoring_unarchiveChildren {projects : String → Option ProjectRow}
    {restoreMarker : String} : (trees : List (ProjectTree UnarchiveCalls)) →
      (serviceIds (idsAll trees)).Nodup → ∀ w : World,
        (∀ v ∈ idsAll trees, (projects v).bind (·.archivedAt) = World.projectMarker w v) →
          (unarchiveChildren projects restoreMarker trees).Ends w
            (Restoring (selectedAll (World.projectMarker w · = some restoreMarker) trees) w)
  | [], _, w, _ => by
    rw [unarchiveChildren, selectedAll]
    exact fun _ => .refl
  | child :: children, hnodup, w, hprojects => by
    rw [idsAll_cons, serviceIds, List.map_append] at hnodup
    have hchild := hprojects child.projectId (by simp [projectId_mem_ids])
    rw [unarchiveChildren, selectedAll, hchild]
    by_cases hmarker : World.projectMarker w child.projectId = some restoreMarker
    · have hrestored : restored w child =
          child.selected (World.projectMarker w · = some restoreMarker) := by
        rw [restored, World.restoreMarker, hmarker, Option.some_or]
      have hrow : (w.projects child.projectId).isSome := by
        obtain ⟨row, hrow, -⟩ := Option.bind_eq_some_iff.mp hmarker
        rw [hrow]
        rfl
      rw [if_pos hmarker, if_pos (by simpa using hmarker)]
      refine restoring_bind (hrestored ▸ restoring_unarchiveRuntimeProject child
        hnodup.of_append_left w hrow) fun _ w' hw' => ?_
      have hsame : ∀ v ∈ idsAll children, World.projectMarker w' v = World.projectMarker w v := by
        intro v hv
        have hother : v ∉ child.selected (World.projectMarker w · = some restoreMarker) :=
          fun hmem => List.disjoint_of_nodup_append hnodup
            (List.mem_map_of_mem (selected_subset child hmem)) (List.mem_map_of_mem hv)
        rw [hw'.projects, if_neg hother]
      rw [selectedAll_congr children fun v hv => by rw [← hsame v hv]]
      exact restoring_unarchiveChildren children hnodup.of_append_right w' fun v hv =>
        (hprojects v (by simp [hv])).trans (hsame v hv).symm
    · rw [if_neg hmarker, if_neg (by simpa using hmarker)]
      exact restoring_unarchiveChildren children hnodup.of_append_right w fun v hv =>
        hprojects v (by simp [hv])

end

end OpenLander.Pipeline.Lifecycle
