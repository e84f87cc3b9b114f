import OpenLander.Pipeline.ArchiveRuns

/-! # Attempts to archive a group

The services of a group are archived one after another with one marker, and the row of the group
gets it at the end. Where no service is active at first, nothing is written, and the marker that the
row of the group happens to have decides what the restore brings back. -/

namespace OpenLander.Pipeline.Lifecycle
open Theory
open ProjectTree (selectedAll idsAll ListsAll)

/-- The trees of the deployable services of the group, as the database lists them. -/
structure GroupListing (childOf : String → String → Prop) (inGroup : String → Prop)
    (trees : List (ProjectTree κ)) : Prop where
  roots : ∀ v, inGroup v ↔ v ∈ trees.map (·.projectId)
  lists : ListsAll childOf trees
  nodup : (serviceIds (idsAll trees)).Nodup

section
variable (childOf : String → String → Prop) (inGroup : String → Prop)

/-- The services of the group and all that is below them. -/
def InGroup (v : String) : Prop := ∃ d, inGroup d ∧ InStack childOf d v

/-- The services that an archive of the group takes down. -/
def GroupActive (w : World) (v : String) : Prop :=
  ∃ d, inGroup d ∧ World.isArchived w d = false ∧ Active childOf d w v

/-- No service that is archived has the marker. -/
def GroupFresh (w : World) (m : String) : Prop :=
  (∀ d, inGroup d → Fresh childOf d w m) ∧
    ∀ d, inGroup d → World.serviceMarker w (projectIdToDeployableServiceId d) ≠ some m

/-- The group has been taken down, and its row has the marker. -/
def GroupDown (group : String) (w₀ w : World) : Prop :=
  ∃ m, GroupFresh childOf inGroup w₀ m ∧ TakenDown (GroupActive childOf inGroup w₀) group m w₀ w ∧
    World.projectMarker w group = some m

/-- What holds between the attempts. -/
def GroupInv (group : String) (w₀ w : World) : Prop :=
  SameDatabase w₀ w ∨ GroupDown childOf inGroup group w₀ w

end

variable {childOf : String → String → Prop} {inGroup : String → Prop} {group m : String}
variable {w₀ w w' : World}

theorem GroupActive.not_isArchived (h : GroupActive childOf inGroup w v) :
    World.isArchived w v = false := by
  obtain ⟨d, -, hd, hv⟩ := h
  exact hv.not_isArchived hd

theorem GroupActive.mem (h : GroupActive childOf inGroup w v) : InGroup childOf inGroup v := by
  obtain ⟨d, hd, -, hv⟩ := h
  exact ⟨d, hd, hv.inStack⟩

/-! ## Trees of a group -/

theorem idsAll_sublist {trees trees' : List (ProjectTree κ)} (h : trees'.Sublist trees) :
    (idsAll trees').Sublist (idsAll trees) := by
  induction h with
  | slnil => exact .slnil
  | cons t _ ih =>
    rw [idsAll_cons]
    exact ih.trans (List.sublist_append_right ..)
  | cons_cons t _ ih =>
    rw [idsAll_cons, idsAll_cons]
    exact ih.append_left _

theorem GroupListing.mem_idsAll {trees : List (ProjectTree κ)}
    (h : GroupListing childOf inGroup trees) : v ∈ idsAll trees ↔ InGroup childOf inGroup v := by
  rw [idsAll, mem_selectedAll]
  constructor
  · rintro ⟨t, ht, _, hv⟩
    exact ⟨t.projectId, (h.roots _).mpr (List.mem_map_of_mem ht),
      (mem_selected t (listsAll_iff.mp h.lists t ht)).mp hv⟩
  · rintro ⟨d, hd, hv⟩
    obtain ⟨t, ht, rfl⟩ := List.mem_map.mp ((h.roots d).mp hd)
    exact ⟨t, ht, rfl, (mem_selected t (listsAll_iff.mp h.lists t ht)).mpr hv⟩

/-- The services that are active. -/
def activeDeployables (w : World) (trees : List (ProjectTree κ)) : List (ProjectTree κ) :=
  trees.filter (!World.isArchived w ·.projectId)

theorem GroupListing.mem_selectedAll_active {trees : List (ProjectTree κ)}
    (h : GroupListing childOf inGroup trees) :
    v ∈ selectedAll (!World.isArchived w ·) (activeDeployables w trees) ↔
      GroupActive childOf inGroup w v := by
  rw [mem_selectedAll]
  constructor
  · intro ⟨t, ht, hkeep, hv⟩
    obtain ⟨ht, -⟩ := List.mem_filter.mp ht
    exact ⟨t.projectId, (h.roots _).mpr (List.mem_map_of_mem ht), by simpa using hkeep,
      (mem_selected t (listsAll_iff.mp h.lists t ht)).mp hv⟩
  · intro ⟨d, hd, hactive, hv⟩
    obtain ⟨t, ht, rfl⟩ := List.mem_map.mp ((h.roots d).mp hd)
    have hkeep : (!World.isArchived w t.projectId) = true := by rw [hactive]; rfl
    exact ⟨t, List.mem_filter.mpr ⟨ht, hkeep⟩, hkeep,
      (mem_selected t (listsAll_iff.mp h.lists t ht)).mpr hv⟩

/-! ## One attempt -/

/-- The calls of an attempt to archive the group. The row of the group gets the marker last. -/
def groupCalls (r : RootCalls) (group : String) (trees : List (ProjectTree ArchiveCalls))
    (w : World) : List Call :=
  let active := activeDeployables w trees
  if active.isEmpty then []
  else callsAll w active ++ [⟨r.setProjectArchivedAt, some group⟩]

/-- What an attempt leaves: the invariant, if its calls are `clean`, and the group is down if it
succeeds. -/
def GroupAttempted (clean : Prop) (childOf : String → String → Prop) (inGroup : String → Prop)
    (group : String) (w₀ : World) (r : Except Failure α) (w' : World) : Prop :=
  (clean → GroupInv childOf inGroup group w₀ w') ∧
    (r.isOk → GroupDown childOf inGroup group w₀ w')

theorem GroupAttempted.error {clean : Prop} (e : Failure)
    (h : clean → GroupInv childOf inGroup group w₀ w') :
    GroupAttempted clean childOf inGroup group w₀ (.error e : Except Failure α) w' :=
  ⟨h, fun hr => nomatch hr⟩

theorem GroupAttempted.down {clean : Prop} {r : Except Failure α}
    (h : GroupDown childOf inGroup group w₀ w') :
    GroupAttempted clean childOf inGroup group w₀ r w' :=
  ⟨fun _ => .inr h, fun _ => h⟩

/-- The services are loaded first, which changes nothing. -/
theorem loadRuntimeProjects_ends (trees : List (ProjectTree ArchiveCalls)) :
    (loadRuntimeProjects trees).Ends w fun _ w' => w' = w := by
  induction trees with
  | nil => exact rfl
  | cons t ts ih =>
    rw [loadRuntimeProjects]
    cases t.calls.getProjectFirst with
    | false => exact rfl
    | true =>
      show Prog.Ends (Prog.read _ >>= _) w _
      rw [Prog.ends_read_bind, Prog.ends_read_bind]
      split
      · exact rfl
      · cases t.calls.loadServiceViewRecordFirst with
        | false => exact rfl
        | true => exact ih

theorem isArchived_congr (h : SameDatabase w₀ w) (v : String) :
    World.isArchived w v = World.isArchived w₀ v := by
  rw [World.isArchived, World.isArchived, h.2]

theorem activeDeployables_congr (h : SameDatabase w₀ w) (trees : List (ProjectTree κ)) :
    activeDeployables w trees = activeDeployables w₀ trees :=
  List.filter_congr fun t _ => by rw [isArchived_congr h]

/-- The services that were archived before keep their markers. -/
theorem TakenDown.serviceMarker_of_isArchived {R : String → Prop} {root : String}
    (h : TakenDown R root m w₀ w) (hactive : ∀ v, R v → World.isArchived w₀ v = false)
    (hv : World.isArchived w₀ v = true) :
    World.serviceMarker w (projectIdToDeployableServiceId v) =
      World.serviceMarker w₀ (projectIdToDeployableServiceId v) := by
  refine h.otherService _ fun p hR heq => ?_
  have hp := hactive p hR
  rw [World.isArchived, heq] at hp
  cases hp.symm.trans hv

/-- No service is active once the group is down. -/
theorem GroupDown.activeDeployables_eq_nil {trees : List (ProjectTree κ)}
    (hl : GroupListing childOf inGroup trees) (h : GroupDown childOf inGroup group w₀ w) :
    activeDeployables w trees = [] := by
  obtain ⟨m, -, hdown, -⟩ := h
  refine List.filter_eq_nil_iff.mpr fun t ht => ?_
  have hd := (hl.roots t.projectId).mpr (List.mem_map_of_mem ht)
  have hmarker : World.isArchived w t.projectId = true := by
    cases harchived : World.isArchived w₀ t.projectId with
    | false =>
      have hservice := hdown.service t.projectId ⟨t.projectId, hd, harchived, .refl⟩
      exact (congrArg Option.isSome hservice : _)
    | true =>
      have hservice := hdown.serviceMarker_of_isArchived (fun _ => GroupActive.not_isArchived)
        harchived
      exact (congrArg Option.isSome hservice).trans harchived
  rw [hmarker]
  exact Bool.false_ne_true

/-- The row of the group gets the marker. -/
theorem GroupDown.of_setProjectArchivedAt (hfresh : GroupFresh childOf inGroup w₀ m)
    (hgroup : (w.projects group).isSome)
    (h : TakenDown (GroupActive childOf inGroup w₀) group m w₀ w) :
    GroupDown childOf inGroup group w₀ (World.setProjectArchivedAt w group (some m)) := by
  obtain ⟨row, hrow⟩ := Option.isSome_iff_exists.mp hgroup
  refine ⟨m, hfresh, h.setProjectArchivedAt _, ?_⟩
  rw [World.projectMarker, setProjectArchivedAt_self, hrow]
  rfl

theorem groupActive_congr (h : SameDatabase w₀ w) (v : String) :
    GroupActive childOf inGroup w v ↔ GroupActive childOf inGroup w₀ v := by
  have hsame : World.isArchived w = World.isArchived w₀ := funext (isArchived_congr h)
  unfold GroupActive Active
  rw [hsame]

/-- The writes of the attempt are those to the services that are active. -/
theorem mem_writes_callsAll {trees : List (ProjectTree ArchiveCalls)}
    (hl : GroupListing childOf inGroup trees) (hstored : Stored (idsAll trees) w₀)
    (hsame : SameDatabase w₀ w) (p : String) :
    p ∈ writes (callsAll w (activeDeployables w trees)) ↔ GroupActive childOf inGroup w₀ p := by
  have hsub : (activeDeployables w trees).Sublist trees := List.filter_sublist
  have hstored' : Stored (idsAll (activeDeployables w trees)) w := by
    intro q hq
    rw [hsame.1, World.service, hsame.2]
    exact hstored q ((idsAll_sublist hsub).subset hq)
  rw [writes_callsAll _ hstored', hl.mem_selectedAll_active, groupActive_congr hsame]

/-- The services are archived, and then the row of the group is written. -/
theorem archiveActive_attempted {r : RootCalls} {trees : List (ProjectTree ArchiveCalls)}
    (hl : GroupListing childOf inGroup trees) (hstored : Stored (idsAll trees) w₀)
    (hgroup : (w₀.projects group).isSome) (hfresh : GroupFresh childOf inGroup w₀ r.archivedAt)
    (hsame : SameDatabase w₀ w) (hnonempty : activeDeployables w trees ≠ []) :
    (do
      archiveChildren (some r.archivedAt) (activeDeployables w trees)
      await r.setProjectArchivedAt (World.setProjectArchivedAt · group (some r.archivedAt)) :
        Async Unit).Ends w
          (GroupAttempted (AllOrNothing (groupCalls r group trees w)) childOf inGroup group w₀) := by
  have hmem := mem_writes_callsAll hl hstored hsame
  have hsub : (activeDeployables w trees).Sublist trees := List.filter_sublist
  have hnodup : (serviceIds (idsAll (activeDeployables w trees))).Nodup :=
    hl.nodup.sublist ((idsAll_sublist hsub).map _)
  have hcalls : groupCalls r group trees w =
      callsAll w (activeDeployables w trees) ++ [⟨r.setProjectArchivedAt, some group⟩] :=
    if_neg (by simpa using hnonempty)
  rw [hcalls]
  have hgroupWrite : group ∈ writes (callsAll w (activeDeployables w trees) ++
      [⟨r.setProjectArchivedAt, some group⟩]) := by
    rw [writes_append]
    exact List.mem_append_right _ (List.mem_singleton_self group)
  -- Once the services are down with the marker, and the row of the group has it too.
  have hdown {w₁ : World} {ids : List String} (harchives : Archives r.archivedAt ids w₀ w₁)
      (hids : ∀ p, p ∈ ids ↔ GroupActive childOf inGroup w₀ p) :
      TakenDown (GroupActive childOf inGroup w₀) group r.archivedAt w₀ w₁ :=
    .of_archives harchives hids fun p hp => hstored p (hl.mem_idsAll.mpr ((hids p).mp hp).mem)
  refine (progress_archiveChildren _ hnodup w).bind (fun _ w₁ h => ?_) fun e w₁ h => ?_
  · obtain ⟨harchives, hall⟩ := h.archives_of_ok
    have harchives₀ := harchives.congr_left hsame.1 hsame.2
    have htaken := hdown harchives₀ hmem
    cases hset : r.setProjectArchivedAt with
    | true =>
      have hgroup₁ : (w₁.projects group).isSome := (harchives₀.isSome_project group).trans hgroup
      exact .down (.of_setProjectArchivedAt hfresh hgroup₁ htaken)
    | false =>
      refine .error _ fun hclean => ?_
      rw [hset] at hgroupWrite
      have hlast : written [⟨false, some group⟩] = [] := rfl
      rw [AllOrNothing, written_append_of_all hall, hlast, List.append_nil] at hclean
      rcases hclean with hnone | hwhole
      · obtain ⟨t, ht⟩ := List.exists_mem_of_ne_nil _ hnonempty
        obtain ⟨ht, hactive⟩ := List.mem_filter.mp ht
        rw [isArchived_congr hsame, Bool.not_eq_true'] at hactive
        have hroot := (hmem t.projectId).mpr
          ⟨t.projectId, (hl.roots _).mpr (List.mem_map_of_mem ht), hactive, .refl⟩
        rw [hnone] at hroot
        exact nomatch hroot
      · exact .inr ⟨_, hfresh, htaken,
          harchives₀.projectMarker_of_mem (hwhole hgroupWrite) hgroup⟩
  · have hall : (callsAll w (activeDeployables w trees)).all (·.resolves) = false := h.isOk.symm
    have harchives₀ := h.archives.congr_left hsame.1 hsame.2
    refine .error e fun hclean => ?_
    rw [AllOrNothing, written_append_of_not_all hall] at hclean
    rcases hclean with hnone | hwhole
    · rw [hnone] at harchives₀
      exact .inl harchives₀.rows_of_nil
    · have hids (p : String) : p ∈ written (callsAll w (activeDeployables w trees)) ↔
          GroupActive childOf inGroup w₀ p := by
        refine ⟨fun hp => (hmem p).mp (written_subset hp), fun hp => hwhole ?_⟩
        rw [writes_append]
        exact List.mem_append_left _ ((hmem p).mpr hp)
      exact .inr ⟨_, hfresh, hdown harchives₀ hids,
        harchives₀.projectMarker_of_mem (hwhole hgroupWrite) hgroup⟩

theorem GroupInv.isSome_project (h : GroupInv childOf inGroup group w₀ w) (p : String) :
    (w.projects p).isSome = (w₀.projects p).isSome := by
  rcases h with ⟨hprojects, -⟩ | ⟨m, -, hdown, -⟩
  · rw [hprojects]
  · exact hdown.stored p

/-- A step. -/
theorem archiveGroup_attempted {r : RootCalls} {tree : ProjectTree ArchiveCalls}
    {trees : List (ProjectTree ArchiveCalls)} (hl : GroupListing childOf inGroup trees)
    (hstored : Stored (idsAll trees) w₀) (hgroup : (w₀.projects tree.projectId).isSome)
    (hactive : ∃ d, inGroup d ∧ World.isArchived w₀ d = false)
    (hfresh : GroupFresh childOf inGroup w₀ r.archivedAt)
    (hI : GroupInv childOf inGroup tree.projectId w₀ w) :
    (archiveGroup r tree trees).Ends w (GroupAttempted
      (AllOrNothing (groupCalls r tree.projectId trees w)) childOf inGroup tree.projectId w₀) := by
  obtain ⟨d, hd, hdactive⟩ := hactive
  obtain ⟨t, ht, rfl⟩ := List.mem_map.mp ((hl.roots d).mp hd)
  have hrow := Option.isSome_iff_ne_none.mp ((hI.isSome_project tree.projectId).trans hgroup)
  unfold archiveGroup
  refine ends_await_bind _ (.error _ fun _ => hI) fun _ => ?_
  rw [Prog.ends_read_bind, if_neg (by simpa using hrow)]
  refine ends_await_bind _ (.error _ fun _ => hI) fun _ => ?_
  rw [if_neg (by simpa using List.ne_nil_of_mem ht), Prog.ends_read_bind]
  rcases hI with hsame | hdown
  · have hmem : t ∈ activeDeployables w trees := by
      refine List.mem_filter.mpr ⟨ht, ?_⟩
      rw [isArchived_congr hsame, hdactive]
      rfl
    have hne : activeDeployables w trees ≠ [] := List.ne_nil_of_mem hmem
    rw [if_neg (by simpa [activeDeployables] using hne)]
    refine (loadRuntimeProjects_ends _).bind (fun _ w' hw' => ?_) fun e w' hw' => ?_
    · subst hw'
      exact archiveActive_attempted hl hstored hgroup hfresh hsame hne
    · subst hw'
      exact .error e fun _ => .inl hsame
  · have hnil := hdown.activeDeployables_eq_nil hl
    unfold activeDeployables at hnil
    rw [hnil]
    exact .down hdown

/-- Where no service is active at first, an attempt changes nothing. -/
theorem archiveGroup_sameDatabase {r : RootCalls} {tree : ProjectTree ArchiveCalls}
    {trees : List (ProjectTree ArchiveCalls)} (hl : GroupListing childOf inGroup trees)
    (hne : trees ≠ []) (harchived : ∀ d, inGroup d → World.isArchived w₀ d = true)
    (hsame : SameDatabase w₀ w) :
    (archiveGroup r tree trees).Ends w fun _ w' => SameDatabase w₀ w' := by
  have hnil : trees.filter (!World.isArchived w ·.projectId) = [] := by
    refine List.filter_eq_nil_iff.mpr fun t ht => ?_
    rw [isArchived_congr hsame, harchived _ ((hl.roots _).mpr (List.mem_map_of_mem ht))]
    exact Bool.false_ne_true
  unfold archiveGroup
  refine ends_await_bind _ hsame fun _ => ?_
  rw [Prog.ends_read_bind]
  split
  · exact hsame
  · refine ends_await_bind _ hsame fun _ => ?_
    rw [if_neg (by simpa using hne), Prog.ends_read_bind, hnil]
    exact hsame

/-! ## The restore -/

theorem restoring_unarchiveEach : (trees : List (ProjectTree UnarchiveCalls)) →
    (serviceIds (idsAll trees)).Nodup → ∀ w : World,
      (∀ t ∈ trees, (w.projects t.projectId).isSome) →
        (unarchiveEach trees).Ends w (Restoring (trees.flatMap (restored w)) w)
  | [], _, w, _ => by
    rw [unarchiveEach]
    exact fun _ => .refl
  | t :: ts, hnodup, w, hstored => by
    rw [idsAll_cons, serviceIds, List.map_append] at hnodup
    rw [unarchiveEach, List.flatMap_cons]
    refine restoring_bind (restoring_unarchiveRuntimeProject t hnodup.of_append_left w
      (hstored t (.head _))) fun _ w' hw' => ?_
    have hother (v : String) (hv : v ∈ idsAll ts) :
        projectIdToDeployableServiceId v ∉ serviceIds (restored w t) := fun hmem =>
      List.disjoint_of_nodup_append hnodup
        (List.map_subset _ (restored_subset t) hmem) (List.mem_map_of_mem hv)
    have hrestored : ts.flatMap (restored w) = ts.flatMap (restored w') := by
      refine List.flatMap_congr fun u hu => (restored_congr (fun v hv => ?_) ?_).symm
      · have hmem : v ∉ restored w t := fun hmem =>
          hother v (mem_selectedAll.mpr ⟨u, hu, rfl, hv⟩) (List.mem_map_of_mem hmem)
        rw [hw'.projects, if_neg hmem]
      · rw [hw'.services, if_neg
          (hother _ (mem_selectedAll.mpr ⟨u, hu, rfl, projectId_mem_ids u⟩))]
    rw [hrestored]
    exact restoring_unarchiveEach ts hnodup.of_append_right w' fun u hu =>
      (hw'.rows _).trans (hstored u (.tail _ hu))

/-- The services have the marker of the group exactly if they were active. -/
theorem GroupDown.serviceMarker_iff (hfresh : GroupFresh childOf inGroup w₀ m)
    (hdown : TakenDown (GroupActive childOf inGroup w₀) group m w₀ w) (hd : inGroup d) :
    World.serviceMarker w (projectIdToDeployableServiceId d) = some m ↔
      World.isArchived w₀ d = false := by
  cases hactive : World.isArchived w₀ d with
  | false => exact iff_of_true (hdown.service d ⟨d, hd, hactive, .refl⟩) rfl
  | true =>
    rw [hdown.serviceMarker_of_isArchived (fun _ => GroupActive.not_isArchived) hactive]
    exact iff_of_false (hfresh.2 d hd) Bool.noConfusion

theorem mem_flatMap_restored {trees : List (ProjectTree κ)}
    (hl : GroupListing childOf inGroup trees)
    (hchild : ∀ p v, InGroup childOf inGroup p → childOf p v → v ≠ group)
    (hfresh : GroupFresh childOf inGroup w₀ m)
    (hdown : TakenDown (GroupActive childOf inGroup w₀) group m w₀ w)
    (hgroup : World.projectMarker w group = some m) (v : String) :
    v ∈ (trees.filter fun t => World.serviceMarker w
      (projectIdToDeployableServiceId t.projectId) = some m).flatMap (restored w) ↔
        GroupActive childOf inGroup w₀ v := by
  have hrestored (t : ProjectTree κ) (ht : t ∈ trees)
      (hactive : World.isArchived w₀ t.projectId = false) :
      v ∈ restored w t ↔ Active childOf t.projectId w₀ v := by
    have hd := (hl.roots _).mpr (List.mem_map_of_mem ht)
    have hmarker : World.restoreMarker w t.projectId = some m := by
      rw [World.restoreMarker, (GroupDown.serviceMarker_iff hfresh hdown hd).mpr hactive]
      by_cases hid : t.projectId = group
      · rw [hid, hgroup, Option.some_or]
      · rw [hdown.project t.projectId ⟨_, hd, hactive, .refl⟩ hid, Option.some_or]
    rw [restored, hmarker]
    refine (mem_selected t (listsAll_iff.mp hl.lists t ht)).trans ?_
    exact hdown.below_iff (fun v hv => ⟨_, hd, hactive, hv⟩) (fun _ => GroupActive.not_isArchived)
      (fun p v hp => hchild p v ⟨_, hd, hp⟩) (hfresh.1 _ hd) v
  rw [List.mem_flatMap]
  constructor
  · intro ⟨t, ht, hv⟩
    obtain ⟨ht, hmarker⟩ := List.mem_filter.mp ht
    have hd := (hl.roots _).mpr (List.mem_map_of_mem ht)
    have hactive := (GroupDown.serviceMarker_iff hfresh hdown hd).mp (of_decide_eq_true hmarker)
    exact ⟨_, hd, hactive, (hrestored t ht hactive).mp hv⟩
  · intro ⟨d, hd, hactive, hv⟩
    obtain ⟨t, ht, rfl⟩ := List.mem_map.mp ((hl.roots d).mp hd)
    have hmarker := (GroupDown.serviceMarker_iff hfresh hdown hd).mpr hactive
    exact ⟨t, List.mem_filter.mpr ⟨ht, decide_eq_true hmarker⟩, (hrestored t ht hactive).mpr hv⟩

/-- After a restore that succeeds every service is archived as it was at first. -/
def BackAgain (w₀ : World) (r : Except Failure α) (w' : World) : Prop :=
  r.isOk → ∀ v, World.isArchived w' v = World.isArchived w₀ v

theorem BackAgain.error (e : Failure) : BackAgain w₀ (.error e : Except Failure α) w' :=
  fun h => nomatch h

theorem GroupDown.backAgain {r : RootCalls} {tree : ProjectTree UnarchiveCalls}
    {trees : List (ProjectTree UnarchiveCalls)} (hl : GroupListing childOf inGroup trees)
    (hstored : Stored (idsAll trees) w₀) (hne : trees ≠ [])
    (hchild : ∀ p v, InGroup childOf inGroup p → childOf p v → v ≠ tree.projectId)
    (h : GroupDown childOf inGroup tree.projectId w₀ w) :
    (unarchiveGroup r tree trees).Ends w (BackAgain w₀) := by
  obtain ⟨m, hfresh, hdown, hgroup⟩ := h
  obtain ⟨row, hrow, harchivedAt⟩ := Option.bind_eq_some_iff.mp hgroup
  unfold unarchiveGroup
  refine ends_await_bind _ (.error _) fun _ => ?_
  rw [Prog.ends_read_bind, hrow]
  refine ends_await_bind _ (.error _) fun _ => ?_
  rw [if_neg (by simpa using hne), harchivedAt]
  dsimp only
  rw [Prog.ends_read_bind]
  have hsub : (trees.filter fun t => World.serviceMarker w
      (projectIdToDeployableServiceId t.projectId) = some m).Sublist trees := List.filter_sublist
  have hnodup := hl.nodup.sublist ((idsAll_sublist hsub).map projectIdToDeployableServiceId)
  refine (restoring_unarchiveEach _ hnodup w fun t ht => ?_).bind (fun _ w₁ h₁ => ?_)
    fun e _ _ => .error e
  · rw [hdown.stored]
    exact (hstored _ (mem_selectedAll.mpr ⟨t, hsub.subset ht, rfl, projectId_mem_ids t⟩)).1
  · have hback := (h₁ rfl).isArchived (mem_flatMap_restored hl hchild hfresh hdown hgroup)
      (fun _ => GroupActive.not_isArchived) hdown
    cases r.setProjectArchivedAt with
    | false => exact .error _
    | true => exact fun _ => hback

/-- Where no service is active at first, the restore brings one back only if it has the marker that
the row of the group has. -/
theorem SameDatabase.backAgain {r : RootCalls} {tree : ProjectTree UnarchiveCalls}
    {trees : List (ProjectTree UnarchiveCalls)} (hl : GroupListing childOf inGroup trees)
    (hne : trees ≠ [])
    (hmarker : ∀ d, inGroup d → ∀ m, World.projectMarker w₀ tree.projectId = some m →
      World.serviceMarker w₀ (projectIdToDeployableServiceId d) ≠ some m)
    (h : SameDatabase w₀ w) : (unarchiveGroup r tree trees).Ends w (BackAgain w₀) := by
  have hback : BackAgain w₀ (.ok () : Except Failure Unit) w := fun _ v => isArchived_congr h v
  unfold unarchiveGroup
  refine ends_await_bind _ (.error _) fun _ => ?_
  rw [Prog.ends_read_bind]
  cases hrow : w.projects tree.projectId with
  | none => exact hback
  | some row =>
    refine ends_await_bind _ (.error _) fun _ => ?_
    rw [if_neg (by simpa using hne)]
    cases harchivedAt : row.archivedAt with
    | none => exact hback
    | some m =>
      have hgroup : World.projectMarker w₀ tree.projectId = some m := by
        rw [World.projectMarker, ← h.1, hrow]
        exact harchivedAt
      have hnil : (trees.filter fun t => World.serviceMarker w
          (projectIdToDeployableServiceId t.projectId) = some m) = [] := by
        refine List.filter_eq_nil_iff.mpr fun t ht hmem => ?_
        have hservice := of_decide_eq_true hmem
        rw [World.serviceMarker, h.2] at hservice
        exact hmarker _ ((hl.roots _).mpr (List.mem_map_of_mem ht)) m hgroup hservice
      dsimp only
      rw [Prog.ends_read_bind]
      unfold World.serviceMarker at hnil
      rw [hnil]
      cases r.setProjectArchivedAt with
      | false => exact .error _
      | true => exact hback

end OpenLander.Pipeline.Lifecycle
