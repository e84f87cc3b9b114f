import OpenLander.Pipeline.ArchiveRestore
import OpenLander.Theory.Run

/-! # Attempts to archive, and the restore after them

An attempt that fails between its first and its last write leaves services with a marker of its own:
the next attempt passes over them, and the restore does not know them. Where every attempt writes
all its rows or none, the rows are as at first until one attempt has written them all, and then the
restore finds by the marker what that attempt took down. -/

namespace OpenLander.Pipeline.Lifecycle
open Theory
open ProjectTree (selectedAll idsAll)

/-- The tree of the project, as the database lists it. -/
structure Listing (childOf : String → String → Prop) (root : String) (tree : ProjectTree κ) :
    Prop where
  root : tree.projectId = root
  lists : tree.Lists childOf
  nodup : (serviceIds tree.ids).Nodup

section
variable (childOf : String → String → Prop) (root : String)

/-- The project and all that is below it. -/
def InStack : String → Prop := Below childOf (fun _ => true) root

/-- The services that an archive takes down: those that are active, below others that are. -/
def Active (w : World) : String → Prop := Below childOf (!World.isArchived w ·) root

/-- No child that is archived has the marker. -/
def Fresh (w : World) (m : String) : Prop :=
  ∀ p v, InStack childOf root p → childOf p v → World.isArchived w v →
    World.projectMarker w v ≠ some m

end

variable {childOf : String → String → Prop} {root m : String} {w₀ w w' : World}

/-! ## What is taken down -/

/-- The rows of these projects have got the marker; for the row of the root project nothing is
said. -/
structure TakenDown (R : String → Prop) (root m : String) (w₀ w : World) : Prop where
  stored : ∀ p, (w.projects p).isSome = (w₀.projects p).isSome
  storedService : ∀ s, (w.services s).isSome = (w₀.services s).isSome
  project : ∀ p, R p → p ≠ root → World.projectMarker w p = some m
  otherProject : ∀ p, ¬R p → p ≠ root → World.projectMarker w p = World.projectMarker w₀ p
  service : ∀ p, R p → World.serviceMarker w (projectIdToDeployableServiceId p) = some m
  otherService : ∀ s, (∀ p, R p → projectIdToDeployableServiceId p ≠ s) →
    World.serviceMarker w s = World.serviceMarker w₀ s

variable {R : String → Prop}

theorem projectMarker_eq (h : w'.projects = w.projects) (p : String) :
    World.projectMarker w' p = World.projectMarker w p := by
  rw [World.projectMarker, World.projectMarker, h]

theorem serviceMarker_eq (h : w'.services = w.services) (s : String) :
    World.serviceMarker w' s = World.serviceMarker w s := by
  rw [World.serviceMarker, World.serviceMarker, h]

theorem TakenDown.of_rows (h : TakenDown R root m w₀ w) (hp : w'.projects = w.projects)
    (hs : w'.services = w.services) : TakenDown R root m w₀ w' where
  stored p := hp ▸ h.stored p
  storedService s := hs ▸ h.storedService s
  project p hR hne := (projectMarker_eq hp p).trans (h.project p hR hne)
  otherProject p hR hne := (projectMarker_eq hp p).trans (h.otherProject p hR hne)
  service p hR := (serviceMarker_eq hs _).trans (h.service p hR)
  otherService s hs' := (serviceMarker_eq hs s).trans (h.otherService s hs')

theorem setProjectArchivedAt_of_ne (archivedAt : Option String) (hne : p ≠ root) :
    (World.setProjectArchivedAt w root archivedAt).projects p = w.projects p :=
  Function.update_of_ne hne ..

@[simp] theorem setProjectArchivedAt_self (archivedAt : Option String) :
    (World.setProjectArchivedAt w root archivedAt).projects root =
      (w.projects root).map ({ · with archivedAt }) :=
  Function.update_self ..

/-- The row of the root is free to change. -/
theorem TakenDown.setProjectArchivedAt (h : TakenDown R root m w₀ w) (archivedAt : Option String) :
    TakenDown R root m w₀ (World.setProjectArchivedAt w root archivedAt) where
  stored p := by
    rw [← h.stored p]
    by_cases hp : p = root
    · subst hp
      rw [setProjectArchivedAt_self, Option.isSome_map]
    · rw [setProjectArchivedAt_of_ne _ hp]
  storedService := h.storedService
  project p hR hne := by
    rw [World.projectMarker, setProjectArchivedAt_of_ne _ hne]
    exact h.project p hR hne
  otherProject p hR hne := by
    rw [World.projectMarker, setProjectArchivedAt_of_ne _ hne]
    exact h.otherProject p hR hne
  service := h.service
  otherService := h.otherService

theorem Archives.projectMarker_of_mem (h : Archives m ids w w') (hp : p ∈ ids)
    (hstored : (w.projects p).isSome) : World.projectMarker w' p = some m := by
  obtain ⟨row, hrow⟩ := Option.isSome_iff_exists.mp hstored
  rw [World.projectMarker, h.projects, if_pos hp, hrow]
  rfl

theorem Archives.projectMarker_of_not_mem (h : Archives m ids w w') (hp : p ∉ ids) :
    World.projectMarker w' p = World.projectMarker w p := by
  rw [World.projectMarker, h.projects, if_neg hp]
  rfl

theorem Archives.serviceMarker_of_mem (h : Archives m ids w w') (hp : p ∈ ids)
    (hstored : (World.service w p).isSome) :
    World.serviceMarker w' (projectIdToDeployableServiceId p) = some m := by
  obtain ⟨row, hrow⟩ := Option.isSome_iff_exists.mp hstored
  have hmap := h.archivedAt p hp
  rw [hrow, Option.map_some] at hmap
  obtain ⟨row', hrow', harchivedAt⟩ := Option.map_eq_some_iff.mp hmap
  rw [World.serviceMarker, show w'.services _ = some row' from hrow']
  exact harchivedAt

theorem Archives.isSome_service (h : Archives m ids w w') (s : String) :
    (w'.services s).isSome = (w.services s).isSome := by
  by_cases hs : s ∈ serviceIds ids
  · obtain ⟨p, -, rfl⟩ := List.mem_map.mp hs
    have hmap := congrArg Option.isSome (h.map_service p none)
    rw [Option.isSome_map, Option.isSome_map] at hmap
    exact hmap
  · rw [h.services s hs]

theorem Archives.congr_left (h : Archives m ids w w') (hp : w.projects = w₀.projects)
    (hs : w.services = w₀.services) : Archives m ids w₀ w' where
  projects p := hp ▸ h.projects p
  archivedAt p hmem := by
    have hmap := h.archivedAt p hmem
    unfold World.service at hmap ⊢
    rwa [hs] at hmap
  services s hmem := hs ▸ h.services s hmem

theorem Archives.rows_of_nil (h : Archives m [] w w') :
    w'.projects = w.projects ∧ w'.services = w.services :=
  ⟨funext fun p => (h.projects p).trans (if_neg List.not_mem_nil),
    funext fun s => h.services s List.not_mem_nil⟩

theorem TakenDown.of_archives (h : Archives m ids w₀ w) (hids : ∀ p, p ∈ ids ↔ R p)
    (hstored : Stored ids w₀) : TakenDown R root m w₀ w where
  stored := h.isSome_project
  storedService := h.isSome_service
  project p hR _ := h.projectMarker_of_mem ((hids p).mpr hR) (hstored p ((hids p).mpr hR)).1
  otherProject p hR _ := h.projectMarker_of_not_mem fun hp => hR ((hids p).mp hp)
  service p hR := h.serviceMarker_of_mem ((hids p).mpr hR) (hstored p ((hids p).mpr hR)).2
  otherService s hs := by
    have hmem : s ∉ serviceIds ids := by
      intro hmem
      obtain ⟨p, hp, hps⟩ := List.mem_map.mp hmem
      exact hs p ((hids p).mp hp) hps
    rw [World.serviceMarker, h.services s hmem]
    rfl

theorem Active.inStack (h : Active childOf root w v) : InStack childOf root v :=
  Relation.ReflTransGen.mono (fun _ _ ⟨hchild, _⟩ => ⟨hchild, rfl⟩) _ _ h

theorem Active.not_isArchived (hroot : World.isArchived w root = false)
    (h : Active childOf root w v) : World.isArchived w v = false := by
  cases h with
  | refl => exact hroot
  | tail _ hlast => simpa using hlast.2

theorem Listing.mem_ids {tree : ProjectTree κ} (h : Listing childOf root tree) :
    v ∈ tree.ids ↔ InStack childOf root v := by
  rw [ProjectTree.ids, mem_selected tree h.lists, h.root]
  rfl

/-- The root is the child of no project of its stack. -/
theorem Listing.ne_root {tree : ProjectTree κ} (h : Listing childOf root tree)
    (hp : InStack childOf root p) (hchild : childOf p v) : v ≠ root := by
  obtain ⟨rfl, hlists, hnodup⟩ := h
  obtain ⟨r, c, children⟩ := tree
  have hbelow : ∃ u, childOf r u ∧ Below childOf (fun _ => true) u v := by
    rcases Relation.ReflTransGen.cases_head hp with rfl | ⟨u, ⟨hu, -⟩, hup⟩
    · exact ⟨v, hchild, .refl⟩
    · exact ⟨u, hu, hup.tail ⟨hchild, rfl⟩⟩
  obtain ⟨u, hu, huv⟩ := hbelow
  obtain ⟨t, ht, rfl⟩ := List.mem_map.mp ((hlists.1 u).mp hu)
  have hv : v ∈ idsAll children :=
    mem_selectedAll.mpr ⟨t, ht, rfl, (mem_selected t (listsAll_iff.mp hlists.2 t ht)).mpr huv⟩
  rw [ids_node, serviceIds, List.map_append] at hnodup
  rintro rfl
  exact List.disjoint_of_nodup_append hnodup (List.mem_map_of_mem hv)
    (List.mem_map_of_mem (List.mem_singleton_self _))

/-! ## One attempt -/

/-- The calls write all their rows or none: none of them rejects between the first write and the
last. -/
def AllOrNothing (l : List Call) : Prop := written l = [] ∨ writes l ⊆ written l

/-- The stack has been taken down, with a marker that no other child has. -/
def Down (childOf : String → String → Prop) (root : String) (w₀ w : World) : Prop :=
  ∃ m, Fresh childOf root w₀ m ∧ TakenDown (Active childOf root w₀) root m w₀ w ∧
    ∀ r, World.projectMarker w root = some r → r = m

/-- What holds between the attempts. -/
def Inv (childOf : String → String → Prop) (root : String) (w₀ w : World) : Prop :=
  (w.projects = w₀.projects ∧ w.services = w₀.services) ∨ Down childOf root w₀ w

theorem Down.of_rows (h : Down childOf root w₀ w) (hp : w'.projects = w.projects)
    (hs : w'.services = w.services) : Down childOf root w₀ w' := by
  obtain ⟨m, hfresh, hdown, hroot⟩ := h
  exact ⟨m, hfresh, hdown.of_rows hp hs, fun r hr => hroot r (projectMarker_eq hp root ▸ hr)⟩

theorem Down.isArchived (h : Down childOf root w₀ w) : World.isArchived w root = true := by
  obtain ⟨m, -, hdown, -⟩ := h
  have hmarker := hdown.service root .refl
  rw [World.serviceMarker] at hmarker
  rw [World.isArchived, hmarker]
  rfl

theorem Down.clear (h : Down childOf root w₀ w) :
    Down childOf root w₀ (World.setProjectArchivedAt w root none) := by
  obtain ⟨m, hfresh, hdown, hroot⟩ := h
  refine ⟨m, hfresh, hdown.setProjectArchivedAt none, fun r hr => ?_⟩
  rw [World.projectMarker, setProjectArchivedAt_self] at hr
  cases hrow : w.projects root <;> simp [hrow] at hr

theorem Inv.stored (h : Inv childOf root w₀ w) (hstored : Stored ids w₀) : Stored ids w := by
  intro p hp
  have hrows : (w.projects p).isSome = (w₀.projects p).isSome ∧
      (World.service w p).isSome = (World.service w₀ p).isSome := by
    rcases h with ⟨hprojects, hservices⟩ | ⟨m, -, hdown, -⟩
    · rw [World.service, World.service, hprojects, hservices]
      exact ⟨rfl, rfl⟩
    · exact ⟨hdown.stored p, hdown.storedService _⟩
  rw [hrows.1, hrows.2]
  exact hstored p hp

theorem Inv.of_rows (h : Inv childOf root w₀ w) (hp : w'.projects = w.projects)
    (hs : w'.services = w.services) : Inv childOf root w₀ w' :=
  h.imp (fun ⟨hp', hs'⟩ => ⟨hp.trans hp', hs.trans hs'⟩) (·.of_rows hp hs)

/-- The marker of a group is at most taken off. -/
theorem clear_ends (c : ArchiveCalls) (p : String) (deployable : Option ServiceRow) :
    (clearPartialGroupArchiveMarkerAfterRuntimeArchive c p deployable).Ends w fun _ w' =>
      w' = w ∨ w' = World.setProjectArchivedAt w
        (deployableServiceIdToProjectId (projectIdToDeployableServiceId p)) none := by
  unfold clearPartialGroupArchiveMarkerAfterRuntimeArchive
  cases deployable with
  | none => exact .inl rfl
  | some deployable =>
    dsimp only
    split
    · rename_i hprimary
      cases c.getDeployablesByGroup with
      | none => exact .inl rfl
      | some deployables =>
        unfold clearPartialGroupArchiveMarker
        dsimp only
        rw [Prog.ends_read_bind, of_decide_eq_true hprimary]
        split
        · cases c.setProjectArchivedAt with
          | false => exact .inl rfl
          | true => exact .inr rfl
        · exact .inl rfl
    · exact .inl rfl

/-- What an attempt leaves: the invariant, if its calls are `clean`, and the stack is down if it
succeeds. -/
def Attempted (clean : Prop) (childOf : String → String → Prop) (root : String) (w₀ : World)
    (r : Except Failure α) (w' : World) : Prop :=
  (clean → Inv childOf root w₀ w') ∧ (r.isOk → Down childOf root w₀ w')

theorem Attempted.error {clean : Prop} (e : Failure) (h : Inv childOf root w₀ w') :
    Attempted clean childOf root w₀ (.error e : Except Failure α) w' :=
  ⟨fun _ => h, fun hr => nomatch hr⟩

theorem Attempted.down {clean : Prop} {r : Except Failure α} (h : Down childOf root w₀ w') :
    Attempted clean childOf root w₀ r w' :=
  ⟨fun _ => .inr h, fun _ => h⟩

/-- A stack is archived with a marker. -/
theorem archiveRuntimeProject_inv {tree : ProjectTree ArchiveCalls}
    (hl : Listing childOf root tree) (hstored : Stored tree.ids w₀)
    (hactive : World.isArchived w₀ root = false) (hfresh : Fresh childOf root w₀ m)
    (hI : Inv childOf root w₀ w) :
    (archiveRuntimeProject (some m) tree).Ends w
      (Attempted (AllOrNothing (calls w tree)) childOf root w₀) := by
  refine (progress_archiveRuntimeProject tree hl.nodup w).mono fun r w' hprogress => ?_
  have hall : r.isOk → written (calls w tree) = writes (calls w tree) := fun hr =>
    written_of_all (hprogress.isOk ▸ hr)
  have hroot : root ∈ tree.ids := hl.root ▸ projectId_mem_ids tree
  rcases hI with ⟨hp, hs⟩ | hdown
  · have hsame : SameRows tree.ids w₀ w := fun p _ => ⟨by rw [hp], by rw [World.service, hs]; rfl⟩
    have hcalls := calls_congr tree hsame
    have htaken (p : String) : p ∈ writes (calls w tree) ↔ Active childOf root w₀ p := by
      rw [hcalls, writes_calls tree hstored, taken, hl.root, hactive]
      exact (mem_selected tree hl.lists).trans (by rw [hl.root]; rfl)
    have harchives : Archives m (written (calls w tree)) w₀ w' :=
      hprogress.archives.congr_left hp hs
    have hdown (hwhole : writes (calls w tree) ⊆ written (calls w tree)) :
        Down childOf root w₀ w' := by
      have hids (p : String) : p ∈ written (calls w tree) ↔ Active childOf root w₀ p :=
        ⟨fun hmem => (htaken p).mp (written_subset hmem), fun hR => hwhole ((htaken p).mpr hR)⟩
      have hsub : Stored (written (calls w tree)) w₀ := fun p hmem =>
        hstored p (hl.mem_ids.mpr ((hids p).mp hmem).inStack)
      have hmarker := harchives.projectMarker_of_mem ((hids root).mpr .refl)
        (hstored root hroot).1
      exact ⟨m, hfresh, .of_archives harchives hids hsub,
        fun r hr => Option.some.inj (hr.symm.trans hmarker)⟩
    refine ⟨fun hclean => ?_, fun hr => hdown (hall hr ▸ List.Subset.refl _)⟩
    rcases hclean with hnone | hwhole
    · rw [hnone] at harchives
      exact .inl harchives.rows_of_nil
    · exact .inr (hdown hwhole)
  · have hskip : writes (calls w tree) = [] := by
      rw [writes_calls tree (Inv.stored (.inr hdown) hstored), taken, hl.root,
        hdown.isArchived, if_pos rfl]
    have hnone : written (calls w tree) = [] := List.subset_nil.mp (hskip ▸ written_subset)
    have hrows := (hnone ▸ hprogress.archives : Archives m [] w w').rows_of_nil
    exact .down (hdown.of_rows hrows.1 hrows.2)

/-! ## A project without services below -/

/-- Both worlds have the same rows. -/
def SameDatabase (w w' : World) : Prop := w'.projects = w.projects ∧ w'.services = w.services

/-- The rows of the project are left, or they are written and at most the marker of the project is
taken off again. -/
def LeafEnd (m p : String) (w : World) (r : Except Failure α) (w' : World) : Prop :=
  r.isOk = false ∧ SameDatabase w w' ∨
    ∃ w₁, Archives m [p] w w₁ ∧
      (SameDatabase w₁ w' ∨ SameDatabase (World.setProjectArchivedAt w₁
        (deployableServiceIdToProjectId (projectIdToDeployableServiceId p)) none) w')

theorem archiveRecord_leafEnd {c : ArchiveCalls} {p : String} {service : Option ServiceRow}
    {view : ServiceView} (hp : (w.projects p).isSome) :
    (archiveRecord c p none service view).Ends w (LeafEnd c.now p w) := by
  have harchive : (archiveProject c.archiveProject p c.now none).Ends w
      (Progress c.now [⟨c.archiveProject, some p⟩] w) :=
    progress_archiveProject hp c.archiveProject
  refine harchive.bind (fun _ w₁ h₁ => ?_) fun e w' h => ?_
  · obtain ⟨harchives, -⟩ := h₁.archives_of_ok
    refine (clear_ends c p service).bind (fun _ w₂ h₂ => ?_) fun e w₂ h₂ => ?_
    · refine (progress_dropRuntime (m := c.now) view.containerId view.imageTag).mono
        fun r w₃ h₃ => .inr ⟨w₁, harchives, ?_⟩
      have hrows := h₃.archives.rows_of_nil
      rcases h₂ with rfl | rfl
      · exact .inl hrows
      · exact .inr hrows
    · refine .inr ⟨w₁, harchives, ?_⟩
      rcases h₂ with rfl | rfl
      · exact .inl ⟨rfl, rfl⟩
      · exact .inr ⟨rfl, rfl⟩
  · have hall : List.all [(⟨c.archiveProject, some p⟩ : Call)] (·.resolves) = false := h.isOk.symm
    have hresolves : c.archiveProject = false := by simpa using hall
    rw [hresolves] at h
    exact .inl ⟨rfl, h.archives.rows_of_nil⟩

theorem archiveResource_leafEnd {c : ArchiveCalls} {p : String} {project : Project}
    (hp : (w.projects p).isSome) (originalName : String) (containerId : ContainerId)
    (imageTag : Option String) :
    (archiveResource c p project originalName c.now containerId imageTag).Ends w
      (LeafEnd c.now p w) := by
  refine (progress_archiveResource hp originalName containerId imageTag).mono fun r w' h => ?_
  have hwrites : writes (keepCalls c p ⟨c.containerIdText, project.name⟩ originalName) = [p] := by
    unfold keepCalls
    split <;> rfl
  have hsub : (written (keepCalls c p ⟨c.containerIdText, project.name⟩ originalName)).Sublist [p] :=
    hwrites ▸ (List.takeWhile_sublist _).filterMap _
  rcases List.sublist_singleton.mp hsub with hnone | hself
  · refine .inl ⟨?_, (hnone ▸ h.archives : Archives c.now [] w w').rows_of_nil⟩
    cases hr : r.isOk with
    | false => rfl
    | true =>
      rw [written_of_all (h.isOk ▸ hr), hwrites] at hnone
      exact nomatch hnone
  · exact .inr ⟨w', hself ▸ h.archives, .inl ⟨rfl, rfl⟩⟩

theorem archiveSelf_leafEnd {c : ArchiveCalls} {p : String} {project : Project}
    {service : Option ServiceRow} (hp : (w.projects p).isSome) :
    (archiveSelf c p none project service).Ends w (LeafEnd c.now p w) := by
  unfold archiveSelf
  dsimp only
  cases retained c service (serviceViewFromRows project service) with
  | none => exact archiveRecord_leafEnd hp
  | some kept => exact archiveResource_leafEnd hp _ _ _

theorem archiveLeaf_ends (c : ArchiveCalls) (hstored : (w.projects root).isSome) :
    (archiveRuntimeProject none (.node root c [])).Ends w (LeafEnd c.now root w) := by
  obtain ⟨row, hrow⟩ := Option.isSome_iff_exists.mp hstored
  have hnone : LeafEnd c.now root w (.error .other : Except Failure Unit) w := .inl ⟨rfl, rfl, rfl⟩
  rw [archiveRuntimeProject, archiveChildren]
  refine ends_await_bind _ hnone fun _ => ?_
  rw [Prog.ends_read_bind, World.getProject, hrow]
  refine ends_await_bind _ hnone fun _ => ?_
  rw [Prog.ends_read_bind]
  refine ends_await_bind _ hnone fun _ => ?_
  exact archiveSelf_leafEnd hstored

theorem below_iff_of_leaf {keep : String → Bool} (hleaf : ∀ v, ¬childOf root v) :
    Below childOf keep root v ↔ v = root := by
  constructor
  · intro h
    rcases Relation.ReflTransGen.cases_head h with rfl | ⟨u, ⟨hu, -⟩, -⟩
    · rfl
    · exact absurd hu (hleaf u)
  · rintro rfl
    exact .refl

theorem Inv.other (hleaf : ∀ v, ¬childOf root v) (h : Inv childOf root w₀ w) :
    (∀ p, (w.projects p).isSome = (w₀.projects p).isSome) ∧
      (∀ s, (w.services s).isSome = (w₀.services s).isSome) ∧
      (∀ p ≠ root, World.projectMarker w p = World.projectMarker w₀ p) ∧
      ∀ s ≠ projectIdToDeployableServiceId root,
        World.serviceMarker w s = World.serviceMarker w₀ s := by
  rcases h with ⟨hp, hs⟩ | ⟨m, -, hdown, -⟩
  · exact ⟨fun p => by rw [hp], fun s => by rw [hs], fun p _ => projectMarker_eq hp p,
      fun s _ => serviceMarker_eq hs s⟩
  · refine ⟨hdown.stored, hdown.storedService, fun p hne => ?_, fun s hne => ?_⟩
    · exact hdown.otherProject p (fun h => hne ((below_iff_of_leaf hleaf).mp h)) hne
    · refine hdown.otherService s fun p h heq => hne ?_
      rw [(below_iff_of_leaf hleaf).mp h] at heq
      exact heq.symm

theorem Down.of_leaf (hleaf : ∀ v, ¬childOf root v) (hp : (w.projects root).isSome)
    (hs : (World.service w root).isSome) (hI : Inv childOf root w₀ w)
    (h : Archives m [root] w w') : Down childOf root w₀ w' := by
  obtain ⟨hprojects, hservices, hproject, hservice⟩ := hI.other hleaf
  have hself := List.mem_singleton_self root
  have hfresh : Fresh childOf root w₀ m := by
    intro p v hstack hchild
    rw [(below_iff_of_leaf hleaf).mp hstack] at hchild
    exact absurd hchild (hleaf v)
  refine ⟨m, hfresh, ⟨?_, ?_, ?_, ?_, ?_, ?_⟩, ?_⟩
  · exact fun p => (h.isSome_project p).trans (hprojects p)
  · exact fun s => (h.isSome_service s).trans (hservices s)
  · exact fun p hR hne => absurd ((below_iff_of_leaf hleaf).mp hR) hne
  · intro p _ hne
    rw [h.projectMarker_of_not_mem (hne ∘ List.mem_singleton.mp), hproject p hne]
  · intro p hR
    rw [(below_iff_of_leaf hleaf).mp hR]
    exact h.serviceMarker_of_mem hself hs
  · intro s hs'
    have hne : s ≠ projectIdToDeployableServiceId root := (hs' root .refl).symm
    rw [World.serviceMarker, h.services s (hne ∘ List.mem_singleton.mp)]
    exact hservice s hne
  · exact fun r hr => Option.some.inj (hr.symm.trans (h.projectMarker_of_mem hself hp))

/-! ## Attempts -/

/-- The calls of an attempt to archive a stack. -/
def archiveCalls (r : RootCalls) (tree : ProjectTree ArchiveCalls) (w : World) : List Call :=
  [⟨r.getComposeChildProjects, none⟩, ⟨tree.calls.getProjectFirst, none⟩,
    ⟨tree.calls.loadServiceViewRecordFirst, none⟩] ++ calls w tree

theorem attempted_leaf {clean : Prop} (hl : Listing childOf root (.node root c []))
    (hid : deployableServiceIdToProjectId (projectIdToDeployableServiceId root) = root)
    (hstored : Stored [root] w₀) (hI : Inv childOf root w₀ w) :
    (archiveRuntimeProject none (.node root c [])).Ends w (Attempted clean childOf root w₀) := by
  have hleaf (v : String) : ¬childOf root v := fun h => nomatch (hl.lists.1 v).mp h
  obtain ⟨hp, hs⟩ := hI.stored hstored root (List.mem_singleton_self root)
  refine (archiveLeaf_ends c hp).mono fun r w' h => ?_
  rcases h with ⟨hr, hrows⟩ | ⟨w₁, harchives, hrows⟩
  · exact ⟨fun _ => hI.of_rows hrows.1 hrows.2, fun h => nomatch hr.symm.trans h⟩
  · have hdown₁ := Down.of_leaf hleaf hp hs hI harchives
    rcases hrows with hrows | hrows
    · exact .down (hdown₁.of_rows hrows.1 hrows.2)
    · rw [hid] at hrows
      exact .down (hdown₁.clear.of_rows hrows.1 hrows.2)

/-- A step. -/
theorem archive_attempted {r : RootCalls} {tree : ProjectTree ArchiveCalls}
    (hl : Listing childOf root tree)
    (hid : deployableServiceIdToProjectId (projectIdToDeployableServiceId root) = root)
    (hstored : Stored tree.ids w₀) (hactive : World.isArchived w₀ root = false)
    (hfresh : Fresh childOf root w₀ r.archivedAt) (hI : Inv childOf root w₀ w) :
    (archive r tree).Ends w
      (Attempted (AllOrNothing (archiveCalls r tree w)) childOf root w₀) := by
  obtain ⟨p, c, children⟩ := tree
  obtain rfl : p = root := hl.root
  have hrow := (hI.stored hstored p (projectId_mem_ids _)).1
  unfold archive
  cases children with
  | nil =>
    exact ends_await_bind _ (.error _ hI) fun _ => attempted_leaf hl hid hstored hI
  | cons child children =>
    refine ends_await_bind _ (.error _ hI) fun hroot => ?_
    rw [if_neg (by simp [ProjectTree.children])]
    refine ends_await_bind _ (.error _ hI) fun hproject => ?_
    rw [Prog.ends_read_bind, if_neg (by simpa [ProjectTree.projectId] using Option.isSome_iff_ne_none.mp hrow)]
    refine ends_await_bind _ (.error _ hI) fun hservice => ?_
    rw [Prog.ends_read_bind]
    have hcalls : AllOrNothing (archiveCalls r (.node p c (child :: children)) w) →
        AllOrNothing (calls w (.node p c (child :: children))) := by
      intro hclean
      rw [archiveCalls, hroot, hproject, hservice] at hclean
      exact hclean
    have hmarked := archiveRuntimeProject_inv hl hstored hactive hfresh hI
    refine hmarked.bind (fun _ w₁ h₁ => ?_) fun e w₁ h₁ =>
      ⟨fun hclean => h₁.1 (hcalls hclean), by rintro ⟨⟩⟩
    have hdown := h₁.2
    refine (clear_ends ..).mono fun r' w₂ h₂ => ?_
    rw [ProjectTree.projectId, hid] at h₂
    rcases h₂ with rfl | rfl
    · exact .down (hdown rfl)
    · exact .down (hdown rfl).clear

/-! ## The restore -/

/-- Steps that agree on what is reached reach the same. -/
theorem reflTransGen_iff {α : Type} {r r' : α → α → Prop} {a : α}
    (h : ∀ b, Relation.ReflTransGen r a b → ∀ c, r b c ↔ r' b c) (b : α) :
    Relation.ReflTransGen r a b ↔ Relation.ReflTransGen r' a b := by
  constructor
  · intro hab
    induction hab with
    | refl => exact .refl
    | tail hab hbc ih => exact ih.tail ((h _ hab _).mp hbc)
  · intro hab
    induction hab with
    | refl => exact .refl
    | tail _ hbc ih => exact ih.tail ((h _ ih _).mpr hbc)

/-- The marker finds what was taken down below a project of `R`. -/
theorem TakenDown.below_iff {d : String} (hR : ∀ v, Active childOf d w₀ v → R v)
    (hactive : ∀ v, R v → World.isArchived w₀ v = false)
    (hne : ∀ p v, InStack childOf d p → childOf p v → v ≠ root) (hfresh : Fresh childOf d w₀ m)
    (h : TakenDown R root m w₀ w) (v : String) :
    Below childOf (World.projectMarker w · = some m) d v ↔ Active childOf d w₀ v := by
  refine (reflTransGen_iff (fun p hp v => and_congr_right fun hchild => ?_) v).symm
  have hv := hne p v (Active.inStack hp) hchild
  rw [decide_eq_true_iff, Bool.not_eq_true']
  cases harchived : World.isArchived w₀ v with
  | false =>
    have hbelow : Active childOf d w₀ v := hp.tail ⟨hchild, by simpa using harchived⟩
    exact iff_of_true rfl (h.project v (hR v hbelow) hv)
  | true =>
    have hother : ¬R v := by
      intro hRv
      cases harchived.symm.trans (hactive v hRv)
    rw [h.otherProject v hother hv]
    exact iff_of_false Bool.noConfusion (hfresh p v (Active.inStack hp) hchild harchived)

theorem Restores.isArchived {ids : List String} (h : Restores ids w w')
    (hids : ∀ p, p ∈ ids ↔ R p) (hactive : ∀ p, R p → World.isArchived w₀ p = false)
    (hdown : TakenDown R root m w₀ w) (v : String) :
    World.isArchived w' v = World.isArchived w₀ v := by
  have hmarker := h.services (projectIdToDeployableServiceId v)
  by_cases hv : projectIdToDeployableServiceId v ∈ serviceIds ids
  · obtain ⟨p, hp, hpv⟩ := List.mem_map.mp hv
    have hwas := hactive p ((hids p).mp hp)
    rw [if_pos hv] at hmarker
    rw [World.isArchived] at hwas ⊢
    rw [World.isArchived, ← hpv, hwas, hpv]
    exact congrArg Option.isSome hmarker
  · have hother (p : String) (hR : R p) :
        projectIdToDeployableServiceId p ≠ projectIdToDeployableServiceId v := by
      intro heq
      exact hv (heq ▸ List.mem_map_of_mem ((hids p).mpr hR))
    rw [if_neg hv, hdown.otherService _ hother] at hmarker
    exact congrArg Option.isSome hmarker

theorem Down.isArchived_of_unarchive {tree : ProjectTree UnarchiveCalls}
    (hl : Listing childOf root tree) (hstored : (w₀.projects root).isSome)
    (hactive : World.isArchived w₀ root = false) (h : Down childOf root w₀ w)
    (hrun : (unarchiveRuntimeProject tree).run w = (.ok (), w')) (v : String) :
    World.isArchived w' v = World.isArchived w₀ v := by
  obtain ⟨m, hfresh, hdown, hroot⟩ := h
  have hrestoring := restoring_unarchiveRuntimeProject tree hl.nodup w
    (by rw [hl.root, hdown.stored]; exact hstored)
  rw [Prog.Ends, hrun] at hrestoring
  have hmarker : World.restoreMarker w tree.projectId = some m := by
    rw [hl.root, World.restoreMarker, hdown.service root .refl]
    cases hproject : World.projectMarker w root with
    | none => rfl
    | some r => rw [hroot r hproject, Option.some_or]
  have hrestores := hrestoring rfl
  rw [restored, hmarker] at hrestores
  refine hrestores.isArchived (fun p => ?_) (fun p hp => Active.not_isArchived hactive hp) hdown v
  rw [mem_selected tree hl.lists, hl.root]
  exact hdown.below_iff (fun _ => id) (fun _ h => Active.not_isArchived hactive h)
    (fun _ _ => hl.ne_root) hfresh p

end OpenLander.Pipeline.Lifecycle
