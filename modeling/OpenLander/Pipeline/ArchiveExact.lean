import OpenLander.Pipeline.ArchiveGroup

/-! # Failed attempts, an archive and a restore

The whole sequence: any attempts that fail, one that succeeds, and a restore of the same root. Between
two attempts the database may list the services of a project in another order. -/

namespace OpenLander.Pipeline.Lifecycle
open Theory
open ProjectTree (idsAll)

def unarchive (tree : ProjectTree UnarchiveCalls) : Async Unit := unarchiveRuntimeProject tree

/-! ## Stacks -/

structure StackAttempt where
  calls : RootCalls
  tree : ProjectTree ArchiveCalls

section
variable (childOf : String → String → Prop) (root : String)

def StackAttempt.Fails (w : World) (a : StackAttempt) (w' : World) : Prop :=
  Listing childOf root a.tree ∧ ∃ e, (archive a.calls a.tree).run w = (.error e, w')

/-- The rows of a stack that is archived, after attempts that fail, and restored. -/
structure StackRun (w₀ : World) (attempts : List StackAttempt) (last : StackAttempt)
    (restore : ProjectTree UnarchiveCalls) (w₁ w₂ w₃ : World) : Prop where
  stored : ∀ v, InStack childOf root v → (w₀.projects v).isSome ∧ (World.service w₀ v).isSome
  /-- The ids of projects do not end as those of services do. -/
  rootId : deployableServiceIdToProjectId (projectIdToDeployableServiceId root) = root
  attempts : Run (StackAttempt.Fails childOf root) w₀ attempts w₁
  lastListing : Listing childOf root last.tree
  archive : (archive last.calls last.tree).run w₁ = (.ok (), w₂)
  restoreListing : Listing childOf root restore
  unarchive : (unarchive restore).run w₂ = (.ok (), w₃)

/-- Every service of the stack is archived afterwards exactly if it was at first. -/
def StackRestored (w₀ w₃ : World) : Prop :=
  ∀ v, InStack childOf root v → World.isArchived w₃ v = World.isArchived w₀ v

/-- The attempt fails before its first write or after its last, and its marker is new. -/
def StackAttempt.Whole (w₀ w : World) (a : StackAttempt) : Prop :=
  AllOrNothing (archiveCalls a.calls a.tree w) ∧ Fresh childOf root w₀ a.calls.archivedAt

end

variable {childOf : String → String → Prop} {root : String} {w₀ w w' w₁ w₂ w₃ : World}

theorem StackRun.storedIds {tree : ProjectTree κ}
    (hstored : ∀ v, InStack childOf root v →
      (w₀.projects v).isSome ∧ (World.service w₀ v).isSome)
    (hl : Listing childOf root tree) : Stored tree.ids w₀ :=
  fun p hp => hstored p (hl.mem_ids.mp hp)

theorem preserves_inv
    (hstored : ∀ v, InStack childOf root v →
      (w₀.projects v).isSome ∧ (World.service w₀ v).isSome)
    (hid : deployableServiceIdToProjectId (projectIdToDeployableServiceId root) = root)
    (hactive : World.isArchived w₀ root = false) :
    Preserves (Guarded (StackAttempt.Fails childOf root) (StackAttempt.Whole childOf root w₀))
      (Inv childOf root w₀) := by
  intro w a w' ⟨⟨hl, e, hrun⟩, hclean, hfresh⟩ hI
  have hends := archive_attempted hl hid (StackRun.storedIds hstored hl) hactive hfresh hI
  rw [Prog.Ends, hrun] at hends
  exact hends.1 hclean

theorem stackRestored_of_whole {attempts : List StackAttempt} {last : StackAttempt}
    {restore : ProjectTree UnarchiveCalls}
    (h : StackRun childOf root w₀ attempts last restore w₁ w₂ w₃)
    (hactive : World.isArchived w₀ root = false)
    (hwhole : Run (Guarded (StackAttempt.Fails childOf root) (StackAttempt.Whole childOf root w₀))
      w₀ attempts w₁)
    (hfresh : Fresh childOf root w₀ last.calls.archivedAt) :
    StackRestored childOf root w₀ w₃ := by
  have hI : Inv childOf root w₀ w₁ :=
    hwhole.invariant (preserves_inv h.stored h.rootId hactive) (.inl ⟨rfl, rfl⟩)
  have hlast := archive_attempted h.lastListing h.rootId
    (StackRun.storedIds h.stored h.lastListing) hactive hfresh hI
  rw [Prog.Ends, h.archive] at hlast
  exact fun v _ => (hlast.2 rfl).isArchived_of_unarchive h.restoreListing (h.stored root .refl).1
    hactive h.unarchive v

/-! ## Groups -/

structure GroupAttempt where
  calls : RootCalls
  tree : ProjectTree ArchiveCalls
  deployables : List (ProjectTree ArchiveCalls)

section
variable (childOf : String → String → Prop) (inGroup : String → Prop) (group : String)

def GroupAttempt.Fails (w : World) (a : GroupAttempt) (w' : World) : Prop :=
  a.tree.projectId = group ∧ GroupListing childOf inGroup a.deployables ∧
    ∃ e, (archiveGroup a.calls a.tree a.deployables).run w = (.error e, w')

/-- How the calls of a restore end. -/
structure GroupRestore where
  calls : RootCalls
  tree : ProjectTree UnarchiveCalls
  deployables : List (ProjectTree UnarchiveCalls)

/-- The rows of a group that is archived, after attempts that fail, and restored. -/
structure GroupRun (w₀ : World) (attempts : List GroupAttempt) (last : GroupAttempt)
    (restore : GroupRestore) (w₁ w₂ w₃ : World) : Prop where
  stored : ∀ v, InGroup childOf inGroup v →
    (w₀.projects v).isSome ∧ (World.service w₀ v).isSome
  storedGroup : (w₀.projects group).isSome
  /-- The group is not below one of its own services. -/
  group_ne : ∀ p v, InGroup childOf inGroup p → childOf p v → v ≠ group
  attempts : Run (GroupAttempt.Fails childOf inGroup group) w₀ attempts w₁
  lastTree : last.tree.projectId = group
  lastListing : GroupListing childOf inGroup last.deployables
  archiveGroup : (archiveGroup last.calls last.tree last.deployables).run w₁ = (.ok (), w₂)
  restoreTree : restore.tree.projectId = group
  restoreListing : GroupListing childOf inGroup restore.deployables
  unarchiveGroup :
    (unarchiveGroup restore.calls restore.tree restore.deployables).run w₂ = (.ok (), w₃)

/-- Every service of the group is archived afterwards exactly if it was at first. -/
def GroupRestored (w₀ w₃ : World) : Prop :=
  ∀ v, InGroup childOf inGroup v → World.isArchived w₃ v = World.isArchived w₀ v

/-- A marker that an archive writes is new. -/
def NewMarker (w₀ : World) (m : String) : Prop :=
  (∃ d, inGroup d ∧ World.isArchived w₀ d = false) → GroupFresh childOf inGroup w₀ m

/-- The attempt fails before its first write or after its last, and its marker is new. -/
def GroupAttempt.Whole (w₀ w : World) (a : GroupAttempt) : Prop :=
  AllOrNothing (groupCalls a.calls a.tree.projectId a.deployables w) ∧
    NewMarker childOf inGroup w₀ a.calls.archivedAt

/-- A service is active at first, or none has the marker that the row of the group happens to
have. -/
def GroupStarts (w₀ : World) : Prop :=
  (∃ d, inGroup d ∧ World.isArchived w₀ d = false) ∨
    ∀ d, inGroup d → ∀ m, World.projectMarker w₀ group = some m →
      World.serviceMarker w₀ (projectIdToDeployableServiceId d) ≠ some m

end

variable {inGroup : String → Prop} {group : String}

theorem GroupListing.stored {trees : List (ProjectTree κ)}
    (hl : GroupListing childOf inGroup trees)
    (hstored : ∀ v, InGroup childOf inGroup v →
      (w₀.projects v).isSome ∧ (World.service w₀ v).isSome) : Stored (idsAll trees) w₀ :=
  fun p hp => hstored p (hl.mem_idsAll.mp hp)

theorem GroupListing.ne_nil {trees : List (ProjectTree κ)}
    (hl : GroupListing childOf inGroup trees) (hd : inGroup d) : trees ≠ [] := by
  obtain ⟨t, ht, -⟩ := List.mem_map.mp ((hl.roots d).mp hd)
  exact List.ne_nil_of_mem ht

theorem preserves_groupInv
    (hstored : ∀ v, InGroup childOf inGroup v →
      (w₀.projects v).isSome ∧ (World.service w₀ v).isSome)
    (hgroup : (w₀.projects group).isSome)
    (hactive : ∃ d, inGroup d ∧ World.isArchived w₀ d = false) :
    Preserves (Guarded (GroupAttempt.Fails childOf inGroup group)
      (GroupAttempt.Whole childOf inGroup w₀)) (GroupInv childOf inGroup group w₀) := by
  intro w a w' ⟨⟨htree, hl, e, hrun⟩, hclean, hfresh⟩ hI
  subst htree
  have hends := archiveGroup_attempted hl (hl.stored hstored) hgroup hactive (hfresh hactive) hI
  rw [Prog.Ends, hrun] at hends
  exact hends.1 hclean

theorem preserves_sameDatabase (hne : inGroup d)
    (harchived : ∀ d, inGroup d → World.isArchived w₀ d = true) :
    Preserves (GroupAttempt.Fails childOf inGroup group) (SameDatabase w₀) := by
  intro w a w' ⟨_, hl, e, hrun⟩ hsame
  have hends : (archiveGroup a.calls a.tree a.deployables).Ends w fun _ w' => SameDatabase w₀ w' :=
    archiveGroup_sameDatabase hl (hl.ne_nil hne) harchived hsame
  rw [Prog.Ends, hrun] at hends
  exact hends

theorem groupRestored_of_whole {attempts : List GroupAttempt} {last : GroupAttempt}
    {restore : GroupRestore}
    (h : GroupRun childOf inGroup group w₀ attempts last restore w₁ w₂ w₃)
    (hstarts : GroupStarts inGroup group w₀)
    (hwhole : Run (Guarded (GroupAttempt.Fails childOf inGroup group)
      (GroupAttempt.Whole childOf inGroup w₀)) w₀ attempts w₁)
    (hfresh : NewMarker childOf inGroup w₀ last.calls.archivedAt) :
    GroupRestored childOf inGroup w₀ w₃ := by
  intro v hv
  obtain ⟨d, hd, -⟩ := hv
  have hne := h.restoreListing.ne_nil hd
  have hrestore : (unarchiveGroup restore.calls restore.tree restore.deployables).Ends w₂
      (BackAgain w₀) := by
    by_cases hactive : ∃ d, inGroup d ∧ World.isArchived w₀ d = false
    · have hI : GroupInv childOf inGroup group w₀ w₁ :=
        hwhole.invariant (preserves_groupInv h.stored h.storedGroup hactive) (.inl ⟨rfl, rfl⟩)
      have hgroup : (w₀.projects last.tree.projectId).isSome := h.lastTree ▸ h.storedGroup
      have hlast := archiveGroup_attempted h.lastListing (h.lastListing.stored h.stored) hgroup
        hactive (hfresh hactive) (h.lastTree ▸ hI)
      rw [Prog.Ends, h.archiveGroup] at hlast
      have hdown := hlast.2 rfl
      rw [h.lastTree, ← h.restoreTree] at hdown
      exact hdown.backAgain h.restoreListing (h.restoreListing.stored h.stored) hne
        (h.restoreTree ▸ h.group_ne)
    · have harchived (d : String) (hd : inGroup d) : World.isArchived w₀ d = true :=
        Bool.of_not_eq_false fun hfalse => hactive ⟨d, hd, hfalse⟩
      have hsame : SameDatabase w₀ w₁ :=
        h.attempts.invariant (preserves_sameDatabase hd harchived) ⟨rfl, rfl⟩
      have hlast : (archiveGroup last.calls last.tree last.deployables).Ends w₁
          fun _ w' => SameDatabase w₀ w' :=
        archiveGroup_sameDatabase h.lastListing (h.lastListing.ne_nil hd) harchived hsame
      rw [Prog.Ends, h.archiveGroup] at hlast
      exact SameDatabase.backAgain h.restoreListing hne
        (h.restoreTree ▸ hstarts.resolve_left hactive) hlast
  rw [Prog.Ends, h.unarchiveGroup] at hrestore
  exact hrestore rfl v

/-- A Compose stack of two services. -/
def shopChild (p v : String) : Prop := p = "shop" ∧ (v = "db" ∨ v = "web")

def shopRow (kind : ServiceKind) (archivedAt : Option String) : ServiceRow :=
  { projectId := "shop", kind, source := none, status := .running, archivedAt }

/-- The world of the stack, whose second service has been archived before or not. -/
def shopWorld (archivedAt : Option String) : World :=
  { projects := fun
      | "shop" => some ⟨"shop", none⟩
      | "db" => some ⟨"shop/db", none⟩
      | "web" => some ⟨"shop/web", archivedAt⟩
      | _ => none
    services := fun
      | "shop__svc" => some (shopRow .compose none)
      | "db__svc" => some (shopRow .composeChild none)
      | "web__svc" => some (shopRow .composeChild archivedAt)
      | _ => none }

def shopTree (root db web : κ) : ProjectTree κ :=
  .node "shop" root [.node "db" db [], .node "web" web []]

theorem shopTree_listing (root db web : κ) :
    Listing shopChild "shop" (shopTree root db web) where
  root := rfl
  lists := by
    refine ⟨fun v => ?_, ⟨fun v => ?_, trivial⟩, ⟨fun v => ?_, trivial⟩, trivial⟩
    · simp [shopChild, ProjectTree.projectId]
    · simp [shopChild]
    · simp [shopChild]
  nodup := by
    have hids : (shopTree root db web).ids = ["db", "web", "shop"] := rfl
    rw [hids]
    decide

theorem shopWorld_stored (archivedAt : Option String) (v : String)
    (hv : InStack shopChild "shop" v) :
    ((shopWorld archivedAt).projects v).isSome ∧
      (World.service (shopWorld archivedAt) v).isSome := by
  have hmem : v ∈ ["db", "web", "shop"] := (shopTree_listing () () ()).mem_ids.mpr hv
  simp only [List.mem_cons, List.not_mem_nil, or_false] at hmem
  rcases hmem with rfl | rfl | rfl
  · exact ⟨rfl, rfl⟩
  · exact ⟨rfl, rfl⟩
  · exact ⟨rfl, rfl⟩

/-- The run of a program that returns. -/
theorem run_of_isOk {p : Async Unit} (h : (p.run w).1.isOk = true) :
    p.run w = (.ok (), (p.run w).2) := by
  rcases hp : p.run w with ⟨r, w'⟩
  rw [hp] at h
  cases r with
  | ok => rfl
  | error => exact absurd h (by simp [Except.isOk, Except.toBool])

/-- The run of a program that throws. -/
theorem run_of_not_isOk {p : Async Unit} (h : (p.run w).1.isOk = false) :
    ∃ e, p.run w = (.error e, (p.run w).2) := by
  rcases hp : p.run w with ⟨r, w'⟩
  rw [hp] at h
  cases r with
  | ok => exact absurd h (by simp [Except.isOk, Except.toBool])
  | error e => exact ⟨e, rfl⟩

/-- The second service is not archived, the first one is already. -/
def partialAttempt : StackAttempt :=
  ⟨{ archivedAt := "t1" }, shopTree {} {} { archiveProject := false }⟩

def wholeAttempt : StackAttempt := ⟨{ archivedAt := "t2" }, shopTree {} {} {}⟩

def StackAttempt.after (a : StackAttempt) (w : World) : World := ((archive a.calls a.tree).run w).2

def shopRestored (w : World) : World := ((unarchive (shopTree {} {} {})).run w).2

/-- The attempt fails at the first service, and nothing is archived. -/
def emptyAttempt : StackAttempt :=
  ⟨{ archivedAt := "t1" }, shopTree {} { archiveProject := false } {}⟩

def StackAttempt.ofGroup (a : StackAttempt) : GroupAttempt := ⟨a.calls, a.tree, [a.tree]⟩

def GroupAttempt.after (a : GroupAttempt) (w : World) : World :=
  ((archiveGroup a.calls a.tree a.deployables).run w).2

def groupRestored (w : World) : World :=
  ((unarchiveGroup {} (shopTree {} {} {}) [shopTree {} {} {}]).run w).2

theorem shop_fresh (m : String) (hm : m ≠ "t0") : Fresh shopChild "shop" (shopWorld (some "t0")) m := by
  rintro p v - ⟨-, rfl | rfl⟩ harchived
  · exact nomatch harchived
  · exact fun h => hm (Option.some.inj h).symm

theorem shop_groupListing (root db web : κ) :
    GroupListing shopChild (· = "shop") [shopTree root db web] where
  roots v := by simp [shopTree, ProjectTree.projectId]
  lists := ⟨(shopTree_listing root db web).lists, trivial⟩
  nodup := by
    have hids : idsAll [shopTree root db web] = ["db", "web", "shop"] := rfl
    rw [hids]
    decide

theorem shop_stored (v : String) (hv : InGroup shopChild (· = "shop") v) :
    ((shopWorld (some "t0")).projects v).isSome ∧
      (World.service (shopWorld (some "t0")) v).isSome := by
  obtain ⟨d, rfl, hbelow⟩ := hv
  exact shopWorld_stored _ v hbelow

theorem shop_ne (p v : String) (_ : InGroup shopChild (· = "shop") p) (hchild : shopChild p v) :
    v ≠ "shop" := by
  obtain ⟨-, rfl | rfl⟩ := hchild
  · decide
  · decide

theorem shop_newMarker (m : String) (hm : m ≠ "t0") :
    NewMarker shopChild (· = "shop") (shopWorld (some "t0")) m := by
  refine fun _ => ⟨?_, ?_⟩
  · rintro d rfl
    exact shop_fresh m hm
  · rintro d rfl
    exact nofun

/-- The root is active at first, and every attempt is whole: then a restore brings back what the
archive took down, and nothing else. The same holds of a group that starts as it should. -/
theorem restored_of_whole (childOf : String → String → Prop) :
    (∀ (root : String) (w₀ w₁ w₂ w₃ : World)
      (attempts : List StackAttempt) (last : StackAttempt) (restore : ProjectTree UnarchiveCalls),
      StackRun childOf root w₀ attempts last restore w₁ w₂ w₃ →
      World.isArchived w₀ root = false →
      Run (Guarded (StackAttempt.Fails childOf root) (StackAttempt.Whole childOf root w₀))
        w₀ attempts w₁ →
      Fresh childOf root w₀ last.calls.archivedAt → StackRestored childOf root w₀ w₃) ∧
    ∀ (inGroup : String → Prop) (group : String) (w₀ w₁ w₂ w₃ : World)
      (attempts : List GroupAttempt) (last : GroupAttempt) (restore : GroupRestore),
      GroupRun childOf inGroup group w₀ attempts last restore w₁ w₂ w₃ →
      GroupStarts inGroup group w₀ →
      Run (Guarded (GroupAttempt.Fails childOf inGroup group)
        (GroupAttempt.Whole childOf inGroup w₀)) w₀ attempts w₁ →
      NewMarker childOf inGroup w₀ last.calls.archivedAt → GroupRestored childOf inGroup w₀ w₃ :=
  ⟨fun _ _ _ _ _ _ _ _ => stackRestored_of_whole,
    fun _ _ _ _ _ _ _ _ _ => groupRestored_of_whole⟩

theorem shop_restored :
    StackRestored shopChild "shop" (shopWorld (some "t0")) (shopRestored
      (wholeAttempt.after (emptyAttempt.after (shopWorld (some "t0"))))) ∧
    GroupRestored shopChild (· = "shop") (shopWorld (some "t0")) (groupRestored
      (wholeAttempt.ofGroup.after (emptyAttempt.ofGroup.after (shopWorld (some "t0"))))) := by
  have hfails : ((archive emptyAttempt.calls emptyAttempt.tree).run
      (shopWorld (some "t0"))).1.isOk = false := by decide
  have harchived : ((archive wholeAttempt.calls wholeAttempt.tree).run
      (emptyAttempt.after (shopWorld (some "t0")))).1.isOk = true := by decide
  have hrestored : ((unarchive (shopTree {} {} {})).run (wholeAttempt.after
      (emptyAttempt.after (shopWorld (some "t0"))))).1.isOk = true := by decide
  have hgroupFails : ((archiveGroup emptyAttempt.calls emptyAttempt.tree [emptyAttempt.tree]).run
      (shopWorld (some "t0"))).1.isOk = false := by decide
  have hgroupArchived : ((archiveGroup wholeAttempt.calls wholeAttempt.tree
      [wholeAttempt.tree]).run (emptyAttempt.ofGroup.after
        (shopWorld (some "t0")))).1.isOk = true := by decide
  have hgroupRestored : ((unarchiveGroup {} (shopTree {} {} {}) [shopTree {} {} {}]).run
      (wholeAttempt.ofGroup.after (emptyAttempt.ofGroup.after
        (shopWorld (some "t0"))))).1.isOk = true := by decide
  have hfailsStep : StackAttempt.Fails shopChild "shop" (shopWorld (some "t0")) emptyAttempt
      (emptyAttempt.after (shopWorld (some "t0"))) :=
    ⟨shopTree_listing .., run_of_not_isOk hfails⟩
  have hgroupFailsStep : GroupAttempt.Fails shopChild (· = "shop") "shop" (shopWorld (some "t0"))
      emptyAttempt.ofGroup (emptyAttempt.ofGroup.after (shopWorld (some "t0"))) :=
    ⟨rfl, shop_groupListing .., run_of_not_isOk hgroupFails⟩
  constructor
  · exact (restored_of_whole shopChild).1 "shop" (shopWorld (some "t0")) _ _ _ [emptyAttempt]
      wholeAttempt (shopTree {} {} {})
      ⟨shopWorld_stored _, by decide, .single hfailsStep, shopTree_listing ..,
        run_of_isOk harchived, shopTree_listing .., run_of_isOk hrestored⟩
      rfl (.single ⟨hfailsStep, .inl (by decide), shop_fresh _ (by decide)⟩)
      (shop_fresh _ (by decide))
  · exact (restored_of_whole shopChild).2 (· = "shop") "shop" (shopWorld (some "t0")) _ _ _
      [emptyAttempt.ofGroup] wholeAttempt.ofGroup ⟨{}, shopTree {} {} {}, [shopTree {} {} {}]⟩
      ⟨shop_stored, rfl, shop_ne, .single hgroupFailsStep, rfl, shop_groupListing ..,
        run_of_isOk hgroupArchived, rfl, shop_groupListing .., run_of_isOk hgroupRestored⟩
      (.inl ⟨"shop", rfl, rfl⟩)
      (.single ⟨hgroupFailsStep, .inl (by decide), shop_newMarker _ (by decide)⟩)
      (shop_newMarker _ (by decide))

theorem not_stackRestored :
    ¬ ∀ (childOf : String → String → Prop) (root : String) (w₀ : World)
      (attempts : List StackAttempt) (last : StackAttempt) (restore : ProjectTree UnarchiveCalls)
      (w₁ w₂ w₃ : World), StackRun childOf root w₀ attempts last restore w₁ w₂ w₃ →
        StackRestored childOf root w₀ w₃ := by
  intro h
  have hfails : ((archive partialAttempt.calls partialAttempt.tree).run
      (shopWorld none)).1.isOk = false := by decide
  have harchived : ((archive wholeAttempt.calls wholeAttempt.tree).run
      (partialAttempt.after (shopWorld none))).1.isOk = true := by decide
  have hrestored : ((unarchive (shopTree {} {} {})).run
      (wholeAttempt.after (partialAttempt.after (shopWorld none)))).1.isOk = true := by
    decide
  have hrun := h shopChild "shop" (shopWorld none) [partialAttempt] wholeAttempt
    (shopTree {} {} {}) _ _ _
    ⟨shopWorld_stored none, by decide,
      .single ⟨shopTree_listing .., run_of_not_isOk hfails⟩, shopTree_listing ..,
      run_of_isOk harchived, shopTree_listing .., run_of_isOk hrestored⟩
  have hdb := hrun "db" (.single ⟨⟨rfl, .inl rfl⟩, rfl⟩)
  have hstays : World.isArchived (shopRestored (wholeAttempt.after
      (partialAttempt.after (shopWorld none)))) "db" = true := by decide
  exact absurd (hstays.symm.trans hdb) (by decide)

end OpenLander.Pipeline.Lifecycle
