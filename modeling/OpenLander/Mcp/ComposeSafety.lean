import OpenLander.Mcp.ActedOn

/-! # What the gate says of a Compose service

The loop of `maybeHandleMcpSafety` (`src/mcp/destructive-safety.ts`) collects the services below the
Compose service, whatever the parents are, and the permissions of all of them decide. `archive_service`
and `unarchive_service` wait for approval also where nothing requires it, unless an override of the
target says what its `destructive_actions` may do. -/

namespace OpenLander.Mcp.ComposeSafety
open Theory Db.Services Security

/-- The tools that affect the services below a Compose service. -/
def lifecycleTools : List PolicyTool := [.stopApp, .deleteApp, .archiveService, .unarchiveService]

section
variable (db : Database)

/-- The effective permission of the service. -/
def Requires (permission : PermissionKey) (required : DestructiveActionPermission)
    (row : ServiceRow) : Prop :=
  ∃ snapshot, getOperationPermissionSnapshot db.settings
      { projectId := row.projectId, serviceId := row.id } = .ok snapshot ∧
    snapshot.effective.get permission = required

/-- The Compose service or one that is below it. -/
def Affects (root row : ServiceRow) : Prop := row ∈ db.services ∧ db.Below root.id row.id

/-- The tool waits for approval by default, and no override of the service says otherwise. -/
def WaitsByDefault (tool : PolicyTool) (row : ServiceRow) : Prop :=
  ∃ snapshot, getOperationPermissionSnapshot db.settings
      { projectId := row.projectId, serviceId := row.id } = .ok snapshot ∧
    holdsByDefault tool snapshot = true

/-- The loop ends with all services below, and the strictest of their permissions decides. -/
structure Decides (tool : PolicyTool) (root : ServiceRow) (result : Option SafetyResult) : Prop where
  ended : pass db.childEdges (db.expandedIds root.id) = db.expandedIds root.id
  closure : ∀ id, id ∈ db.expandedIds root.id ↔ db.Below root.id id
  blocked : (∃ key projectId serviceId source,
      result = some (.blocked key projectId serviceId source)) ↔
    ∃ row, Affects db root row ∧ Requires db tool.permissionKey .block row
  held : (∃ projectId serviceId, result = some (.pendingApproval projectId serviceId)) ↔
    (¬∃ row, Affects db root row ∧ Requires db tool.permissionKey .block row) ∧
      ((∃ row, Affects db root row ∧ Requires db tool.permissionKey .approvalRequired row) ∨
        WaitsByDefault db tool root)

end

variable {db : Database} {row root : ServiceRow}

theorem Requires.unique (h : Requires db permission required row)
    (h' : Requires db permission required' row) : required = required' := by
  obtain ⟨snapshot, hsnapshot, rfl⟩ := h
  obtain ⟨snapshot', hsnapshot', rfl⟩ := h'
  rw [Except.ok.inj (hsnapshot.symm.trans hsnapshot')]

/-! ## The rows below -/

/-- A row either blocks, or adds what it requires to what is required so far. -/
theorem checkChild_ok (h : checkChild db permission required row = .ok out) :
    (∃ result, out = .inr result ∧ Requires db permission .block row) ∨
      ∃ own, Requires db permission own row ∧ own ≠ .block ∧
        out = .inl (if own = .approvalRequired ∧ required ≠ .block then .approvalRequired
          else required) := by
  unfold checkChild at h
  split at h
  · exact nomatch h
  next snapshot hsnapshot =>
    split at h
    next hblock => exact .inl ⟨_, (Except.ok.inj h).symm, snapshot, hsnapshot, hblock⟩
    next hblock =>
      refine .inr ⟨_, ⟨snapshot, hsnapshot, rfl⟩, hblock, ?_⟩
      simp only [Bool.and_eq_true, decide_eq_true_eq] at h
      split at h
      next hask => rw [if_pos (by simpa using hask)]; exact (Except.ok.inj h).symm
      next hask => rw [if_neg (by simpa using hask)]; exact (Except.ok.inj h).symm

theorem requires_of_checkChildren_inr {children : List ServiceRow}
    (h : checkChildren db permission required children = .ok (.inr result)) :
    ∃ child ∈ children, Requires db permission .block child := by
  induction children generalizing required with
  | nil => exact nomatch Except.ok.inj h
  | cons child children ih =>
    unfold checkChildren at h
    split at h
    · obtain ⟨c, hc, hblock⟩ := ih h
      exact ⟨c, .tail _ hc, hblock⟩
    · obtain ⟨_, -, hblock⟩ | ⟨_, -, -, hout⟩ := checkChild_ok h
      · exact ⟨child, .head _, hblock⟩
      · exact nomatch hout

/-- Rows that do not block leave a `block` of the target alone, and otherwise add what they require. -/
theorem requires_of_checkChildren_inl {children : List ServiceRow}
    (h : checkChildren db permission required children = .ok (.inl required')) :
    (∀ child ∈ children, ¬Requires db permission .block child) ∧
      (required ≠ .block → required' ≠ .block ∧ (required' = .approvalRequired ↔
        required = .approvalRequired ∨
          ∃ child ∈ children, Requires db permission .approvalRequired child)) := by
  induction children generalizing required with
  | nil =>
    obtain rfl := Sum.inl.inj (Except.ok.inj h)
    simp
  | cons child children ih =>
    unfold checkChildren at h
    split at h
    next hchild =>
      obtain ⟨_, hout, -⟩ | ⟨own, hown, hblock, hout⟩ := checkChild_ok hchild
      · exact nomatch hout
      obtain rfl := Sum.inl.inj hout
      obtain ⟨hrest, hrequired⟩ := ih h
      have hchild : ¬Requires db permission .block child := fun h => hblock (hown.unique h)
      refine ⟨List.forall_mem_cons.mpr ⟨hchild, hrest⟩, fun hnot => ?_⟩
      have hask : Requires db permission .approvalRequired child ↔ own = .approvalRequired :=
        ⟨hown.unique, fun h => h ▸ hown⟩
      simp only [List.mem_cons, exists_eq_or_imp, hask]
      by_cases hownAsks : own = .approvalRequired
      · simp only [hownAsks, hnot, ne_eq, not_false_eq_true, and_self, if_true] at hrequired ⊢
        simpa using hrequired nofun
      · simp only [hownAsks, false_and, if_false, false_or] at hrequired ⊢
        exact hrequired hnot
    next hnot => exact absurd h (hnot required')

theorem mem_affected (htool : tool ∈ lifecycleTools) (hroot : root ∈ db.services)
    (hkind : root.kind = .compose) : row ∈ affected db tool (some root.id) ↔ Affects db root row := by
  have htool : (tool ∈ [PolicyTool.stopApp, .deleteApp, .archiveService, .unarchiveService]) := htool
  rw [affected, Option.bind_some, Database.getService_of_mem hroot]
  dsimp only
  rw [if_pos (by simpa [hkind] using htool), List.mem_filter, decide_eq_true_eq,
    Database.mem_expandedIds, Affects]

/-! ## The decision -/

/-- The root is one of the rows, so that its own permission is seen with theirs. -/
theorem handleSafety_ok (htool : tool ∈ lifecycleTools) (hroot : root ∈ db.services)
    (hkind : root.kind = .compose) (h : handleSafety db tool root.projectId root.id = .ok result) :
    ((∃ key projectId serviceId source,
        result = some (.blocked key projectId serviceId source)) ∧
      ∃ row, Affects db root row ∧ Requires db tool.permissionKey .block row) ∨
    ((¬∃ row, Affects db root row ∧ Requires db tool.permissionKey .block row) ∧
      ∃ waits : Bool, result = (if waits then some (.pendingApproval root.projectId root.id) else none) ∧
        (waits = true ↔
          (∃ row, Affects db root row ∧ Requires db tool.permissionKey .approvalRequired row) ∨
            WaitsByDefault db tool root)) := by
  have hmem {required : DestructiveActionPermission} : (∃ row ∈ affected db tool (some root.id),
      Requires db tool.permissionKey required row) ↔
        ∃ row, Affects db root row ∧ Requires db tool.permissionKey required row := by
    simp only [mem_affected htool hroot hkind]
  unfold handleSafety at h
  split at h
  · exact nomatch h
  next snapshot hsnapshot =>
    have hdatabase : ∀ tool ∈ lifecycleTools, ¬tool.isDatabaseAccess = true := by decide
    have hself : Requires db tool.permissionKey (snapshot.effective.get tool.permissionKey) root :=
      ⟨snapshot, hsnapshot, rfl⟩
    have hwaits : WaitsByDefault db tool root ↔ holdsByDefault tool snapshot = true := by
      refine ⟨?_, fun h => ⟨snapshot, hsnapshot, h⟩⟩
      rintro ⟨snapshot', hsnapshot', h⟩
      rwa [Except.ok.inj (hsnapshot.symm.trans hsnapshot')]
    rw [if_neg (hdatabase tool htool)] at h
    have hrootAffected : root ∈ affected db tool (some root.id) :=
      (mem_affected htool hroot hkind).mpr ⟨hroot, .refl⟩
    cases hchildren : checkChildren db tool.permissionKey
        (snapshot.effective.get tool.permissionKey) (affected db tool (some root.id)) with
    | error e =>
      rw [hchildren] at h
      exact nomatch h
    | ok out =>
      rw [hchildren] at h
      cases out with
      | inr blocked =>
        obtain rfl := Except.ok.inj h
        obtain ⟨key, projectId, serviceId, source, rfl⟩ := checkChildren_inr hchildren
        exact .inl ⟨⟨_, _, _, _, rfl⟩, hmem.mp (requires_of_checkChildren_inr hchildren)⟩
      | inl required =>
        obtain ⟨hnone, hrequired⟩ := requires_of_checkChildren_inl hchildren
        have hown : snapshot.effective.get tool.permissionKey ≠ .block :=
          fun hblock => hnone root hrootAffected (hblock ▸ hself)
        obtain ⟨hblock, hasks⟩ := hrequired hown
        refine .inr ⟨fun hrow => ?_,
          required = .approvalRequired || holdsByDefault tool snapshot, ?_, ?_⟩
        · obtain ⟨row, hrow, hblocks⟩ := hmem.mpr hrow
          exact hnone row hrow hblocks
        · cases required with
          | block => exact absurd rfl hblock
          | allow | approvalRequired => exact (Except.ok.inj ((apply_ite Except.ok _ _ _).trans h)).symm
        · rw [Bool.or_eq_true, decide_eq_true_eq, hasks, hwaits, hmem]
          refine or_congr_left (or_iff_right_of_imp fun hask => ?_)
          exact ⟨root, ⟨hroot, .refl⟩, hask ▸ hself⟩

theorem decides_of_handleSafety (htool : tool ∈ lifecycleTools) (hroot : root ∈ db.services)
    (hkind : root.kind = .compose) (h : handleSafety db tool root.projectId root.id = .ok result) :
    Decides db tool root result := by
  have hended : pass db.childEdges (db.expandedIds root.id) = db.expandedIds root.id :=
    pass_saturateFrom (Nat.le_refl _)
  obtain ⟨⟨key, projectId, serviceId, source, rfl⟩, hblock⟩ | ⟨hnone, waits, rfl, hwaits⟩ :=
    handleSafety_ok htool hroot hkind h
  · refine ⟨hended, fun _ => Database.mem_expandedIds, iff_of_true ⟨_, _, _, _, rfl⟩ hblock,
      iff_of_false ?_ fun hheld => hheld.1 hblock⟩
    rintro ⟨_, _, h⟩
    exact nomatch Option.some.inj h
  · refine ⟨hended, fun _ => Database.mem_expandedIds, iff_of_false ?_ hnone, ?_⟩
    · rintro ⟨_, _, _, _, h⟩
      split at h
      · exact nomatch Option.some.inj h
      · exact nomatch h
    · rw [← hwaits, and_iff_right hnone]
      cases waits with
      | true => exact iff_of_true ⟨_, _, rfl⟩ rfl
      | false => exact iff_of_false nofun nofun

/-! ## The target -/

theorem exists_row_of_determines {rows : List ServiceRow} {projectId serviceId : Option String}
    {id : String} (h : Determines rows projectId serviceId) (hrows : rows ⊆ db.services)
    (hid : serviceId = some id) :
    ∃ row ∈ db.services, row.id = id ∧ projectId = some row.projectId := by
  obtain ⟨row, rfl, rfl, rfl⟩ | ⟨-, rfl⟩ := h
  · exact ⟨row, hrows (.head _), Option.some.inj hid, rfl⟩
  · exact nomatch hid

theorem exists_of_optionMapM_ok {α β ε : Type} {f : α → Except ε β} {o : Option α} {r : Option β}
    {b : β} (h : o.mapM f = .ok r) (hb : b ∈ r) : ∃ a ∈ o, f a = .ok b := by
  cases o with
  | none =>
    obtain rfl := Except.ok.inj h
    exact nomatch hb
  | some a =>
    obtain ⟨b', hb', h⟩ := bind_eq_ok.mp h
    obtain rfl := Except.ok.inj h
    exact ⟨a, rfl, Option.some.inj hb ▸ hb'⟩

/-- The targets are rows of the table with their projects. -/
theorem exists_row_of_target {args : Args} {target : ScopeTarget} {id : String}
    (h : resolveMcpScopeTargets db args identity = .ok targets) (htarget : target ∈ targets)
    (hid : target.serviceId = some id) :
    ∃ row ∈ db.services, row.id = id ∧ target.projectId = some row.projectId := by
  have hservice {serviceId : String} {target : ScopeTarget}
      (h : targetFromService db serviceId = .ok target) (hid : target.serviceId = some id) :
      ∃ row ∈ db.services, row.id = id ∧ target.projectId = some row.projectId := by
    refine exists_row_of_determines (targetFromService_ok h) (fun row hrow => ?_) hid
    exact (Database.getService_eq_some (Option.mem_toList.mp hrow)).1
  have hname {serviceName : String} {projectName : Option String} {target : ScopeTarget}
      (h : targetFromServiceName db serviceName projectName identity = .ok (some target))
      (hid : target.serviceId = some id) :
      ∃ row ∈ db.services, row.id = id ∧ target.projectId = some row.projectId := by
    refine exists_row_of_determines (targetFromServiceName_ok h) ?_ hid
    split
    next service htoken =>
      unfold tokenService at htoken
      split at htoken
      · obtain ⟨hservice, -⟩ := Option.filter_eq_some_iff.mp htoken
        simpa using (Database.getService_eq_some hservice).1
      · exact nomatch htoken
    · exact List.filter_subset_self _
  unfold resolveMcpScopeTargets at h
  obtain ⟨serviceIds, hserviceIds, h⟩ := bind_eq_ok.mp h
  obtain ⟨serviceId, hserviceId, h⟩ := bind_eq_ok.mp h
  have hids : target ∈ serviceIds ++ serviceId.toList →
      ∃ row ∈ db.services, row.id = id ∧ target.projectId = some row.projectId := by
    intro htarget
    obtain htarget | htarget := List.mem_append.mp htarget
    · obtain ⟨_, -, htarget⟩ := ((mem_mapM_ok hserviceIds).2 target).mp htarget
      exact hservice htarget hid
    · obtain ⟨_, -, htarget⟩ := exists_of_optionMapM_ok hserviceId (Option.mem_toList.mp htarget)
      exact hservice htarget hid
  obtain ⟨byName, hbyName, h⟩ : ∃ byName : Option ScopeTarget,
      (∀ target ∈ byName, ∃ serviceName projectName,
        targetFromServiceName db serviceName projectName identity = .ok (some target)) ∧
      ((readString args.projectName).mapM (resolveProjectIdByName db) >>= fun projectOfName =>
        .ok (serviceIds ++ serviceId.toList ++ byName.toList ++
          ((readString args.projectId).map fun projectId =>
            ScopeTarget.mk (some projectId) none "project_id").toList ++
          (projectOfName.map fun projectId =>
            ScopeTarget.mk (some projectId) none "project_name").toList)) = .ok targets := by
    cases hread : readString args.serviceName with
    | none =>
      rw [hread] at h
      exact ⟨none, nofun, h⟩
    | some serviceName =>
      rw [hread] at h
      obtain ⟨byName, hbyName, h⟩ := bind_eq_ok.mp h
      exact ⟨byName, fun target htarget => ⟨_, _, htarget ▸ hbyName⟩, h⟩
  obtain ⟨projectOfName, -, h⟩ := bind_eq_ok.mp h
  obtain rfl := Except.ok.inj h
  simp only [List.mem_append, Option.mem_toList, Option.map_eq_some_iff] at htarget hids
  rcases htarget with ((htarget | htarget) | ⟨_, -, rfl⟩) | ⟨_, -, rfl⟩
  · exact hids htarget
  · obtain ⟨_, _, htarget⟩ := hbyName target htarget
    exact hname htarget hid
  · exact nomatch hid
  · exact nomatch hid

/-- For every table and every tool that affects a Compose service with the services below it: the loop
ends with these, and what the gate says is `Decides`. -/
theorem decides_of_maybeHandleMcpSafety {args : Args} (htool : tool ∈ lifecycleTools)
    (hroot : root ∈ db.services) (hkind : root.kind = .compose)
    (htarget : evaluatedTarget db args identity = .ok target) (hid : target.serviceId = some root.id)
    (h : maybeHandleMcpSafety db tool args identity = .ok result) : Decides db tool root result := by
  obtain ⟨target', htarget', -, h⟩ := maybeHandleMcpSafety_ok_iff.mp h
  obtain rfl := Except.ok.inj (htarget.symm.trans htarget')
  obtain ⟨scopeTarget, hscopeTarget, htarget⟩ := bind_eq_ok.mp htarget
  obtain rfl := Except.ok.inj htarget
  obtain ⟨targets, htargets, hscopeTarget⟩ := bind_eq_ok.mp hscopeTarget
  obtain rfl := Except.ok.inj hscopeTarget
  obtain ⟨scopeTarget, hhead, hserviceId⟩ := Option.bind_eq_some_iff.mp hid
  obtain ⟨row, hrow, hrowId, hproject⟩ :=
    exists_row_of_target htargets (List.mem_of_head? hhead) hserviceId
  obtain rfl := List.inj_on_of_nodup_map db.nodup_serviceIds hrow hroot hrowId
  dsimp only at h
  rw [hhead, Option.bind_some, Option.bind_some, hproject, hserviceId] at h
  exact decides_of_handleSafety htool hroot hkind h

/-- Two services, each below the other, and one below a service that is not there. -/
def circle (settings : Settings) : Database where
  services :=
    [{ id := "stack", projectId := "shop", name := "stack", kind := .compose,
       parentServiceId := some "web" },
     { id := "web", projectId := "shop", name := "web", kind := .composeChild,
       parentServiceId := some "stack" },
     { id := "lost", projectId := "shop", name := "lost", kind := .composeChild,
       parentServiceId := some "gone" }]
  projects := [{ id := "shop", name := "shop" }]
  settings
  nodup_serviceIds := by decide
  nodup_projectIds := by decide

def webBlocks : Settings
  | .service "web" => some (some { appLifecycle := some .block })
  | _ => none

theorem decides_circle :
    maybeHandleMcpSafety (circle webBlocks) .stopApp { serviceId := some "stack" } none =
        .ok (some (.blocked (.key .appLifecycle) (some "shop") (some "web") .service)) ∧
      ∃ root, root.id = "stack" ∧ Decides (circle webBlocks) .stopApp root
        (some (.blocked (.key .appLifecycle) (some "shop") (some "web") .service)) := by
  have h : maybeHandleMcpSafety (circle webBlocks) .stopApp { serviceId := some "stack" } none =
      .ok (some (.blocked (.key .appLifecycle) (some "shop") (some "web") .service)) := by
    decide
  have htarget : evaluatedTarget (circle webBlocks) { serviceId := some "stack" } none =
      .ok { projectId := some "shop", serviceId := some "stack" } := by
    decide
  exact ⟨h, _, rfl, decides_of_maybeHandleMcpSafety (by decide) (.head _) rfl htarget rfl h⟩

/-- Archiving waits for approval where every permission is `allow`. -/
theorem not_forall_held : ¬∀ (db : Database) (tool : PolicyTool) (args : Args)
    (identity : Option RequestIdentity) (root : ServiceRow) (target : OperationPermissionTarget)
    (result : Option SafetyResult), tool ∈ lifecycleTools → root ∈ db.services →
      root.kind = .compose → evaluatedTarget db args identity = .ok target →
      target.serviceId = some root.id → maybeHandleMcpSafety db tool args identity = .ok result →
      ((∃ projectId serviceId, result = some (.pendingApproval projectId serviceId)) ↔
        (¬∃ row, Affects db root row ∧ Requires db tool.permissionKey .block row) ∧
          ∃ row, Affects db root row ∧ Requires db tool.permissionKey .approvalRequired row) := by
  intro h
  have hsafety : maybeHandleMcpSafety (circle fun _ => none) .archiveService
      { serviceId := some "stack" } none =
        .ok (some (.pendingApproval (some "shop") (some "stack"))) := by
    decide
  have htarget : evaluatedTarget (circle fun _ => none) { serviceId := some "stack" } none =
      .ok { projectId := some "shop", serviceId := some "stack" } := by
    decide
  have hallow : ∀ row ∈ (circle fun _ => none).services,
      ((getOperationPermissionSnapshot (circle fun _ => none).settings
        { projectId := row.projectId, serviceId := row.id }).map (·.effective.destructiveActions)) =
          .ok .allow := by
    decide
  obtain ⟨-, row, ⟨hrow, -⟩, snapshot, hsnapshot, hrequires⟩ :=
    (h _ _ _ _ _ _ _ (by decide) (.head _) rfl htarget rfl hsafety).mp ⟨_, _, rfl⟩
  have hrow := hallow row hrow
  rw [hsnapshot] at hrow
  exact nomatch hrequires.symm.trans (Except.ok.inj hrow)

end OpenLander.Mcp.ComposeSafety
