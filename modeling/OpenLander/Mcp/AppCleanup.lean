import OpenLander.Mcp.Executor
import OpenLander.Theory.Parents

/-! # The selection of a cleanup

`inspectAppCleanup` (`src/mcp/app-cleanup.ts`) drops from the requested services those that have a
target above them: stopping or deleting a Compose service reaches all services below it. A service that
is no Compose service reaches nothing but itself, and yet what is below it is dropped too. No id is
empty, so every parent that is there is followed. -/

namespace OpenLander.Mcp.AppCleanup
open Theory Parents Db.Services Executor

section
variable (db : Database)

def parentOf (id : String) : Option String := (db.getService id).bind (·.parentServiceId)

def IsCompose (id : String) : Prop := ∃ row ∈ db.getService id, row.kind = .compose

instance : DecidablePred (IsCompose db) := fun _ => inferInstanceAs (Decidable (∃ _ ∈ _, _))

/-- Stopping or deleting the root reaches the service. -/
def Cleans (root id : String) : Prop := id = root ∨ IsCompose db root ∧ Above (parentOf db) root id

/-- The roots cover the requested services without overlap. -/
structure CoversOnce (requested roots : List String) : Prop where
  nodup : roots.Nodup
  disjoint : ∀ a ∈ roots, ∀ b ∈ roots, a ≠ b → ¬Above (parentOf db) a b
  covered : ∀ id ∈ requested, id ∈ roots ∨
    ∃ root ∈ roots, IsCompose db root ∧ Above (parentOf db) root id
  once : ∀ id ∈ requested, ∃! root, root ∈ roots ∧ Cleans db root id

/-- No requested service is above itself. One with no requested service above it is a Compose service,
if there are others below it, and it is not requested twice. -/
structure Selectable (requested : List String) : Prop where
  acyclic : ∀ id ∈ requested, ¬Above (parentOf db) id id
  compose : ∀ top ∈ requested, Topmost (parentOf db) requested top →
    ∀ id ∈ requested, Above (parentOf db) top id → IsCompose db top
  once : ∀ top ∈ requested, Topmost (parentOf db) requested top → requested.count top = 1

end

variable {db : Database} {parent child id : String} {targets seen requested roots : List String}

theorem child_iff : db.Child parent child ↔ parentOf db child = some parent := by
  constructor
  · rintro ⟨row, hrow, hparent, rfl⟩
    rw [parentOf, Database.getService_of_mem hrow, Option.bind_some, hparent]
  · intro h
    obtain ⟨row, hrow, hparent⟩ := Option.bind_eq_some_iff.mp h
    obtain ⟨hmem, hid⟩ := Database.getService_eq_some hrow
    exact ⟨row, hmem, hparent, hid⟩

theorem below_iff : db.Below parent id ↔ id = parent ∨ Above (parentOf db) parent id := by
  have hchild : db.Child = fun p a => parentOf db a = some p := by
    funext p a
    exact propext child_iff
  rw [Database.Below, Relation.reflTransGen_iff_eq_or_transGen, Above, hchild]

/-! ## The way up -/

/-- The services that the loop has gone through are no targets, and it has followed their parents up to
the one that comes next. -/
structure Climbed (db : Database) (targets : List String) (id : String) (seen : List String)
    (ahead : Option String) : Prop where
  nodup : seen.Nodup
  not_target : ∀ s ∈ seen, s ∉ targets
  start : ∀ p, parentOf db id = some p → p ∈ seen ∨ ahead = some p
  closed : ∀ s ∈ seen, ∀ p, parentOf db s = some p → p ∈ seen ∨ ahead = some p
  above : ∀ p ∈ ahead, Above (parentOf db) p id
  exists_row : ahead.isSome → seen ⊆ db.services.map (·.id)

theorem Climbed.init : Climbed db targets id [] (parentOf db id) where
  nodup := .nil
  not_target := nofun
  start _ h := .inr h
  closed := nofun
  above _ h := .of_parent h
  exists_row _ := List.nil_subset _

theorem Climbed.step (H : Climbed db targets id seen (some parent)) (hseen : parent ∉ seen)
    (htarget : parent ∉ targets) :
    Climbed db targets id (parent :: seen) (parentOf db parent) where
  nodup := List.nodup_cons.mpr ⟨hseen, H.nodup⟩
  not_target := List.forall_mem_cons.mpr ⟨htarget, H.not_target⟩
  start p hp := by
    rcases H.start p hp with hp | hp
    · exact .inl (.tail _ hp)
    · exact .inl (Option.some.inj hp ▸ .head _)
  closed s hs p hp := by
    cases hs with
    | head => exact .inr hp
    | tail _ hs =>
      rcases H.closed s hs p hp with hp | hp
      · exact .inl (.tail _ hp)
      · exact .inl (Option.some.inj hp ▸ .head _)
  above p hp := (Above.of_parent hp).trans (H.above parent rfl)
  exists_row h := by
    obtain ⟨p, hp⟩ := Option.isSome_iff_exists.mp h
    obtain ⟨row, hrow, -⟩ := Option.bind_eq_some_iff.mp hp
    obtain ⟨hmem, rfl⟩ := Database.getService_eq_some hrow
    exact List.cons_subset.mpr ⟨List.mem_map_of_mem hmem, H.exists_row rfl⟩

/-- Where the loop ends, all that is above has been gone through. -/
theorem Climbed.not_above (H : Climbed db targets id seen ahead) (h : ∀ p ∈ ahead, p ∈ seen) :
    ∀ t ∈ targets, ¬Above (parentOf db) t id := by
  have hahead {p : String} (hp : p ∈ seen ∨ ahead = some p) : p ∈ seen := hp.elim (·) (h p)
  intro t ht habove
  have hseen : t ∈ seen := habove.mem_of_closed (S := (· ∈ seen)) (fun p hp => hahead (H.start p hp))
    fun s hs p hp => hahead (H.closed s hs p hp)
  exact H.not_target t hseen ht

theorem hasTargetAbove_of_climbed (H : Climbed db targets id seen ahead)
    (hleft : db.services.length < left + seen.length) :
    hasTargetAbove db targets left seen ahead = true ↔ ∃ t ∈ targets, Above (parentOf db) t id := by
  induction left generalizing seen ahead with
  | zero =>
    -- More services than there are cannot have been gone through.
    have hnone : ahead = none := by
      by_contra hsome
      have hle := (H.nodup.subperm (H.exists_row (Option.isSome_iff_ne_none.mpr hsome))).length_le
      rw [List.length_map] at hle
      omega
    subst hnone
    simpa [hasTargetAbove] using H.not_above nofun
  | succ left ih =>
    cases ahead with
    | none => simpa [hasTargetAbove] using H.not_above nofun
    | some parent =>
      rw [hasTargetAbove]
      split
      next hseen =>
        simpa using H.not_above fun p hp => Option.some.inj hp ▸ hseen
      next hseen =>
        split
        next htarget => exact iff_of_true rfl ⟨parent, htarget, H.above parent rfl⟩
        next htarget =>
          exact ih (H.step hseen htarget) (by rw [List.length_cons]; omega)

theorem hasTargetAbove_iff :
    hasTargetAbove db targets (db.services.length + 1) [] (parentOf db id) = true ↔
      ∃ t ∈ targets, Above (parentOf db) t id :=
  hasTargetAbove_of_climbed .init (by simp)

instance : DecidableRel (Above (parentOf db)) := fun p id =>
  decidable_of_iff (hasTargetAbove db [p] (db.services.length + 1) [] (parentOf db id) = true)
    (hasTargetAbove_iff.trans (by simp))

instance : DecidablePred (Topmost (parentOf db) requested) := fun _ =>
  inferInstanceAs (Decidable (∀ _ ∈ _, _))

/-! ## The roots -/

theorem checkCleanupTarget_ok {args : AppCleanupArgs} {ids : List String}
    (h : checkCleanupTarget db args id = .ok ids) :
    id ∈ ids ∧ ∀ t ∈ ids, t = id ∨ Above (parentOf db) id t := by
  rw [checkCleanupTarget] at h
  split at h
  · exact nomatch h
  · split at h
    · exact nomatch h
    split at h
    · exact nomatch h
    obtain rfl := Except.ok.inj h
    split
    · exact ⟨Database.mem_descendantIds.mpr .refl,
        fun t ht => below_iff.mp (Database.mem_descendantIds.mp ht)⟩
    · exact ⟨.head _, fun t ht => .inl (List.mem_singleton.mp ht)⟩

/-- A root is a requested service with none above it. The targets make no difference, as each is
requested or below one that is. -/
theorem inspectAppCleanup_roots {args : AppCleanupArgs}
    (h : inspectAppCleanup db args identity = .ok (roots, permissions)) :
    roots = args.serviceIds.filter fun id => Topmost (parentOf db) args.serviceIds id := by
  obtain ⟨found, hfound, h⟩ := bind_eq_ok.mp h
  obtain ⟨_, -, h⟩ := bind_eq_ok.mp h
  obtain rfl := (Prod.mk.inj (Except.ok.inj h)).1
  obtain ⟨-, hmem⟩ := mem_mapM_ok hfound
  refine List.filter_congr fun id _ => ?_
  rw [Bool.eq_iff_iff, Bool.not_eq_true', ← Bool.not_eq_true, decide_eq_true_eq]
  refine (not_congr hasTargetAbove_iff).trans ?_
  rw [Topmost, not_exists]
  simp only [not_and, mem_foldl_insertLast, List.not_mem_nil, false_or, List.mem_append,
    List.mem_flatten]
  refine ⟨fun h t ht => h t (.inl ht), fun h t ht habove => ?_⟩
  obtain ht | ⟨ids, hids, ht⟩ := ht
  · exact h t ht habove
  · obtain ⟨r, hr, hcheck⟩ := (hmem ids).mp hids
    rcases (checkCleanupTarget_ok hcheck).2 t ht with rfl | hrt
    · exact h t hr habove
    · exact h r hr (hrt.trans habove)

theorem nodup_filter_iff {p : String → Prop} [DecidablePred p] :
    (requested.filter p).Nodup ↔ ∀ a ∈ requested, p a → requested.count a = 1 := by
  rw [List.nodup_iff_count_eq_one]
  refine forall_congr' fun a => ?_
  rw [List.mem_filter, and_imp, decide_eq_true_eq]
  refine forall_congr' fun _ => forall_congr' fun ha => ?_
  rw [List.count_filter (p := fun b => decide (p b)) (decide_eq_true ha)]

theorem coversOnce_of_selectable (H : Selectable db requested) :
    CoversOnce db requested (requested.filter fun id => Topmost (parentOf db) requested id) := by
  have hmem {id : String} : id ∈ requested.filter (fun id => Topmost (parentOf db) requested id) ↔
      id ∈ requested ∧ Topmost (parentOf db) requested id := by
    rw [List.mem_filter, decide_eq_true_eq]
  refine ⟨nodup_filter_iff.mpr H.once, fun a ha b hb _ => (hmem.mp hb).2 a (hmem.mp ha).1,
    fun id hid => ?_, fun id hid => ?_⟩
  · obtain ⟨top, htop, htopmost, rfl | habove⟩ := exists_topmost H.acyclic hid
    · exact .inl (hmem.mpr ⟨htop, htopmost⟩)
    · exact .inr ⟨top, hmem.mpr ⟨htop, htopmost⟩, H.compose top htop htopmost id hid habove, habove⟩
  · obtain ⟨top, htop, htopmost, habove⟩ := exists_topmost H.acyclic hid
    refine ⟨top, ⟨hmem.mpr ⟨htop, htopmost⟩, ?_⟩, fun other ⟨hother, hcleans⟩ => ?_⟩
    · exact habove.imp Eq.symm fun habove => ⟨H.compose top htop htopmost id hid habove, habove⟩
    · obtain ⟨hrequested, hothermost⟩ := hmem.mp hother
      have hother : id = other ∨ Above (parentOf db) other id := hcleans.imp_right (·.2)
      rcases habove with rfl | habove
      · exact hother.elim Eq.symm fun h => absurd h (htopmost other hrequested)
      · rcases hother with rfl | hother
        · exact absurd habove (hothermost top htop)
        · rcases habove.total hother with rfl | h | h
          · rfl
          · exact absurd h (hothermost top htop)
          · exact absurd h (htopmost other hrequested)

theorem selectable_of_coversOnce
    (H : CoversOnce db requested
      (requested.filter fun id => Topmost (parentOf db) requested id)) : Selectable db requested := by
  have hmem {id : String} : id ∈ requested.filter (fun id => Topmost (parentOf db) requested id) ↔
      id ∈ requested ∧ Topmost (parentOf db) requested id := by
    rw [List.mem_filter, decide_eq_true_eq]
  refine ⟨fun id hid hcycle => ?_, fun top htop htopmost id hid habove => ?_,
    nodup_filter_iff.mp H.nodup⟩
  · rcases H.covered id hid with hroot | ⟨root, hroot, -, habove⟩
    · exact (hmem.mp hroot).2 id hid hcycle
    · exact (hmem.mp hroot).2 id hid (habove.of_circle hcycle)
  · rcases H.covered id hid with hroot | ⟨root, hroot, hcompose, hroot'⟩
    · exact absurd habove ((hmem.mp hroot).2 top htop)
    · obtain ⟨hrequested, hrootmost⟩ := hmem.mp hroot
      rcases habove.total hroot' with rfl | h | h
      · exact hcompose
      · exact absurd h (hrootmost top htop)
      · exact absurd h (htopmost root hrequested)

/-- The roots of a cleanup cover the requested services without overlap exactly when the request is
selectable. -/
theorem coversOnce_iff {args : AppCleanupArgs}
    (h : inspectAppCleanup db args identity = .ok (roots, permissions)) :
    CoversOnce db args.serviceIds roots ↔ Selectable db args.serviceIds := by
  rw [inspectAppCleanup_roots h]
  exact ⟨selectable_of_coversOnce, coversOnce_of_selectable⟩

/-- A service of the project `shop`, below another or not. -/
def row (kind : ServiceKind) (id : String) (parent : Option String) : ServiceRow where
  id
  projectId := "shop"
  name := id
  kind
  parentServiceId := parent

def tables (services : List ServiceRow) (h : (services.map (·.id)).Nodup) : Database where
  services
  projects := [{ id := "shop", name := "shop" }]
  settings _ := none
  nodup_serviceIds := h
  nodup_projectIds := nodup_shop

/-- A Compose service with another service, of this kind, above `web`. -/
def sample (kind : ServiceKind) : Database :=
  tables [row .compose "stack" none, row kind "api" (some "stack"), row .git "web" (some "api")]
    (by simp [row])

def request (serviceIds : List String) : AppCleanupArgs := ⟨"shop", serviceIds, .stop⟩

theorem coversOnce_stack : ∃ permissions,
    inspectAppCleanup (sample .git) (request ["web", "stack"]) none = .ok (["stack"], permissions) ∧
      CoversOnce (sample .git) ["web", "stack"] ["stack"] := by
  have h : inspectAppCleanup (sample .git) (request ["web", "stack"]) none = .ok (["stack"],
      ["web", "stack", "api"].map fun id => (id, some (.pendingApproval (some "shop") (some id)))) := by
    decide +kernel
  exact ⟨_, h, (coversOnce_iff h).mpr ⟨by decide, by decide, by decide⟩⟩

/-- The service below a service that is no Compose service is reached by no root. -/
theorem not_forall_coversOnce : ¬∀ (db : Database) (args : AppCleanupArgs)
    (identity : Option RequestIdentity) (roots : List String)
    (permissions : List (String × Option SafetyResult)),
    inspectAppCleanup db args identity = .ok (roots, permissions) →
      CoversOnce db args.serviceIds roots := by
  intro h
  have hok : inspectAppCleanup (sample .git) (request ["web", "api"]) none = .ok (["api"],
      ["web", "api"].map fun id => (id, some (.pendingApproval (some "shop") (some id)))) := by
    decide +kernel
  obtain hroot | ⟨root, hroot, hcompose, -⟩ := (h _ _ _ _ _ hok).covered "web" (.head _)
  · exact absurd hroot (by decide)
  · obtain rfl := List.mem_singleton.mp hroot
    exact absurd hcompose (by decide)

end OpenLander.Mcp.AppCleanup
