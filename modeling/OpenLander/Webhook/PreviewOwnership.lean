import OpenLander.Webhook.Preview

/-! # Previews are owned by their pull request

The events of pull requests touch no project that was not made for their pull request, and the
closing one leaves none of it behind, as long as three steps meet a condition (`Meets`): a look-up
by name finds a project made for the pull request, the closing event finds the columns on all that
was created, and nothing is created after it has looked. -/

namespace OpenLander.Webhook
open Theory

variable {parent : Parent}

/-! ## The projects -/

namespace Db
variable {db : Db} {id : String}

/-- What the tables promise by themselves, and the account of what was made for which pull
request. -/
structure Sound (parent : Parent) (db : Db) : Prop where
  names : (db.projects.map (·.name)).Nodup
  used : ∀ p ∈ db.projects, p.id ∈ db.used
  parentUsed : ∀ p ∈ db.projects, ∀ id, p.parentProjectId = some id → id ∈ db.used
  originUsed : ∀ id o, db.origin id = some o → id ∈ db.used ∧ o.root ∈ db.used
  /-- The parent is none of its own previews. -/
  parentOwn : parent.id ∈ db.used ∧ db.origin parent.id = none
  preview : ∀ p ∈ db.projects, ∀ pr, db.origin p.id = some ⟨pr, p.id⟩ →
    p.name = parent.previewName pr
  part : ∀ p ∈ db.projects, ∀ o, db.origin p.id = some o → o.root ≠ p.id →
    p.parentProjectId = some o.root ∧ db.PreviewOf o.prNumber o.root

/-- The columns of previews are on previews, and what is below a project that was made for a pull
request was made for it. -/
structure Attributed (parent : Parent) (db : Db) : Prop where
  columns : ∀ p ∈ db.projects, ∀ pr, p.service = some (parent.columns pr) →
    db.origin p.id = some ⟨pr, p.id⟩
  tree : ∀ p ∈ db.projects, ∀ id o, p.parentProjectId = some id → db.origin id = some o →
    ∃ o', db.origin p.id = some o' ∧ o'.prNumber = o.prNumber

theorem getProjectByName_eq_none : db.getProjectByName name = none ↔
    ∀ p ∈ db.projects, p.name ≠ name := by
  simp [getProjectByName]

theorem mem_of_getProjectByName (h : db.getProjectByName name = some p) :
    p ∈ db.projects ∧ p.name = name :=
  ⟨List.mem_of_find?_eq_some h, by simpa using List.find?_some h⟩

/-- Only one project that is there is the preview of a pull request. -/
theorem Sound.preview_unique (hs : db.Sound parent) (hp : db.PreviewOf pr id)
    (hq : db.PreviewOf pr id') : id = id' := by
  obtain ⟨⟨p, hmemp, rfl⟩, horigin⟩ := hp
  obtain ⟨⟨q, hmemq, rfl⟩, horigin'⟩ := hq
  have hname : p.name = q.name :=
    (hs.preview p hmemp pr horigin).trans (hs.preview q hmemq pr horigin').symm
  rw [List.inj_on_of_nodup_map hs.names hmemp hmemq hname]

/-! ### What an update of the columns does -/

theorem mem_updateProject : p ∈ (db.updateProject id columns).projects ↔
    ∃ q ∈ db.projects, p = if q.id = id then { q with service := q.service.map fun _ => columns }
      else q := by
  simp only [updateProject, List.mem_map, eq_comm]

theorem exists_updateProject : (db.updateProject id columns).Exists id' ↔ db.Exists id' := by
  simp only [Exists, mem_updateProject]
  constructor
  · intro ⟨p, ⟨q, hq, hp⟩, hid⟩
    refine ⟨q, hq, ?_⟩
    rw [← hid, hp]
    split <;> rfl
  · intro ⟨q, hq, hid⟩
    refine ⟨_, ⟨q, hq, rfl⟩, ?_⟩
    rw [← hid]
    split <;> rfl

theorem previewOf_updateProject :
    (db.updateProject id columns).PreviewOf pr id' ↔ db.PreviewOf pr id' :=
  and_congr_left' exists_updateProject

/-- Each project keeps its id and its name; its columns are those written, or what they were. -/
theorem of_mem_updateProject (h : p ∈ (db.updateProject id columns).projects) :
    ∃ q ∈ db.projects, p.id = q.id ∧ p.name = q.name ∧
      (p = q ∨ q.id = id ∧ (p.service = none ∨ p.service = some columns)) := by
  obtain ⟨q, hq, rfl⟩ := mem_updateProject.mp h
  refine ⟨q, hq, ?_⟩
  split
  next heq =>
    refine ⟨rfl, rfl, .inr ⟨heq, ?_⟩⟩
    cases q.service with
    | none => exact .inl rfl
    | some _ => exact .inr rfl
  next => exact ⟨rfl, rfl, .inl rfl⟩

theorem names_updateProject :
    (db.updateProject id columns).projects.map (·.name) = db.projects.map (·.name) := by
  rw [updateProject, List.map_map]
  refine List.map_congr_left fun p _ => ?_
  simp only [Function.comp]
  split <;> rfl

theorem Sound.updateProject (hs : db.Sound parent) (horigin : db.origin id = some ⟨pr, id⟩) :
    (db.updateProject id (parent.columns pr)).Sound parent where
  names := by
    rw [names_updateProject]
    exact hs.names
  used p hp := by
    obtain ⟨q, hq, hid, _⟩ := of_mem_updateProject hp
    rw [hid]
    exact hs.used q hq
  parentUsed p hp id' hparent := by
    obtain ⟨q, hq, _, _, rfl | ⟨_, hnone | hsome⟩⟩ := of_mem_updateProject hp
    · exact hs.parentUsed p hq id' hparent
    · rw [Project.parentProjectId, hnone] at hparent
      nomatch hparent
    · rw [Project.parentProjectId, hsome] at hparent
      obtain rfl := Option.some.inj hparent
      exact hs.parentOwn.1
  originUsed := hs.originUsed
  parentOwn := hs.parentOwn
  preview p hp pr' h := by
    obtain ⟨q, hq, hid, hname, _⟩ := of_mem_updateProject hp
    rw [hname]
    rw [hid] at h
    exact hs.preview q hq pr' h
  part p hp o h hroot := by
    obtain ⟨q, hq, hid, hname, rfl | ⟨heq, _⟩⟩ := of_mem_updateProject hp
    · rw [previewOf_updateProject]
      exact hs.part p hq o h hroot
    · rw [hid, heq] at h hroot
      rw [show db.origin id = some o from h] at horigin
      obtain rfl := Option.some.inj horigin
      exact absurd rfl hroot

theorem Attributed.updateProject (ha : db.Attributed parent) (hs : db.Sound parent)
    (horigin : db.origin id = some ⟨pr, id⟩) :
    (db.updateProject id (parent.columns pr)).Attributed parent where
  columns p hp pr' h := by
    obtain ⟨q, hq, hid, _, rfl | ⟨heq, hnone | hsome⟩⟩ := of_mem_updateProject hp
    · exact ha.columns p hq pr' h
    · rw [hnone] at h
      nomatch h
    · rw [hsome] at h
      obtain rfl : pr = pr' := by simpa [Parent.columns] using h
      rw [hid, heq]
      exact horigin
  tree p hp id' o hparent h := by
    obtain ⟨q, hq, _, _, rfl | ⟨_, hnone | hsome⟩⟩ := of_mem_updateProject hp
    · exact ha.tree p hq id' o hparent h
    · rw [Project.parentProjectId, hnone] at hparent
      nomatch hparent
    · rw [Project.parentProjectId, hsome] at hparent
      obtain rfl := Option.some.inj hparent
      exact absurd (hs.parentOwn.2.symm.trans h) nofun

/-! ### What a removal does -/

theorem mem_removeTree :
    p ∈ (db.removeTree id).projects ↔ p ∈ db.projects ∧ p.id ∉ db.below id := by
  simp [removeTree]

theorem mem_below_self : id ∈ db.below id :=
  Graph.mem_closure_iff.mpr ⟨id, List.mem_singleton.mpr rfl, .refl⟩

/-- What has a project below another one as its parent is below that one. -/
theorem mem_below_of_parent (hp : p ∈ db.projects) (hparent : p.parentProjectId = some id')
    (h : id' ∈ db.below id) : p.id ∈ db.below id := by
  obtain ⟨a, ha, hreach⟩ := Graph.mem_closure_iff.mp h
  refine Graph.mem_closure_iff.mpr ⟨a, ha, hreach.tail ?_⟩
  exact List.mem_map.mpr ⟨p, List.mem_filter.mpr ⟨hp, by simpa using hparent⟩, rfl⟩

/-- What is below a project that was made for a pull request was made for it. -/
theorem Attributed.origin_of_mem_below (ha : db.Attributed parent) (h : id' ∈ db.below id)
    (horigin : db.origin id = some o) :
    ∃ o', db.origin id' = some o' ∧ o'.prNumber = o.prNumber := by
  obtain ⟨a, ha', hreach⟩ := Graph.mem_closure_iff.mp h
  obtain rfl := List.mem_singleton.mp ha'
  induction hreach with
  | refl => exact ⟨o, horigin, rfl⟩
  | tail _ hedge ih =>
    obtain ⟨o', ho', hpr⟩ := ih (Graph.mem_closure_iff.mpr ⟨a, ha', ‹_›⟩)
    obtain ⟨p, hp, rfl⟩ := List.mem_map.mp hedge
    obtain ⟨hp, hparent⟩ := List.mem_filter.mp hp
    obtain ⟨o'', ho'', hpr'⟩ := ha.tree p hp _ o' (by simpa using hparent) ho'
    exact ⟨o'', ho'', hpr'.trans hpr⟩

theorem Attributed.removeTree (ha : db.Attributed parent) :
    (db.removeTree id).Attributed parent where
  columns p hp := ha.columns p (mem_removeTree.mp hp).1
  tree p hp := ha.tree p (mem_removeTree.mp hp).1

/-- A part that stays is below none of what goes. -/
theorem Sound.removeTree (hs : db.Sound parent) : (db.removeTree id).Sound parent where
  names := hs.names.sublist (List.filter_sublist.map _)
  used p hp := hs.used p (mem_removeTree.mp hp).1
  parentUsed p hp := hs.parentUsed p (mem_removeTree.mp hp).1
  originUsed := hs.originUsed
  parentOwn := hs.parentOwn
  preview p hp := hs.preview p (mem_removeTree.mp hp).1
  part p hp o h hroot := by
    obtain ⟨hmem, hstays⟩ := mem_removeTree.mp hp
    obtain ⟨hparent, ⟨r, hr, hid⟩, horigin⟩ := hs.part p hmem o h hroot
    refine ⟨hparent, ⟨r, mem_removeTree.mpr ⟨hr, fun hgone => hstays ?_⟩, hid⟩, horigin⟩
    rw [hid] at hgone
    exact mem_below_of_parent hmem hparent hgone

theorem PreviewOf.of_removeTree (h : (db.removeTree id).PreviewOf pr id') :
    db.PreviewOf pr id' ∧ id' ≠ id := by
  obtain ⟨⟨p, hp, rfl⟩, horigin⟩ := h
  obtain ⟨hmem, hstays⟩ := mem_removeTree.mp hp
  refine ⟨⟨⟨p, hmem, rfl⟩, horigin⟩, ?_⟩
  intro heq
  rw [heq] at hstays
  exact hstays mem_below_self

/-! ### What a new project changes -/

section
variable {origin : Origin} {parentProjectId : Option String}

theorem origin_createProject (hfresh : id ∉ db.used) (h : id' ∈ db.used) :
    (db.createProject id name parentProjectId origin).origin id' = db.origin id' := by
  refine Function.update_of_ne ?_ _ _
  intro heq
  rw [heq] at h
  exact hfresh h

theorem origin_createProject_cases
    (h : (db.createProject id name parentProjectId origin).origin id' = some o) :
    id' = id ∧ o = origin ∨ id' ≠ id ∧ db.origin id' = some o := by
  change Function.update db.origin id (some origin) id' = some o at h
  rw [Function.update_apply] at h
  split at h
  next heq => exact .inl ⟨heq, (Option.some.inj h).symm⟩
  next hne => exact .inr ⟨hne, h⟩

theorem Sound.previewOf_createProject (hs : db.Sound parent) (hfresh : id ∉ db.used)
    (h : db.PreviewOf pr id') :
    (db.createProject id name parentProjectId origin).PreviewOf pr id' := by
  obtain ⟨⟨p, hp, hid⟩, horigin⟩ := h
  refine ⟨⟨p, .tail _ hp, hid⟩, ?_⟩
  rwa [origin_createProject hfresh (hs.originUsed _ _ horigin).1]

theorem PreviewOf.of_createProject
    (h : (db.createProject id name parentProjectId origin).PreviewOf pr id') :
    id' = id ∧ origin = ⟨pr, id⟩ ∨ db.PreviewOf pr id' := by
  obtain ⟨⟨p, hp, hid⟩, horigin⟩ := h
  obtain ⟨heq, ho⟩ | ⟨hne, horigin⟩ := origin_createProject_cases horigin
  · rw [heq] at ho
    exact .inl ⟨heq, ho.symm⟩
  · cases hp with
    | head => exact absurd hid.symm hne
    | tail _ hp => exact .inr ⟨⟨p, hp, hid⟩, horigin⟩

/-- A preview gets the name of its pull request; a part goes below the preview it is part of. -/
theorem Sound.createProject (hs : db.Sound parent) (hfresh : id ∉ db.used)
    (hname : db.getProjectByName name = none)
    (hnew : origin.root = id ∧ name = parent.previewName origin.prNumber ∧ parentProjectId = none ∨
      parentProjectId = some origin.root ∧ db.PreviewOf origin.prNumber origin.root) :
    (db.createProject id name parentProjectId origin).Sound parent where
  names := by
    refine List.nodup_cons.mpr ⟨?_, hs.names⟩
    intro hmem
    obtain ⟨p, hp, heq⟩ := List.mem_map.mp hmem
    exact getProjectByName_eq_none.mp hname p hp heq
  used p hp := by
    cases hp with
    | head => exact .head _
    | tail _ hp => exact .tail _ (hs.used p hp)
  parentUsed p hp id' hparent := by
    cases hp with
    | head =>
      obtain ⟨_, _, hnone⟩ | ⟨hsome, _, horigin⟩ := hnew
      · rw [hnone] at hparent
        nomatch hparent
      · rw [hsome] at hparent
        obtain rfl := Option.some.inj hparent
        exact .tail _ (hs.originUsed _ _ horigin).1
    | tail _ hp => exact .tail _ (hs.parentUsed p hp id' hparent)
  originUsed id' o h := by
    obtain ⟨rfl, rfl⟩ | ⟨_, h⟩ := origin_createProject_cases h
    · refine ⟨.head _, ?_⟩
      obtain ⟨hroot, _⟩ | ⟨_, _, horigin⟩ := hnew
      · rw [hroot]
        exact .head _
      · exact .tail _ (hs.originUsed _ _ horigin).1
    · exact (hs.originUsed id' o h).imp (.tail _) (.tail _)
  parentOwn := by
    refine ⟨.tail _ hs.parentOwn.1, ?_⟩
    rw [origin_createProject hfresh hs.parentOwn.1]
    exact hs.parentOwn.2
  preview p hp pr h := by
    cases hp with
    | head =>
      obtain ⟨_, rfl⟩ | ⟨hne, _⟩ := origin_createProject_cases h
      · obtain ⟨_, hname, _⟩ | ⟨_, _, horigin⟩ := hnew
        · exact hname
        · exact absurd (hs.originUsed _ _ horigin).1 hfresh
      · exact absurd rfl hne
    | tail _ hp =>
      rw [origin_createProject hfresh (hs.used p hp)] at h
      exact hs.preview p hp pr h
  part p hp o h hroot := by
    cases hp with
    | head =>
      obtain ⟨_, rfl⟩ | ⟨hne, _⟩ := origin_createProject_cases h
      · obtain ⟨heq, _⟩ | ⟨hsome, hpreview⟩ := hnew
        · exact absurd heq hroot
        · exact ⟨hsome, hs.previewOf_createProject hfresh hpreview⟩
      · exact absurd rfl hne
    | tail _ hp =>
      rw [origin_createProject hfresh (hs.used p hp)] at h
      obtain ⟨hparent, hpreview⟩ := hs.part p hp o h hroot
      exact ⟨hparent, hs.previewOf_createProject hfresh hpreview⟩

theorem Attributed.createProject (ha : db.Attributed parent) (hs : db.Sound parent)
    (hfresh : id ∉ db.used)
    (hnew : parentProjectId = none ∨
      parentProjectId = some origin.root ∧ db.PreviewOf origin.prNumber origin.root) :
    (db.createProject id name parentProjectId origin).Attributed parent where
  columns p hp pr h := by
    cases hp with
    | head => exact absurd h (by simp [Parent.columns])
    | tail _ hp =>
      rw [origin_createProject hfresh (hs.used p hp)]
      exact ha.columns p hp pr h
  tree p hp id' o hparent h := by
    cases hp with
    | head =>
      obtain hnone | ⟨hsome, hpreview⟩ := hnew
      · rw [hnone] at hparent
        nomatch hparent
      · rw [hsome] at hparent
        obtain rfl := Option.some.inj hparent
        rw [origin_createProject hfresh (hs.originUsed _ _ hpreview.2).1, hpreview.2] at h
        obtain rfl := Option.some.inj h
        exact ⟨origin, Function.update_self _ _ _, rfl⟩
    | tail _ hp =>
      rw [origin_createProject hfresh (hs.used p hp)]
      rw [origin_createProject hfresh (hs.parentUsed p hp id' hparent)] at h
      exact ha.tree p hp id' o hparent h

end

end Db

variable {ι : Type} [DecidableEq ι] {s t : State ι} {id : String}

theorem State.handlers_goTo : (s.goTo h pr phase).handlers h' =
    if h' = h then some ⟨pr, phase⟩ else s.handlers h' :=
  Function.update_apply ..

section
omit [DecidableEq ι]

@[simp] theorem State.db_touch : (s.touch pr id).db = s.db := by
  rw [State.touch]
  split <;> rfl

@[simp] theorem State.handlers_touch : (s.touch pr id).handlers = s.handlers := by
  rw [State.touch]
  split <;> rfl

@[simp] theorem State.handlers_updateProject :
    (s.updateProject id pr columns).handlers = s.handlers := State.handlers_touch

@[simp] theorem State.origin_updateProject :
    (s.updateProject id pr columns).db.origin = s.db.origin := rfl

@[simp] theorem State.handlers_remove : (s.remove pr id).handlers = s.handlers := by
  rw [State.remove]
  split <;> rfl

@[simp] theorem State.latest_remove : (s.remove pr id).latest = s.latest := by
  rw [State.remove]
  split <;> rfl

theorem State.not_previewOf_remove (hleaves : ∀ id', s.db.PreviewOf pr id' → id' = id) :
    ¬ (s.remove pr id).db.PreviewOf pr id' := by
  rw [State.remove]
  split
  · intro hid
    obtain ⟨hold, hne⟩ := hid.of_removeTree
    exact hne (hleaves id' hold)
  next hgone =>
    intro hid
    rw [hleaves id' hid] at hid
    exact hgone hid.1

end

/-! ## The runs -/

/-- What is touched for a pull request was made for it. -/
def State.Owned (s : State ι) : Prop :=
  ∀ id pr, (id, pr) ∈ s.touched → ∃ o, s.db.origin id = some o ∧ o.prNumber = pr

/-- Where the last event of a pull request was a closing one that has been handled, and no handler
for the pull request is in flight, nothing that was made for it is left. -/
def State.Cleaned (s : State ι) : Prop :=
  ∀ pr h x, s.latest pr = some h → s.handlers h = some x → x.phase = .cleaned →
    (∀ h' x', s.handlers h' = some x' → x'.prNumber = pr → ¬ x'.phase.InFlight) →
    ∀ p ∈ s.db.projects, ∀ o, s.db.origin p.id = some o → o.prNumber ≠ pr

/-- No event has been delivered. -/
structure Start (parent : Parent) (s : State ι) : Prop where
  sound : s.db.Sound parent
  handlers : ∀ h, s.handlers h = none
  latest : ∀ pr, s.latest pr = none
  touched : s.touched = []

/-- A look-up by name finds a project made for the pull request; the last event of a pull request,
a closing one, finds the columns on all that was created for it, and nothing is created for it
afterwards. -/
def Meets (parent : Parent) (s : State ι) : Event ι → Prop
  | .step h => ∀ x, s.handlers h = some x →
    (x.phase = .lookup → ∀ p ∈ s.db.projects, p.name = parent.previewName x.prNumber →
      s.db.origin p.id = some ⟨x.prNumber, p.id⟩) ∧
    (x.phase = .listing → s.latest x.prNumber = some h → ∀ p ∈ s.db.projects,
      s.db.origin p.id = some ⟨x.prNumber, p.id⟩ →
        p.service = some (parent.columns x.prNumber))
  | .createProject h _ => ∀ x, s.handlers h = some x → ∀ h', s.latest x.prNumber = some h' →
    ∀ y, s.handlers h' = some y → ¬ y.phase.Listed
  | _ => True

/-- The preview that the handler of a closing event leaves for now. -/
def Phase.Leaves : Phase → String → Prop
  | removing id, id' => id' = id
  | cleaned, _ => False
  | _, _ => True

theorem Phase.target_first : (Phase.first action).target = none := by cases action <;> rfl

theorem Phase.leaves_first (id : String) : (Phase.first action).Leaves id := by
  cases action <;> trivial

theorem Phase.of_onFailure {phase phase' : Phase} (h : phase.onFailure = some phase') :
    phase'.target = none ∧ ∀ id, phase'.Leaves id := by
  cases phase with
  | deployed | cleaned | failed => nomatch h
  | _ =>
    obtain rfl := Option.some.inj h
    exact ⟨rfl, fun _ => trivial⟩

/-- What the steps that meet the condition preserve. -/
structure Ready (parent : Parent) (s : State ι) : Prop where
  sound : s.db.Sound parent
  attributed : s.db.Attributed parent
  targets : ∀ h x id, s.handlers h = some x → x.phase.target = some id →
    s.db.origin id = some ⟨x.prNumber, id⟩
  owned : s.Owned
  latest : ∀ pr h, s.latest pr = some h → ∃ x, s.handlers h = some x ∧ x.prNumber = pr ∧
    ∀ id, s.db.PreviewOf pr id → x.phase.Leaves id

namespace Ready
variable {h : ι} {pr : Nat} {phase phase₀ : Phase} {o : Origin}

omit [DecidableEq ι] in
theorem start (h : Start parent s) (ha : s.db.Attributed parent) : Ready parent s where
  sound := h.sound
  attributed := ha
  targets h' x id hx := nomatch (h.handlers h').symm.trans hx
  owned id pr hmem := by
    rw [h.touched] at hmem
    nomatch hmem
  latest pr h' hlatest := nomatch (h.latest pr).symm.trans hlatest

/-! ### The moves of a handler -/

theorem goTo (hr : Ready parent s) (hh : s.handlers h = some ⟨pr, phase₀⟩)
    (htarget : ∀ id, phase.target = some id → s.db.origin id = some ⟨pr, id⟩)
    (hleaves : s.latest pr = some h → ∀ id, s.db.PreviewOf pr id → phase.Leaves id) :
    Ready parent (s.goTo h pr phase) where
  sound := hr.sound
  attributed := hr.attributed
  targets h' x id hx hid := by
    rw [State.handlers_goTo] at hx
    split at hx
    · obtain rfl := Option.some.inj hx
      exact htarget id hid
    · exact hr.targets h' x id hx hid
  owned := hr.owned
  latest pr' h' hlatest := by
    obtain ⟨x, hx, hpr, hx'⟩ := hr.latest pr' h' hlatest
    rw [State.handlers_goTo]
    split
    next heq =>
      rw [heq, hh] at hx
      obtain rfl := Option.some.inj hx
      obtain rfl : pr = pr' := hpr
      refine ⟨_, rfl, rfl, hleaves ?_⟩
      rw [← heq]
      exact hlatest
    next => exact ⟨x, hx, hpr, hx'⟩

/-! ### The changes of the projects -/

omit [DecidableEq ι] in
/-- What was made for a pull request stays so; a preview that comes is one that the handler of the
last event leaves; what is touched was made for the pull request. -/
theorem withDb {db : Db} {touched : List (String × Nat)} (hr : Ready parent s)
    (hs : db.Sound parent) (ha : db.Attributed parent)
    (horigin : ∀ id o, s.db.origin id = some o → db.origin id = some o)
    (hpreview : ∀ pr id, db.PreviewOf pr id → s.db.PreviewOf pr id ∨
      ∀ h x, s.latest pr = some h → s.handlers h = some x → x.phase.Leaves id)
    (htouched : ∀ id pr, (id, pr) ∈ touched → (id, pr) ∈ s.touched ∨
      ∃ o, s.db.origin id = some o ∧ o.prNumber = pr) :
    Ready parent { s with db, touched } where
  sound := hs
  attributed := ha
  targets h x id hx hid := horigin _ _ (hr.targets h x id hx hid)
  owned id pr hmem := by
    obtain hold | ⟨o, ho, hpr⟩ := htouched id pr hmem
    · obtain ⟨o, ho, hpr⟩ := hr.owned id pr hold
      exact ⟨o, horigin _ _ ho, hpr⟩
    · exact ⟨o, horigin _ _ ho, hpr⟩
  latest pr h hlatest := by
    obtain ⟨x, hx, hpr, hleaves⟩ := hr.latest pr h hlatest
    refine ⟨x, hx, hpr, fun id hid => ?_⟩
    obtain hold | hnew := hpreview pr id hid
    · exact hleaves id hold
    · exact hnew h x hlatest hx

omit [DecidableEq ι] in
theorem touch (hr : Ready parent s) (horigin : s.db.origin id = some ⟨pr, id⟩) :
    Ready parent (s.touch pr id) := by
  rw [State.touch]
  split
  · refine hr.withDb hr.sound hr.attributed (fun _ _ ho => ho) (fun _ _ hid => .inl hid) ?_
    intro id' pr' hmem
    cases hmem with
    | head => exact .inr ⟨_, horigin, rfl⟩
    | tail _ hmem => exact .inl hmem
  · exact hr

omit [DecidableEq ι] in
theorem updateProject (hr : Ready parent s) (horigin : s.db.origin id = some ⟨pr, id⟩) :
    Ready parent (s.updateProject id pr (parent.columns pr)) := by
  refine (hr.touch horigin).withDb (hr.sound.updateProject horigin)
    (hr.attributed.updateProject hr.sound horigin) ?_ ?_ fun _ _ => .inl
  · intro id' o ho
    rwa [State.db_touch] at ho
  · intro pr' id' hid
    rw [State.db_touch]
    exact .inl (Db.previewOf_updateProject.mp hid)

omit [DecidableEq ι] in
theorem remove (hr : Ready parent s) (horigin : s.db.origin id = some o) :
    Ready parent (s.remove o.prNumber id) := by
  rw [State.remove]
  split
  · refine hr.withDb hr.sound.removeTree hr.attributed.removeTree (fun _ _ ho => ho)
      (fun _ _ hid => .inl hid.of_removeTree.1) fun id' pr hmem => ?_
    obtain hgone | hold := List.mem_append.mp hmem
    · obtain ⟨id'', hbelow, heq⟩ := List.mem_map.mp hgone
      obtain ⟨rfl, rfl⟩ := Prod.mk.inj heq
      exact .inr (hr.attributed.origin_of_mem_below hbelow horigin)
    · exact .inl hold
  · exact hr

omit [DecidableEq ι] in
theorem createProject (hr : Ready parent s) (hfresh : id ∉ s.db.used)
    (hname : s.db.getProjectByName (parent.previewName pr) = none)
    (hlatest : ∀ h, s.latest pr = some h → ∀ x, s.handlers h = some x → ¬ x.phase.Listed) :
    Ready parent { s with
      db := s.db.createProject id (parent.previewName pr) none ⟨pr, id⟩ } := by
  refine hr.withDb (hr.sound.createProject hfresh hname (.inl ⟨rfl, rfl, rfl⟩))
    (hr.attributed.createProject hr.sound hfresh (.inl rfl)) ?_ ?_ fun _ _ => .inl
  · intro id' o ho
    rwa [Db.origin_createProject hfresh (hr.sound.originUsed _ _ ho).1]
  · intro pr' id' hid
    obtain ⟨rfl, heq⟩ | hold := hid.of_createProject
    · obtain rfl : pr = pr' := congrArg Origin.prNumber heq
      refine .inr fun h x hh hx => ?_
      have hnot := hlatest h hh x hx
      cases hphase : x.phase <;> simp_all [Phase.Listed, Phase.Leaves]
    · exact .inl hold

omit [DecidableEq ι] in
theorem addChild (hr : Ready parent s) (hfresh : id ∉ s.db.used)
    (hname : s.db.getProjectByName name = none) (hroot : s.db.PreviewOf pr root) :
    Ready parent { s with db := s.db.createProject id name (some root) ⟨pr, root⟩ } := by
  refine hr.withDb (hr.sound.createProject hfresh hname (.inr ⟨rfl, hroot⟩))
    (hr.attributed.createProject hr.sound hfresh (.inr ⟨rfl, hroot⟩)) ?_ ?_ fun _ _ => .inl
  · intro id' o ho
    rwa [Db.origin_createProject hfresh (hr.sound.originUsed _ _ ho).1]
  · intro pr' id' hid
    obtain ⟨rfl, heq⟩ | hold := hid.of_createProject
    · obtain rfl : root = id' := congrArg Origin.root heq
      exact absurd (hr.sound.originUsed _ _ hroot.2).1 hfresh
    · exact .inl hold

/-! ### The steps -/

theorem advance (hr : Ready parent s) (hh : s.handlers h = some ⟨pr, phase⟩)
    (hmeets : Meets parent s (.step h)) (ht : s.advance parent h pr phase = some t) :
    Ready parent t := by
  obtain ⟨hlookup, hlisting⟩ := hmeets _ hh
  have htarget : ∀ id, phase.target = some id → s.db.origin id = some ⟨pr, id⟩ :=
    fun id => hr.targets h _ id hh
  cases phase with
  | lookup =>
    rw [State.advance] at ht
    split at ht
    next existing hfound =>
      obtain rfl := Option.some.inj ht
      obtain ⟨hmem, hname⟩ := Db.mem_of_getProjectByName hfound
      refine hr.goTo hh ?_ fun _ _ _ => trivial
      intro id hid
      obtain rfl := Option.some.inj hid
      exact hlookup rfl existing hmem hname
    next =>
      obtain rfl := Option.some.inj ht
      exact hr.goTo hh nofun fun _ _ _ => trivial
  | marking id =>
    obtain rfl := Option.some.inj ht
    rw [← State.handlers_updateProject] at hh
    exact (hr.updateProject (htarget id rfl)).goTo hh htarget fun _ _ _ => trivial
  | redeploying id =>
    rw [State.advance] at ht
    split at ht
    · obtain rfl := Option.some.inj ht
      rw [← State.handlers_touch] at hh
      refine (hr.touch (htarget id rfl)).goTo hh ?_ fun _ _ _ => trivial
      rwa [State.db_touch]
    · obtain rfl := Option.some.inj ht
      exact hr.goTo hh nofun fun _ _ _ => trivial
  | rebuilding id =>
    obtain rfl := Option.some.inj ht
    exact hr.goTo hh nofun fun _ _ _ => trivial
  | deploying id =>
    obtain rfl := Option.some.inj ht
    exact hr.goTo hh htarget fun _ _ _ => trivial
  | recording id =>
    obtain rfl := Option.some.inj ht
    rw [← State.handlers_updateProject] at hh
    exact (hr.updateProject (htarget id rfl)).goTo hh nofun fun _ _ _ => trivial
  | listing =>
    rw [State.advance] at ht
    split at ht
    next target hfound =>
      obtain rfl := Option.some.inj ht
      have hmem := List.mem_of_find?_eq_some hfound
      have horigin := hr.attributed.columns target hmem pr (by simpa using List.find?_some hfound)
      refine hr.goTo hh ?_ ?_
      · intro id hid
        obtain rfl := Option.some.inj hid
        exact horigin
      · intro _ id hid
        exact hr.sound.preview_unique hid ⟨⟨target, hmem, rfl⟩, horigin⟩
    next hnone =>
      obtain rfl := Option.some.inj ht
      refine hr.goTo hh nofun ?_
      intro hlatest id ⟨⟨p, hp, hid⟩, horigin⟩
      rw [← hid] at horigin
      have hcolumns := hlisting rfl hlatest p hp horigin
      exact absurd hcolumns (by simpa using List.find?_eq_none.mp hnone p hp)
  | removing id =>
    obtain rfl := Option.some.inj ht
    have hready : Ready parent (s.remove pr id) := hr.remove (htarget id rfl)
    refine hready.goTo (by rwa [State.handlers_remove]) nofun ?_
    intro hlatest id' hid'
    refine State.not_previewOf_remove (fun id'' hid'' => ?_) hid'
    rw [State.latest_remove] at hlatest
    obtain ⟨x, hx, _, hleaves⟩ := hr.latest pr h hlatest
    obtain rfl := Option.some.inj (hh.symm.trans hx)
    exact hleaves id'' hid''
  | creating | deployed | cleaned | failed => nomatch ht

theorem create (hr : Ready parent s) (hh : s.handlers h = some ⟨pr, .creating⟩)
    (hfresh : id ∉ s.db.used) (hmeets : Meets parent s (.createProject h id)) :
    Ready parent (s.create parent h pr id) := by
  rw [State.create]
  split
  · exact hr.goTo hh nofun fun _ _ _ => trivial
  next hname =>
    have hready := hr.createProject hfresh hname (hmeets _ hh)
    refine hready.goTo hh ?_ fun _ _ _ => trivial
    intro id' hid
    obtain rfl := Option.some.inj hid
    exact Function.update_self ..

theorem deliver (hr : Ready parent s) (hnew : s.handlers h = none) : Ready parent
    { s.goTo h pr (.first action) with latest := Function.update s.latest pr (some h) } where
  sound := hr.sound
  attributed := hr.attributed
  targets h' x id hx hid := by
    change (s.goTo h pr (.first action)).handlers h' = some x at hx
    rw [State.handlers_goTo] at hx
    split at hx
    · obtain rfl := Option.some.inj hx
      rw [Phase.target_first] at hid
      nomatch hid
    · exact hr.targets h' x id hx hid
  owned := hr.owned
  latest pr' h' hlatest := by
    change Function.update s.latest pr (some h) pr' = some h' at hlatest
    rw [Function.update_apply] at hlatest
    change ∃ x, (s.goTo h pr (.first action)).handlers h' = some x ∧ _
    rw [State.handlers_goTo]
    split at hlatest
    next heq =>
      obtain rfl := Option.some.inj hlatest
      rw [if_pos rfl]
      exact ⟨_, rfl, heq.symm, fun id _ => Phase.leaves_first id⟩
    next =>
      obtain ⟨x, hx, hx'⟩ := hr.latest pr' h' hlatest
      rw [if_neg (fun heq => nomatch (heq ▸ hnew).symm.trans hx)]
      exact ⟨x, hx, hx'⟩

theorem next (hr : Ready parent s) (hmeets : Meets parent s e) (ht : next parent s e = some t) :
    Ready parent t := by
  cases e with
  | deliver h pr action =>
    obtain ⟨⟨hnew, _⟩, ht⟩ := Option.ite_none_right_eq_some.mp ht
    obtain rfl := Option.some.inj ht
    exact hr.deliver hnew
  | step h =>
    obtain ⟨x, hh, ht⟩ := Option.bind_eq_some_iff.mp ht
    exact hr.advance hh hmeets ht
  | createProject h id =>
    obtain ⟨⟨pr, phase⟩, hh, ht⟩ := Option.bind_eq_some_iff.mp ht
    obtain ⟨⟨hphase, hfresh⟩, ht⟩ := Option.ite_none_right_eq_some.mp ht
    obtain rfl := Option.some.inj ht
    obtain rfl : phase = .creating := hphase
    exact hr.create hh hfresh hmeets
  | addChild h id name =>
    obtain ⟨⟨pr, phase⟩, hh, ht⟩ := Option.bind_eq_some_iff.mp ht
    obtain ⟨root, hroot, ht⟩ := Option.bind_eq_some_iff.mp ht
    obtain ⟨⟨hfresh, hname, hexists⟩, ht⟩ := Option.ite_none_right_eq_some.mp ht
    obtain rfl := Option.some.inj ht
    refine hr.addChild hfresh hname ⟨hexists, hr.targets h _ root hh ?_⟩
    cases phase <;> first | exact hroot | nomatch hroot
  | removeChild h id =>
    obtain ⟨⟨pr, phase⟩, hh, ht⟩ := Option.bind_eq_some_iff.mp ht
    cases phase with
    | removing target =>
      obtain ⟨⟨_, _, hbelow⟩, ht⟩ := Option.ite_none_right_eq_some.mp ht
      obtain rfl := Option.some.inj ht
      obtain ⟨o, horigin, hpr⟩ :=
        hr.attributed.origin_of_mem_below hbelow (hr.targets h _ target hh rfl)
      obtain rfl : o.prNumber = pr := hpr
      exact hr.remove horigin
    | _ => nomatch ht
  | fail h =>
    obtain ⟨⟨pr, phase⟩, hh, ht⟩ := Option.bind_eq_some_iff.mp ht
    obtain ⟨phase', hphase, rfl⟩ := Option.map_eq_some_iff.mp ht
    obtain ⟨htarget, hleaves⟩ := Phase.of_onFailure hphase
    refine hr.goTo hh ?_ fun _ id _ => hleaves id
    rw [htarget]
    nofun

omit [DecidableEq ι] in
theorem cleaned (hr : Ready parent s) : s.Cleaned := by
  intro pr h x hlatest hx hphase _ p hp o horigin hpr
  obtain ⟨x', hx', _, hleaves⟩ := hr.latest pr h hlatest
  obtain rfl := Option.some.inj (hx.symm.trans hx')
  rw [hphase] at hleaves
  subst hpr
  by_cases hroot : o.root = p.id
  · refine hleaves p.id ⟨⟨p, hp, rfl⟩, ?_⟩
    rw [horigin, ← hroot]
  · exact hleaves _ (hr.sound.part p hp o horigin hroot).2

end Ready

instance (e : Event ι) : Decidable (Meets parent s e) := by
  cases e with
  | step h =>
    exact inferInstanceAs (Decidable (∀ x ∈ s.handlers h,
      (x.phase = .lookup → ∀ p ∈ s.db.projects, p.name = parent.previewName x.prNumber →
        s.db.origin p.id = some ⟨x.prNumber, p.id⟩) ∧
      (x.phase = .listing → s.latest x.prNumber = some h → ∀ p ∈ s.db.projects,
        s.db.origin p.id = some ⟨x.prNumber, p.id⟩ →
          p.service = some (parent.columns x.prNumber))))
  | createProject h id =>
    exact inferInstanceAs (Decidable (∀ x ∈ s.handlers h, ∀ h' ∈ s.latest x.prNumber,
      ∀ y ∈ s.handlers h', ¬ y.phase.Listed))
  | _ => exact isTrue trivial

/-- In a run whose steps meet the condition, from projects on which the columns are right. -/
theorem previewsOwned_of_meets (hs : Start parent s) (ha : s.db.Attributed parent)
    (h : Run (Guarded (Fires (next parent)) (Meets parent)) s es t) : t.Owned ∧ t.Cleaned := by
  have hready : Ready parent t := h.invariant (I := Ready parent)
    (fun _ _ _ ⟨hstep, hmeets⟩ hr => hr.next hmeets hstep) (.start hs ha)
  exact ⟨hready.owned, hready.cleaned⟩

/-- No event touches a project that was not made for its pull request. -/
def StaysOwned (parent : Parent) (ι : Type) [DecidableEq ι] : Prop :=
  ∀ (s t : State ι) es, Start parent s → Run (Fires (next parent)) s es t → t.Owned

/-- Nothing that was made for a pull request is left once its closing event has been handled. -/
def GetsCleaned (parent : Parent) (ι : Type) [DecidableEq ι] : Prop :=
  ∀ (s t : State ι) es, Start parent s → Run (Fires (next parent)) s es t → t.Cleaned

/-! ## Runs of a shop -/

def shop : Parent := ⟨"p0", "shop"⟩

/-- The shop and other projects, before any event. -/
def quiet (others : List Project) : State Nat where
  db := ⟨⟨"p0", "shop", some ⟨none, false, none⟩⟩ :: others, "p0" :: others.map (·.id),
    fun _ => none⟩
  handlers _ := none
  latest _ := none
  touched := []

theorem start_quiet {others : List Project} (hnames : (others.map (·.name)).Nodup)
    (hshop : "shop" ∉ others.map (·.name)) (hparent : ∀ p ∈ others, p.parentProjectId = none) :
    Start shop (quiet others) where
  sound := {
    names := List.nodup_cons.mpr ⟨hshop, hnames⟩
    used := fun p hp => by
      cases hp with
      | head => exact .head _
      | tail _ hp => exact .tail _ (List.mem_map_of_mem hp)
    parentUsed := fun p hp id hparent' => by
      cases hp with
      | head => nomatch hparent'
      | tail _ hp => exact nomatch (hparent p hp).symm.trans hparent'
    originUsed := nofun
    parentOwn := ⟨.head _, rfl⟩
    preview := nofun
    part := nofun }
  handlers _ := rfl
  latest _ := rfl
  touched := rfl

theorem attributed_quiet : (quiet []).db.Attributed shop where
  columns p hp pr h := by
    obtain rfl := List.mem_singleton.mp hp
    nomatch h
  tree := nofun

/-- The preview is deployed and, after the closing event, removed. -/
theorem previewsOwned_shop : ∃ t : State Nat,
    (t.touched = [("a", 3), ("a", 3)] ∧ t.db.projects.map (·.name) = ["shop"]) ∧
      t.Owned ∧ t.Cleaned := by
  have hstart : Start shop (quiet []) := start_quiet (by decide) (by decide) nofun
  let events : List (Event Nat) := [.deliver 0 3 .opened, .step 0, .createProject 0 "a", .step 0,
    .step 0, .deliver 1 3 .closed, .step 1, .step 1]
  refine ⟨_, ?_, previewsOwned_of_meets hstart attributed_quiet
    (.of_exec_guardedNext (show exec _ _ events = _ from rfl))⟩
  decide +kernel

/-- A project of the user's with the name of a preview is re-parented. A preview whose first
deployment fails stays when its pull request is closed. -/
theorem not_previewsOwned : ¬ StaysOwned shop Nat ∧ ¬ GetsCleaned shop Nat := by
  constructor
  · intro h
    have howned := h (quiet [⟨"u", "shop-pr-3", some ⟨none, false, none⟩⟩]) _
      [.deliver 0 3 .opened, .step 0, .step 0]
      (start_quiet (by decide) (by decide) (by decide)) (.of_exec rfl)
    obtain ⟨o, ho, _⟩ := howned "u" 3 (by decide)
    nomatch ho
  · intro h
    have hcleaned := h (quiet []) _
      [.deliver 0 3 .opened, .step 0, .createProject 0 "a", .fail 0, .deliver 1 3 .closed, .step 1]
      (start_quiet (by decide) (by decide) (by decide)) (.of_exec rfl)
    refine hcleaned 3 1 _ rfl rfl rfl ?_ ⟨"a", "shop-pr-3", some ⟨none, false, none⟩⟩
      (by decide) ⟨3, "a"⟩ rfl rfl
    intro h' x' hx' _
    match h' with
    | 0 =>
      obtain rfl := Option.some.inj (show some ⟨3, .deployed⟩ = some x' from hx')
      decide
    | 1 =>
      obtain rfl := Option.some.inj (show some ⟨3, .cleaned⟩ = some x' from hx')
      decide
    | _ + 2 => nomatch hx'

end OpenLander.Webhook
