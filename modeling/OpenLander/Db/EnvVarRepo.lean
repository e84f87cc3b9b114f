import OpenLander.Pipeline.EnvManager
import OpenLander.Theory.Collections

/-! # The environment variables in the database

`EnvVarRepo` (`src/db/repos/env-var.repo.ts`) keeps a row for each variable of a scope. A scope belongs
to a project or to a service, and in either case is shared or that of one environment, where the columns
of what it does not have are null. It stands for a map from scopes and keys to values, but for the keys
that every object inherits: `in` finds them in the variables of `setEnvVarsBulk`, so that it keeps their
rows, and the record that is read cannot take the key `__proto__`. -/

namespace OpenLander.Db.EnvVarRepo
open Theory
open Pipeline.EnvManager (objectPrototypeKeys)

structure Row where
  id : Nat
  projectId : String
  serviceId : Option String
  environmentId : Option String
  key : String
  value : String
  deriving DecidableEq, Repr

structure EnvScope where
  projectId : String
  serviceId : Option String := none
  environmentId : Option String := none
  deriving DecidableEq, Repr

inductive EnvVarChangeOp
  | insert | update | noop
  deriving DecidableEq, Repr

structure EnvVarChange where
  key : String
  op : EnvVarChangeOp
  deriving DecidableEq, Repr

/-- A record of variables: its own keys, in their order, with their values. -/
structure Vars where
  entries : List (String × String)
  nodup : (entries.map (·.1)).Nodup

/-! ## Conditions -/

def environmentWhere (environmentId : Option String) (row : Row) : Bool :=
  match environmentId with
  | none => row.environmentId.isNone
  | some environmentId => row.environmentId = some environmentId

def projectWhere (projectId : String) (environmentId : Option String) (row : Row) : Bool :=
  row.projectId = projectId && row.serviceId.isNone && environmentWhere environmentId row

def projectKeyWhere (projectId key : String) (environmentId : Option String) (row : Row) : Bool :=
  projectWhere projectId environmentId row && row.key = key

/-- The project of a service is not looked at. -/
def serviceWhere (serviceId : String) (environmentId : Option String) (row : Row) : Bool :=
  row.serviceId = some serviceId && environmentWhere environmentId row

def serviceKeyWhere (serviceId key : String) (environmentId : Option String) (row : Row) : Bool :=
  serviceWhere serviceId environmentId row && row.key = key

def scopeWhere (scope : EnvScope) : Row → Bool :=
  match scope.serviceId with
  | none => projectWhere scope.projectId scope.environmentId
  | some serviceId => serviceWhere serviceId scope.environmentId

def scopeKeyWhere (scope : EnvScope) (key : String) : Row → Bool :=
  match scope.serviceId with
  | none => projectKeyWhere scope.projectId key scope.environmentId
  | some serviceId => serviceKeyWhere serviceId key scope.environmentId

/-- The row that the row to be inserted is in conflict with, by the columns and the condition of the
unique index. -/
def conflictTarget (scope : EnvScope) (key : String) (row : Row) : Bool :=
  match scope.serviceId, scope.environmentId with
  | none, none => row.projectId = scope.projectId && row.key = key &&
      (row.serviceId.isNone && row.environmentId.isNone)
  | none, some environmentId => row.projectId = scope.projectId &&
      row.environmentId = some environmentId && row.key = key &&
        (row.serviceId.isNone && row.environmentId.isSome)
  | some serviceId, none => row.serviceId = some serviceId && row.key = key &&
      (row.serviceId.isSome && row.environmentId.isNone)
  | some serviceId, some environmentId => row.serviceId = some serviceId &&
      row.environmentId = some environmentId && row.key = key &&
        (row.serviceId.isSome && row.environmentId.isSome)

/-! ## Statements -/

/-- The rows of `env_vars`, with a number that no row has had as its id. -/
structure Table where
  rows : List Row := []
  nextId : Nat := 0
  deriving DecidableEq, Repr

def rowValues (id : Nat) (scope : EnvScope) (key value : String) : Row where
  id
  projectId := scope.projectId
  serviceId := scope.serviceId
  environmentId := scope.environmentId
  key
  value

def rowUpdateValues (scope : EnvScope) (value : String) (row : Row) : Row :=
  { row with
    value
    projectId := scope.projectId
    serviceId := scope.serviceId
    environmentId := scope.environmentId }

namespace Table
variable (t : Table)

def select (p : Row → Bool) : Option Row := t.rows.find? p

def update (id : Nat) (scope : EnvScope) (value : String) : Table :=
  { t with rows := t.rows.map fun row => if row.id = id then rowUpdateValues scope value row else row }

/-- `insert … onConflictDoUpdate` -/
def insert (scope : EnvScope) (key value : String) : Table :=
  match t.select (conflictTarget scope key) with
  | some row => t.update row.id scope value
  | none => { rows := t.rows ++ [rowValues t.nextId scope key value], nextId := t.nextId + 1 }

def delete (p : Row → Bool) : Table := { t with rows := t.rows.filter fun row => !p row }

end Table

/-! ## The repository -/

def upsertEnvVarDetailed (t : Table) (scope : EnvScope) (key value : String) : Table × EnvVarChange :=
  match t.select (scopeKeyWhere scope key) with
  | some existing =>
    if existing.value = value then (t, ⟨key, .noop⟩)
    else (t.update existing.id scope value, ⟨key, .update⟩)
  | none => (t.insert scope key value, ⟨key, .insert⟩)

/-- The entries one after the other, in one transaction. -/
def mergeEnvVars (scope : EnvScope) : Table → List (String × String) → Table × List EnvVarChange
  | t, [] => (t, [])
  | t, (key, value) :: entries =>
    let (t, change) := upsertEnvVarDetailed t scope key value
    let (t, changes) := mergeEnvVars scope t entries
    (t, change :: changes)

def mergeEnvVarsForScopeDetailed (t : Table) (scope : EnvScope) (vars : Vars) :
    Table × List EnvVarChange :=
  mergeEnvVars scope t vars.entries

/-- `key in vars` -/
def Vars.has (vars : Vars) (key : String) : Bool :=
  key ∈ vars.entries.map (·.1) || key ∈ objectPrototypeKeys

/-- An entry of `setEnvVarsBulk`. -/
def setEntry (scope : EnvScope) (t : Table) (entry : String × String) : Table :=
  match t.select (projectKeyWhere scope.projectId entry.1 scope.environmentId) with
  | some existing => t.update existing.id scope entry.2
  | none => t.insert scope entry.1 entry.2

def setEnvVarsBulk (t : Table) (projectId : String) (vars : Vars) (environmentId : Option String) :
    Table :=
  let existingRows := t.rows.filter (projectWhere projectId environmentId)
  let kept := existingRows.foldl (fun t row =>
    if vars.has row.key then t else t.delete (projectKeyWhere projectId row.key environmentId)) t
  vars.entries.foldl (setEntry { projectId, environmentId }) kept

/-- `deleteEnvVar` and `deleteEnvVarForService` -/
def deleteEnvVar (t : Table) (scope : EnvScope) (key : String) : Table :=
  t.delete (scopeKeyWhere scope key)

/-- `getEnvVars` and `getEnvVarsForService`. A text that is assigned to `__proto__` is dropped. -/
def getEnvVars (t : Table) (scope : EnvScope) : String → Option String :=
  fromEntries (((t.rows.filter (scopeWhere scope)).filter (·.key ≠ "__proto__")).map
    fun row => (row.key, row.value))

inductive Op
  /-- `setEnvVarDetailed` and `setEnvVarForServiceDetailed` -/
  | set (scope : EnvScope) (key value : String)
  | setBulk (projectId : String) (vars : Vars) (environmentId : Option String)
  /-- `mergeEnvVarsDetailed` and `mergeEnvVarsForServiceDetailed` -/
  | merge (scope : EnvScope) (vars : Vars)
  | delete (scope : EnvScope) (key : String)
  | read (scope : EnvScope)

inductive Output
  | change (change : EnvVarChange)
  | changes (changes : List EnvVarChange)
  | record (record : String → Option String)
  | done

def step (t : Table) : Op → Table × Output
  | .set scope key value =>
    let (t, change) := upsertEnvVarDetailed t scope key value
    (t, .change change)
  | .setBulk projectId vars environmentId => (setEnvVarsBulk t projectId vars environmentId, .done)
  | .merge scope vars =>
    let (t, changes) := mergeEnvVarsForScopeDetailed t scope vars
    (t, .changes changes)
  | .delete scope key => (deleteEnvVar t scope key, .done)
  | .read scope => (t, .record (getEnvVars t scope))

/-! ## The map -/

inductive Scope
  | project (projectId : String) (environmentId : Option String)
  | service (serviceId : String) (environmentId : Option String)
  deriving DecidableEq, Repr

def EnvScope.scope (scope : EnvScope) : Scope :=
  match scope.serviceId with
  | none => .project scope.projectId scope.environmentId
  | some serviceId => .service serviceId scope.environmentId

abbrev EnvMap := Scope → String → Option String

/-- What becomes of a key that had this value. -/
def changeOf (old : Option String) (value : String) : EnvVarChangeOp :=
  match old with
  | none => .insert
  | some old => if old = value then .noop else .update

def EnvMap.write (m : EnvMap) (scope : Scope) (key : String) (value : Option String) : EnvMap :=
  Function.update m scope (Function.update (m scope) key value)

/-- The entries go before what the scope has. -/
def EnvMap.merge (m : EnvMap) (scope : Scope) (entries : List (String × String)) : EnvMap :=
  Function.update m scope fun key => (fromEntries entries key).or (m scope key)

/-- The operations on the map of the scope. -/
def specStep (m : EnvMap) : Op → EnvMap × Output
  | .set scope key value =>
    (m.write scope.scope key (some value), .change ⟨key, changeOf (m scope.scope key) value⟩)
  | .setBulk projectId vars environmentId =>
    (Function.update m (.project projectId environmentId) (fromEntries vars.entries), .done)
  | .merge scope vars =>
    (m.merge scope.scope vars.entries,
      .changes (vars.entries.map fun entry => ⟨entry.1, changeOf (m scope.scope entry.1) entry.2⟩))
  | .delete scope key => (m.write scope.scope key none, .done)
  | .read scope => (m, .record (m scope.scope))

/-! ## What the table stands for -/

def Row.scope (row : Row) : Scope :=
  match row.serviceId with
  | none => .project row.projectId row.environmentId
  | some serviceId => .service serviceId row.environmentId

/-- The columns of the unique indexes. -/
def Row.slot (row : Row) : Scope × String := (row.scope, row.key)

/-- The unique indexes and the primary key. -/
structure Table.Valid (t : Table) : Prop where
  nodup_slots : (t.rows.map (·.slot)).Nodup
  nodup_ids : (t.rows.map (·.id)).Nodup
  fresh : ∀ row ∈ t.rows, row.id < t.nextId

def Table.contents (t : Table) : EnvMap := fun scope key =>
  (t.rows.find? (·.slot = (scope, key))).map (·.value)

variable {t : Table} {scope : EnvScope} {key value : String} {row existing : Row} {p : Row → Bool}

/-! ## Conditions and slots -/

theorem environmentWhere_iff {environmentId : Option String} :
    environmentWhere environmentId row = true ↔ row.environmentId = environmentId := by
  cases environmentId <;> simp [environmentWhere]

theorem scopeWhere_iff : scopeWhere scope row = true ↔ row.scope = scope.scope := by
  unfold scopeWhere EnvScope.scope Row.scope
  cases hrow : row.serviceId <;> cases scope.serviceId <;>
    simp [projectWhere, serviceWhere, environmentWhere_iff, hrow]

theorem scopeKeyWhere_eq : scopeKeyWhere scope key row = (scopeWhere scope row && row.key = key) := by
  unfold scopeKeyWhere scopeWhere
  cases scope.serviceId <;> rfl

theorem scopeKeyWhere_iff : scopeKeyWhere scope key row = true ↔ row.slot = (scope.scope, key) := by
  rw [scopeKeyWhere_eq, Bool.and_eq_true, scopeWhere_iff, decide_eq_true_eq, Row.slot, Prod.mk.injEq]

/-- A conflict is one with the row of the same scope and key. -/
theorem conflictTarget_iff : conflictTarget scope key row = true ↔ row.slot = (scope.scope, key) := by
  rw [← scopeKeyWhere_iff, scopeKeyWhere_eq]
  unfold conflictTarget scopeWhere projectWhere serviceWhere environmentWhere
  cases scope.serviceId <;> cases scope.environmentId <;> grind

theorem slot_rowValues {id : Nat} : (rowValues id scope key value).slot = (scope.scope, key) := by
  unfold Row.slot Row.scope EnvScope.scope rowValues
  cases scope.serviceId <;> rfl

theorem slot_rowUpdateValues (h : row.scope = scope.scope) :
    (rowUpdateValues scope value row).slot = row.slot := by
  rw [Row.slot, Row.slot, h]
  unfold Row.scope EnvScope.scope rowUpdateValues
  cases scope.serviceId <;> rfl

/-! ## Single statements -/

theorem contents_eq (t : Table) (scope : EnvScope) (key : String) :
    t.contents scope.scope key = (t.select (scopeKeyWhere scope key)).map (·.value) := by
  have hcond : scopeKeyWhere scope key = fun row => decide (row.slot = (scope.scope, key)) := by
    funext row
    rw [Bool.eq_iff_iff, scopeKeyWhere_iff, decide_eq_true_eq]
  rw [Table.contents, Table.select, hcond]

theorem select_some (h : t.select (scopeKeyWhere scope key) = some existing) :
    existing ∈ t.rows ∧ existing.slot = (scope.scope, key) :=
  ⟨List.mem_of_find?_eq_some h, scopeKeyWhere_iff.mp (List.find?_some h)⟩

/-- An update by the id is one of the row of the slot. -/
theorem update_rows (V : t.Valid) (h : existing ∈ t.rows)
    (hslot : existing.slot = (scope.scope, key)) :
    (t.update existing.id scope value).rows = t.rows.map fun row =>
      if row.slot = (scope.scope, key) then rowUpdateValues scope value row else row := by
  refine List.map_congr_left fun row hrow => ?_
  have hiff : row.id = existing.id ↔ row.slot = (scope.scope, key) := by
    constructor
    · intro hid
      rw [List.inj_on_of_nodup_map V.nodup_ids hrow h hid, hslot]
    · intro hrowSlot
      rw [List.inj_on_of_nodup_map V.nodup_slots hrow h (hrowSlot.trans hslot.symm)]
  simp only [hiff]

theorem slot_updated : (if row.slot = (scope.scope, key) then rowUpdateValues scope value row
    else row).slot = row.slot := by
  split
  next h => exact slot_rowUpdateValues (Prod.mk.inj h).1
  next => rfl

theorem valid_update (V : t.Valid) (h : existing ∈ t.rows)
    (hslot : existing.slot = (scope.scope, key)) : (t.update existing.id scope value).Valid := by
  have hid (row : Row) : (if row.slot = (scope.scope, key) then rowUpdateValues scope value row
      else row).id = row.id := by
    split <;> rfl
  refine ⟨?_, ?_, fun row hrow => ?_⟩
  · rw [update_rows V h hslot, List.map_map]
    exact (List.map_congr_left fun row _ => slot_updated).symm ▸ V.nodup_slots
  · rw [update_rows V h hslot, List.map_map]
    exact (List.map_congr_left fun row _ => hid row).symm ▸ V.nodup_ids
  · rw [update_rows V h hslot] at hrow
    obtain ⟨old, hold, rfl⟩ := List.mem_map.mp hrow
    rw [hid]
    exact V.fresh old hold

theorem write_apply (m : EnvMap) (scope scope' : Scope) (key key' : String) (value : Option String) :
    m.write scope key value scope' key' =
      if (scope', key') = (scope, key) then value else m scope' key' := by
  rw [EnvMap.write, Function.update_apply]
  by_cases hscope : scope' = scope
  · subst hscope
    simp [Function.update_apply]
  · simp [hscope]

theorem contents_update (V : t.Valid) (h : existing ∈ t.rows)
    (hslot : existing.slot = (scope.scope, key)) :
    (t.update existing.id scope value).contents = t.contents.write scope.scope key (some value) := by
  funext scope' key'
  rw [write_apply, Table.contents, update_rows V h hslot, List.find?_map]
  have hcond : (fun row => decide (Row.slot row = (scope', key'))) ∘ (fun row =>
      if row.slot = (scope.scope, key) then rowUpdateValues scope value row else row) =
        fun row => decide (row.slot = (scope', key')) := by
    funext row
    rw [Function.comp_apply, slot_updated]
  rw [hcond]
  cases hfound : t.rows.find? (·.slot = (scope', key')) with
  | none =>
    rw [if_neg, Table.contents, hfound]
    · rfl
    · intro hsame
      exact List.find?_eq_none.mp hfound existing h (decide_eq_true (hslot.trans hsame.symm))
  | some row =>
    have hrow : row.slot = (scope', key') := of_decide_eq_true (List.find?_some hfound :)
    rw [Table.contents, hfound, Option.map_some, Option.map_some, hrow]
    split <;> rfl

/-- A row of a new slot. -/
theorem insert_eq (h : t.contents scope.scope key = none) : t.insert scope key value =
    { rows := t.rows ++ [rowValues t.nextId scope key value], nextId := t.nextId + 1 } := by
  have hnone : t.select (conflictTarget scope key) = none := by
    rw [Table.contents, Option.map_eq_none_iff, List.find?_eq_none] at h
    rw [Table.select, List.find?_eq_none]
    intro row hrow hconflict
    exact h row hrow (decide_eq_true (conflictTarget_iff.mp hconflict))
  rw [Table.insert, hnone]

theorem valid_insert (V : t.Valid) (h : t.contents scope.scope key = none) :
    (t.insert scope key value).Valid := by
  rw [insert_eq h]
  refine ⟨?_, ?_, ?_⟩
  · rw [List.map_append, List.nodup_append]
    refine ⟨V.nodup_slots, List.nodup_singleton _, ?_⟩
    rintro slot hslot _ hnew rfl
    obtain ⟨row, hrow, rfl⟩ := List.mem_map.mp hslot
    rw [Table.contents, Option.map_eq_none_iff, List.find?_eq_none] at h
    exact h row hrow (decide_eq_true ((List.mem_singleton.mp hnew).trans slot_rowValues))
  · rw [List.map_append, List.nodup_append]
    refine ⟨V.nodup_ids, List.nodup_singleton _, ?_⟩
    rintro id hid _ hnew rfl
    obtain ⟨row, hrow, rfl⟩ := List.mem_map.mp hid
    exact Nat.lt_irrefl _ (List.mem_singleton.mp hnew ▸ V.fresh row hrow)
  · intro row hrow
    rcases List.mem_append.mp hrow with hrow | hrow
    · exact Nat.lt_succ_of_lt (V.fresh row hrow)
    · rw [List.mem_singleton.mp hrow]
      exact Nat.lt_succ_self _

theorem contents_insert (h : t.contents scope.scope key = none) :
    (t.insert scope key value).contents = t.contents.write scope.scope key (some value) := by
  funext scope' key'
  rw [insert_eq h, write_apply, Table.contents, List.find?_append]
  by_cases hsame : (scope', key') = (scope.scope, key)
  · obtain ⟨rfl, rfl⟩ := Prod.mk.inj hsame
    rw [Table.contents, Option.map_eq_none_iff] at h
    rw [h, if_pos rfl, Option.none_or, List.find?_singleton, if_pos (decide_eq_true slot_rowValues)]
    rfl
  · have hnew : ¬(rowValues t.nextId scope key value).slot = (scope', key') :=
      fun h => hsame (h.symm.trans slot_rowValues)
    rw [if_neg hsame, List.find?_singleton, if_neg (by simpa using hnew), Option.or_none,
      Table.contents]

theorem valid_delete (V : t.Valid) (p : Row → Bool) : (t.delete p).Valid where
  nodup_slots := V.nodup_slots.sublist (List.filter_sublist.map _)
  nodup_ids := V.nodup_ids.sublist (List.filter_sublist.map _)
  fresh row hrow := V.fresh row (List.mem_of_mem_filter hrow)

theorem contents_delete :
    (t.delete (scopeKeyWhere scope key)).contents = t.contents.write scope.scope key none := by
  funext scope' key'
  rw [write_apply, Table.contents, Table.delete, List.find?_filter]
  have hiff (row : Row) : ((!scopeKeyWhere scope key row) = true ∧
      decide (row.slot = (scope', key')) = true) ↔
        row.slot = (scope', key') ∧ (scope', key') ≠ (scope.scope, key) := by
    rw [Bool.not_eq_true', ← Bool.not_eq_true, scopeKeyWhere_iff, decide_eq_true_eq, and_comm]
    exact and_congr_right fun h => by rw [h]
  simp only [hiff]
  split
  next hsame => simp [hsame]
  next hother => simp [hother, Table.contents]

/-! ## Several statements -/

theorem merge_apply (m : EnvMap) (scope scope' : Scope) (entries : List (String × String))
    (key : String) : m.merge scope entries scope' key =
      if scope' = scope then (fromEntries entries key).or (m scope' key) else m scope' key := by
  rw [EnvMap.merge, Function.update_apply]
  split
  next h => rw [h]
  next => rfl

theorem merge_nil (m : EnvMap) (scope : Scope) : m.merge scope [] = m := by
  funext scope' key
  rw [merge_apply]
  split <;> rfl

theorem merge_cons (m : EnvMap) (scope : Scope) (key value : String)
    (entries : List (String × String)) : m.merge scope ((key, value) :: entries) =
      (m.write scope key (some value)).merge scope entries := by
  funext scope' key'
  rw [merge_apply, merge_apply, write_apply, fromEntries_cons]
  by_cases hscope : scope' = scope
  · subst hscope
    rw [if_pos rfl, if_pos rfl, Option.or_assoc]
    by_cases hkey : key = key'
    · subst hkey
      rw [if_pos rfl, if_pos rfl, Option.some_or]
    · rw [if_neg hkey, if_neg fun h => hkey (Prod.mk.inj h).2.symm, Option.none_or]
  · rw [if_neg hscope, if_neg hscope, if_neg fun h => hscope (Prod.mk.inj h).1]

theorem write_self {m : EnvMap} {scope : Scope} {value : Option String}
    (h : m scope key = value) : m.write scope key value = m := by
  rw [EnvMap.write, ← h, Function.update_eq_self, Function.update_eq_self]

/-- An upsert writes the value and says what has become of the key. -/
theorem upsertEnvVarDetailed_spec (V : t.Valid) (scope : EnvScope) (key value : String) :
    (upsertEnvVarDetailed t scope key value).1.Valid ∧
      (upsertEnvVarDetailed t scope key value).1.contents =
        t.contents.write scope.scope key (some value) ∧
      (upsertEnvVarDetailed t scope key value).2 =
        ⟨key, changeOf (t.contents scope.scope key) value⟩ := by
  have hcontents := contents_eq t scope key
  unfold upsertEnvVarDetailed
  cases hselect : t.select (scopeKeyWhere scope key) with
  | none =>
    rw [hselect] at hcontents
    exact ⟨valid_insert V hcontents, contents_insert hcontents, by rw [hcontents]; rfl⟩
  | some existing =>
    rw [hselect, Option.map_some] at hcontents
    obtain ⟨hmem, hslot⟩ := select_some hselect
    dsimp only
    rw [hcontents, changeOf]
    split
    next hvalue => exact ⟨V, (write_self (hvalue ▸ hcontents)).symm, rfl⟩
    next => exact ⟨valid_update V hmem hslot, contents_update V hmem hslot, rfl⟩

/-- The keys of a record differ, so each is compared with what the scope had before the merge. -/
theorem mergeEnvVars_spec (V : t.Valid) (scope : EnvScope) {entries : List (String × String)}
    (hnodup : (entries.map (·.1)).Nodup) :
    (mergeEnvVars scope t entries).1.Valid ∧
      (mergeEnvVars scope t entries).1.contents = t.contents.merge scope.scope entries ∧
      (mergeEnvVars scope t entries).2 = entries.map fun entry =>
        ⟨entry.1, changeOf (t.contents scope.scope entry.1) entry.2⟩ := by
  induction entries generalizing t with
  | nil => exact ⟨V, (merge_nil _ _).symm, rfl⟩
  | cons entry entries ih =>
    obtain ⟨key, value⟩ := entry
    obtain ⟨hkey, hnodup⟩ := List.nodup_cons.mp hnodup
    obtain ⟨hvalid, hcontents, hchange⟩ := upsertEnvVarDetailed_spec V scope key value
    obtain ⟨hvalid', hcontents', hchanges⟩ := ih hvalid hnodup
    refine ⟨hvalid', ?_, ?_⟩
    · rw [merge_cons, ← hcontents]
      exact hcontents'
    · rw [mergeEnvVars, List.map_cons, ← hchange, List.cons.injEq]
      refine ⟨rfl, hchanges.trans (List.map_congr_left fun entry hentry => ?_)⟩
      have hne : ¬(scope.scope, entry.1) = (scope.scope, key) :=
        fun h => hkey ((Prod.mk.inj h).2 ▸ List.mem_map_of_mem (f := (·.1)) hentry)
      rw [hcontents, write_apply, if_neg hne]

theorem setEntry_spec (V : t.Valid) (hservice : scope.serviceId = none) (entry : String × String) :
    (setEntry scope t entry).Valid ∧
      (setEntry scope t entry).contents = t.contents.write scope.scope entry.1 (some entry.2) := by
  have hcontents := contents_eq t scope entry.1
  have hcond : projectKeyWhere scope.projectId entry.1 scope.environmentId =
      scopeKeyWhere scope entry.1 := by
    rw [scopeKeyWhere, hservice]
  unfold setEntry
  rw [hcond]
  cases hselect : t.select (scopeKeyWhere scope entry.1) with
  | none =>
    rw [hselect] at hcontents
    exact ⟨valid_insert V hcontents, contents_insert hcontents⟩
  | some existing =>
    obtain ⟨hmem, hslot⟩ := select_some hselect
    exact ⟨valid_update V hmem hslot, contents_update V hmem hslot⟩

theorem setEntries_spec (V : t.Valid) (hservice : scope.serviceId = none)
    (entries : List (String × String)) :
    (entries.foldl (setEntry scope) t).Valid ∧
      (entries.foldl (setEntry scope) t).contents = t.contents.merge scope.scope entries := by
  induction entries generalizing t with
  | nil => exact ⟨V, (merge_nil _ _).symm⟩
  | cons entry entries ih =>
    obtain ⟨hvalid, hcontents⟩ := setEntry_spec V hservice entry
    obtain ⟨hvalid', hcontents'⟩ := ih hvalid
    exact ⟨hvalid', hcontents'.trans (by rw [hcontents, ← merge_cons])⟩

/-- The deletions of `setEnvVarsBulk` take away the keys of the rows that are not `in` the variables. -/
theorem deletions_spec {projectId : String} {environmentId : Option String} (vars : Vars)
    (V : t.Valid) (rows : List Row) :
    let kept := rows.foldl (fun t row =>
      if vars.has row.key then t else t.delete (projectKeyWhere projectId row.key environmentId)) t
    kept.Valid ∧ ∀ scope key, kept.contents scope key =
      if scope = .project projectId environmentId ∧ key ∈ rows.map (·.key) ∧ vars.has key = false
      then none else t.contents scope key := by
  induction rows generalizing t with
  | nil => exact ⟨V, fun _ _ => (if_neg (by rintro ⟨_, ⟨⟩, _⟩)).symm⟩
  | cons row rows ih =>
    rw [List.foldl_cons]
    by_cases hhas : vars.has row.key = true
    · rw [if_pos hhas]
      refine (ih V).imp_right fun hcontents scope key => (hcontents scope key).trans ?_
      refine if_congr (and_congr_right fun _ => and_congr_left fun hnot => ?_) rfl rfl
      rw [List.map_cons, List.mem_cons, or_iff_right]
      rintro rfl
      cases hhas.symm.trans hnot
    · rw [if_neg hhas]
      have hcond : projectKeyWhere projectId row.key environmentId =
          scopeKeyWhere { projectId, environmentId } row.key := rfl
      have hscope : (EnvScope.mk projectId none environmentId).scope =
          .project projectId environmentId := rfl
      refine (ih (valid_delete V _)).imp_right fun hcontents scope key => (hcontents scope key).trans ?_
      rw [hcond, contents_delete, write_apply, hscope]
      simp only [Prod.mk.injEq]
      rw [Bool.not_eq_true] at hhas
      by_cases hkey : key = row.key
      · subst hkey
        simp only [and_true, List.map_cons, List.mem_cons, true_or, hhas]
        split <;> simp_all
      · simp only [hkey, and_false, if_false, List.map_cons, List.mem_cons, false_or]

/-- What is left of the scope is kept below the entries. -/
theorem setEnvVarsBulk_spec (V : t.Valid) (projectId : String) (vars : Vars)
    (environmentId : Option String) :
    (setEnvVarsBulk t projectId vars environmentId).Valid ∧
      (setEnvVarsBulk t projectId vars environmentId).contents =
        Function.update t.contents (.project projectId environmentId) fun key =>
          (fromEntries vars.entries key).or
            (if vars.has key then t.contents (.project projectId environmentId) key else none) := by
  have hkept := @deletions_spec t projectId environmentId vars V
    (t.rows.filter (projectWhere projectId environmentId))
  obtain ⟨hvalid, hcontents⟩ := hkept
  obtain ⟨hvalid', hcontents'⟩ :=
    @setEntries_spec _ { projectId, environmentId } hvalid rfl vars.entries
  refine ⟨hvalid', hcontents'.trans ?_⟩
  have hscope : (EnvScope.mk projectId none environmentId).scope =
      .project projectId environmentId := rfl
  funext scope key
  rw [hscope, merge_apply, Function.update_apply, hcontents]
  by_cases hsame : scope = .project projectId environmentId
  · subst hsame
    rw [if_pos rfl, if_pos rfl]
    refine congrArg _ ?_
    cases hhas : vars.has key with
    | true => exact (if_neg (by rintro ⟨_, _, ⟨⟩⟩)).trans (if_pos rfl).symm
    | false =>
      rw [if_neg Bool.false_ne_true, ite_eq_left_iff]
      -- A key of the scope is that of one of its rows.
      refine fun hnot => ?_
      replace hnot : key ∉ (t.rows.filter (projectWhere projectId environmentId)).map (·.key) :=
        fun h => hnot ⟨rfl, h, rfl⟩
      rw [Table.contents, Option.map_eq_none_iff, List.find?_eq_none]
      intro row hrow hslot
      obtain ⟨hscope, rfl⟩ := Prod.mk.inj (of_decide_eq_true hslot)
      have hwhere : scopeWhere { projectId, environmentId } row = true := scopeWhere_iff.mpr hscope
      exact hnot (List.mem_map_of_mem (List.mem_filter.mpr ⟨hrow, hwhere⟩))
  · rw [if_neg hsame, if_neg hsame, if_neg fun h => hsame h.1]

theorem contents_eq_some (V : t.Valid) {scope : Scope} : t.contents scope key = some value ↔
    ∃ row ∈ t.rows, row.slot = (scope, key) ∧ row.value = value := by
  rw [Table.contents, Option.map_eq_some_iff]
  constructor
  · rintro ⟨row, hrow, hvalue⟩
    exact ⟨row, List.mem_of_find?_eq_some hrow, of_decide_eq_true (List.find?_some hrow :), hvalue⟩
  · rintro ⟨row, hrow, hslot, hvalue⟩
    obtain ⟨found, hfound⟩ := Option.isSome_iff_exists.mp
      (List.find?_isSome.mpr ⟨row, hrow, decide_eq_true hslot⟩ :
        (t.rows.find? (·.slot = (scope, key))).isSome)
    have hsame := List.inj_on_of_nodup_map V.nodup_slots (List.mem_of_find?_eq_some hfound) hrow
      ((of_decide_eq_true (List.find?_some hfound :)).trans hslot.symm)
    exact ⟨found, hfound, hsame ▸ hvalue⟩

theorem getEnvVars_eq (V : t.Valid) (scope : EnvScope) (key : String) : getEnvVars t scope key =
    if key = "__proto__" then none else t.contents scope.scope key := by
  set rows := (t.rows.filter (scopeWhere scope)).filter (·.key ≠ "__proto__") with hrows
  have hmem {row : Row} : row ∈ rows ↔
      row ∈ t.rows ∧ row.scope = scope.scope ∧ row.key ≠ "__proto__" := by
    rw [hrows, List.mem_filter, List.mem_filter, scopeWhere_iff, decide_eq_true_eq, and_assoc]
  have hnodup : ((rows.map fun row => (row.key, row.value)).map (·.1)).Nodup := by
    rw [List.map_map]
    refine List.Nodup.map_on (fun row hrow row' hrow' hkey => ?_) ?_
    · obtain ⟨hrow, hscope, -⟩ := hmem.mp hrow
      obtain ⟨hrow', hscope', -⟩ := hmem.mp hrow'
      exact List.inj_on_of_nodup_map V.nodup_slots hrow hrow'
        (Prod.mk.injEq .. ▸ ⟨hscope.trans hscope'.symm, hkey⟩)
    · exact (List.Nodup.of_map _ V.nodup_slots).sublist
        (List.filter_sublist.trans List.filter_sublist)
  refine Option.ext fun value => ?_
  have hread : getEnvVars t scope key = some value ↔
      ∃ row ∈ rows, row.key = key ∧ row.value = value := by
    rw [getEnvVars, ← hrows]
    constructor
    · intro h
      obtain ⟨row, hrow, heq⟩ := List.mem_map.mp (mem_of_fromEntries h)
      exact ⟨row, hrow, Prod.mk.inj heq⟩
    · rintro ⟨row, hrow, rfl, rfl⟩
      exact fromEntries_of_nodup hnodup (List.mem_map_of_mem hrow)
  rw [hread]
  split
  next hproto =>
    refine iff_of_false ?_ nofun
    rintro ⟨row, hrow, rfl, -⟩
    exact (hmem.mp hrow).2.2 hproto
  next hproto =>
    rw [contents_eq_some V]
    constructor
    · rintro ⟨row, hrow, rfl, rfl⟩
      obtain ⟨hrow, hscope, -⟩ := hmem.mp hrow
      exact ⟨row, hrow, Prod.mk.injEq .. ▸ ⟨hscope, rfl⟩, rfl⟩
    · rintro ⟨row, hrow, hslot, rfl⟩
      obtain ⟨hscope, rfl⟩ := Prod.mk.inj hslot
      exact ⟨row, hmem.mpr ⟨hrow, hscope, hproto⟩, rfl, rfl⟩

/-! ## Runs -/

theorem valid_step (V : t.Valid) (op : Op) : (step t op).1.Valid := by
  cases op with
  | set scope key value => exact (upsertEnvVarDetailed_spec V scope key value).1
  | setBulk projectId vars environmentId =>
    exact (setEnvVarsBulk_spec V projectId vars environmentId).1
  | merge scope vars => exact (mergeEnvVars_spec V scope vars.nodup).1
  | delete scope key => exact valid_delete V _
  | read scope => exact V

/-- A table that keeps its indexes. -/
abbrev Store := { t : Table // t.Valid }

namespace Store

def step (s : Store) (op : Op) : Store × Output :=
  (⟨(EnvVarRepo.step s.1 op).1, valid_step s.2 op⟩, (EnvVarRepo.step s.1 op).2)

/-- In every state the table stands for the map, and the outputs are the same. -/
def Refines (s : Store) (m : EnvMap) : List Op → Prop
  | [] => s.1.contents = m
  | op :: ops => s.1.contents = m ∧ (s.step op).2 = (specStep m op).2 ∧
      Refines (s.step op).1 (specStep m op).1 ops

/-- A bulk replaces a scope that has no variable with a key of `Object.prototype` that it does not
set, and what is read has no variable `__proto__`. -/
def Plain (s : Store) : Op → Prop
  | .setBulk projectId vars environmentId => ∀ key ∈ objectPrototypeKeys,
      (s.1.contents (.project projectId environmentId) key).isSome →
        key ∈ vars.entries.map (·.1)
  | .read scope => s.1.contents scope.scope "__proto__" = none
  | _ => True

def AllPlain (s : Store) : List Op → Prop
  | [] => True
  | op :: ops => s.Plain op ∧ AllPlain (s.step op).1 ops

theorem step_iff (s : Store) (op : Op) :
    ((s.step op).2 = (specStep s.1.contents op).2 ∧
      (s.step op).1.1.contents = (specStep s.1.contents op).1) ↔ s.Plain op := by
  cases op with
  | set scope key value =>
    obtain ⟨-, hcontents, hchange⟩ := upsertEnvVarDetailed_spec s.2 scope key value
    exact iff_of_true ⟨congrArg Output.change hchange, hcontents⟩ trivial
  | merge scope vars =>
    obtain ⟨-, hcontents, hchanges⟩ := mergeEnvVars_spec s.2 scope vars.nodup
    exact iff_of_true ⟨congrArg Output.changes hchanges, hcontents⟩ trivial
  | delete scope key => exact iff_of_true ⟨rfl, contents_delete⟩ trivial
  | setBulk projectId vars environmentId =>
    have hcontents := (setEnvVarsBulk_spec s.2 projectId vars environmentId).2
    refine (and_iff_right rfl).trans ((Eq.congr_left hcontents).trans ?_)
    rw [specStep, (Function.update_injective s.1.contents _).eq_iff, funext_iff]
    constructor
    · intro h key hproto hsome
      by_contra hnot
      have hkey := h key
      have hhas : vars.has key = true := by simp [Vars.has, hproto]
      rw [if_pos hhas, Option.not_isSome_iff_eq_none.mp (mt fromEntries_isSome.mp hnot),
        Option.none_or] at hkey
      rw [hkey] at hsome
      exact nomatch hsome
    · intro h key
      cases hentry : fromEntries vars.entries key with
      | some value => rfl
      | none =>
        rw [Option.none_or, ite_eq_right_iff]
        intro hhas
        rw [Vars.has, Bool.or_eq_true, decide_eq_true_eq, decide_eq_true_eq,
          ← fromEntries_isSome, hentry] at hhas
        by_contra hsome
        have hkey := h key (hhas.resolve_left nofun) (Option.isSome_iff_ne_none.mpr hsome)
        rw [← fromEntries_isSome, hentry] at hkey
        exact nomatch hkey
  | read scope =>
    have heq : getEnvVars s.1 scope = s.1.contents scope.scope ↔
        s.1.contents scope.scope "__proto__" = none := by
      rw [funext_iff]
      constructor
      · intro h
        rw [← h, getEnvVars_eq s.2, if_pos rfl]
      · intro h key
        rw [getEnvVars_eq s.2]
        split
        next hproto => rw [hproto, h]
        next => rfl
    refine Iff.trans ?_ heq
    exact (and_iff_left rfl).trans ⟨Output.record.inj, congrArg Output.record⟩

/-- The repository refines the map in a run exactly when all operations of it are plain. -/
theorem refines_iff (s : Store) (ops : List Op) : s.Refines s.1.contents ops ↔ s.AllPlain ops := by
  induction ops generalizing s with
  | nil => exact iff_of_true rfl trivial
  | cons op ops ih =>
    rw [Refines, AllPlain, and_iff_right rfl, ← step_iff, ← ih]
    constructor
    · rintro ⟨houtput, hrefines⟩
      have hcontents : (s.step op).1.1.contents = (specStep s.1.contents op).1 := by
        cases ops with
        | nil => exact hrefines
        | cons => exact hrefines.1
      exact ⟨⟨houtput, hcontents⟩, hcontents ▸ hrefines⟩
    · rintro ⟨⟨houtput, hcontents⟩, hrefines⟩
      exact ⟨houtput, hcontents ▸ hrefines⟩

def empty : Store := ⟨{}, ⟨.nil, .nil, nofun⟩⟩

/-- An empty bulk leaves the variable `constructor` in place. -/
theorem not_forall_refines : ¬∀ (s : Store) (ops : List Op), s.Refines s.1.contents ops := by
  intro h
  have hrefines := h empty [.set { projectId := "p" } "constructor" "1", .setBulk "p" ⟨[], .nil⟩ none]
  have hkept := congrFun (congrFun hrefines.2.2.2.2 (.project "p" none)) "constructor"
  exact absurd hkept (by decide)

end Store

end OpenLander.Db.EnvVarRepo
