import OpenLander.Theory.ReadModifyWrite
import OpenLander.Security.OperationPermissions

/-! # Saving a permission override

`saveOperationPermissionOverride` (`src/security/operation-permissions.ts`) reads the override
that is stored for a service or a project, merges a patch into it and writes the outcome, or
deletes it if nothing is left. Nothing holds the setting in between, so that a write also takes
back what other calls have changed since the read: see `not_neverLost`. -/

namespace OpenLander.Security
open Theory

/-- A field of a patch is absent or `undefined`, `null`, or a permission. -/
inductive PatchField (α : Type)
  | absent
  | null
  | value (permission : α)
  deriving DecidableEq, Repr

structure OperationPermissionPatch where
  appLifecycle : PatchField DestructiveActionPermission := .absent
  destructiveActions : PatchField DestructiveActionPermission := .absent
  databaseAccess : PatchField DatabaseAccessPermission := .absent
  deriving DecidableEq, Repr

inductive SavePermissionError
  | missingScope
  | stored (error : PermissionError)
  deriving DecidableEq, Repr

def PatchField.merge : PatchField α → Option α → Option α
  | .absent, existing => existing
  | .null, _ => none
  | .value permission, _ => some permission

def OperationPermissionPatch.merge (patch : OperationPermissionPatch)
    (existing : OperationPermissionOverride) : OperationPermissionOverride where
  appLifecycle := patch.appLifecycle.merge existing.appLifecycle
  destructiveActions := patch.destructiveActions.merge existing.destructiveActions
  databaseAccess := patch.databaseAccess.merge existing.databaseAccess

/-- The key of a scope: its service's, else its project's. -/
def scopeKey (scope : OperationPermissionTarget) : Option SettingKey :=
  match scope.serviceId.filter (· ≠ "") with
  | some serviceId => some (.service serviceId)
  | none => (scope.projectId.filter (· ≠ "")).map .project

def readExisting (scope : OperationPermissionTarget) (settings : Settings) :
    Except SavePermissionError OperationPermissionOverride :=
  match scopeKey scope with
  | none => .error .missingScope
  | some key =>
    match readOverride settings key with
    | .error error => .error (.stored error)
    | .ok existing => .ok (existing.getD {})

/-- `deleteSetting` or `upsertSetting` -/
def writeOverride (scope : OperationPermissionTarget) (next : OperationPermissionOverride)
    (settings : Settings) : Settings := fun key =>
  if scopeKey scope = some key then
    if next = {} then none else some (some next)
  else settings key

/-- The permissions that it returns are read afterwards. -/
def saveOperationPermissionOverride (scope : OperationPermissionTarget)
    (patch : OperationPermissionPatch) :
    Update Settings OperationPermissionOverride SavePermissionError where
  read := readExisting scope
  write existing := writeOverride scope (patch.merge existing)

inductive PermissionField
  | appLifecycle
  | destructiveActions
  | databaseAccess
  deriving DecidableEq, Repr

namespace PermissionField

/-- The two overrides agree on the field. -/
def Same (existing stored : OperationPermissionOverride) : PermissionField → Prop
  | appLifecycle => existing.appLifecycle = stored.appLifecycle
  | destructiveActions => existing.destructiveActions = stored.destructiveActions
  | databaseAccess => existing.databaseAccess = stored.databaseAccess

def Absent (patch : OperationPermissionPatch) : PermissionField → Prop
  | appLifecycle => patch.appLifecycle = .absent
  | destructiveActions => patch.destructiveActions = .absent
  | databaseAccess => patch.databaseAccess = .absent

/-- The patch sets the field to `block`. -/
def SetsBlock (patch : OperationPermissionPatch) : PermissionField → Prop
  | appLifecycle => patch.appLifecycle = .value .block
  | destructiveActions => patch.destructiveActions = .value .block
  | databaseAccess => patch.databaseAccess = .value .block

def IsBlock (stored : OperationPermissionOverride) : PermissionField → Prop
  | appLifecycle => stored.appLifecycle = some .block
  | destructiveActions => stored.destructiveActions = some .block
  | databaseAccess => stored.databaseAccess = some .block

end PermissionField

/-- The override that is stored for the scope blocks the field. -/
def StoresBlock (scope : OperationPermissionTarget) (field : PermissionField)
    (settings : Settings) : Prop :=
  ∃ stored, readExisting scope settings = .ok stored ∧ field.IsBlock stored

section
variable {ι : Type} [DecidableEq ι]

/-- A call writes what it made of its read. Since then no other call has changed a field that its
patch leaves alone. -/
def LeftAlone (scope : OperationPermissionTarget) (patches : ι → OperationPermissionPatch)
    (s : Update.State Settings OperationPermissionOverride ι) (e : Update.Event ι) : Prop :=
  ∀ i existing, e = .write i → s.phase i = .read existing →
    ∃ stored, readExisting scope s.store = .ok stored ∧
      ∀ field : PermissionField, field.Absent (patches i) → field.Same existing stored

/-- The calls that have written leave what they leave in some order one after the other, and what
one of them blocks and no other touches is blocked. -/
def NeverLost (scope : OperationPermissionTarget) (patches : ι → OperationPermissionPatch)
    (settings : Settings) (s : Update.State Settings OperationPermissionOverride ι) : Prop :=
  (∃ order, Update.Serial (fun i => saveOperationPermissionOverride scope (patches i)) settings s
    order) ∧
  ∀ i, ∀ field : PermissionField, s.phase i = .written → field.SetsBlock (patches i) →
    (∀ j, s.phase j = .written → j ≠ i → field.Absent (patches j)) →
    StoresBlock scope field s.store

end

variable {scope : OperationPermissionTarget} {patch : OperationPermissionPatch}
variable {settings settings' : Settings} {existing stored next : OperationPermissionOverride}

theorem PatchField.merge_of_absent {change : PatchField α} {existing : Option α}
    (h : change = .absent) : change.merge existing = existing := by
  rw [h, merge]

theorem PatchField.merge_congr {change : PatchField α} {a b : Option α}
    (h : change = .absent → a = b) : change.merge a = change.merge b := by
  cases change with
  | absent => exact h rfl
  | null => rfl
  | value => rfl

theorem OperationPermissionPatch.merge_congr
    (h : ∀ field : PermissionField, field.Absent patch → field.Same existing stored) :
    patch.merge existing = patch.merge stored := by
  rw [merge, merge, PatchField.merge_congr (h .appLifecycle),
    PatchField.merge_congr (h .destructiveActions), PatchField.merge_congr (h .databaseAccess)]

theorem PermissionField.isBlock_merge {field : PermissionField} (h : field.SetsBlock patch) :
    field.IsBlock (patch.merge existing) := by
  cases field with
  | appLifecycle => exact congrArg (·.merge existing.appLifecycle) h
  | destructiveActions => exact congrArg (·.merge existing.destructiveActions) h
  | databaseAccess => exact congrArg (·.merge existing.databaseAccess) h

theorem PermissionField.isBlock_merge_of_absent {field : PermissionField}
    (h : field.Absent patch) (hblock : field.IsBlock existing) :
    field.IsBlock (patch.merge existing) := by
  cases field with
  | appLifecycle => exact (PatchField.merge_of_absent h).trans hblock
  | destructiveActions => exact (PatchField.merge_of_absent h).trans hblock
  | databaseAccess => exact (PatchField.merge_of_absent h).trans hblock

/-- The override is read back, also where it was deleted. -/
theorem readExisting_writeOverride (h : readExisting scope settings = .ok existing) :
    readExisting scope (writeOverride scope next settings) = .ok next := by
  rw [readExisting] at h ⊢
  cases hkey : scopeKey scope with
  | none => rw [hkey] at h; exact nomatch h
  | some key =>
    have hwrite : writeOverride scope next settings key =
        if next = {} then none else some (some next) := if_pos hkey
    simp only [readOverride, hwrite]
    by_cases hnext : next = {}
    · rw [if_pos hnext, hnext]
      rfl
    · rw [if_neg hnext]
      rfl

theorem run_save_eq_ok (h : readExisting scope settings = .ok existing) :
    (saveOperationPermissionOverride scope patch).run settings =
      .ok (writeOverride scope (patch.merge existing) settings) :=
  congrArg (Except.map _) h

theorem exists_of_run_save
    (h : (saveOperationPermissionOverride scope patch).run settings = .ok settings') :
    ∃ existing, readExisting scope settings = .ok existing ∧
      readExisting scope settings' = .ok (patch.merge existing) := by
  cases hread : readExisting scope settings with
  | error e => exact nomatch (congrArg (Except.map _) hread).symm.trans h
  | ok existing =>
    obtain rfl := Except.ok.inj ((run_save_eq_ok hread).symm.trans h)
    exact ⟨existing, rfl, readExisting_writeOverride hread⟩

variable {ι : Type} [DecidableEq ι] {patches : ι → OperationPermissionPatch}
variable {s t : Update.State Settings OperationPermissionOverride ι} {e : Update.Event ι}

omit [DecidableEq ι] in
theorem leftAlone_of_ne_write (h : ∀ i, e ≠ .write i) : LeftAlone scope patches s e :=
  fun i _ he => absurd he (h i)

omit [DecidableEq ι] in
theorem leftAlone_of_unchanged (hs : s.phase i = .read existing)
    (hread : readExisting scope s.store = .ok existing) :
    LeftAlone scope patches s (.write i) := by
  intro j value he hj
  obtain rfl := Update.Event.write.inj he
  obtain rfl := Update.Phase.read.inj (hs.symm.trans hj)
  refine ⟨existing, hread, fun field _ => ?_⟩
  cases field with
  | appLifecycle => exact rfl
  | destructiveActions => exact rfl
  | databaseAccess => exact rfl

omit [DecidableEq ι] in
theorem LeftAlone.fresh (h : LeftAlone scope patches s e) :
    Update.Fresh (fun i => saveOperationPermissionOverride scope (patches i)) s e := by
  intro i existing he hs
  obtain ⟨stored, hread, hsame⟩ := h i existing he hs
  rw [run_save_eq_ok hread, ← OperationPermissionPatch.merge_congr hsame]
  rfl

theorem neverLost_of_serial
    (h : Update.Serial (fun i => saveOperationPermissionOverride scope (patches i)) settings s
      order) : NeverLost scope patches settings s := by
  refine ⟨⟨order, h⟩, fun i field hi hblock habsent => ?_⟩
  refine h.establishes (p := StoresBlock scope field) hi ?_ ?_
  · intro a b hrun
    obtain ⟨existing, _, hread⟩ := exists_of_run_save hrun
    exact ⟨_, hread, PermissionField.isBlock_merge hblock⟩
  · intro j hj hne a b hrun ⟨stored, hstored, hb⟩
    obtain ⟨existing, hexisting, hread⟩ := exists_of_run_save hrun
    obtain rfl := Except.ok.inj (hexisting.symm.trans hstored)
    exact ⟨_, hread, PermissionField.isBlock_merge_of_absent (habsent j hj hne) hb⟩

/-- While every call writes before another changes a field that its patch leaves alone, no override
is lost. -/
theorem neverLost_of_leftAlone
    (h : Run (Guarded (Fires (Update.next fun i => saveOperationPermissionOverride scope (patches i)))
      (LeftAlone scope patches)) (.start settings) es s) :
    NeverLost scope patches settings s := by
  have hfresh := h.mono fun _ _ _ (hstep : Guarded _ _ _ _ _) =>
    (⟨hstep.1, hstep.2.fresh⟩ : Guarded _ _ _ _ _)
  obtain ⟨order, hserial⟩ := Update.serial_of_fresh hfresh
  exact neverLost_of_serial hserial

def shopScope : OperationPermissionTarget := { serviceId := some "web" }

def shopPatches : Bool → OperationPermissionPatch
  | true => { destructiveActions := .value .block }
  | false => { databaseAccess := .value .block }

/-- The second call reads when the first has written. -/
theorem neverLost_shop :
    ∃ s, NeverLost shopScope shopPatches (fun _ => none) s ∧
      s.phase true = .written ∧ s.phase false = .written :=
  have hrun := (.cons ⟨rfl, leftAlone_of_ne_write nofun⟩ <|
      .cons ⟨rfl, leftAlone_of_unchanged rfl rfl⟩ <| .cons ⟨rfl, leftAlone_of_ne_write nofun⟩ <|
      .cons ⟨rfl, leftAlone_of_unchanged rfl rfl⟩ .nil :
    Run (Guarded (Fires (Update.next fun i =>
        saveOperationPermissionOverride shopScope (shopPatches i)))
      (LeftAlone shopScope shopPatches)) (.start fun _ => none)
      [.read true, .write true, .read false, .write false] _)
  ⟨_, neverLost_of_leftAlone hrun, rfl, rfl⟩

/-- Both calls read before one of them writes: the one that writes last takes back what the other
blocked. -/
theorem not_neverLost :
    ¬∀ (scope : OperationPermissionTarget) (patches : Bool → OperationPermissionPatch)
      (settings : Settings) (es : List (Update.Event Bool))
      (s : Update.State Settings OperationPermissionOverride Bool),
      Run (Fires (Update.next fun i => saveOperationPermissionOverride scope (patches i)))
        (.start settings) es s → s.Completed → NeverLost scope patches settings s := by
  intro h
  have hlost := h shopScope shopPatches (fun _ => none)
    [.read true, .read false, .write true, .write false] _ (.of_exec rfl) fun i value => by
      cases i <;> exact nofun
  obtain ⟨stored, hstored, hblock⟩ := hlost.2 true .destructiveActions rfl rfl fun j _ hj => by
    cases j with
    | true => exact absurd rfl hj
    | false => rfl
  obtain rfl := Except.ok.inj ((show _ = Except.ok (_ : OperationPermissionOverride) from rfl).symm.trans hstored)
  exact nomatch hblock

end OpenLander.Security
