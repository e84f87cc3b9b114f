import OpenLander.Theory.FileTree
import OpenLander.Db.Services

/-! # Backups of managed services

`ServiceManager.backup` and `ServiceManager.restore` (`src/pipeline/service-manager.ts`) record the
volume of a service with `tar` and bring it back. A restore runs one shell command on the volume: it
removes what the glob `/data/*` matches, which are the top-level names that do not begin with a dot, and
extracts the archive onto the rest. -/

namespace OpenLander.ServiceManager
open Theory
open Db.Services (ServiceRow)

inductive BackupError
  | serviceNotFound (identifier : String)
  | operationUnsupported (operation serviceType : String)
  | operationFailed (operation message : String)
  /-- What a call that failed says. -/
  | call (message : String)
  deriving DecidableEq, Repr

def BackupError.message : BackupError → String
  | serviceNotFound identifier => s!"Service not found: {identifier}"
  | operationUnsupported operation serviceType =>
    s!"{operation} is not supported for service type: {serviceType}"
  | operationFailed _ message | call message => message

/-- A tree as `tar` has recorded it. -/
structure Archive where
  tree : FileTree
  traversal : tree.Traversal

/-- The archives in the backup directory, by the id of the backup. -/
abbrev Backups := String → Option Archive

def backupPath (backupDir backupId : String) : String := s!"{backupDir}/{backupId}.tar.gz"

/-! ## Backup -/

/-- What the calls of a backup come to: an error, where one fails. -/
structure BackupCalls where
  now : Nat
  pullImage : Option String := none
  runInfraContainer : Option String := none
  /-- The status code of `tar`. -/
  waitForContainer : Except String Nat := .ok 0
  exists' : Bool := true

def backup (calls : BackupCalls) (backupDir id : String) (service : Option ServiceRow)
    (volume : FileTree) (traversal : volume.Traversal) (backups : Backups) :
    Except BackupError String × Backups :=
  match service with
  | none => (.error (.serviceNotFound id), backups)
  | some service =>
    if service.kind = .neo4j then (.error (.operationUnsupported "Backup" "neo4j"), backups)
    else
      let backupId := s!"{service.name}-{calls.now}"
      match calls.pullImage, calls.runInfraContainer, calls.waitForContainer with
      | some message, _, _ | none, some message, _ | none, none, .error message =>
        (.error (.call message), backups)
      | none, none, .ok exitCode =>
        if exitCode ≠ 0 then
          (.error (.operationFailed "backup"
            s!"Backup failed with exit code {exitCode} for service: {service.id}"), backups)
        else if calls.exists' then
          (.ok backupId, Function.update backups backupId (some ⟨volume, traversal⟩))
        else
          (.error (.operationFailed "backup"
            s!"Backup file not found after backup: {backupPath backupDir backupId}"), backups)

/-! ## Restore -/

/-- The shell pattern `*` matches the name. -/
def globMatches (name : String) : Bool := name.toList.head? != some '.'

/-- How the command of a restore ends. -/
inductive Command
  /-- `rm` can remove no more than what is in `gone`. -/
  | removalFailed (gone : Finset (List String)) (exitCode : Nat) (hexit : exitCode ≠ 0)
  /-- `tar` ends early. -/
  | extractionFailed (extracted : Nat) (exitCode : Nat) (hexit : exitCode ≠ 0)
  /-- Nothing from outside is in the way. -/
  | completed

/-- `rm -rf /data/* && tar xzf <backup> -C /data`, with its status code. -/
def Command.run (command : Command) (archive : Archive) (volume : FileTree) : FileTree × Nat :=
  match command with
  | removalFailed gone exitCode _ => (volume.remove globMatches gone, exitCode)
  | extractionFailed extracted exitCode _ =>
    (((volume.remove globMatches volume.paths).recreate archive.tree
      (archive.traversal.order.take extracted)).1, exitCode)
  | completed =>
    let (volume, done) := (volume.remove globMatches volume.paths).recreate archive.tree
      archive.traversal.order
    (volume, if done then 0 else 1)

/-- What the calls of a restore come to: an error, where one fails. -/
structure RestoreCalls where
  stop : Option String := none
  pullImage : Option String := none
  runInfraContainer : Option String := none
  command : Command := .completed
  waitForContainer : Option String := none
  start : Option String := none

/-- The `try` of a restore. -/
def restoreVolume (calls : RestoreCalls) (service : ServiceRow) (archive : Archive)
    (volume : FileTree) : Except BackupError Unit × FileTree :=
  match calls.pullImage, calls.runInfraContainer with
  | some message, _ | none, some message => (.error (.call message), volume)
  | none, none =>
    let (volume, exitCode) := calls.command.run archive volume
    match calls.waitForContainer with
    | some message => (.error (.call message), volume)
    | none =>
      if exitCode ≠ 0 then
        (.error (.operationFailed "restore"
          s!"Restore failed with exit code {exitCode} for service: {service.id}"), volume)
      else (.ok (), volume)

/-- The `finally` of a restore. -/
def startAgain (calls : RestoreCalls) :
    Except BackupError Unit × FileTree → Except BackupError Unit × FileTree
  | (result, volume) =>
    match calls.start with
    | some message => (.error (.call message), volume)
    | none => (result, volume)

def restore (calls : RestoreCalls) (backupDir id : String) (service : Option ServiceRow)
    (backups : Backups) (backupId : String) (volume : FileTree) :
    Except BackupError Unit × FileTree :=
  match service with
  | none => (.error (.serviceNotFound id), volume)
  | some service =>
    if service.kind = .neo4j then (.error (.operationUnsupported "Restore" "neo4j"), volume)
    else
      match backups backupId with
      | none =>
        (.error (.operationFailed "restore"
          s!"Backup not found: {backupPath backupDir backupId}"), volume)
      | some archive =>
        match calls.stop with
        | some message => (.error (.call message), volume)
        | none => startAgain calls (restoreVolume calls service archive volume)

/-- A success leaves what was backed up, and a failure what was there. -/
def Exact (backedUp before : FileTree) : Except BackupError Unit × FileTree → Prop
  | (.ok _, volume) => volume = backedUp
  | (.error _, volume) => volume = before

/-! ## When a restore is exact -/

/-- The restore ends before its command runs. -/
def NotRun (calls : RestoreCalls) (service : Option ServiceRow) : Prop :=
  service.all (·.kind = .neo4j) = true ∨ calls.stop.isSome = true ∨ calls.pullImage.isSome = true ∨
    calls.runInfraContainer.isSome = true

/-- The command leaves what is in the place of the archive's entry only if it is of the same kind. -/
def Fits (archive : Archive) (volume : FileTree) (p : List String) : Bool :=
  FileTree.Under globMatches p || volume.Compatible archive.tree p

/-- Of the volume nothing is lost, and nothing new comes to it, when the entries along the paths are
extracted up to the first one that does not fit. -/
def Unharmed (archive : Archive) (volume : FileTree) (ps : List (List String)) : Prop :=
  (∀ p ∈ ps.takeWhile (Fits archive volume), volume.entry p = archive.tree.entry p) ∧
    ∀ p ∈ volume.paths, FileTree.Under globMatches p = true → p ∈ ps.takeWhile (Fits archive volume)

/-- What the glob does not match is in the archive. -/
def NothingHidden (archive : Archive) (volume : FileTree) : Prop :=
  ∀ p ∈ volume.paths, FileTree.Under globMatches p = false → p ∈ archive.tree.paths

/-- All that is extracted fits, and the calls after the command succeed. -/
def Succeeds (calls : RestoreCalls) (archive : Archive) (volume : FileTree) : Prop :=
  calls.waitForContainer = none ∧ calls.start = none ∧
    ∀ p ∈ archive.traversal.order, Fits archive volume p = true

/-- The command does no harm. -/
def Harmless (calls : RestoreCalls) (archive : Archive) (volume : FileTree) : Prop :=
  match calls.command with
  | .removalFailed gone _ _ => ∀ p ∈ volume.paths, volume.Stays globMatches gone p
  | .extractionFailed extracted _ _ =>
    Unharmed archive volume (archive.traversal.order.take extracted)
  | .completed =>
    (Succeeds calls archive volume ∧ NothingHidden archive volume) ∨
      (¬Succeeds calls archive volume ∧ Unharmed archive volume archive.traversal.order)

section
variable {calls : RestoreCalls} {archive : Archive} {before : FileTree} {service : ServiceRow}

theorem removed_entry (p : List String) :
    (before.remove globMatches before.paths).entry p =
      if FileTree.Under globMatches p then none else before.entry p :=
  FileTree.remove_entry_of_subset (Finset.Subset.refl _)

theorem removed_compatible (p : List String) :
    (before.remove globMatches before.paths).Compatible archive.tree p = Fits archive before p := by
  rw [FileTree.Compatible, removed_entry, Fits]
  cases FileTree.Under globMatches p with
  | true => rfl
  | false => rfl

/-- What the extraction leaves. -/
theorem extracted_entry (horder : archive.traversal.order = ps ++ rest) (p : List String) :
    ((before.remove globMatches before.paths).recreate archive.tree ps).1.entry p =
      if p ∈ ps.takeWhile (Fits archive before) then archive.tree.entry p
      else if FileTree.Under globMatches p then none else before.entry p := by
  have hentry := (@FileTree.Traversal.recreate_entry (before.remove globMatches before.paths) _ _ [] _
    archive.traversal ps horder fun q => rfl).2 p
  have hfits : (before.remove globMatches before.paths).Compatible archive.tree =
      Fits archive before := funext removed_compatible
  rw [hentry, removed_entry, List.nil_append, hfits]

theorem extracted_all :
    ((before.remove globMatches before.paths).recreate archive.tree
      archive.traversal.order).2 = true ↔
      ∀ p ∈ archive.traversal.order, Fits archive before p = true := by
  have hall := (@FileTree.Traversal.recreate_entry (before.remove globMatches before.paths) _ _ [] []
    archive.traversal archive.traversal.order (by simp) fun q => rfl).1
  rw [hall]
  exact forall₂_congr fun p _ => by rw [removed_compatible]

/-- What was there before is there again exactly if the extraction does not show. -/
theorem extracted_eq_iff (horder : archive.traversal.order = ps ++ rest) :
    ((before.remove globMatches before.paths).recreate archive.tree ps).1 = before ↔
      Unharmed archive before ps := by
  constructor
  · intro heq
    have hentry (p : List String) := @extracted_entry _ before _ _ horder p
    rw [heq] at hentry
    refine ⟨fun p hp => ?_, fun p hp hunder => ?_⟩
    · rw [hentry p, if_pos hp]
    · by_contra hnot
      have hnone := hentry p
      rw [if_neg hnot, if_pos hunder] at hnone
      exact FileTree.not_mem_paths.mpr hnone hp
  · intro ⟨hsame, hnone⟩
    ext1 p
    rw [extracted_entry horder]
    split
    next hp => exact (hsame p hp).symm
    next hp =>
      split
      next hunder => exact (FileTree.not_mem_paths.mp fun hmem => hp (hnone p hmem hunder)).symm
      next => rfl

/-- What was recorded is there exactly if nothing that was there is left besides. -/
theorem extracted_eq_tree_iff (hfits : ∀ p ∈ archive.traversal.order, Fits archive before p = true) :
    ((before.remove globMatches before.paths).recreate archive.tree
      archive.traversal.order).1 = archive.tree ↔ NothingHidden archive before := by
  have hentry (p : List String) :=
    @extracted_entry archive before _ [] (List.append_nil _).symm p
  rw [List.takeWhile_eq_self_iff.mpr hfits] at hentry
  simp only [archive.traversal.mem_order] at hentry
  constructor
  · intro heq p hp hunder
    by_contra hnot
    have hnone := hentry p
    rw [heq, if_neg hnot, hunder, FileTree.not_mem_paths.mp hnot] at hnone
    exact FileTree.not_mem_paths.mpr hnone.symm hp
  · intro hhidden
    ext1 p
    rw [hentry p]
    split
    next => rfl
    next hp =>
      rw [FileTree.not_mem_paths.mp hp]
      split
      next => rfl
      next hunder =>
        exact FileTree.not_mem_paths.mp fun hmem =>
          hp (hhidden p hmem (Bool.eq_false_of_not_eq_true hunder))

/-- The outcome of a restore whose command runs. -/
theorem exact_startAgain (hpull : calls.pullImage = none) (hrun : calls.runInfraContainer = none) :
    Exact archive.tree before (startAgain calls (restoreVolume calls service archive before)) ↔
      if calls.waitForContainer = none ∧ calls.start = none ∧
          (calls.command.run archive before).2 = 0 then
        (calls.command.run archive before).1 = archive.tree
      else (calls.command.run archive before).1 = before := by
  rw [restoreVolume, hpull, hrun]
  generalize calls.command.run archive before = left
  obtain ⟨volume, exitCode⟩ := left
  cases hwait : calls.waitForContainer with
  | some message =>
    cases hstart : calls.start with
    | some message => simp [startAgain, Exact, hstart]
    | none => simp [startAgain, Exact, hstart]
  | none =>
    by_cases hexit : exitCode = 0
    · cases hstart : calls.start with
      | some message => simp [startAgain, Exact, hstart, hexit]
      | none => simp [startAgain, Exact, hstart, hexit]
    · cases hstart : calls.start with
      | some message => simp [startAgain, Exact, hstart, hexit]
      | none => simp [startAgain, Exact, hstart, hexit]

theorem exact_startAgain_of_not_run
    (h : calls.pullImage.isSome = true ∨ calls.runInfraContainer.isSome = true) :
    Exact archive.tree before (startAgain calls (restoreVolume calls service archive before)) := by
  obtain ⟨message, hrestore⟩ : ∃ message,
      restoreVolume calls service archive before = (.error (.call message), before) := by
    rw [restoreVolume]
    obtain hpull | hrun := h
    · obtain ⟨message, hpull⟩ := Option.isSome_iff_exists.mp hpull
      exact ⟨message, by rw [hpull]⟩
    · obtain ⟨message, hrun⟩ := Option.isSome_iff_exists.mp hrun
      cases hpull : calls.pullImage with
      | some message => exact ⟨message, rfl⟩
      | none => exact ⟨message, by rw [hrun]⟩
  rw [hrestore, startAgain]
  cases calls.start with
  | some _ => rfl
  | none => rfl

theorem command_exact_iff (hpull : calls.pullImage = none) (hrun : calls.runInfraContainer = none) :
    Exact archive.tree before (startAgain calls (restoreVolume calls service archive before)) ↔
      Harmless calls archive before := by
  rw [exact_startAgain hpull hrun, Harmless]
  cases hcommand : calls.command with
  | removalFailed gone exitCode hexit =>
    rw [Command.run, if_neg fun h => hexit h.2.2]
    exact FileTree.remove_eq_self_iff
  | extractionFailed extracted exitCode hexit =>
    rw [Command.run, if_neg fun h => hexit h.2.2]
    exact extracted_eq_iff (List.take_append_drop ..).symm
  | completed =>
    have hsucceeds : calls.waitForContainer = none ∧ calls.start = none ∧
        (Command.completed.run archive before).2 = 0 ↔ Succeeds calls archive before := by
      rw [Succeeds, ← extracted_all, Command.run]
      simp
    by_cases h : Succeeds calls archive before
    · rw [if_pos (hsucceeds.mpr h), Command.run, extracted_eq_tree_iff h.2.2]
      simp [h]
    · rw [if_neg (mt hsucceeds.mp h), Command.run, extracted_eq_iff (List.append_nil _).symm]
      simp [h]

/-- What a backup that succeeds has recorded. -/
theorem backup_eq_ok {row : Option ServiceRow}
    (h : backup backupCalls backupDir serviceId row volume traversal backups =
      (.ok backupId, backups')) : backups' backupId = some ⟨volume, traversal⟩ := by
  unfold backup at h
  split at h
  · cases h
  split at h
  · cases h
  dsimp only at h
  split at h
  · cases h
  · cases h
  · cases h
  split at h
  · cases h
  split at h
  · cases h
    exact Function.update_self ..
  · cases h

/-- A restore is exact if its command does not run, and else exactly if the command does no harm. -/
theorem restore_exact_iff {backupCalls : BackupCalls} {backedUp : FileTree}
    {traversal : backedUp.Traversal} {backups' : Backups}
    (hbackup : backup backupCalls backupDir serviceId backedUpService backedUp traversal backups =
      (.ok backupId, backups')) (service : Option ServiceRow) (calls : RestoreCalls)
    (before : FileTree) :
    Exact backedUp before (restore calls backupDir serviceId service backups' backupId before) ↔
      NotRun calls service ∨ Harmless calls ⟨backedUp, traversal⟩ before := by
  have hstored := backup_eq_ok hbackup
  unfold restore
  cases service with
  | none => exact iff_of_true rfl (.inl (.inl rfl))
  | some service =>
    rw [hstored]
    dsimp only
    by_cases hkind : service.kind = .neo4j
    · rw [if_pos hkind]
      exact iff_of_true rfl (.inl (.inl (decide_eq_true hkind)))
    rw [if_neg hkind]
    cases hstop : calls.stop with
    | some message => exact iff_of_true rfl (.inl (.inr (.inl (hstop ▸ rfl))))
    | none =>
      by_cases hrun : calls.pullImage.isSome = true ∨ calls.runInfraContainer.isSome = true
      · exact iff_of_true (@exact_startAgain_of_not_run _ ⟨backedUp, traversal⟩ _ _ hrun)
          (.inl (.inr (.inr hrun)))
      · have hnot : ¬NotRun calls (some service) := by
          intro h
          obtain h | h | h := h
          · exact hkind (of_decide_eq_true h)
          · rw [hstop] at h
            exact nomatch h
          · exact hrun h
        rw [or_iff_right hnot]
        obtain ⟨hpull, hrun⟩ := not_or.mp hrun
        exact @command_exact_iff _ ⟨backedUp, traversal⟩ _ _
          (Option.not_isSome_iff_eq_none.mp hpull) (Option.not_isSome_iff_eq_none.mp hrun)

def database : ServiceRow :=
  { id := "s", projectId := "p", name := "db", kind := .postgres }

/-- The backup of a volume with one file. -/
def oneFile : Except BackupError String × Backups :=
  backup { now := 7 } "/backups" "s" (some database) (.single "a" (.file "1"))
    (FileTree.singleTraversal ..) fun _ => none

theorem exact_oneFile :
    Exact (.single "a" (.file "1")) (.single "b" (.file "2"))
      (restore {} "/backups" "s" (some database) oneFile.2 "db-7" (.single "b" (.file "2"))) := by
  have hbackup : oneFile = (.ok "db-7", oneFile.2) := rfl
  refine (restore_exact_iff hbackup (some database) {} (.single "b" (.file "2"))).mpr (.inr (.inl ?_))
  refine ⟨⟨rfl, rfl, fun p hp => ?_⟩, fun p hp hhidden => ?_⟩
  · rw [List.mem_singleton.mp hp]
    rfl
  · rw [FileTree.single_paths, Finset.mem_singleton] at hp
    rw [hp] at hhidden
    exact nomatch hhidden

/-- A file whose name begins with a dot outlives a restore. -/
theorem not_exact : ¬∀ (backupCalls : BackupCalls) (backupDir serviceId : String)
    (service : Option ServiceRow) (backedUp : FileTree) (traversal : backedUp.Traversal)
    (backups backups' : Backups) (backupId : String),
    backup backupCalls backupDir serviceId service backedUp traversal backups =
      (.ok backupId, backups') →
    ∀ (calls : RestoreCalls) (before : FileTree),
      Exact backedUp before (restore calls backupDir serviceId service backups' backupId before) := by
  intro h
  have hexact := h { now := 7 } "/backups" "s" (some database) (.single "a" (.file "1"))
    (FileTree.singleTraversal ..) (fun _ => none) oneFile.2 "db-7" rfl {}
    (.single ".x" (.file "2"))
  have hentry := congrArg (FileTree.entry · [".x"]) hexact
  exact absurd hentry (by decide)

end

end OpenLander.ServiceManager
