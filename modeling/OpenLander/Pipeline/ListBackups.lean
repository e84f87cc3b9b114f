import Mathlib.Data.List.Sort
import OpenLander.Pipeline.EnvFile
import OpenLander.Pipeline.ServiceBackup

/-! # The list of backups

`ServiceManager.listBackups` (`src/pipeline/service-manager.ts`) finds the backups of a service by the names of
the files in the backup directory. The name of a file is the name of a service, a dash and the time. -/

namespace OpenLander.ServiceManager
open Theory
open Db.Services (ServiceRow)
open Pipeline (isWhitespace)

/-! ## Files -/

/-- What `readdirSync` and `statSync` give. -/
structure BackupFile where
  name : String
  size : Nat
  mtime : Int

/-- `createdAt` is the time, unless the date is invalid. -/
structure BackupEntry where
  backupId : String
  createdAt : Option Int
  sizeBytes : Nat
  deriving DecidableEq

def tarGz : List Char := ".tar.gz".toList

/-- `Number.parseInt(text, 10)`. The name of a file is too short for an infinite number. -/
def parseInt (text : List Char) : Option Int :=
  let trimmed := text.dropWhile isWhitespace
  let unsigned := if trimmed.head? = some '-' ∨ trimmed.head? = some '+' then trimmed.tail else trimmed
  let digits := unsigned.takeWhile Char.isDigit
  if digits = [] then none
  else
    let magnitude : Int := Nat.ofDigitChars 10 digits 0
    some (if trimmed.head? = some '-' then -magnitude else magnitude)

/-- The last time that a `Date` has, and `Date.now()` gives. -/
def maxTime : Nat := 8640000000000000

/-- `new Date(timestamp)` -/
def date (timestamp : Int) : Option Int := if timestamp.natAbs ≤ maxTime then some timestamp else none

def backupEntry (service : ServiceRow) (file : BackupFile) : BackupEntry where
  backupId := .ofList (file.name.toList.take (file.name.toList.length - tarGz.length))
  createdAt :=
    match parseInt ((file.name.toList.take (file.name.toList.length - tarGz.length)).drop
      (service.name.toList ++ ['-']).length) with
    | some timestamp => date timestamp
    | none => some file.mtime
  sizeBytes := file.size

/-- `name.startsWith(prefix) && name.endsWith('.tar.gz')` -/
def isListed (service : ServiceRow) (file : BackupFile) : Bool :=
  (service.name.toList ++ ['-']).isPrefixOf file.name.toList && tarGz.isSuffixOf file.name.toList

/-- `b.createdAt.getTime() - a.createdAt.getTime()` is not positive. `NaN` is not. -/
def NotAfter (a b : BackupEntry) : Prop := ∀ s ∈ a.createdAt, ∀ t ∈ b.createdAt, t ≤ s

instance (a b : BackupEntry) : Decidable (NotAfter a b) :=
  inferInstanceAs (Decidable (∀ s ∈ a.createdAt, ∀ t ∈ b.createdAt, t ≤ s))

def listBackups (id : String) (service : Option ServiceRow) (backupDir : Option (List BackupFile)) :
    Except BackupError (List BackupEntry) :=
  match service with
  | none => .error (.serviceNotFound id)
  | some service =>
    match backupDir with
    | none => .ok []
    | some files => .ok (((files.filter (isListed service)).map (backupEntry service)).insertionSort NotAfter)

/-! ## Histories -/

/-- A call of `backup`. -/
structure BackupCall where
  service : ServiceRow
  calls : BackupCalls
  volume : FileTree
  traversal : volume.Traversal

namespace BackupCall

def backupId (c : BackupCall) : String := s!"{c.service.name}-{c.calls.now}"

def archive (c : BackupCall) : Archive := ⟨c.volume, c.traversal⟩

end BackupCall

/-- A successful call. -/
def BacksUp (backupDir : String) (backups : Backups) (c : BackupCall) (backups' : Backups) : Prop :=
  ∃ id, backup c.calls backupDir c.service.id (some c.service) c.volume c.traversal backups = (.ok id, backups')

/-- The files of the directory are those of the backups, in any order. -/
structure Directory (backups : Backups) (files : List BackupFile) : Prop where
  nodup : (files.map (·.name)).Nodup
  mem_iff : ∀ name, name ∈ files.map (·.name) ↔
    ∃ id : String, name = .ofList (id.toList ++ tarGz) ∧ (backups id).isSome

/-- The backups that the calls for the service created, the newest first, and what is restored from them. -/
structure Own (history : List BackupCall) (backups : Backups) (service : ServiceRow)
    (entries : List BackupEntry) : Prop where
  perm : (entries.map fun e => (e.backupId, e.createdAt)).Perm
    ((history.filter (·.service = service)).map fun c => (c.backupId, some (c.calls.now : Int)))
  newest_first : entries.Pairwise fun a b => ∀ s ∈ a.createdAt, ∀ t ∈ b.createdAt, t < s
  restores : ∀ e ∈ entries, ∃ c ∈ history, c.service = service ∧ backups e.backupId = some c.archive

/-- No other service has a backup and a name that goes on after that of the service with a dash. -/
def Separate (history : List BackupCall) (service : ServiceRow) : Prop :=
  ∀ c ∈ history, c.service ≠ service → ¬service.name.toList ++ ['-'] <+: c.service.name.toList

/-! ## Names -/

theorem toList_backupId (c : BackupCall) :
    c.backupId.toList = c.service.name.toList ++ '-' :: Nat.toDigits 10 c.calls.now := by
  simp [BackupCall.backupId, toString, Nat.repr]

theorem isDigit_toDigits (n : Nat) : ∀ c ∈ Nat.toDigits 10 n, c.isDigit = true :=
  fun _ hc => Nat.isDigit_of_mem_toDigits (by decide) (by decide) hc

theorem toDigits_inj (h : Nat.toDigits 10 m = Nat.toDigits 10 n) : m = n := by
  have := congrArg (Nat.ofDigitChars 10 · 0) h
  rwa [Nat.ofDigitChars_toDigits (by decide) (by decide),
    Nat.ofDigitChars_toDigits (by decide) (by decide)] at this

/-- The digits go up to the last dash. -/
theorem backupId_inj {c c' : BackupCall} (h : c.backupId = c'.backupId) :
    c.service.name = c'.service.name ∧ c.calls.now = c'.calls.now := by
  have hlist := congrArg (List.reverse ∘ String.toList) h
  simp only [Function.comp, toList_backupId, List.reverse_append, List.reverse_cons, List.append_assoc] at hlist
  have hdash (s : List Char) : ∀ d ∈ (['-'] ++ s.reverse).head?, d.isDigit = false :=
    fun d hd => Option.some.inj hd ▸ rfl
  obtain ⟨hdigits, hname⟩ := append_inj_of_run
    (fun d hd => isDigit_toDigits _ d (List.mem_reverse.mp hd)) (hdash _)
    (fun d hd => isDigit_toDigits _ d (List.mem_reverse.mp hd)) (hdash _) hlist
  refine ⟨?_, toDigits_inj (List.reverse_injective hdigits)⟩
  exact String.ext (List.reverse_injective (List.append_cancel_left hname))

/-- Behind the dash of a backup there is no other one. -/
theorem prefix_append_dash_iff {s name tail : List Char} (htail : '-' ∉ tail) :
    s ++ ['-'] <+: name ++ '-' :: tail ↔ s = name ∨ s ++ ['-'] <+: name := by
  induction s generalizing name with
  | nil =>
    cases name with
    | nil => simp
    | cons c name => simp [List.cons_prefix_cons]
  | cons d s ih =>
    cases name with
    | nil =>
      refine ⟨fun h => ?_, fun h => ?_⟩
      · obtain ⟨rfl, hstart⟩ := List.cons_prefix_cons.mp h
        exact absurd (hstart.subset (List.mem_append_right s (.head _))) htail
      · simp at h
    | cons c name =>
      simp only [List.cons_append, List.cons_prefix_cons, List.cons.injEq, ih]
      tauto

theorem dash_notMem_tail (n : Nat) : '-' ∉ Nat.toDigits 10 n ++ tarGz := by
  rw [List.mem_append, not_or]
  refine ⟨fun h => ?_, by decide⟩
  exact absurd (isDigit_toDigits n _ h) (by decide)

theorem parseInt_toDigits (n : Nat) : parseInt (Nat.toDigits 10 n) = some (n : Int) := by
  have hwhitespace : (Nat.toDigits 10 n).dropWhile isWhitespace = Nat.toDigits 10 n := by
    cases h : Nat.toDigits 10 n with
    | nil => rfl
    | cons c digits =>
      have hdigit := isDigit_toDigits n c (h ▸ .head _)
      refine List.dropWhile_cons_of_neg fun hc => ?_
      have := Pipeline.EnvFile.not_isAlphanum_of_isWhitespace hc
      simp [Char.isAlphanum, hdigit] at this
  have hsign (sign : Char) (hsign : sign.isDigit = false) : (Nat.toDigits 10 n).head? ≠ some sign := by
    intro h
    rw [isDigit_toDigits n sign (List.mem_of_head? h)] at hsign
    cases hsign
  have htake : (Nat.toDigits 10 n).takeWhile Char.isDigit = Nat.toDigits 10 n :=
    List.takeWhile_eq_self_iff.mpr (isDigit_toDigits n)
  rw [parseInt]
  simp only [hwhitespace, hsign '-' rfl, hsign '+' rfl, or_self, if_false, htake, Nat.toDigits_ne_nil,
    Nat.ofDigitChars_toDigits (show 1 < 10 by decide) (show 10 ≤ 10 by decide)]

/-! ## Files of calls -/

/-- The file that a call creates. -/
def BackupCall.Creates (c : BackupCall) (file : BackupFile) : Prop :=
  file.name = .ofList (c.backupId.toList ++ tarGz)

section
variable {c : BackupCall} {file : BackupFile} {service : ServiceRow}

theorem BackupCall.Creates.toList (h : c.Creates file) :
    file.name.toList = c.service.name.toList ++ '-' :: (Nat.toDigits 10 c.calls.now ++ tarGz) := by
  rw [show file.name = _ from h, String.toList_ofList, toList_backupId]
  simp

theorem isListed_iff (h : c.Creates file) : isListed service file = true ↔
    service.name = c.service.name ∨ service.name.toList ++ ['-'] <+: c.service.name.toList := by
  have hsuffix : tarGz <:+ file.name.toList := by
    rw [show file.name = _ from h, String.toList_ofList]
    exact List.suffix_append ..
  rw [isListed, Bool.and_eq_true, List.isPrefixOf_iff_prefix, List.isSuffixOf_iff_suffix, h.toList,
    prefix_append_dash_iff (dash_notMem_tail _), String.toList_inj, ← h.toList]
  exact and_iff_left hsuffix

theorem backupEntry_backupId (h : c.Creates file) : (backupEntry service file).backupId = c.backupId := by
  rw [backupEntry, show file.name = _ from h, String.toList_ofList]
  simp

theorem backupEntry_createdAt (h : c.Creates file) (hname : service.name = c.service.name)
    (htime : c.calls.now ≤ maxTime) : (backupEntry service file).createdAt = some (c.calls.now : Int) := by
  have hdigits : (file.name.toList.take (file.name.toList.length - tarGz.length)).drop
      (service.name.toList ++ ['-']).length = Nat.toDigits 10 c.calls.now := by
    rw [show file.name = _ from h, String.toList_ofList, @List.length_append _ _ tarGz, Nat.add_sub_cancel,
      List.take_left, toList_backupId, hname, List.append_cons _ _ (Nat.toDigits 10 c.calls.now), List.drop_left]
  rw [backupEntry]
  simp only [hdigits, parseInt_toDigits, date, Int.natAbs_natCast, if_pos htime]

end

/-! ## Runs -/

theorem BacksUp.eq (h : BacksUp backupDir backups c backups') :
    backups' = Function.update backups c.backupId (some c.archive) := by
  obtain ⟨id, h⟩ := h
  rw [backup] at h
  split at h
  · cases h
  split at h
  · cases h
  · cases h
  · cases h
  split at h
  · cases h
  split at h
  · exact (Prod.mk.inj h).2.symm
  · cases h

theorem backups_eq_some_iff {history : List BackupCall} (h : Run (BacksUp backupDir) (fun _ => none) history backups)
    (htimes : (history.map (·.calls.now)).Nodup) (id : String) (archive : Archive) :
    backups id = some archive ↔ ∃ c ∈ history, id = c.backupId ∧ archive = c.archive := by
  refine h.historic (H := fun seen backups => (seen.map (·.calls.now)).Nodup →
    ∀ id archive, backups id = some archive ↔ ∃ c ∈ seen, id = c.backupId ∧ archive = c.archive)
    ?_ (by simp) htimes id archive
  intro seen backups c backups' hstep ih htimes id archive
  rw [List.map_append, List.map_singleton, List.nodup_append] at htimes
  have hfresh : ∀ c' ∈ seen, c'.backupId ≠ c.backupId := fun c' hc' heq =>
    htimes.2.2 _ (List.mem_map_of_mem hc') _ (.head _) (backupId_inj heq).2
  rw [hstep.eq, Function.update_apply]
  split
  next heq =>
    subst heq
    constructor
    · intro h
      exact ⟨c, List.mem_append_right _ (.head _), rfl, (Option.some.inj h).symm⟩
    · rintro ⟨c', hc', heq, rfl⟩
      rcases List.mem_append.mp hc' with hc' | hc'
      · exact absurd heq.symm (hfresh c' hc')
      · rw [List.mem_singleton.mp hc']
  next hne =>
    rw [ih htimes.1]
    constructor
    · rintro ⟨c', hc', h⟩
      exact ⟨c', List.mem_append_left _ hc', h⟩
    · rintro ⟨c', hc', rfl, h⟩
      rcases List.mem_append.mp hc' with hc' | hc'
      · exact ⟨c', hc', rfl, h⟩
      · rw [List.mem_singleton.mp hc'] at hne
        exact absurd rfl hne

/-! ## The list -/

section
variable {services : List ServiceRow} {service : ServiceRow} {history : List BackupCall} {backups : Backups}
variable {files : List BackupFile}

theorem Directory.exists_call (hdir : Directory backups files)
    (hrun : Run (BacksUp backupDir) (fun _ => none) history backups)
    (htimes : (history.map (·.calls.now)).Nodup) (hfile : file ∈ files) : ∃ c ∈ history, c.Creates file := by
  obtain ⟨id, hname, hsome⟩ := (hdir.mem_iff file.name).mp (List.mem_map_of_mem hfile)
  obtain ⟨archive, hsome⟩ := Option.isSome_iff_exists.mp hsome
  obtain ⟨c, hc, rfl, _⟩ := (backups_eq_some_iff hrun htimes id archive).mp hsome
  exact ⟨c, hc, hname⟩

theorem Directory.exists_file (hdir : Directory backups files)
    (hrun : Run (BacksUp backupDir) (fun _ => none) history backups)
    (htimes : (history.map (·.calls.now)).Nodup) (hc : c ∈ history) : ∃ file ∈ files, c.Creates file := by
  have hsome := (backups_eq_some_iff hrun htimes c.backupId c.archive).mpr ⟨c, hc, rfl, rfl⟩
  have hmem := (hdir.mem_iff (.ofList (c.backupId.toList ++ tarGz))).mpr ⟨c.backupId, rfl, by rw [hsome]; rfl⟩
  obtain ⟨file, hfile, hname⟩ := List.mem_map.mp hmem
  exact ⟨file, hfile, hname⟩

/-- What is listed, before it is sorted. -/
def unsorted (service : ServiceRow) (files : List BackupFile) : List BackupEntry :=
  (files.filter (isListed service)).map (backupEntry service)

/-- The names of the files that are listed can be told from the ids. -/
theorem nodup_unsorted (hdir : Directory backups files) :
    ((unsorted service files).map fun e => (e.backupId, e.createdAt)).Nodup := by
  refine List.Nodup.of_map (fun e : String × Option Int => String.ofList (e.1.toList ++ tarGz)) ?_
  have hname : ∀ file ∈ files.filter (isListed service),
      String.ofList ((backupEntry service file).backupId.toList ++ tarGz) = file.name := by
    intro file hfile
    have hlisted := (List.mem_filter.mp hfile).2
    rw [isListed, Bool.and_eq_true, List.isSuffixOf_iff_suffix] at hlisted
    obtain ⟨id, hid⟩ := hlisted.2
    rw [backupEntry, ← hid, String.toList_ofList, List.length_append, Nat.add_sub_cancel, List.take_left, hid,
      String.ofList_toList]
  rw [unsorted, List.map_map, List.map_map]
  refine (List.map_congr_left hname).symm ▸ ?_
  exact hdir.nodup.sublist (List.filter_sublist.map _)

theorem nodup_own (htimes : (history.map (·.calls.now)).Nodup) :
    ((history.filter (·.service = service)).map fun c => (c.calls.now : Int)).Nodup := by
  have hsub := (List.Sublist.map (fun c : BackupCall => c.calls.now)
    (List.filter_sublist (p := fun c => decide (c.service = service)))).nodup htimes
  have hcast := hsub.map (f := Int.ofNat) fun _ _ => Int.ofNat.inj
  rwa [List.map_map] at hcast

/-- Separate names: what is listed are the backups of the service. -/
theorem unsorted_perm (hnames : (services.map (·.name)).Nodup) (hservice : service ∈ services)
    (hhistory : ∀ c ∈ history, c.service ∈ services ∧ c.calls.now ≤ maxTime)
    (htimes : (history.map (·.calls.now)).Nodup)
    (hrun : Run (BacksUp backupDir) (fun _ => none) history backups) (hdir : Directory backups files)
    (hseparate : Separate history service) :
    ((unsorted service files).map fun e => (e.backupId, e.createdAt)).Perm
      ((history.filter (·.service = service)).map fun c => (c.backupId, some (c.calls.now : Int))) := by
  have hentry {c : BackupCall} {file : BackupFile} (hc : c ∈ history) (hcreates : c.Creates file)
      (hsame : c.service = service) : ((backupEntry service file).backupId, (backupEntry service file).createdAt) =
        (c.backupId, some (c.calls.now : Int)) := by
    rw [backupEntry_backupId hcreates,
      backupEntry_createdAt hcreates (congrArg (·.name) hsame.symm) (hhistory c hc).2]
  refine (List.perm_ext_iff_of_nodup (nodup_unsorted hdir) ?_).mpr fun e => ?_
  · exact List.Nodup.of_map (fun e : String × Option Int => e.2.getD 0)
      (by rw [List.map_map]; exact nodup_own htimes)
  simp only [unsorted, List.map_map, List.mem_map, List.mem_filter, Function.comp, decide_eq_true_eq]
  constructor
  · rintro ⟨file, ⟨hfile, hlisted⟩, rfl⟩
    obtain ⟨c, hc, hcreates⟩ := hdir.exists_call hrun htimes hfile
    have hsame : c.service = service := by
      rcases (isListed_iff hcreates).mp hlisted with hname | hstart
      · exact List.inj_on_of_nodup_map hnames (hhistory c hc).1 hservice hname.symm
      · exact not_not.mp fun hne => hseparate c hc hne hstart
    exact ⟨c, ⟨hc, hsame⟩, (hentry hc hcreates hsame).symm⟩
  · rintro ⟨c, ⟨hc, hsame⟩, rfl⟩
    obtain ⟨file, hfile, hcreates⟩ := hdir.exists_file hrun htimes hc
    refine ⟨file, ⟨hfile, (isListed_iff hcreates).mpr (.inl ?_)⟩, hentry hc hcreates hsame⟩
    rw [hsame]

/-- Different valid dates: the newest comes first. -/
theorem newest_first_insertionSort {entries : List BackupEntry} {times : List Int}
    (hperm : (entries.map (·.createdAt)).Perm (times.map some)) (hnodup : times.Nodup) :
    (entries.insertionSort NotAfter).Pairwise fun a b => ∀ s ∈ a.createdAt, ∀ t ∈ b.createdAt, t < s := by
  have hvalid : ∀ e ∈ entries, e.createdAt = some (e.createdAt.getD 0) := by
    intro e he
    obtain ⟨t, _, heq⟩ := List.mem_map.mp (hperm.subset (List.mem_map_of_mem he))
    rw [← heq, Option.getD_some]
  have hmap := List.map_insertionSort NotAfter (fun s t : Int => t ≤ s) (fun e => e.createdAt.getD 0) entries
    fun a ha b hb => by
      rw [NotAfter, hvalid a ha, hvalid b hb]
      simp
  have hsorted : ((entries.insertionSort NotAfter).map fun e => e.createdAt.getD 0).Pairwise (fun s t => t ≤ s) :=
    hmap ▸ List.pairwise_insertionSort (fun s t : Int => t ≤ s) _
  have hdistinct : ((entries.insertionSort NotAfter).map fun e => e.createdAt.getD 0).Nodup := by
    refine (((List.perm_insertionSort NotAfter entries).map _).trans ?_).nodup_iff.mpr hnodup
    have := hperm.map (·.getD 0)
    rw [List.map_map, List.map_map] at this
    exact this.trans (.of_eq (List.map_id _))
  refine (List.pairwise_map.mp (hsorted.imp₂ (fun _ _ => lt_of_le_of_ne) (hdistinct.imp Ne.symm))).imp ?_
  intro a b hlt s hs t ht
  rw [Option.mem_def] at hs ht
  rwa [hs, ht] at hlt

/-- The list of a service is that of its own backups, the newest first, if and only if the names of the
services with backups are separate from its own. -/
theorem listBackups_own_iff (hnames : (services.map (·.name)).Nodup) (hservice : service ∈ services)
    (hhistory : ∀ c ∈ history, c.service ∈ services ∧ c.calls.now ≤ maxTime)
    (htimes : (history.map (·.calls.now)).Nodup)
    (hrun : Run (BacksUp backupDir) (fun _ => none) history backups) (hdir : Directory backups files)
    (id : String) :
    (∃ entries, listBackups id (some service) (some files) = .ok entries ∧
      Own history backups service entries) ↔ Separate history service := by
  constructor
  · rintro ⟨entries, hlist, hown⟩ c hc hne hstart
    obtain rfl := Except.ok.inj hlist
    obtain ⟨file, hfile, hcreates⟩ := hdir.exists_file hrun htimes hc
    have hlisted := (isListed_iff hcreates).mpr (.inr hstart)
    have hentry : backupEntry service file ∈
        ((files.filter (isListed service)).map (backupEntry service)).insertionSort NotAfter :=
      (List.mem_insertionSort _).mpr (List.mem_map_of_mem (List.mem_filter.mpr ⟨hfile, hlisted⟩))
    obtain ⟨c', hc', heq⟩ := List.mem_map.mp (hown.perm.subset (List.mem_map_of_mem hentry))
    obtain ⟨hid, -⟩ := Prod.mk.inj heq
    rw [backupEntry_backupId hcreates] at hid
    obtain ⟨hc', hsame⟩ := List.mem_filter.mp hc'
    obtain ⟨hname, -⟩ := backupId_inj hid
    apply hne
    rw [← of_decide_eq_true hsame]
    exact List.inj_on_of_nodup_map hnames (hhistory c hc).1 (hhistory c' hc').1 hname.symm
  · intro hseparate
    have hperm := unsorted_perm hnames hservice hhistory htimes hrun hdir hseparate
    have hsorted := ((List.perm_insertionSort NotAfter (unsorted service files)).map _).trans hperm
    refine ⟨_, rfl, hsorted, ?_, fun e he => ?_⟩
    · refine @newest_first_insertionSort (unsorted service files) _ ?_ (@nodup_own service _ htimes)
      have hdates := hperm.map (·.2)
      rw [List.map_map, List.map_map] at hdates
      rw [List.map_map]
      exact hdates
    · obtain ⟨c, hc, heq⟩ := List.mem_map.mp (hsorted.subset (List.mem_map_of_mem he))
      obtain ⟨hid, -⟩ := Prod.mk.inj heq
      obtain ⟨hc, hsame⟩ := List.mem_filter.mp hc
      refine ⟨c, hc, of_decide_eq_true hsame, ?_⟩
      rw [← hid]
      exact (backups_eq_some_iff hrun htimes _ _).mpr ⟨c, hc, rfl, rfl⟩

/-- The files that the calls of a run create. -/
def BackupCall.file (c : BackupCall) : BackupFile where
  name := .ofList (c.backupId.toList ++ tarGz)
  size := 0
  mtime := 0

theorem Directory.of_run (hrun : Run (BacksUp backupDir) (fun _ => none) history backups)
    (htimes : (history.map (·.calls.now)).Nodup) : Directory backups (history.map (·.file)) where
  nodup := by
    rw [List.map_map]
    refine List.Nodup.map_on (fun c hc c' hc' heq => ?_) htimes.of_map
    have hid := List.append_cancel_right (String.ofList_injective heq)
    exact List.inj_on_of_nodup_map htimes hc hc' (backupId_inj (String.toList_inj.mp hid)).2
  mem_iff name := by
    simp only [List.mem_map]
    constructor
    · rintro ⟨_, ⟨c, hc, rfl⟩, rfl⟩
      have hsome := (backups_eq_some_iff hrun htimes c.backupId c.archive).mpr ⟨c, hc, rfl, rfl⟩
      exact ⟨c.backupId, rfl, by rw [hsome]; rfl⟩
    · rintro ⟨id, rfl, hsome⟩
      obtain ⟨archive, hsome⟩ := Option.isSome_iff_exists.mp hsome
      obtain ⟨c, hc, rfl, _⟩ := (backups_eq_some_iff hrun htimes id archive).mp hsome
      exact ⟨c.file, ⟨c, hc, rfl⟩, rfl⟩

end

/-! ## Names that go on -/

/-- A backup of a volume with one file. -/
def exampleCall (service : ServiceRow) (now : Nat) : BackupCall where
  service := service
  calls := { now := now }
  volume := .single "a" (.file service.name)
  traversal := FileTree.singleTraversal ..

/-- A service whose name goes on after that of `database`. -/
def secondDatabase : ServiceRow := { id := "t", projectId := "p", name := "db-2", kind := .postgres }

theorem run_exampleCall (service : ServiceRow) (hkind : service.kind = .postgres) (now : Nat) (backups : Backups) :
    BacksUp "/backups" backups (exampleCall service now)
      (Function.update backups (exampleCall service now).backupId (some (exampleCall service now).archive)) := by
  refine ⟨(exampleCall service now).backupId, ?_⟩
  simp [backup, exampleCall, hkind, BackupCall.backupId, BackupCall.archive]

theorem listBackups_own_example : ∃ backups entries,
    listBackups "t" (some secondDatabase)
      (some ([exampleCall secondDatabase 20, exampleCall database 30, exampleCall secondDatabase 40].map
        (·.file))) = .ok entries ∧
      Own [exampleCall secondDatabase 20, exampleCall database 30, exampleCall secondDatabase 40] backups
        secondDatabase entries := by
  have hrun := Run.cons (run_exampleCall secondDatabase rfl 20 fun _ => none)
    (.cons (run_exampleCall database rfl 30 _) (.cons (run_exampleCall secondDatabase rfl 40 _) .nil))
  refine ⟨_, (@listBackups_own_iff [database, secondDatabase] _ _ _ _ "/backups" (by decide) (by decide)
    ?_ (by decide) hrun (.of_run hrun (by decide)) "t").mpr ?_⟩
  · simp [exampleCall, maxTime]
  · intro c hc hne hstart
    simp only [List.mem_cons, List.not_mem_nil, or_false] at hc
    rcases hc with rfl | rfl | rfl
    · exact hne rfl
    · exact absurd hstart (by decide)
    · exact hne rfl

/-- The backup of `db-2` is in the list of `db`. -/
theorem not_forall_own : ¬∀ (services : List ServiceRow) (service : ServiceRow) (history : List BackupCall)
    (backups : Backups) (files : List BackupFile) (backupDir id : String),
    (services.map (·.name)).Nodup → service ∈ services →
    (∀ c ∈ history, c.service ∈ services ∧ c.calls.now ≤ maxTime) → (history.map (·.calls.now)).Nodup →
    Run (BacksUp backupDir) (fun _ => none) history backups → Directory backups files →
      ∃ entries, listBackups id (some service) (some files) = .ok entries ∧
        Own history backups service entries := by
  intro h
  have hrun := Run.cons (run_exampleCall secondDatabase rfl 20 fun _ => none) .nil
  obtain ⟨entries, hlist, hown⟩ := h [database, secondDatabase] database [exampleCall secondDatabase 20] _
    [(exampleCall secondDatabase 20).file] "/backups" "s" (by decide) (by decide)
    (by simp [exampleCall, maxTime]) (by decide) hrun (.of_run hrun (by decide))
  obtain rfl := Except.ok.inj hlist
  exact absurd hown.perm.length_eq (by decide)

end OpenLander.ServiceManager
