import OpenLander.Theory.Keyed
import OpenLander.Theory.Lines
import Mathlib.Data.List.TakeWhile

/-! # The Compose environment of the installation

`persistOpenLanderComposeEnvironment` (`src/update/runner.ts`, 134-186) sets six variables in the text of
the `.env` file, one after the other. Each time the text is split into lines and joined again with one
line ending. That is `putAll` on the lines, unless the last line ends with a carriage return that becomes
part of a line ending. -/

namespace OpenLander.Update
open Theory

/-- `COMPOSE_ENVIRONMENT_KEYS` -/
inductive ComposeEnvironmentKey
  | OPENLANDER_POSTGRES_PASSWORD
  | OPENLANDER_PORT
  | OPENLANDER_PUBLIC_HOST
  | OPENLANDER_PROTECTED_SHARE_TLS_MODE
  | OPENLANDER_DATA_VOLUME
  deriving DecidableEq, Repr

namespace ComposeEnvironmentKey

def name : ComposeEnvironmentKey → String
  | OPENLANDER_POSTGRES_PASSWORD => "OPENLANDER_POSTGRES_PASSWORD"
  | OPENLANDER_PORT => "OPENLANDER_PORT"
  | OPENLANDER_PUBLIC_HOST => "OPENLANDER_PUBLIC_HOST"
  | OPENLANDER_PROTECTED_SHARE_TLS_MODE => "OPENLANDER_PROTECTED_SHARE_TLS_MODE"
  | OPENLANDER_DATA_VOLUME => "OPENLANDER_DATA_VOLUME"

def all : List ComposeEnvironmentKey :=
  [OPENLANDER_POSTGRES_PASSWORD, OPENLANDER_PORT, OPENLANDER_PUBLIC_HOST,
    OPENLANDER_PROTECTED_SHARE_TLS_MODE, OPENLANDER_DATA_VOLUME]

end ComposeEnvironmentKey

/-- `Record<ComposeEnvironmentKey, string>` -/
abbrev ComposeEnvironment := ComposeEnvironmentKey → List Char

inductive ComposeEnvironmentError
  | unsafeValue
  | multipleEntries (key : String)
  deriving DecidableEq, Repr

/-- `[A-Za-z0-9_./:@%+=,-]` -/
def isSafeValueChar (c : Char) : Bool :=
  c.isAlphanum || c ∈ ['_', '.', '/', ':', '@', '%', '+', '=', ',', '-']

def formatComposeEnvironmentValue (value : List Char) :
    Except ComposeEnvironmentError (List Char) :=
  if value = [] then .ok ['"', '"']
  else if value.all isSafeValueChar then .ok value
  else .error .unsafeValue

def entry (key : String) (formattedValue : List Char) : List Char :=
  key.toList ++ '=' :: formattedValue

/-- `line.startsWith(key + "=")` -/
def isEntry (key : String) (line : List Char) : Bool := (entry key []).isPrefixOf line

def lineEnding (text : List Char) : List Char := if includesCrlf text then crlf else ['\n']

def matchingIndexes (key : String) (lines : List (List Char)) : List Nat :=
  lines.findIdxs (isEntry key)

/-- The lines with the entry in its place, or in a new one. -/
def setEntry (key : String) (formattedValue : List Char) (replaceExisting endedWithNewline : Bool)
    (lines : List (List Char)) : Except ComposeEnvironmentError (List (List Char)) :=
  match matchingIndexes key lines with
  | [] =>
    let insertionIndex := if endedWithNewline then lines.length - 1 else lines.length
    .ok (lines.take insertionIndex ++ entry key formattedValue :: lines.drop insertionIndex)
  | [index] => .ok (if replaceExisting then lines.set index (entry key formattedValue) else lines)
  | _ => .error (.multipleEntries key)

def updateComposeEnvironmentEntry (environmentContent : List Char) (key : String)
    (value : List Char) (replaceExisting : Bool) : Except ComposeEnvironmentError (List Char) := do
  let formattedValue ← formatComposeEnvironmentValue value
  if environmentContent = [] then
    return entry key formattedValue ++ lineEnding environmentContent
  else
    let endedWithNewline := environmentContent.getLast? = some '\n'
    let lines ← setEntry key formattedValue replaceExisting endedWithNewline
      (splitLines environmentContent)
    let updated := (lineEnding environmentContent).intercalate lines
    return if endedWithNewline then updated else updated ++ lineEnding environmentContent

def replaceOpenLanderImage (environmentContent image : List Char) :
    Except ComposeEnvironmentError (List Char) :=
  updateComposeEnvironmentEntry environmentContent "OPENLANDER_IMAGE" image true

def persistOpenLanderComposeEnvironment (environmentContent image : List Char)
    (composeEnvironment : ComposeEnvironment) : Except ComposeEnvironmentError (List Char) := do
  let updated ← replaceOpenLanderImage environmentContent image
  ComposeEnvironmentKey.all.foldlM (fun updated key =>
    updateComposeEnvironmentEntry updated key.name (composeEnvironment key) true) updated

/-! ## Lines and their keys -/

/-- The name in front of the first equals sign. -/
def keyOf (line : List Char) : Option (List Char) :=
  if '=' ∈ line then some (line.takeWhile (· ≠ '=')) else none

theorem keyOf_append (h : '=' ∉ key) (value : List Char) : keyOf (key ++ '=' :: value) = some key := by
  have hall : ∀ c ∈ key, decide (c ≠ '=') = true := fun c hc => decide_eq_true fun heq => h (heq ▸ hc)
  rw [keyOf, if_pos (List.mem_append_right _ (.head _)), List.takeWhile_append_of_pos hall,
    List.takeWhile_cons_of_neg (by decide), List.append_nil]

theorem eq_append_of_keyOf (h : keyOf line = some key) :
    '=' ∉ key ∧ ∃ value, line = key ++ '=' :: value := by
  rw [keyOf] at h
  split at h
  · next hmem =>
    refine ⟨fun heq => ?_, (line.dropWhile (· ≠ '=')).tail, ?_⟩
    · rw [← Option.some.inj h] at heq
      exact absurd (List.mem_takeWhile_imp heq) (by decide)
    have hne : line.dropWhile (· ≠ '=') ≠ [] := by
      rw [ne_eq, List.dropWhile_eq_nil_iff]
      exact fun hall => absurd (hall '=' hmem) (by decide)
    have hhead : (line.dropWhile (· ≠ '=')).head hne = '=' := by
      have hnot := List.head_dropWhile_not (p := fun c => decide (c ≠ '=')) hne
      simpa using hnot
    have hdrop := List.cons_head_tail hne
    rw [hhead] at hdrop
    rw [← Option.some.inj h, hdrop, List.takeWhile_append_dropWhile]
  · exact nomatch h

theorem keyOf_concat (hc : c ≠ '=') (line : List Char) : keyOf (line ++ [c]) = keyOf line := by
  cases hkey : keyOf line with
  | some key =>
    obtain ⟨hnot, value, rfl⟩ := eq_append_of_keyOf hkey
    rw [List.append_assoc]
    exact keyOf_append hnot _
  | none =>
    have hline : '=' ∉ line := fun hmem => nomatch (if_pos hmem).symm.trans hkey
    refine if_neg fun hmem => ?_
    rcases List.mem_append.mp hmem with hmem | hmem
    · exact hline hmem
    · exact hc (List.mem_singleton.mp hmem).symm

theorem isEntry_iff {key : String} (h : '=' ∉ key.toList) :
    isEntry key line = true ↔ keyOf line = some key.toList := by
  rw [isEntry, List.isPrefixOf_iff_prefix]
  constructor
  · rintro ⟨rest, rfl⟩
    rw [entry, List.append_assoc]
    exact keyOf_append h rest
  · intro hkey
    obtain ⟨-, value, rfl⟩ := eq_append_of_keyOf hkey
    exact ⟨value, by rw [entry, List.append_assoc]; rfl⟩

/-! ## One entry -/

section
variable {key : String} {lines : List (List Char)} {index : Nat}

/-- The line at the only matching index is replaced. -/
theorem set_findIdxs (k : Nat) (h : lines.findIdxs (isEntry key) k = [index]) (e : List Char) :
    k ≤ index ∧ lines.set (index - k) e = lines.map fun line => if isEntry key line then e else line := by
  induction lines generalizing k with
  | nil => exact nomatch h
  | cons line lines ih =>
    rw [List.findIdxs_cons] at h
    rw [List.map_cons]
    split at h
    next hline =>
      obtain ⟨rfl, hrest⟩ := List.cons.inj h
      have hnone := List.findIdxs_eq_nil_iff.mp hrest
      refine ⟨Nat.le_refl k, ?_⟩
      rw [Nat.sub_self, List.set_cons_zero, if_pos hline]
      refine congrArg _ ((List.map_id' lines).symm.trans (List.map_congr_left fun l hl => ?_))
      rw [hnone l hl, if_neg Bool.false_ne_true]
    next hline =>
      obtain ⟨hle, hset⟩ := ih (k + 1) h
      refine ⟨Nat.le_of_succ_le hle, ?_⟩
      have hindex : index - k = (index - (k + 1)) + 1 := by omega
      rw [hindex, List.set_cons_succ, hset, if_neg hline]

theorem setEntry_eq (hone : (lines.filter (isEntry key)).length ≤ 1) (value : List Char)
    (endedWithNewline : Bool) : setEntry key value true endedWithNewline lines =
      .ok (if lines.any (isEntry key) then
          lines.map fun line => if isEntry key line then entry key value else line
        else
          let insertionIndex := if endedWithNewline then lines.length - 1 else lines.length
          lines.take insertionIndex ++ entry key value :: lines.drop insertionIndex) := by
  have hlength : (matchingIndexes key lines).length ≤ 1 := by
    rwa [matchingIndexes, List.length_findIdxs, List.countP_eq_length_filter]
  rw [setEntry]
  cases hindexes : matchingIndexes key lines with
  | nil =>
    have hnone := List.findIdxs_eq_nil_iff.mp hindexes
    have hany : lines.any (isEntry key) = false :=
      List.any_eq_false.mpr fun line hline => by rw [hnone line hline]; exact Bool.false_ne_true
    rw [hany]
    rfl
  | cons index rest =>
    have hany : lines.any (isEntry key) = true := by
      by_contra hnot
      rw [List.any_eq_true, not_exists] at hnot
      have hnil : matchingIndexes key lines = [] := List.findIdxs_eq_nil_iff.mpr
        fun line hline => Bool.eq_false_iff.mpr fun h => hnot line ⟨hline, h⟩
      rw [hindexes] at hnil
      exact nomatch hnil
    cases rest with
    | nil =>
      have hset := (set_findIdxs 0 hindexes (entry key value)).2
      rw [hany, if_pos rfl, ← hset]
      rfl
    | cons _ _ =>
      rw [hindexes] at hlength
      exact absurd hlength (by simp)

variable {value v : List Char}

theorem isEntry_eq (h : '=' ∉ key.toList) (v : List Char) :
    (fun line => decide (keyOf line = keyOf (entry key v))) = isEntry key := by
  funext line
  rw [entry, keyOf_append h, Bool.eq_iff_iff, decide_eq_true_eq, isEntry_iff h]

theorem isEntry_nil (key : String) : isEntry key [] = false := by
  rw [isEntry, entry]
  cases key.toList <;> rfl

theorem put_entry (h : '=' ∉ key.toList) (lines : List (List Char)) (v : List Char) :
    put keyOf lines (entry key v) = if lines.any (isEntry key) then
        lines.map fun line => if isEntry key line then entry key v else line
      else lines ++ [entry key v] := by
  have hif : (fun line => if keyOf line = keyOf (entry key v) then entry key v else line) =
      fun line => if isEntry key line then entry key v else line := by
    funext line
    rw [entry, keyOf_append h, ← entry]
    exact if_congr (isEntry_iff h).symm rfl rfl
  rw [put, isEntry_eq h, hif]

/-- Without a newline at the end. -/
theorem setEntry_open (hkey : '=' ∉ key.toList) (hone : (lines.filter (isEntry key)).length ≤ 1) :
    setEntry key v true false lines = .ok (put keyOf lines (entry key v)) := by
  rw [setEntry_eq hone, put_entry hkey]
  simp only [Bool.false_eq_true, if_false, List.take_length, List.drop_length]

theorem setEntry_ended (hkey : '=' ∉ key.toList) (hone : (lines.filter (isEntry key)).length ≤ 1) :
    setEntry key v true true (lines ++ [[]]) = .ok (put keyOf lines (entry key v) ++ [[]]) := by
  have hfilter : (lines ++ [[]]).filter (isEntry key) = lines.filter (isEntry key) := by
    rw [List.filter_append, List.filter_singleton, isEntry_nil]
    exact List.append_nil _
  have hany : (lines ++ [[]]).any (isEntry key) = lines.any (isEntry key) := by
    rw [List.any_append, List.any_cons, isEntry_nil]
    exact Bool.or_false _
  rw [setEntry_eq (hfilter ▸ hone), put_entry hkey, hany]
  by_cases h : lines.any (isEntry key) = true
  · rw [if_pos h, if_pos h, List.map_append, List.map_singleton, isEntry_nil]
    rfl
  · rw [if_neg h, if_neg h, List.append_assoc]
    simp

/-- One entry is set among the lines, with the line ending of the text. -/
theorem updateComposeEnvironmentEntry_eq {content : List Char} (hkey : '=' ∉ key.toList)
    (hv : formatComposeEnvironmentValue value = .ok v)
    (hone : ((linesOf content).filter (isEntry key)).length ≤ 1) :
    updateComposeEnvironmentEntry content key value true =
      .ok (unlines (lineEnding content) (put keyOf (linesOf content) (entry key v))) := by
  obtain ⟨ps, last, hps, hlast, rfl⟩ := exists_joined content
  have hsplit := splitLines_joined hps hlast
  have hlines := linesOf_joined hps hlast
  have hended : (joined ps last).getLast? = some '\n' ↔ _ := getLast?_joined hlast
  rw [updateComposeEnvironmentEntry, hv]
  by_cases hempty : joined ps last = []
  · obtain ⟨rfl, rfl⟩ := joined_eq_nil.mp hempty
    refine congrArg Except.ok ?_
    exact (List.append_nil _).symm
  change (if _ then _ else _) = _
  rw [if_neg hempty]
  by_cases hnil : last = []
  · subst hnil
    rw [if_pos rfl, List.append_nil] at hlines
    have hne : ps ≠ [] := fun h => hempty (joined_eq_nil.mpr ⟨h, rfl⟩)
    rw [hlines] at hone
    simp only [hsplit, hended.mpr ⟨hne, rfl⟩, hlines, decide_true]
    rw [setEntry_ended hkey hone]
    refine congrArg Except.ok ?_
    rw [if_pos trivial, intercalate_concat_nil]
  · rw [if_neg hnil] at hlines
    rw [hlines] at hone
    have hnot : ¬(joined ps last).getLast? = some '\n' := fun h => hnil (hended.mp h).2
    simp only [hsplit, hlines]
    rw [decide_eq_false hnot, setEntry_open hkey hone]
    refine congrArg Except.ok ?_
    rw [if_neg hnot, intercalate_append]
    intro hput
    have hmem := (@mem_map_put _ _ _ keyOf (ps.map stripCr ++ [last]) (entry key v) _).mpr
      (.inr rfl)
    rw [hput] at hmem
    exact nomatch hmem

end

/-! ## Several entries -/

/-- A value that can be persisted. -/
def IsSafe (value : List Char) : Prop := value.all isSafeValueChar = true

instance : Decidable (IsSafe value) := inferInstanceAs (Decidable (_ = _))

def formatted (value : List Char) : List Char := if value = [] then ['"', '"'] else value

theorem format_of_isSafe (h : IsSafe value) :
    formatComposeEnvironmentValue value = .ok (formatted value) := by
  rw [formatComposeEnvironmentValue, formatted]
  split
  · rfl
  · exact if_pos h

theorem isSafe_of_format (h : formatComposeEnvironmentValue value = .ok v) : IsSafe value := by
  rw [formatComposeEnvironmentValue] at h
  split at h
  next hnil => exact hnil ▸ rfl
  next =>
    split at h
    next hall => exact hall
    next => exact nomatch h

theorem formatted_plain (h : IsSafe value) : '\n' ∉ formatted value ∧ '\r' ∉ formatted value := by
  rw [formatted]
  split
  · decide
  · rw [IsSafe, List.all_eq_true] at h
    exact ⟨fun hc => absurd (h _ hc) (by decide), fun hc => absurd (h _ hc) (by decide)⟩

/-- The entries of `persistOpenLanderComposeEnvironment`, in its order. -/
def managedEntries (image : List Char) (env : ComposeEnvironment) : List (String × List Char) :=
  ("OPENLANDER_IMAGE", image) :: ComposeEnvironmentKey.all.map fun key => (key.name, env key)

def managedNames : List String := "OPENLANDER_IMAGE" :: ComposeEnvironmentKey.all.map (·.name)

theorem map_fst_managedEntries (image : List Char) (env : ComposeEnvironment) :
    (managedEntries image env).map Prod.fst = managedNames := rfl

def setEntries (content : List Char) (es : List (String × List Char)) :
    Except ComposeEnvironmentError (List Char) :=
  es.foldlM (fun updated e => updateComposeEnvironmentEntry updated e.1 e.2 true) content

theorem persist_eq_setEntries (content image : List Char) (env : ComposeEnvironment) :
    persistOpenLanderComposeEnvironment content image env =
      setEntries content (managedEntries image env) := rfl

def written (es : List (String × List Char)) : List (List Char) :=
  es.map fun e => entry e.1 (formatted e.2)

/-- Keys that can be told apart in a line, and values that can be persisted. -/
structure Writable (es : List (String × List Char)) : Prop where
  keys : ∀ e ∈ es, '=' ∉ e.1.toList ∧ '\n' ∉ e.1.toList
  nodup : (es.map Prod.fst).Nodup
  safe : ∀ e ∈ es, IsSafe e.2

/-- No key has two lines. -/
def Once (es : List (String × List Char)) (lines : List (List Char)) : Prop :=
  ∀ e ∈ es, (lines.filter (isEntry e.1)).length ≤ 1

section
variable {es : List (String × List Char)} {e : String × List Char}
  {ending content : List Char} {lines : List (List Char)}

theorem Writable.tail (h : Writable (e :: es)) : Writable es where
  keys e' he := h.keys e' (.tail _ he)
  nodup := (List.nodup_cons.mp h.nodup).2
  safe e' he := h.safe e' (.tail _ he)

theorem Writable.map_keyOf (h : Writable es) :
    (written es).map keyOf = es.map fun e => some e.1.toList := by
  rw [written, List.map_map]
  exact List.map_congr_left fun e he => keyOf_append (h.keys e he).1 _

theorem Writable.nodup_written (h : Writable es) : ((written es).map keyOf).Nodup := by
  have hmap : (es.map fun e => some e.1.toList) = (es.map Prod.fst).map fun k => some k.toList := by
    rw [List.map_map]
    rfl
  rw [h.map_keyOf, hmap]
  exact h.nodup.map fun a b hab => String.toList_injective (Option.some.inj hab)

theorem filter_isEntry {key : String} (h : '=' ∉ key.toList) (lines : List (List Char)) :
    lines.filter (isEntry key) = lines.filter (keyOf · = some key.toList) := by
  refine List.filter_congr fun line _ => ?_
  rw [Bool.eq_iff_iff, isEntry_iff h, decide_eq_true_eq]

/-- Setting one entry leaves the lines of the others. -/
theorem Once.put (hw : Writable (e :: es)) (h : Once (e :: es) lines) (v : List Char) :
    Once es (put keyOf lines (entry e.1 v)) := by
  intro e' he
  have hne : some e'.1.toList ≠ keyOf (entry e.1 v) := by
    rw [entry, keyOf_append (hw.keys e (.head _)).1]
    intro heq
    have hmem := List.mem_map_of_mem (f := Prod.fst) he
    rw [String.toList_injective (Option.some.inj heq)] at hmem
    exact (List.nodup_cons.mp hw.nodup).1 hmem
  have hsame := @filter_key_putAll_of_not_mem _ _ _ keyOf lines [entry e.1 v] _
    (List.nodup_singleton _) (mt List.mem_singleton.mp hne)
  rw [filter_isEntry (hw.keys e' (.tail _ he)).1]
  refine (congrArg List.length hsame).trans_le ?_
  rw [← filter_isEntry (hw.keys e' (.tail _ he)).1]
  exact h e' (.tail _ he)

/-- Lines that come back from the text they make with this ending. -/
structure Even (ending : List Char) (lines : List (List Char)) : Prop where
  plain : Plain lines
  ending : ending = crlf ∨ ending = ['\n'] ∧ ∀ line ∈ lines, line.getLast? ≠ some '\r'

theorem getLast?_written (h : Writable (e :: es)) :
    (entry e.1 (formatted e.2)).getLast? ≠ some '\r' := by
  have hplain := formatted_plain (h.safe e (.head _))
  have hne : formatted e.2 ≠ [] := by
    rw [formatted]
    split
    · exact List.cons_ne_nil _ _
    · assumption
  intro hlast
  rw [entry, List.getLast?_append, List.getLast?_cons, List.getLast?_eq_getLast_of_ne_nil hne] at hlast
  exact hplain.2 (Option.some.inj hlast ▸ List.getLast_mem hne)

/-- A line that is replaced may end with a carriage return. -/
theorem even_put (hw : Writable (e :: es)) (hplain : Plain lines)
    (hending : ending = crlf ∨ ending = ['\n'] ∧
      ∀ line ∈ lines, isEntry e.1 line = false → line.getLast? ≠ some '\r') :
    Even ending (put keyOf lines (entry e.1 (formatted e.2))) := by
  have hkey := hw.keys e (.head _)
  constructor
  · intro line hline
    rcases mem_put.mp hline with ⟨hline, -⟩ | rfl
    · exact hplain line hline
    · rw [entry, List.mem_append, List.mem_cons, not_or, not_or]
      exact ⟨hkey.2, by decide, (formatted_plain (hw.safe e (.head _))).1⟩
  · refine hending.imp_right (And.imp_right fun hlines line hline => ?_)
    rcases mem_put.mp hline with ⟨hline, hne⟩ | rfl
    · refine hlines line hline (Bool.eq_false_iff.mpr fun hentry => hne ?_)
      exact ((isEntry_iff hkey.1).mp hentry).trans (keyOf_append hkey.1 _).symm
    · exact getLast?_written hw

theorem Even.put (h : Even ending lines) (hw : Writable (e :: es)) :
    Even ending (put keyOf lines (entry e.1 (formatted e.2))) :=
  even_put hw h.plain (h.ending.imp_right (And.imp_right fun hlines line hline _ => hlines line hline))

theorem Even.plain_cr (h : Even ending lines) : Plain (lines.map (· ++ ['\r'])) := by
  intro p hp
  obtain ⟨line, hline, rfl⟩ := List.mem_map.mp hp
  rw [List.mem_append, not_or]
  exact ⟨h.plain line hline, by decide⟩

theorem Even.linesOf (h : Even ending lines) : linesOf (unlines ending lines) = lines := by
  rcases h.ending with rfl | ⟨rfl, hlines⟩
  · rw [unlines_crlf, linesOf_joined h.plain_cr List.not_mem_nil, if_pos rfl, List.append_nil, List.map_map]
    exact (List.map_congr_left fun line _ => stripCr_concat line).trans (List.map_id' lines)
  · have hjoined : unlines ['\n'] lines = joined lines [] := (List.append_nil _).symm
    rw [hjoined, linesOf_joined h.plain List.not_mem_nil, if_pos rfl, List.append_nil]
    exact (List.map_congr_left fun line hline => stripCr_of_ne (hlines line hline)).trans
      (List.map_id' lines)

theorem Even.lineEnding (h : Even ending lines) (hne : lines ≠ []) :
    lineEnding (unlines ending lines) = ending := by
  rw [Update.lineEnding]
  rcases h.ending with rfl | ⟨rfl, hlines⟩
  · rw [unlines_crlf, includesCrlf_joined h.plain_cr List.not_mem_nil]
    obtain ⟨line, lines, rfl⟩ := List.exists_cons_of_ne_nil hne
    rw [List.map_cons, List.any_cons,
      List.getLast?_concat]
    rfl
  · have hjoined : unlines ['\n'] lines = joined lines [] := (List.append_nil _).symm
    have hany : (lines.any fun line => line.getLast? = some '\r') = false :=
      List.any_eq_false.mpr fun line hline => by rw [decide_eq_true_eq]; exact hlines line hline
    rw [hjoined, includesCrlf_joined h.plain List.not_mem_nil, hany]
    rfl

theorem put_ne_nil (lines : List (List Char)) (line : List Char) : put keyOf lines line ≠ [] := by
  intro hnil
  have hmem : keyOf line ∈ (put keyOf lines line).map keyOf := mem_map_put.mpr (.inr rfl)
  rw [hnil] at hmem
  exact nomatch hmem

/-- All entries are set among the lines. -/
theorem setEntries_eq (hw : Writable es) (hne : es ≠ []) (h : Even (lineEnding content) (linesOf content))
    (honce : Once es (linesOf content)) : setEntries content es =
      .ok (unlines (lineEnding content) (putAll keyOf (linesOf content) (written es))) ∧
      Even (lineEnding content) (putAll keyOf (linesOf content) (written es)) := by
  induction es generalizing content with
  | nil => exact absurd rfl hne
  | cons e es ih =>
    have hfirst := updateComposeEnvironmentEntry_eq (hw.keys e (.head _)).1
      (format_of_isSafe (hw.safe e (.head _))) (honce e (.head _))
    have heven := h.put hw
    have hlines := heven.linesOf
    have hending := heven.lineEnding (put_ne_nil _ _)
    have hstep : setEntries content (e :: es) = setEntries
        (unlines (lineEnding content) (put keyOf (linesOf content) (entry e.1 (formatted e.2)))) es := by
      rw [setEntries, List.foldlM_cons, hfirst]
      rfl
    rw [hstep, written, List.map_cons, putAll_cons]
    by_cases hnil : es = []
    · subst hnil
      exact ⟨rfl, heven⟩
    · have hrest := ih hw.tail hnil (by rwa [hlines, hending])
        (by rw [hlines]; exact honce.put hw _)
      rwa [hlines, hending] at hrest

end

/-! ## A carriage return at the end -/

/-- The last line ends with a carriage return, and no line ends with `\r\n`. -/
def EndsWithCr (content : List Char) : Prop :=
  includesCrlf content = false ∧ content.getLast? = some '\r'

instance : Decidable (EndsWithCr content) := inferInstanceAs (Decidable (_ ∧ _))

section
variable {content : List Char}

theorem plain_map_stripCr {lines : List (List Char)} (h : Plain lines) : Plain (lines.map stripCr) := by
  intro line hline
  obtain ⟨p, hp, rfl⟩ := List.mem_map.mp hline
  rw [stripCr]
  split
  · exact fun hmem => h p hp (List.dropLast_subset _ hmem)
  · exact h p hp

theorem plain_linesOf (content : List Char) : Plain (linesOf content) := by
  obtain ⟨ps, last, hps, hlast, rfl⟩ := exists_joined content
  rw [linesOf_joined hps hlast]
  intro line hline
  rcases List.mem_append.mp hline with hline | hline
  · exact plain_map_stripCr hps line hline
  · split at hline
    · exact nomatch hline
    · exact List.mem_singleton.mp hline ▸ hlast

/-- Without `\r\n`, only the last line can end with a carriage return. -/
theorem linesOf_of_not_crlf (h : includesCrlf content = false) : ∃ ps last,
    (∀ p ∈ ps, p.getLast? ≠ some '\r') ∧ (linesOf content = ps ++ if last = [] then [] else [last]) ∧
    (content.getLast? = some '\r' ↔ last.getLast? = some '\r') := by
  obtain ⟨ps, last, hps, hlast, rfl⟩ := exists_joined content
  rw [includesCrlf_joined hps hlast, List.any_eq_false] at h
  have hps' : ∀ p ∈ ps, p.getLast? ≠ some '\r' := fun p hp hcr => h p hp (decide_eq_true hcr)
  have hstrip : ps.map stripCr = ps :=
    (List.map_congr_left fun p hp => stripCr_of_ne (hps' p hp)).trans (List.map_id' ps)
  refine ⟨ps, last, hps', by rw [linesOf_joined hps hlast, hstrip], ?_⟩
  by_cases hnil : last = []
  · have hended : (joined ps last).getLast? = some '\n' ↔ _ := getLast?_joined hlast
    subst hnil
    refine iff_of_false (fun hcr => ?_) nofun
    by_cases hempty : ps = []
    · subst hempty
      exact nomatch hcr
    · rw [hended.mpr ⟨hempty, rfl⟩] at hcr
      exact absurd hcr (by decide)
  · obtain ⟨c, hc⟩ := Option.isSome_iff_exists.mp (List.getLast?_isSome.mpr hnil)
    rw [joined, List.getLast?_append, hc, Option.some_or]

theorem even_of_not_endsWithCr (h : ¬EndsWithCr content) :
    Even (lineEnding content) (linesOf content) := by
  refine ⟨plain_linesOf content, ?_⟩
  cases hcrlf : includesCrlf content with
  | true => exact .inl (if_pos hcrlf)
  | false =>
    obtain ⟨ps, last, hps, hlines, hlast⟩ := linesOf_of_not_crlf hcrlf
    refine .inr ⟨if_neg (hcrlf ▸ Bool.false_ne_true), fun line hline => ?_⟩
    rw [hlines] at hline
    rcases List.mem_append.mp hline with hline | hline
    · exact hps line hline
    · split at hline
      · exact nomatch hline
      · rw [List.mem_singleton.mp hline]
        exact fun hcr => h ⟨hcrlf, hlast.mpr hcr⟩

theorem linesOf_of_endsWithCr (h : EndsWithCr content) : ∃ ps last,
    (∀ p ∈ ps, p.getLast? ≠ some '\r') ∧ linesOf content = ps ++ [last] ∧
    last.getLast? = some '\r' ∧ lineEnding content = ['\n'] := by
  obtain ⟨ps, last, hps, hlines, hlast⟩ := linesOf_of_not_crlf h.1
  have hcr := hlast.mp h.2
  have hne : last ≠ [] := by
    rintro rfl
    exact nomatch hcr
  exact ⟨ps, last, hps, by rw [hlines, if_neg hne], hcr, if_neg (h.1 ▸ Bool.false_ne_true)⟩

theorem keyOf_stripCr (line : List Char) : keyOf (stripCr line) = keyOf line := by
  rw [stripCr]
  split
  next h =>
    obtain ⟨init, rfl⟩ : ∃ init, line = init ++ ['\r'] := by
      rcases List.eq_nil_or_concat line with rfl | ⟨init, c, rfl⟩
      · cases h
      · rw [List.concat_eq_append, List.getLast?_concat] at h
        exact ⟨init, by rw [Option.some.inj h, List.concat_eq_append]⟩
    rw [List.dropLast_concat, keyOf_concat (by decide)]
  next => rfl

end

/-! ## All managed entries -/

/-- The last line ends with a carriage return, and setting the entry `key` does not replace it. -/
def Absorbed (key : String) (content : List Char) : Prop :=
  EndsWithCr content ∧ ∀ line ∈ (linesOf content).getLast?, isEntry key line = false

instance : Decidable (Absorbed key content) := inferInstanceAs (Decidable (_ ∧ _))

/-- The line ending of the result and the lines that keep their places, where the first entry has the
key. The newline behind a last line that stays makes its carriage return part of a line ending. -/
def base (key : String) (content : List Char) : List Char × List (List Char) :=
  if Absorbed key content then (crlf, (linesOf content).map stripCr)
  else (lineEnding content, linesOf content)

section
variable {content : List Char} {es : List (String × List Char)} {e : String × List Char}

theorem Once.map_stripCr (hw : Writable es) {lines : List (List Char)} (h : Once es lines) :
    Once es (lines.map stripCr) := by
  intro e he
  have hcomp : (fun line => decide (keyOf line = some e.1.toList)) ∘ stripCr =
      fun line => decide (keyOf line = some e.1.toList) := by
    funext line
    exact congrArg (fun k => decide (k = some e.1.toList)) (keyOf_stripCr line)
  rw [filter_isEntry (hw.keys e he).1, List.filter_map, hcomp, List.length_map,
    ← filter_isEntry (hw.keys e he).1]
  exact h e he

/-- After the first entry, the text has the line ending and the lines of the result. -/
theorem setEntries_of_first {text ending : List Char} {lines : List (List Char)} (hw : Writable (e :: es))
    (hne : es ≠ []) (hfirst : updateComposeEnvironmentEntry content e.1 e.2 true = .ok text)
    (hending : lineEnding text = ending)
    (hlines : linesOf text = put keyOf lines (entry e.1 (formatted e.2)))
    (heven : Even ending (put keyOf lines (entry e.1 (formatted e.2)))) (honce : Once (e :: es) lines) :
    setEntries content (e :: es) = .ok (unlines ending (putAll keyOf lines (written (e :: es)))) ∧
      Even ending (putAll keyOf lines (written (e :: es))) := by
  have hstep : setEntries content (e :: es) = setEntries text es := by
    rw [setEntries, List.foldlM_cons, hfirst]
    rfl
  have hrest := setEntries_eq hw.tail hne (by rwa [hlines, hending])
    (by rw [hlines]; exact honce.put hw _)
  rw [hlines, hending] at hrest
  rw [hstep, written, List.map_cons, putAll_cons]
  exact hrest

theorem setEntries_replaced (hw : Writable (e :: es)) (hne : es ≠ []) (hcr : EndsWithCr content)
    (hnot : ¬Absorbed e.1 content) (honce : Once (e :: es) (linesOf content)) :
    setEntries content (e :: es) =
      .ok (unlines (lineEnding content) (putAll keyOf (linesOf content) (written (e :: es)))) ∧
      Even (lineEnding content) (putAll keyOf (linesOf content) (written (e :: es))) := by
  obtain ⟨ps, last, hps, hlines, hlast, hending⟩ := linesOf_of_endsWithCr hcr
  have hentry : isEntry e.1 last = true := by
    refine Bool.of_not_eq_false fun hother => hnot ⟨hcr, ?_⟩
    rw [hlines, List.getLast?_concat]
    exact fun line hline => Option.some.inj hline ▸ hother
  have hfirst := updateComposeEnvironmentEntry_eq (hw.keys e (.head _)).1
    (format_of_isSafe (hw.safe e (.head _))) (honce e (.head _))
  have heven : Even (lineEnding content) (put keyOf (linesOf content) (entry e.1 (formatted e.2))) := by
    refine even_put hw (plain_linesOf content) (.inr ⟨hending, fun line hline hother => ?_⟩)
    rw [hlines, List.mem_append, List.mem_singleton] at hline
    rcases hline with hline | rfl
    · exact hps line hline
    · cases hentry.symm.trans hother
  exact setEntries_of_first hw hne hfirst (heven.lineEnding (put_ne_nil _ _)) heven.linesOf heven honce

theorem setEntries_absorbed (hw : Writable (e :: es)) (hne : es ≠ []) (h : Absorbed e.1 content)
    (honce : Once (e :: es) (linesOf content)) : setEntries content (e :: es) =
      .ok (unlines crlf (putAll keyOf ((linesOf content).map stripCr) (written (e :: es)))) ∧
      Even crlf (putAll keyOf ((linesOf content).map stripCr) (written (e :: es))) := by
  obtain ⟨ps, last, hps, hlines, hlast, hending⟩ := linesOf_of_endsWithCr h.1
  have hother : isEntry e.1 last = false :=
    h.2 last (by rw [hlines, List.getLast?_concat]; rfl)
  have hfirst := updateComposeEnvironmentEntry_eq (hw.keys e (.head _)).1
    (format_of_isSafe (hw.safe e (.head _))) (honce e (.head _))
  have hself : stripCr (entry e.1 (formatted e.2)) = entry e.1 (formatted e.2) :=
    stripCr_of_ne (getLast?_written hw)
  have heven : Even crlf (put keyOf (linesOf content) (entry e.1 (formatted e.2))) :=
    even_put hw (plain_linesOf content) (.inl rfl)
  have hput := heven.plain
  have hjoined : unlines ['\n'] (put keyOf (linesOf content) (entry e.1 (formatted e.2))) =
      joined (put keyOf (linesOf content) (entry e.1 (formatted e.2))) [] := (List.append_nil _).symm
  rw [hending, hjoined] at hfirst
  refine setEntries_of_first hw hne hfirst ?_ ?_
    (even_put hw (plain_map_stripCr (plain_linesOf content)) (.inl rfl)) (honce.map_stripCr hw)
  · -- The last line stays, so that one line ends with `\r\n` now.
    have hmem : last ∈ put keyOf (linesOf content) (entry e.1 (formatted e.2)) := by
      refine mem_put.mpr (.inl ⟨hlines ▸ List.mem_append_right _ (.head _), fun hkey => ?_⟩)
      have hentry := (isEntry_iff (hw.keys e (.head _)).1).mpr
        (hkey.trans (keyOf_append (hw.keys e (.head _)).1 _))
      exact nomatch hother.symm.trans hentry
    rw [lineEnding, includesCrlf_joined hput List.not_mem_nil]
    exact if_pos (List.any_eq_true.mpr ⟨last, hmem, decide_eq_true hlast⟩)
  · rw [linesOf_joined hput List.not_mem_nil, if_pos rfl, List.append_nil, map_put keyOf_stripCr hself]

theorem setEntries_base (hw : Writable (e :: es)) (hne : es ≠ [])
    (honce : Once (e :: es) (linesOf content)) : setEntries content (e :: es) =
      .ok (unlines (base e.1 content).1 (putAll keyOf (base e.1 content).2 (written (e :: es)))) ∧
      Even (base e.1 content).1 (putAll keyOf (base e.1 content).2 (written (e :: es))) := by
  rw [base]
  by_cases h : Absorbed e.1 content
  · rw [if_pos h]
    exact setEntries_absorbed hw hne h honce
  · rw [if_neg h]
    by_cases hcr : EndsWithCr content
    · exact setEntries_replaced hw hne hcr h honce
    · exact setEntries_eq hw (List.cons_ne_nil _ _) (even_of_not_endsWithCr hcr) honce

theorem once_base (hw : Writable es) (honce : Once es (linesOf content)) :
    Once es (base key content).2 := by
  rw [base]
  split
  · exact honce.map_stripCr hw
  · exact honce

/-- Each entry has one line. -/
theorem filter_putAll_written (hw : Writable es) {lines : List (List Char)} (honce : Once es lines)
    (he : e ∈ es) : (putAll keyOf lines (written es)).filter (isEntry e.1) =
      [entry e.1 (formatted e.2)] := by
  have hkey := (hw.keys e he).1
  have hone := honce e he
  rw [← isEntry_eq hkey (formatted e.2)] at hone ⊢
  exact filter_key_putAll hw.nodup_written (List.mem_map_of_mem he) hone

theorem Once.putAll (hw : Writable es) {lines : List (List Char)} (honce : Once es lines)
    {es' : List (String × List Char)} (hkeys : es'.map Prod.fst = es.map Prod.fst) :
    Once es' (putAll keyOf lines (written es)) := by
  intro e' he'
  obtain ⟨e, he, heq⟩ := List.mem_map.mp (hkeys ▸ List.mem_map_of_mem he')
  rw [← heq, filter_putAll_written hw honce he]
  exact Nat.le_refl 1

/-- Setting the same keys a second time leaves nothing of the first time. -/
theorem setEntries_setEntries {es' : List (String × List Char)} {e' : String × List Char} {out : List Char}
    (hw : Writable (e :: es)) (hne : es ≠ []) (hw' : Writable (e' :: es'))
    (hkeys : (e' :: es').map Prod.fst = (e :: es).map Prod.fst)
    (honce : Once (e :: es) (linesOf content)) (hout : setEntries content (e :: es) = .ok out) :
    setEntries out (e' :: es') = .ok (unlines (base e.1 content).1
      (Theory.putAll keyOf (base e.1 content).2 (written (e' :: es')))) := by
  obtain ⟨heq, heven⟩ := setEntries_base hw hne honce
  obtain rfl := Except.ok.inj (hout.symm.trans heq)
  have hbase : Once _ (base e.1 content).2 := once_base hw honce
  have hmap : (written (e' :: es')).map keyOf = (written (e :: es)).map keyOf := by
    rw [hw'.map_keyOf, hw.map_keyOf]
    have hsome := congrArg (List.map fun k : String => some k.toList) hkeys
    rwa [List.map_map, List.map_map] at hsome
  have hnonempty : Theory.putAll keyOf (base e.1 content).2 (written (e :: es)) ≠ [] := by
    intro hnil
    have hmem := filter_putAll_written hw hbase (.head _)
    rw [hnil] at hmem
    exact nomatch hmem
  have hlines := heven.linesOf
  have hending := heven.lineEnding hnonempty
  have hagain := (setEntries_eq hw' (List.cons_ne_nil _ _) (by rwa [hlines, hending])
    (by rw [hlines]; exact hbase.putAll hw hkeys)).1
  rwa [hlines, hending, putAll_putAll hw.nodup_written hmap] at hagain

end

/-! ## What is persisted -/

def isManaged (line : List Char) : Bool := managedNames.any (isEntry · line)

/-- No managed key has two lines. -/
def Unambiguous (content : List Char) : Prop :=
  ∀ name ∈ managedNames, ((linesOf content).filter (isEntry name)).length ≤ 1

instance : Decidable (Unambiguous content) := inferInstanceAs (Decidable (∀ _ ∈ _, _))

/-- `out` is `content` with the managed entries, and it has no memory of other values of them. -/
structure Persisted (content image : List Char) (env : ComposeEnvironment) (out : List Char) : Prop where
  entries : ∀ e ∈ managedEntries image env, ∃ value, formatComposeEnvironmentValue e.2 = .ok value ∧
    (linesOf out).filter (isEntry e.1) = [entry e.1 value]
  others : (linesOf out).filter (!isManaged ·) = (linesOf content).filter (!isManaged ·)
  again : persistOpenLanderComposeEnvironment out image env = .ok out
  restored : ∀ image' env', IsSafe image' → (∀ key, IsSafe (env' key)) →
    (persistOpenLanderComposeEnvironment content image' env' >>=
      (persistOpenLanderComposeEnvironment · image env)) = .ok out

section
variable {content image : List Char} {env : ComposeEnvironment} {out : List Char}

theorem writable_managedEntries (himage : IsSafe image) (henv : ∀ key, IsSafe (env key)) :
    Writable (managedEntries image env) where
  keys := by
    have hkeys : ∀ name ∈ managedNames, '=' ∉ name.toList ∧ '\n' ∉ name.toList := by decide
    exact fun e he => hkeys _ (map_fst_managedEntries image env ▸ List.mem_map_of_mem he)
  nodup := by
    rw [map_fst_managedEntries]
    decide
  safe e he := by
    rcases List.mem_cons.mp he with rfl | he
    · exact himage
    · obtain ⟨key, -, rfl⟩ := List.mem_map.mp he
      exact henv key

theorem Unambiguous.once (h : Unambiguous content) (image : List Char) (env : ComposeEnvironment) :
    Once (managedEntries image env) (linesOf content) :=
  fun _ he => h _ (map_fst_managedEntries image env ▸ List.mem_map_of_mem he)

theorem isManaged_iff (hw : Writable (managedEntries image env)) (line : List Char) :
    keyOf line ∈ (written (managedEntries image env)).map keyOf ↔ isManaged line = true := by
  have hmap : ((managedEntries image env).map fun e => some e.1.toList) =
      managedNames.map fun name => some name.toList := rfl
  rw [hw.map_keyOf, hmap, List.mem_map, isManaged, List.any_eq_true]
  refine exists_congr fun name => and_congr_right fun hname => ?_
  have hkey : '=' ∉ name.toList := by
    rw [← map_fst_managedEntries image env] at hname
    obtain ⟨e, he, rfl⟩ := List.mem_map.mp hname
    exact (hw.keys e he).1
  rw [isEntry_iff hkey]
  exact eq_comm

theorem filter_not_isManaged (hw : Writable (managedEntries image env)) (lines : List (List Char)) :
    (putAll keyOf lines (written (managedEntries image env))).filter (!isManaged ·) =
      lines.filter (!isManaged ·) := by
  have hpred (line : List Char) :
      (!isManaged line) = decide (keyOf line ∉ (written (managedEntries image env)).map keyOf) := by
    rw [Bool.eq_iff_iff, decide_eq_true_eq, isManaged_iff hw, Bool.not_eq_true', Bool.not_eq_true]
  refine (List.filter_congr fun line _ => ?_).trans
    ((filter_putAll (l := lines) hw.nodup_written).trans (List.filter_congr fun line _ => ?_))
  · exact (hpred line).trans (decide_eq_decide.mpr Iff.rfl)
  · exact (decide_eq_decide.mpr Iff.rfl).trans (hpred line).symm

theorem isManaged_stripCr (line : List Char) : isManaged (stripCr line) = isManaged line := by
  have hw : Writable (managedEntries [] fun _ => []) := writable_managedEntries rfl fun _ => rfl
  rw [Bool.eq_iff_iff, ← isManaged_iff hw, keyOf_stripCr, isManaged_iff hw]

/-- The other lines stay, unless one of them is the last one and loses its carriage return. -/
theorem filter_base_iff : (base "OPENLANDER_IMAGE" content).2.filter (!isManaged ·) =
      (linesOf content).filter (!isManaged ·) ↔
    ¬(EndsWithCr content ∧ ∀ line ∈ (linesOf content).getLast?, isManaged line = false) := by
  rw [base]
  by_cases habsorbed : Absorbed "OPENLANDER_IMAGE" content
  · obtain ⟨ps, last, hps, hlines, hlast, -⟩ := linesOf_of_endsWithCr habsorbed.1
    have hcomp : (fun line => !isManaged line) ∘ stripCr = fun line => !isManaged line := by
      funext line
      exact congrArg (!·) (isManaged_stripCr line)
    have hne : stripCr last ≠ last := by
      intro heq
      have hlength := congrArg List.length heq
      rw [stripCr, if_pos hlast, List.length_dropLast] at hlength
      have hpos := List.length_pos_of_mem (List.mem_of_getLast? hlast)
      omega
    rw [if_pos habsorbed, List.filter_map, hcomp, and_iff_right habsorbed.1]
    have hlast' : (linesOf content).getLast? = some last := by
      rw [hlines, List.getLast?_concat]
    constructor
    · intro heq hall
      have hid := List.map_inj_left.mp (heq.trans (List.map_id' _).symm) last
      have hmem : last ∈ (linesOf content).filter (!isManaged ·) := by
        refine List.mem_filter.mpr ⟨List.mem_of_getLast? hlast', ?_⟩
        rw [hall last hlast']
        rfl
      exact hne (hid hmem)
    · intro hmanaged
      refine (List.map_congr_left fun line hline => ?_).trans (List.map_id' _)
      obtain ⟨hline, hother⟩ := List.mem_filter.mp hline
      rw [hlines, List.mem_append, List.mem_singleton] at hline
      rcases hline with hline | rfl
      · exact stripCr_of_ne (hps line hline)
      · refine absurd (fun line hline => ?_) hmanaged
        rw [hlast'] at hline
        exact Option.some.inj hline ▸ (Bool.not_eq_true' _).mp hother
  · rw [if_neg habsorbed]
    refine iff_of_true rfl fun h => habsorbed ⟨h.1, fun line hline => ?_⟩
    have hnone := List.any_eq_false.mp (h.2 line hline) _ (.head _)
    exact Bool.eq_false_iff.mpr hnone

theorem isSafe_of_persist (h : persistOpenLanderComposeEnvironment content image env = .ok out) :
    IsSafe image := by
  cases hformat : formatComposeEnvironmentValue image with
  | ok value => exact isSafe_of_format hformat
  | error e =>
    rw [persistOpenLanderComposeEnvironment, replaceOpenLanderImage, updateComposeEnvironmentEntry,
      hformat] at h
    exact nomatch h

theorem persist_eq (hcontent : Unambiguous content) (himage : IsSafe image)
    (henv : ∀ key, IsSafe (env key)) : persistOpenLanderComposeEnvironment content image env =
      .ok (unlines (base "OPENLANDER_IMAGE" content).1
        (putAll keyOf (base "OPENLANDER_IMAGE" content).2 (written (managedEntries image env)))) ∧
      Even (base "OPENLANDER_IMAGE" content).1
        (putAll keyOf (base "OPENLANDER_IMAGE" content).2 (written (managedEntries image env))) :=
  setEntries_base (writable_managedEntries himage henv) (List.cons_ne_nil _ _) (hcontent.once image env)

/-- The managed lines are set, and the others stay as they are, for every image that can be persisted,
unless a text without `\r\n` ends with a carriage return that is not on a managed line. -/
theorem persistOpenLanderComposeEnvironment_iff (content image : List Char) (env : ComposeEnvironment)
    (hcontent : Unambiguous content) (henv : ∀ key, IsSafe (env key)) :
    (∃ out, persistOpenLanderComposeEnvironment content image env = .ok out ∧
      Persisted content image env out) ↔
    IsSafe image ∧
      ¬(EndsWithCr content ∧ ∀ line ∈ (linesOf content).getLast?, isManaged line = false) := by
  rw [← filter_base_iff]
  constructor
  · rintro ⟨out, hout, hpersisted⟩
    have himage := isSafe_of_persist hout
    obtain ⟨heq, heven⟩ := persist_eq hcontent himage henv
    obtain rfl := Except.ok.inj (hout.symm.trans heq)
    have hothers := hpersisted.others
    rw [heven.linesOf, filter_not_isManaged (writable_managedEntries himage henv)] at hothers
    exact ⟨himage, hothers⟩
  · rintro ⟨himage, hothers⟩
    have hw := writable_managedEntries himage henv
    obtain ⟨heq, heven⟩ := persist_eq hcontent himage henv
    refine ⟨_, heq, ⟨fun e he => ⟨formatted e.2, format_of_isSafe (hw.safe e he), ?_⟩, ?_, ?_, ?_⟩⟩
    · rw [heven.linesOf]
      exact filter_putAll_written hw (once_base hw (hcontent.once image env)) he
    · rw [heven.linesOf, filter_not_isManaged hw, hothers]
    · exact setEntries_setEntries hw (List.cons_ne_nil _ _) hw rfl (hcontent.once image env) heq
    · intro image' env' himage' henv'
      have hw' := writable_managedEntries himage' henv'
      have heq' := (persist_eq hcontent himage' henv').1
      rw [heq']
      exact setEntries_setEntries hw' (List.cons_ne_nil _ _) hw rfl (hcontent.once image' env') heq'

/-- A text that has no managed keys. -/
def sampleContent : List Char := ['A', '=', '1', '\n']

def sampleEnvironment : ComposeEnvironment := fun _ => ['x']

theorem persist_sample :
    ∃ out, persistOpenLanderComposeEnvironment sampleContent ['i'] sampleEnvironment = .ok out ∧
      Persisted sampleContent ['i'] sampleEnvironment out :=
  (persistOpenLanderComposeEnvironment_iff sampleContent ['i'] sampleEnvironment
    (by decide) fun _ => rfl).mpr (by decide)

end

/-- The line `A` with a carriage return, and no newline. -/
theorem not_forall_persisted : ¬∀ content image env, Unambiguous content → IsSafe image →
    (∀ key, IsSafe (env key)) →
    ∃ out, persistOpenLanderComposeEnvironment content image env = .ok out ∧
      Persisted content image env out := by
  intro h
  obtain ⟨out, hout, hpersisted⟩ := h ['A', '\r'] ['i'] (fun _ => ['x']) (by decide) rfl fun _ => rfl
  have hok : (persistOpenLanderComposeEnvironment ['A', '\r'] ['i'] fun _ => ['x']).toOption.map
      (fun out => (linesOf out).filter (!isManaged ·)) = some [['A']] := by decide
  rw [hout] at hok
  have hothers : (linesOf ['A', '\r']).filter (!isManaged ·) = [['A', '\r']] := by decide
  have hlines : (linesOf out).filter (!isManaged ·) = [['A']] := Option.some.inj hok
  rw [hpersisted.others, hothers] at hlines
  exact absurd hlines (by decide)

end OpenLander.Update
