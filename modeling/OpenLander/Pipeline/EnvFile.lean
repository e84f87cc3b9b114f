import OpenLander.Pipeline.EnvInject

/-! # Written and read environment files

`generateEnvFile` (`src/pipeline/env-inject.ts`) writes one line for a variable, with its value as
`formatEnvValue` quotes it, and two lines for one that is to be set. `parseEnvFile` takes the
quotes off again, but leaves the backslashes that stand within them. -/

namespace OpenLander.Pipeline.EnvFile
open Theory
open Compose (EnvVarClassification classifyVar escapeEnvChar formatEnvValue parseEnvContent parseEnvLine
  recordEntries trim unquoteEnvValue)
open EnvInject (SERVICE_ENV_MAP)

structure ClassifiedEnvVar where
  key : String
  classification : EnvVarClassification
  defaultValue : String
  inferredFrom : Option String := none
  deriving DecidableEq, Repr

/-- One round of the loop of `inferServiceEnvVars`. -/
def inferServiceEnvVar (inferred : List ClassifiedEnvVar) (serviceName : String) :
    List ClassifiedEnvVar :=
  match SERVICE_ENV_MAP (String.ofList (serviceName.toList.map Char.toLower)) with
  | none => inferred
  | some (varName, template) =>
    if varName ∈ inferred.map (·.key) then inferred
    else inferred ++ [{
      key := varName
      classification := .internal
      defaultValue := template serviceName
      inferredFrom := some ("service:" ++ serviceName) }]

def inferServiceEnvVars (serviceNames : List String) : List ClassifiedEnvVar :=
  serviceNames.foldl inferServiceEnvVar []

/-- The variables of the template, and those that go with the services. -/
def classified (template : List (String × String)) (serviceNames : List String) :
    List ClassifiedEnvVar :=
  let fromTemplate := template.map fun (key, value) =>
    { key, classification := classifyVar key value, defaultValue := value : ClassifiedEnvVar }
  fromTemplate ++
    (inferServiceEnvVars serviceNames).filter fun item => item.key ∉ template.map (·.1)

def ClassifiedEnvVar.lines (item : ClassifiedEnvVar) : List String :=
  if item.classification = .secret then ["# TODO: Set " ++ item.key, item.key ++ "="]
  else [item.key ++ "=" ++ formatEnvValue item.defaultValue]

def envFile (items : List ClassifiedEnvVar) : String :=
  "\n".intercalate (items.flatMap (·.lines))

/-- The file that `generateEnvFile` returns for a template with these variables. -/
def generateEnvFile (template : List (String × String)) (serviceNames : List String) : String :=
  envFile (classified template serviceNames)

/-! ## Names and values -/

/-- `/^[A-Za-z_][A-Za-z0-9_]*$/`. -/
def ValidName (key : String) : Prop :=
  key ≠ "" ∧ ∀ c ∈ key.toList, (c.isAlphanum || c == '_') = true

/-- A character that is written with a backslash. -/
def isEscaped (c : Char) : Bool := c ∈ ['\n', '\r', '\\', '"', '$', '\x60']

/-- A character because of which a value is quoted. -/
def needsQuotes (c : Char) : Bool :=
  isWhitespace c || c ∈ ['#', '"', '\'', '$', '\x60', '\\', '=']

theorem needsQuotes_of_isEscaped (h : isEscaped c = true) : needsQuotes c = true := by
  simp only [isEscaped, List.mem_cons, List.not_mem_nil, or_false, decide_eq_true_eq] at h
  rcases h with rfl | rfl | rfl | rfl | rfl | rfl <;> decide

theorem escapeEnvChar_of_not_isEscaped (h : isEscaped c = false) : escapeEnvChar c = [c] := by
  simp only [isEscaped, List.mem_cons, List.not_mem_nil, or_false, decide_eq_false_iff_not,
    not_or] at h
  obtain ⟨hn, hr, hrest⟩ := h
  have hmem : c ∉ ['\\', '"', '$', '\x60'] := by simpa using hrest
  rw [escapeEnvChar, if_neg hn, if_neg hr, if_neg hmem]

theorem length_escapeEnvChar (h : isEscaped c = true) : (escapeEnvChar c).length = 2 := by
  simp only [isEscaped, List.mem_cons, List.not_mem_nil, or_false, decide_eq_true_eq] at h
  rcases h with rfl | rfl | rfl | rfl | rfl | rfl <;> rfl

theorem length_le_flatMap_escapeEnvChar (s : List Char) :
    s.length ≤ (s.flatMap escapeEnvChar).length := by
  induction s with
  | nil => exact Nat.le_refl _
  | cons c s ih =>
    rw [List.flatMap_cons, List.length_append, List.length_cons]
    cases hc : isEscaped c with
    | true =>
      rw [length_escapeEnvChar hc]
      omega
    | false =>
      rw [escapeEnvChar_of_not_isEscaped hc, List.length_singleton]
      omega

/-- Escaping only leaves a text as it is if there is nothing to escape. -/
theorem flatMap_escapeEnvChar_eq_self_iff {s : List Char} :
    s.flatMap escapeEnvChar = s ↔ ∀ c ∈ s, isEscaped c = false := by
  induction s with
  | nil => simp
  | cons c s ih =>
    rw [List.flatMap_cons, List.forall_mem_cons, ← ih]
    cases hc : isEscaped c with
    | true =>
      refine iff_of_false (fun h => ?_) fun h => by cases h.1
      have hlength := congrArg List.length h
      have hrest := length_le_flatMap_escapeEnvChar s
      rw [List.length_append, length_escapeEnvChar hc, List.length_cons] at hlength
      omega
    | false =>
      rw [escapeEnvChar_of_not_isEscaped hc, List.singleton_append, List.cons.injEq]
      simp only [true_and]

/-! ## One line -/

/-- What is read back of a value. -/
def readBack (value : String) : String :=
  if value.toList.any needsQuotes then String.ofList (value.toList.flatMap escapeEnvChar) else value

theorem formatEnvValue_eq (value : String) : formatEnvValue value =
    if value.toList.any needsQuotes then "\"" ++ readBack value ++ "\"" else value := by
  unfold readBack
  split
  next h => exact if_pos h
  next h => exact if_neg h

/-- Text between characters that are not whitespace is trimmed to itself. -/
theorem trim_between {s : List Char} (hfirst : ∀ c ∈ s.head?, isWhitespace c = false)
    (hlast : ∀ c ∈ s.getLast?, isWhitespace c = false) : trim s = s := by
  have hdrop {t : List Char} (ht : ∀ c ∈ t.head?, isWhitespace c = false) :
      t.dropWhile isWhitespace = t := by
    cases t with
    | nil => rfl
    | cons c cs => exact List.dropWhile_cons_of_neg (by simp [ht c rfl])
  have hreverse : ∀ c ∈ s.reverse.head?, isWhitespace c = false := by
    rwa [List.head?_reverse]
  rw [trim, hdrop hfirst, hdrop hreverse, List.reverse_reverse]

theorem formatEnvValue_chars (value : String) :
    (∀ c ∈ (formatEnvValue value).toList.head?, isWhitespace c = false) ∧
      ∀ c ∈ (formatEnvValue value).toList.getLast?, isWhitespace c = false := by
  rw [formatEnvValue_eq]
  split
  next h =>
    simp only [String.toList_append]
    refine ⟨fun c hc => ?_, fun c hc => ?_⟩
    · cases hc
      decide
    · rw [List.getLast?_append] at hc
      cases hc
      decide
  next h =>
    have hnot : ∀ c ∈ value.toList, isWhitespace c = false := by
      intro c hc
      simp only [List.any_eq_true, not_exists, not_and, needsQuotes, Bool.or_eq_true, not_or,
        Bool.not_eq_true] at h
      exact (h c hc).1
    exact ⟨fun c hc => hnot c (List.mem_of_mem_head? hc),
      fun c hc => hnot c (List.mem_of_mem_getLast? hc)⟩

theorem unquote_formatEnvValue (value : String) :
    unquoteEnvValue (formatEnvValue value).toList = (readBack value).toList := by
  rw [formatEnvValue_eq]
  split
  next h =>
    simp only [String.toList_append]
    change unquoteEnvValue ('"' :: ((readBack value).toList ++ ['"'])) = _
    simp [unquoteEnvValue]
  next h =>
    rw [readBack, if_neg h]
    cases hvalue : value.toList with
    | nil => rfl
    | cons c rest =>
      have hquote : ¬(c = '"' ∨ c = '\'') := by
        rintro (rfl | rfl) <;> exact h (by rw [hvalue]; rfl)
      rw [unquoteEnvValue, if_neg fun hand => hquote hand.1]

open scoped Members in
theorem not_isAlphanum_of_isWhitespace (h : isWhitespace c = true) :
    (c.isAlphanum || c == '_') = false := by
  simp only [isWhitespace, Bool.or_eq_true, Bool.and_eq_true, decide_eq_true_eq] at h
  rcases h with h | ⟨h, -⟩
  · revert h c
    decide
  · have hlarge : 0x2000 ≤ c.toNat := h
    have hsmall : ∀ d : Char, d.toNat < 0x2000 → c ≠ d := by
      rintro d hd rfl
      omega
    delta Char.isAlphanum Char.isAlpha Char.isUpper Char.isLower Char.isDigit
    simp [hsmall '_' (by decide), UInt32.le_iff_toNat_le]
    omega

theorem ValidName.chars (h : ValidName key) :
    ∀ c ∈ key.toList, isWhitespace c = false ∧ c ≠ '=' ∧ c ≠ '#' ∧ c ≠ '\n' := by
  intro c hc
  have hvalid := h.2 c hc
  refine ⟨?_, ?_, ?_, ?_⟩
  · cases hw : isWhitespace c with
    | false => rfl
    | true => cases hvalid.symm.trans (not_isAlphanum_of_isWhitespace hw)
  · rintro rfl
    exact absurd hvalid (by decide)
  · rintro rfl
    exact absurd hvalid (by decide)
  · rintro rfl
    exact absurd hvalid (by decide)

/-- What can stand before the first equals sign of a line. -/
structure LineKey (key : List Char) : Prop where
  ne_nil : key ≠ []
  head : ∀ c ∈ key.head?, isWhitespace c = false
  last : ∀ c ∈ key.getLast?, isWhitespace c = false
  equals : '=' ∉ key
  newline : '\n' ∉ key
  comment : key.head? ≠ some '#'

theorem ValidName.lineKey (h : ValidName key) : LineKey key.toList where
  ne_nil hnil := h.1 (String.toList_eq_nil_iff.mp hnil)
  head c hc := (h.chars c (List.mem_of_mem_head? hc)).1
  last c hc := (h.chars c (List.mem_of_mem_getLast? hc)).1
  equals hmem := (h.chars _ hmem).2.1 rfl
  newline hmem := (h.chars _ hmem).2.2.2 rfl
  comment hhead := (h.chars _ (List.mem_of_mem_head? hhead)).2.2.1 rfl

/-- A line with a key and a formatted value is read back. -/
theorem parseEnvLine_key (h : LineKey key.toList) (value : String) :
    parseEnvLine (key ++ "=" ++ formatEnvValue value).toList = some (key, readBack value) := by
  obtain ⟨first, rest, hkey⟩ := List.exists_cons_of_ne_nil h.ne_nil
  obtain ⟨hstart, hend⟩ := formatEnvValue_chars value
  have hline : (key ++ "=" ++ formatEnvValue value).toList =
      key.toList ++ '=' :: (formatEnvValue value).toList := by
    simp [String.toList_append]
  have hnotEquals : ∀ c ∈ key.toList, decide (c ≠ '=') = true := fun c hc =>
    decide_eq_true fun heq => h.equals (heq ▸ hc)
  have htrim : trim (key.toList ++ '=' :: (formatEnvValue value).toList) =
      key.toList ++ '=' :: (formatEnvValue value).toList := by
    refine trim_between (fun c hc => h.head c ?_) fun c hc => ?_
    · rw [hkey] at hc ⊢
      exact hc
    · rw [List.getLast?_append] at hc
      cases hformat : (formatEnvValue value).toList.getLast? with
      | none =>
        rw [List.getLast?_eq_none_iff.mp hformat] at hc
        cases hc
        decide
      | some last =>
        rw [List.getLast?_cons, hformat] at hc
        cases hc
        exact hend last hformat
  have htake : (key.toList ++ '=' :: (formatEnvValue value).toList).takeWhile (· ≠ '=') =
      key.toList := by
    rw [List.takeWhile_append_of_pos hnotEquals]
    simp
  have hdropWhile : (key.toList ++ '=' :: (formatEnvValue value).toList).dropWhile (· ≠ '=') =
      '=' :: (formatEnvValue value).toList := by
    rw [List.dropWhile_append_of_pos hnotEquals]
    simp
  have hkeyTrim : trim key.toList = key.toList := trim_between h.head h.last
  have hhash : first ≠ '#' := by
    rintro rfl
    exact h.comment (by rw [hkey]; rfl)
  have hnot : ¬((key.toList ++ '=' :: (formatEnvValue value).toList).isEmpty = true ∨
      (key.toList ++ '=' :: (formatEnvValue value).toList).head? = some '#' ∨
      '=' ∉ key.toList ++ '=' :: (formatEnvValue value).toList ∨ key.toList.isEmpty = true) := by
    simp [hkey, hhash]
  rw [parseEnvLine, hline]
  simp only [htrim, htake, hkeyTrim, hdropWhile, List.drop_one, List.tail_cons,
    trim_between hstart hend, unquote_formatEnvValue, if_neg hnot, String.ofList_toList]

/-- A line with a name and a formatted value is read back. -/
theorem parseEnvLine_entry (h : ValidName key) (value : String) :
    parseEnvLine (key ++ "=" ++ formatEnvValue value).toList = some (key, readBack value) :=
  parseEnvLine_key h.lineKey value

theorem parseEnvLine_empty (h : LineKey key.toList) :
    parseEnvLine (key ++ "=").toList = some (key, "") := by
  have hline := parseEnvLine_key h ""
  rwa [show formatEnvValue "" = "" from rfl, String.append_empty] at hline

theorem head?_trim_of_not_isWhitespace {s : List Char} (h : isWhitespace c = false) :
    (trim (c :: s)).head? = some c := by
  rw [trim, List.dropWhile_cons_of_neg (by simp [h]), List.reverse_cons, List.dropWhile_append]
  split
  · rw [List.dropWhile_cons_of_neg (by simp [h])]
    rfl
  · rw [List.reverse_append]
    rfl

theorem parseEnvLine_comment (key : String) : parseEnvLine ("# TODO: Set " ++ key).toList = none := by
  have hhead : (trim ("# TODO: Set " ++ key).toList).head? = some '#' := by
    rw [String.toList_append]
    exact head?_trim_of_not_isWhitespace (by decide)
  exact if_pos (.inr (.inl hhead))

/-! ## The whole file -/

/-- A record of entries with different keys has them all. -/
theorem recordEntries_of_nodup {entries : List (String × String)}
    (h : (entries.map (·.1)).Nodup) : recordEntries entries = entries := by
  have hlookup : ∀ entry ∈ entries,
      (fromEntries entries entry.1).map (entry.1, ·) = some entry := by
    intro entry hentry
    rw [fromEntries_of_nodup h hentry]
    rfl
  rw [recordEntries, keys_of_nodup h, List.filterMap_map]
  exact (List.filterMap_congr hlookup).trans List.filterMap_some

def ClassifiedEnvVar.entry (item : ClassifiedEnvVar) : String × String :=
  (item.key, if item.classification = .secret then "" else readBack item.defaultValue)

theorem ClassifiedEnvVar.parse_lines {item : ClassifiedEnvVar} (h : ValidName item.key) :
    item.lines.filterMap (parseEnvLine ·.toList) = [item.entry] := by
  have hline := parseEnvLine_entry h item.defaultValue
  have hempty := parseEnvLine_empty h.lineKey
  by_cases hsecret : item.classification = .secret
  · rw [lines, if_pos hsecret, entry, if_pos hsecret]
    simp only [List.filterMap_cons, List.filterMap_nil, parseEnvLine_comment, hempty]
  · rw [lines, if_neg hsecret, entry, if_neg hsecret]
    simp only [List.filterMap_cons, List.filterMap_nil, hline]

theorem not_newline_mem_formatEnvValue (value : String) : '\n' ∉ (formatEnvValue value).toList := by
  rw [formatEnvValue_eq]
  split
  next h =>
    rw [readBack, if_pos h]
    simp only [String.toList_append, String.toList_ofList, List.mem_append, List.mem_flatMap, not_or]
    refine ⟨⟨by decide, ?_⟩, by decide⟩
    rintro ⟨c, -, hc⟩
    cases hesc : isEscaped c with
    | true =>
      simp only [isEscaped, List.mem_cons, List.not_mem_nil, or_false, decide_eq_true_eq] at hesc
      rcases hesc with rfl | rfl | rfl | rfl | rfl | rfl <;> exact absurd hc (by decide)
    | false =>
      rw [escapeEnvChar_of_not_isEscaped hesc, List.mem_singleton] at hc
      subst hc
      exact absurd hesc (by decide)
  next h =>
    intro hmem
    exact h (List.any_eq_true.mpr ⟨'\n', hmem, by decide⟩)

theorem not_newline_mem_lines {item : ClassifiedEnvVar} (h : ValidName item.key) :
    ∀ line ∈ item.lines, '\n' ∉ line.toList := by
  have hkey : '\n' ∉ item.key.toList := fun hmem => (h.chars _ hmem).2.2.2 rfl
  have hformat := not_newline_mem_formatEnvValue item.defaultValue
  intro line hline
  unfold ClassifiedEnvVar.lines at hline
  split at hline
  · rcases List.mem_cons.mp hline with rfl | hline
    · simp [String.toList_append, hkey]
    · rw [List.mem_singleton.mp hline]
      simp [String.toList_append, hkey]
  · rw [List.mem_singleton.mp hline]
    simp [String.toList_append, hkey, hformat]

/-- What is read back of a written file. -/
theorem parse_envFile {items : List ClassifiedEnvVar} (hvalid : ∀ item ∈ items, ValidName item.key)
    (hnodup : (items.map (·.key)).Nodup) :
    parseEnvContent (envFile items) = items.map (·.entry) := by
  have hlines : ((envFile items).toList.splitOn '\n').filterMap parseEnvLine =
      (items.flatMap (·.lines)).filterMap (parseEnvLine ·.toList) := by
    cases hnil : items.flatMap (·.lines) with
    | nil => simp [envFile, hnil, parseEnvLine, trim]
    | cons first rest =>
      have hnewline : ∀ line ∈ (items.flatMap (·.lines)).map String.toList, '\n' ∉ line := by
        intro line hline
        obtain ⟨text, htext, rfl⟩ := List.mem_map.mp hline
        obtain ⟨item, hitem, htext⟩ := List.mem_flatMap.mp htext
        exact not_newline_mem_lines (hvalid item hitem) text htext
      rw [envFile, String.toList_intercalate]
      change (['\n'].intercalate _ |>.splitOn '\n').filterMap parseEnvLine = _
      rw [List.splitOn_intercalate '\n' hnewline (by simp [hnil]), hnil, List.filterMap_map]
      rfl
  have hentries : (items.flatMap (·.lines)).filterMap (parseEnvLine ·.toList) =
      items.map (·.entry) := by
    rw [List.filterMap_flatMap]
    clear hlines hnodup
    induction items with
    | nil => rfl
    | cons item items ih =>
      rw [List.flatMap_cons, ClassifiedEnvVar.parse_lines (hvalid item (.head _)),
        ih fun item hitem => hvalid item (.tail _ hitem)]
      rfl
  have hkeys : ((items.map (·.entry)).map (·.1)).Nodup := by
    rw [List.map_map]
    exact hnodup
  rw [parseEnvContent, hlines, hentries, recordEntries_of_nodup hkeys]

/-- The value of the item is read back: no character of it is escaped, or it is secret and empty. -/
def ClassifiedEnvVar.Kept (item : ClassifiedEnvVar) : Prop :=
  if item.classification = .secret then item.defaultValue = ""
  else ∀ c ∈ item.defaultValue.toList, isEscaped c = false

theorem readBack_eq_self_iff (value : String) :
    readBack value = value ↔ ∀ c ∈ value.toList, isEscaped c = false := by
  unfold readBack
  split
  · rw [← flatMap_escapeEnvChar_eq_self_iff, ← String.toList_inj, String.toList_ofList]
  next h =>
    refine iff_of_true rfl fun c hc => ?_
    by_contra hescaped
    have hquotes := needsQuotes_of_isEscaped (Bool.not_eq_false _ ▸ hescaped)
    exact h (List.any_eq_true.mpr ⟨c, hc, hquotes⟩)

theorem ClassifiedEnvVar.entry_eq_iff (item : ClassifiedEnvVar) :
    item.entry = (item.key, item.defaultValue) ↔ item.Kept := by
  rw [entry, Prod.mk.injEq, and_iff_right rfl, Kept]
  split
  · exact eq_comm
  · exact readBack_eq_self_iff _

theorem parse_envFile_eq_iff {items : List ClassifiedEnvVar}
    (hvalid : ∀ item ∈ items, ValidName item.key) (hnodup : (items.map (·.key)).Nodup) :
    parseEnvContent (envFile items) = items.map (fun item => (item.key, item.defaultValue)) ↔
      ∀ item ∈ items, item.Kept := by
  rw [parse_envFile hvalid hnodup, List.map_inj_left]
  exact forall₂_congr fun item _ => item.entry_eq_iff

/-- Each variable on a line of its own, with its value as `formatEnvValue` writes it. -/
def formatEnv (vars : List (String × String)) : String :=
  "\n".intercalate (vars.map fun (key, value) => key ++ "=" ++ formatEnvValue value)

/-- No character of the value is written with a backslash. -/
def Unescaped (value : String) : Prop := ∀ c ∈ value.toList, isEscaped c = false

/-- The variables, each with the classification of its entry. -/
def itemsOf (classification : String × String → EnvVarClassification)
    (vars : List (String × String)) : List ClassifiedEnvVar :=
  vars.map fun entry =>
    { key := entry.1, classification := classification entry, defaultValue := entry.2 }

theorem parse_itemsOf_eq_iff (classification : String × String → EnvVarClassification)
    {vars : List (String × String)} (hvalid : ∀ entry ∈ vars, ValidName entry.1)
    (hnodup : (vars.map (·.1)).Nodup) :
    parseEnvContent (envFile (itemsOf classification vars)) = vars ↔
      ∀ entry ∈ vars,
        if classification entry = .secret then entry.2 = "" else Unescaped entry.2 := by
  have hvalid' : ∀ item ∈ itemsOf classification vars, ValidName item.key := by
    intro item hitem
    obtain ⟨entry, hentry, rfl⟩ := List.mem_map.mp hitem
    exact hvalid entry hentry
  have hnodup' : ((itemsOf classification vars).map (·.key)).Nodup := by
    rwa [itemsOf, List.map_map]
  have h := parse_envFile_eq_iff hvalid' hnodup'
  rw [itemsOf, List.map_map] at h
  simp only [Function.comp_def, Prod.mk.eta, List.map_id', List.forall_mem_map] at h
  exact h

/-- Names and values, one on each line as they are formatted, are read back exactly if no value has a
character that is escaped. So are those of a generated file, if besides every value is empty that
is to be set. -/
theorem roundTrip_iff {vars : List (String × String)} (hvalid : ∀ entry ∈ vars, ValidName entry.1)
    (hnodup : (vars.map (·.1)).Nodup) :
    (parseEnvContent (formatEnv vars) = vars ↔ ∀ entry ∈ vars, Unescaped entry.2) ∧
      (parseEnvContent (generateEnvFile vars []) = vars ↔
        ∀ entry ∈ vars,
          if classifyVar entry.1 entry.2 = .secret then entry.2 = "" else Unescaped entry.2) := by
  constructor
  · have hformat : formatEnv vars = envFile (itemsOf (fun _ => .default) vars) := by
      rw [formatEnv, envFile, itemsOf, List.flatMap_map, List.map_eq_flatMap]
      rfl
    rw [hformat, parse_itemsOf_eq_iff _ hvalid hnodup]
    rfl
  · have hgenerated : generateEnvFile vars [] =
        envFile (itemsOf (fun entry => classifyVar entry.1 entry.2) vars) := by
      rw [generateEnvFile, classified, inferServiceEnvVars, List.foldl_nil, List.filter_nil,
        List.append_nil]
      rfl
    rw [hgenerated, parse_itemsOf_eq_iff _ hvalid hnodup]

theorem roundTrip_iff_greeting :
    parseEnvContent (formatEnv [("GREETING", " hello #1 ")]) = [("GREETING", " hello #1 ")] := by
  have hvalid : ∀ entry ∈ [("GREETING", " hello #1 ")], ValidName entry.1 := by
    simp [ValidName]
  refine (roundTrip_iff hvalid (List.nodup_singleton _)).1.mpr fun entry hentry => ?_
  cases List.mem_singleton.mp hentry
  simp [Unescaped, isEscaped]

/-- A dollar sign comes back with its backslash. -/
theorem not_roundTrip_dollar :
    parseEnvContent (formatEnv [("PRICE", "5$")]) ≠ [("PRICE", "5$")] ∧
      parseEnvContent (generateEnvFile [("PRICE", "5$")] []) ≠ [("PRICE", "5$")] := by
  decide

end OpenLander.Pipeline.EnvFile
