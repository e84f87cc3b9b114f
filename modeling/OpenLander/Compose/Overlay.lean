import OpenLander.Compose.DeployService

/-! # The merge of compose files

`parseComposeFiles` (`src/pipeline/compose.ts`, 213-304 and 828-888) merges the documents of its files
one after the other. `!reset` is parsed to a marker, a record like any other, and the merge takes it
away where it meets it: it goes down as long as both sides are records. What the earlier files do not
have is taken over as it is, with the markers in it. -/

namespace OpenLander.Compose.Overlay
open Theory

/-- A parsed document. A number is given by its text. No two positions share a list or a record. -/
inductive Value
  | undefined
  | null
  | bool (value : Bool)
  | number (text : String)
  | string (text : String)
  | list (items : List Value)
  /-- Only the values of the keys matter. -/
  | record (keys : List String) (value : String → Value)

namespace Value

def get : Value → String → Value
  | record keys value, key => if key ∈ keys then value key else undefined
  | _, _ => undefined

/-- The record of the entries. -/
def ofEntries (entries : List (String × Value)) : Value :=
  record (entries.map (·.1)) fun key => (entries.lookup key).getD undefined

/-- `===`, of two values at different positions. -/
def strictEquals : Value → Value → Bool
  | undefined, undefined => true
  | null, null => true
  | bool a, bool b => a = b
  | number a, number b => a = b && a ≠ "NaN"
  | string a, string b => a = b
  | _, _ => false

def isObject : Value → Bool
  | list _ | record .. => true
  | _ => false

mutual

/-- `String(value)`. -/
def text : Value → String
  | undefined => "undefined"
  | null => "null"
  | bool b => if b then "true" else "false"
  | number t | string t => t
  | list items => ",".intercalate (texts items)
  | record .. => "[object Object]"

/-- The parts of a joined list. -/
def texts : List Value → List String
  | [] => []
  | undefined :: items | null :: items => "" :: texts items
  | item :: items => text item :: texts items

end

end Value

/-! ## Markers -/

def resetField : String := "__openlanderComposeReset"

/-- What the tags of the parser give. -/
def composeReset (value : Value) : Value := .ofEntries [(resetField, .bool true), ("value", value)]

def composeResetScalar (text : String) : Value :=
  composeReset (if text = "null" then .null else .string text)

def composeResetSequence : Value := composeReset (.list [])

def composeResetMap : Value := composeReset (.ofEntries [])

def isComposeResetValue (value : Value) : Bool :=
  match value.get resetField with
  | .bool flag => flag
  | _ => false

/-! ## The merge -/

/-- `path.at(-1)` or the last two keys say that a list is replaced. -/
def isReplaced (path : List String) : Bool :=
  path.getLast? = some "command" || path.getLast? = some "entrypoint" ||
    ".".intercalate (path.drop (path.length - 2)) = "healthcheck.test"

/-- The index that `findIndex` gives is that of the value itself. -/
def isFirst (before : List Value) (value : Value) : Bool :=
  value.isObject || (value.strictEquals value && before.all (!·.strictEquals value))

/-- The filter of the merged list, after `before`. -/
def distinct : List Value → List Value → List Value
  | _, [] => []
  | before, value :: values =>
    if isFirst before value then value :: distinct (before ++ [value]) values
    else distinct (before ++ [value]) values

def mergeComposeValues : Value → Value → List String → Value
  | base, .record keys value, path =>
    if isComposeResetValue (.record keys value) then (Value.record keys value).get "value"
    else
      match base with
      | .record baseKeys baseValue =>
        .record (keys.foldl insertLast baseKeys) fun key =>
          if key ∈ keys then
            mergeComposeValues ((Value.record baseKeys baseValue).get key) (value key) (path ++ [key])
          else baseValue key
      | _ => .record keys value
  | .list base, .list overlay, path =>
    if isReplaced path then .list overlay else .list (distinct [] (base ++ overlay))
  | _, overlay, _ => overlay

/-- A document that is no record counts as an empty one. -/
def parseComposeDocument : Value → Value
  | .record keys value => .record keys value
  | _ => .ofEntries []

def mergeFiles (files : List Value) : Value :=
  (files.map parseComposeDocument).foldl (fun merged overlay => mergeComposeValues merged overlay [])
    (.ofEntries [])

/-! ## Environments -/

inductive ParseError
  | noFile
  /-- A property of null. -/
  | typeError
  deriving DecidableEq, Repr

/-- `envValue == null ? '' : String(envValue)`. -/
def variableText : Value → String
  | .undefined | .null => ""
  | value => value.text

def parseEnvironment : Value → Option ComposeEnvironment
  | .list items => some (.list (items.map Value.text))
  | .record keys value => some (.map (keys.map fun key => (key, variableText (value key))))
  | _ => none

/-- The services, of which the environment alone is kept. -/
def parseServices : Value → List (String × Option ComposeEnvironment)
  | .record keys value => keys.map fun name => (name, parseEnvironment ((value name).get "environment"))
  | _ => []

def parseComposeFiles (files : List Value) :
    Except ParseError (List (String × Option ComposeEnvironment)) :=
  if files = [] then .error .noFile
  else
    match mergeFiles files with
    | .undefined | .null => .error .typeError
    | parsed => .ok (parseServices (parsed.get "services"))

/-! ## Values without markers -/

/-- The first value is the second one, or a part of it. -/
inductive Within : Value → Value → Prop
  | refl (v : Value) : Within v v
  | item (hmem : v ∈ items) (h : Within w v) : Within w (.list items)
  | value {keys : List String} {value : String → Value} (hmem : key ∈ keys)
      (h : Within w (value key)) : Within w (.record keys value)

/-- No part of the value is a marker. -/
def Clean (v : Value) : Prop := ∀ w, Within w v → isComposeResetValue w = false

variable {v w base overlay : Value} {items values before : List Value} {path : List String}
  {keys baseKeys : List String} {value baseValue : String → Value}

theorem clean_of_not_isObject (h : v.isObject = false) : Clean v := by
  intro w hw
  cases hw with
  | refl =>
    cases v with
    | list | record => exact nomatch h
    | _ => rfl
  | item | value => exact nomatch h

theorem clean_list : Clean (.list items) ↔ ∀ v ∈ items, Clean v := by
  constructor
  · exact fun h v hv w hw => h w (.item hv hw)
  · intro h w hw
    cases hw with
    | refl => rfl
    | item hmem hw => exact h _ hmem w hw

theorem clean_record : Clean (.record keys value) ↔
    isComposeResetValue (.record keys value) = false ∧ ∀ key ∈ keys, Clean (value key) := by
  constructor
  · exact fun h => ⟨h _ (.refl _), fun key hkey w hw => h w (.value hkey hw)⟩
  · intro ⟨hroot, h⟩ w hw
    cases hw with
    | refl => exact hroot
    | value hmem hw => exact h _ hmem w hw

theorem Clean.get (h : Clean v) (key : String) : Clean (v.get key) := by
  cases v with
  | record keys value =>
    rw [Value.get]
    split
    · next hkey => exact (clean_record.mp h).2 key hkey
    · exact clean_of_not_isObject rfl
  | _ => exact clean_of_not_isObject rfl

theorem mem_distinct (h : v ∈ distinct before values) : v ∈ values := by
  induction values generalizing before with
  | nil => exact h
  | cons value values ih =>
    rw [distinct] at h
    split at h
    · rcases List.mem_cons.mp h with rfl | h
      · exact .head _
      · exact .tail _ (ih h)
    · exact .tail _ (ih h)

/-- Lists and records are never left out. -/
theorem mem_distinct_of_isObject (hv : v.isObject = true) (h : v ∈ values) :
    v ∈ distinct before values := by
  induction values generalizing before with
  | nil => exact h
  | cons value values ih =>
    rw [distinct]
    rcases List.mem_cons.mp h with rfl | h
    · rw [isFirst, hv, Bool.true_or, if_pos rfl]
      exact .head _
    · split
      · exact .tail _ (ih h)
      · exact ih h

theorem clean_distinct : Clean (.list (distinct before values)) ↔ Clean (.list values) := by
  rw [clean_list, clean_list]
  constructor
  · intro h v hv
    cases hobject : v.isObject with
    | true => exact h v (mem_distinct_of_isObject hobject hv)
    | false => exact clean_of_not_isObject hobject
  · exact fun h v hv => h v (mem_distinct hv)

/-! ## What the merge consumes -/

/-- The merge gets to each marker of the overlay. A marker of the field of the markers does not make
one of the record that it is in. -/
def Consumed : Value → Value → Prop
  | base, .record keys value =>
    if isComposeResetValue (.record keys value) then Clean ((Value.record keys value).get "value")
    else
      match base with
      | .record baseKeys baseValue =>
        (∀ key ∈ keys, Consumed ((Value.record baseKeys baseValue).get key) (value key)) ∧
          ¬(isComposeResetValue ((Value.record keys value).get resetField) = true ∧
            ((Value.record keys value).get resetField).get "value" = .bool true)
      | _ => Clean (.record keys value)
  | _, overlay => Clean overlay

theorem merge_reset (h : isComposeResetValue overlay = true) :
    mergeComposeValues base overlay path = overlay.get "value" := by
  cases overlay with
  | record keys value => cases base <;> exact if_pos h
  | _ => exact nomatch h

theorem merge_records (h : isComposeResetValue (.record keys value) = false) :
    mergeComposeValues (.record baseKeys baseValue) (.record keys value) path =
      .record (keys.foldl insertLast baseKeys) fun key =>
        if key ∈ keys then
          mergeComposeValues ((Value.record baseKeys baseValue).get key) (value key) (path ++ [key])
        else baseValue key :=
  if_neg (h ▸ Bool.false_ne_true)

theorem merge_lists (base overlay : List Value) (path : List String) :
    mergeComposeValues (.list base) (.list overlay) path =
      if isReplaced path then .list overlay else .list (distinct [] (base ++ overlay)) := rfl

/-- Both are records, or both are lists. -/
def SameKind : Value → Value → Prop
  | .record .., .record .. => True
  | .list _, .list _ => True
  | _, _ => False

theorem merge_of_not_sameKind (h : isComposeResetValue overlay = false)
    (hkind : ¬SameKind base overlay) : mergeComposeValues base overlay path = overlay := by
  cases overlay with
  | record keys value =>
    cases base with
    | record => exact absurd trivial hkind
    | _ => exact if_neg (h ▸ Bool.false_ne_true)
  | list items =>
    cases base with
    | list => exact absurd trivial hkind
    | _ => rfl
  | _ => rfl

/-- The value at a key of the merged record. -/
theorem get_merge_records (h : isComposeResetValue (.record keys value) = false) (key : String) :
    (mergeComposeValues (.record baseKeys baseValue) (.record keys value) path).get key =
      if key ∈ keys then
        mergeComposeValues ((Value.record baseKeys baseValue).get key) (value key) (path ++ [key])
      else (Value.record baseKeys baseValue).get key := by
  rw [merge_records h, Value.get, Value.get]
  by_cases hkey : key ∈ keys
  · rw [if_pos (mem_foldl_insertLast.mpr (.inr hkey)), if_pos hkey, if_pos hkey]
  · have hmem : key ∈ keys.foldl insertLast baseKeys ↔ key ∈ baseKeys :=
      mem_foldl_insertLast.trans (or_iff_left hkey)
    simp only [hmem, hkey, if_false]

theorem merge_eq_true : mergeComposeValues base overlay path = .bool true ↔
    overlay = .bool true ∨
      isComposeResetValue overlay = true ∧ overlay.get "value" = .bool true := by
  cases hreset : isComposeResetValue overlay with
  | true =>
    rw [merge_reset hreset]
    refine ⟨fun h => .inr ⟨rfl, h⟩, ?_⟩
    rintro (rfl | ⟨-, h⟩)
    · exact nomatch hreset
    · exact h
  | false =>
    rw [or_iff_left (fun h => nomatch h.1)]
    by_cases hkind : SameKind base overlay
    · cases base <;> cases overlay <;> try exact hkind.elim
      · rw [merge_lists]
        split <;> exact iff_of_false nofun nofun
      · rw [merge_records hreset]
        exact iff_of_false nofun nofun
    · rw [merge_of_not_sameKind hreset hkind]

theorem isComposeResetValue_iff :
    isComposeResetValue v = true ↔ v.get resetField = .bool true := by
  rw [isComposeResetValue]
  cases v.get resetField <;> simp

theorem consumed_reset (h : isComposeResetValue overlay = true) :
    Consumed base overlay ↔ Clean (overlay.get "value") := by
  cases overlay with
  | record keys value => cases base <;> exact iff_of_eq (if_pos h)
  | _ => exact nomatch h

theorem consumed_records (h : isComposeResetValue (.record keys value) = false) :
    Consumed (.record baseKeys baseValue) (.record keys value) ↔
      (∀ key ∈ keys, Consumed ((Value.record baseKeys baseValue).get key) (value key)) ∧
        ¬(isComposeResetValue ((Value.record keys value).get resetField) = true ∧
          ((Value.record keys value).get resetField).get "value" = .bool true) :=
  iff_of_eq (if_neg (h ▸ Bool.false_ne_true))

theorem consumed_of_not_sameKind (h : isComposeResetValue overlay = false)
    (hkind : ¬SameKind base overlay) : Consumed base overlay ↔ Clean overlay := by
  cases overlay with
  | record keys value =>
    cases base with
    | record => exact absurd trivial hkind
    | _ => exact iff_of_eq (if_neg (h ▸ Bool.false_ne_true))
  | _ => cases base <;> exact .rfl

/-- A record that the merge makes is a marker where the overlay has a marker of the field. -/
theorem isComposeResetValue_merge_records (hbase : Clean (.record baseKeys baseValue))
    (h : isComposeResetValue (.record keys value) = false) (path : List String) :
    isComposeResetValue
        (mergeComposeValues (.record baseKeys baseValue) (.record keys value) path) = true ↔
      isComposeResetValue ((Value.record keys value).get resetField) = true ∧
        ((Value.record keys value).get resetField).get "value" = .bool true := by
  have hnot : (Value.record keys value).get resetField ≠ .bool true :=
    fun htrue => by rw [isComposeResetValue_iff.mpr htrue] at h; cases h
  rw [isComposeResetValue_iff, get_merge_records h]
  by_cases hkey : resetField ∈ keys
  · have hget : (Value.record keys value).get resetField = value resetField := if_pos hkey
    rw [if_pos hkey, merge_eq_true, ← hget, or_iff_right hnot]
  · have hget : (Value.record keys value).get resetField = .undefined := if_neg hkey
    rw [if_neg hkey, ← isComposeResetValue_iff, hbase _ (.refl _), hget]
    exact iff_of_false (by rintro ⟨⟩) (by rintro ⟨⟨⟩, _⟩)

/-- A base without markers is merged into a document without markers just where the merge gets to all
of the overlay. -/
theorem clean_merge_iff (hbase : Clean base) :
    Clean (mergeComposeValues base overlay path) ↔ Consumed base overlay := by
  induction base, overlay, path using mergeComposeValues.induct with
  | case1 base keys value path hreset =>
    rw [merge_reset hreset, consumed_reset hreset]
  | case2 keys value path hreset baseKeys baseValue ih =>
    rw [Bool.not_eq_true] at hreset
    have hget := hbase.get
    have hroot := isComposeResetValue_merge_records hbase hreset path
    rw [consumed_records hreset, merge_records hreset, clean_record, ← merge_records hreset,
      ← hroot, Bool.not_eq_true, and_comm]
    refine and_congr_left' ⟨fun h key hkey => ?_, fun h key hkey => ?_⟩
    · have hclean := h key (mem_foldl_insertLast.mpr (.inr hkey))
      rw [if_pos hkey] at hclean
      exact (ih key (hget key)).mp hclean
    · by_cases hoverlay : key ∈ keys
      · rw [if_pos hoverlay]
        exact (ih key (hget key)).mpr (h key hoverlay)
      · rw [if_neg hoverlay]
        refine (clean_record.mp hbase).2 key ?_
        exact (mem_foldl_insertLast.mp hkey).resolve_right hoverlay
  | case3 base keys value path hreset hnot =>
    rw [Bool.not_eq_true] at hreset
    have hkind : ¬SameKind base (.record keys value) := by
      cases base with
      | record => exact fun _ => hnot _ _ rfl
      | _ => exact nofun
    rw [merge_of_not_sameKind hreset hkind, consumed_of_not_sameKind hreset hkind]
  | case4 base overlay path hreplaced =>
    rw [merge_lists, if_pos hreplaced]
    rfl
  | case5 base overlay path hreplaced =>
    rw [merge_lists, if_neg hreplaced, clean_distinct, clean_list, List.forall_mem_append]
    exact (and_iff_right (clean_list.mp hbase)).trans clean_list.symm
  | case6 base overlay path hrecord hlist =>
    have hreset : isComposeResetValue overlay = false := by
      cases overlay with
      | record keys value => exact (hrecord keys value rfl).elim
      | _ => rfl
    have hkind : ¬SameKind base overlay := by
      intro h
      cases base <;> cases overlay <;> try exact h.elim
      · exact hlist _ _ rfl rfl
      · exact hrecord _ _ rfl
    rw [merge_of_not_sameKind hreset hkind, consumed_of_not_sameKind hreset hkind]

/-- What a tag gives is consumed wherever the merge gets to it. -/
theorem consumed_composeReset (base : Value) (text : String) :
    Consumed base (composeResetScalar text) ∧ Consumed base composeResetSequence ∧
      Consumed base composeResetMap := by
  refine ⟨(consumed_reset rfl).mpr ?_, (consumed_reset rfl).mpr ?_, (consumed_reset rfl).mpr ?_⟩
  · change Clean (if text = "null" then .null else .string text)
    split <;> exact clean_of_not_isObject rfl
  · exact clean_list.mpr nofun
  · exact clean_record.mpr ⟨rfl, nofun⟩

end OpenLander.Compose.Overlay
