import Mathlib.Data.List.Sort
import OpenLander.Theory.JsonValue
import OpenLander.Theory.Keyed

/-! # Objects

The own properties of an object have an order: the array indices come first, ascending, then the other
keys as they were added. `Valid` says of a value that its objects have different keys in that order, and
`meaning` forgets the order. -/

namespace OpenLander.Theory.JsonValue

/-- The array index that a key is: the decimal of a number below `2 ^ 32 - 1`. -/
def arrayIndex (key : JsString) : Option Nat :=
  let n := key.foldl (fun n u => 10 * n + (u.toNat - 48)) 0
  if key = units (Nat.toDigits 10 n) ∧ n < 4294967295 then some n else none

def isIndex (key : JsString) : Bool := (arrayIndex key).isSome

theorem arrayIndex_inj (h : arrayIndex k = some n) (h' : arrayIndex k' = some n) : k = k' := by
  have hdecimal : ∀ {k : JsString}, arrayIndex k = some n → k = units (Nat.toDigits 10 n) := by
    intro k h
    rw [arrayIndex] at h
    split at h
    next hk =>
      rw [← Option.some.inj h]
      exact hk.1
    next => exact nomatch h
  rw [hdecimal h, hdecimal h']

section
variable {α β : Type} (key : α → JsString)

def IndexLE (a b : α) : Prop := (arrayIndex (key a)).getD 0 ≤ (arrayIndex (key b)).getD 0

instance : DecidableRel (IndexLE key) := fun a b =>
  inferInstanceAs (Decidable ((arrayIndex (key a)).getD 0 ≤ (arrayIndex (key b)).getD 0))

instance : Std.Total (IndexLE key) := ⟨fun _ _ => Nat.le_total _ _⟩

instance : IsTrans α (IndexLE key) := ⟨fun _ _ _ => Nat.le_trans⟩

/-- `OrdinaryOwnPropertyKeys`, on a list in the order of insertion. -/
def propertyOrder (l : List α) : List α :=
  (l.filter fun a => isIndex (key a)).insertionSort (IndexLE key) ++
    l.filter fun a => !isIndex (key a)

/-- What stands before what in the order of the properties, where `R` orders the other keys. -/
def Precedes (R : α → α → Prop) (a b : α) : Prop :=
  if isIndex (key a) then isIndex (key b) = true → IndexLE key a b
  else isIndex (key b) = false ∧ R a b

end

section
variable {α β : Type} {key : α → JsString} {l : List α}

theorem propertyOrder_perm (key : α → JsString) (l : List α) : (propertyOrder key l).Perm l :=
  ((List.perm_insertionSort _ _).append_right _).trans (List.filter_append_perm _ l)

theorem mem_propertyOrder : a ∈ propertyOrder key l ↔ a ∈ l := (propertyOrder_perm key l).mem_iff

theorem map_propertyOrder {key' : β → JsString} (f : α → β) (hf : ∀ a, key' (f a) = key a) :
    (propertyOrder key l).map f = propertyOrder key' (l.map f) := by
  rw [propertyOrder, propertyOrder, List.map_append, List.filter_map, List.filter_map,
    List.map_insertionSort (IndexLE key) (IndexLE key') f _ fun a _ b _ => by
      rw [IndexLE, IndexLE, hf, hf]]
  simp only [Function.comp_def, hf]

theorem filter_isIndex_propertyOrder : (propertyOrder key l).filter (fun a => isIndex (key a)) =
    (l.filter fun a => isIndex (key a)).insertionSort (IndexLE key) := by
  have hindex : ∀ a ∈ (l.filter fun a => isIndex (key a)).insertionSort (IndexLE key),
      isIndex (key a) = true := fun a ha => (List.mem_filter.mp ((List.mem_insertionSort _).mp ha)).2
  have hnone : ∀ a ∈ l.filter fun a => !isIndex (key a), ¬isIndex (key a) = true := by
    intro a ha
    simpa using (List.mem_filter.mp ha).2
  rw [propertyOrder, List.filter_append, List.filter_eq_self.mpr hindex,
    List.filter_eq_nil_iff.mpr hnone, List.append_nil]

theorem filter_not_isIndex_propertyOrder :
    (propertyOrder key l).filter (fun a => !isIndex (key a)) = l.filter fun a => !isIndex (key a) := by
  have hindex : ∀ a ∈ (l.filter fun a => isIndex (key a)).insertionSort (IndexLE key),
      ¬(!isIndex (key a)) = true := by
    intro a ha
    rw [(List.mem_filter.mp ((List.mem_insertionSort _).mp ha)).2]
    exact nofun
  rw [propertyOrder, List.filter_append, List.filter_eq_nil_iff.mpr hindex, List.filter_filter,
    List.nil_append]
  simp only [Bool.and_self]

theorem propertyOrder_propertyOrder :
    propertyOrder key (propertyOrder key l) = propertyOrder key l := by
  rw [propertyOrder, filter_isIndex_propertyOrder, filter_not_isIndex_propertyOrder,
    (List.pairwise_insertionSort (IndexLE key) _).insertionSort_eq]
  rfl

/-- Keys that are no array indices stay in their order. -/
theorem pair_sublist_propertyOrder (ha : isIndex (key a) = false) (hb : isIndex (key b) = false)
    (h : List.Sublist [a, b] l) : List.Sublist [a, b] (propertyOrder key l) := by
  have hfilter := h.filter fun a => !isIndex (key a)
  rw [List.filter_eq_self.mpr (by simp [ha, hb])] at hfilter
  exact hfilter.trans (List.sublist_append_right _ _)

theorem pairwise_propertyOrder {R : α → α → Prop} (h : l.Pairwise R) :
    (propertyOrder key l).Pairwise (Precedes key R) := by
  refine List.pairwise_append.mpr ⟨?_, ?_, ?_⟩
  · refine ((List.pairwise_insertionSort (IndexLE key) _)).imp_of_mem fun ha _ hle => ?_
    rw [Precedes, if_pos (List.mem_filter.mp ((List.mem_insertionSort _).mp ha)).2]
    exact fun _ => hle
  · refine (h.sublist List.filter_sublist).imp_of_mem fun ha hb hR => ?_
    have ha := (List.mem_filter.mp ha).2
    have hb := (List.mem_filter.mp hb).2
    rw [Bool.not_eq_true'] at ha hb
    rw [Precedes, if_neg (by rw [ha]; exact Bool.false_ne_true)]
    exact ⟨hb, hR⟩
  · intro a ha b hb
    have hb := (List.mem_filter.mp hb).2
    rw [Bool.not_eq_true'] at hb
    rw [Precedes, if_pos (List.mem_filter.mp ((List.mem_insertionSort _).mp ha)).2, hb]
    exact nofun

theorem Precedes.antisymm {R : α → α → Prop} (h : Precedes key R a b) (h' : Precedes key R b a)
    (hR : isIndex (key a) = false → isIndex (key b) = false → R a b → R b a → key a = key b) :
    key a = key b := by
  unfold Precedes at h h'
  split at h
  next ha =>
    split at h'
    next hb =>
      obtain ⟨n, hn⟩ := Option.isSome_iff_exists.mp ha
      obtain ⟨m, hm⟩ := Option.isSome_iff_exists.mp hb
      have hle := h hb
      have hge := h' ha
      rw [IndexLE, hn, hm] at hle hge
      have hnm : n = m := le_antisymm hle hge
      exact arrayIndex_inj hn (hnm ▸ hm)
    next => cases ha.symm.trans h'.1
  next ha =>
    rw [if_neg (by rw [h.1]; exact Bool.false_ne_true)] at h'
    exact hR h'.1 h.1 h.2 h'.2

end

/-- `Object.fromEntries` -/
def ofEntries {α : Type} (entries : List (JsString × α)) : List (JsString × α) :=
  propertyOrder Prod.fst (putAll Prod.fst [] entries)

theorem ofEntries_of_nodup {α : Type} {entries : List (JsString × α)}
    (h : (entries.map Prod.fst).Nodup) : ofEntries entries = propertyOrder Prod.fst entries := by
  rw [ofEntries, putAll_nil h]

/-- The objects in the value have different keys, in the order of the properties. -/
inductive Value.Valid : Value → Prop
  | null : Valid .null
  | bool : Valid (.bool b)
  | number : Valid (.number x)
  | string : Valid (.string text)
  | array (elements : ∀ e ∈ es, Valid e) : Valid (.array es)
  | object (nodup : (ms.map Prod.fst).Nodup) (ordered : propertyOrder Prod.fst ms = ms)
      (members : ∀ m ∈ ms, Valid m.2) : Valid (.object ms)

/-- What a value says: the members of an object have no order in it. -/
inductive Meaning
  | null
  | bool (value : Bool)
  | number (value : Number)
  | string (text : JsString)
  | array (elements : List Meaning)
  | object (member : JsString → Option Meaning)

mutual

def Value.meaning : Value → Meaning
  | .null => .null
  | .bool b => .bool b
  | .number x => .number x
  | .string text => .string text
  | .array es => .array (elementMeanings es)
  | .object ms => .object (fromEntries (memberMeanings ms))

def elementMeanings : List Value → List Meaning
  | [] => []
  | e :: es => e.meaning :: elementMeanings es

def memberMeanings : List (JsString × Value) → List (JsString × Meaning)
  | [] => []
  | (k, e) :: ms => (k, e.meaning) :: memberMeanings ms

end

theorem elementMeanings_eq (es : List Value) : elementMeanings es = es.map (·.meaning) := by
  induction es with
  | nil => rfl
  | cons e es ih => rw [elementMeanings, ih, List.map_cons]

theorem memberMeanings_eq (ms : List (JsString × Value)) :
    memberMeanings ms = ms.map (Prod.map id (·.meaning)) := by
  induction ms with
  | nil => rfl
  | cons m ms ih =>
    rw [memberMeanings, ih, List.map_cons]
    rfl

end OpenLander.Theory.JsonValue
