import OpenLander.Theory.JsonObject

/-! # Fingerprints of operation inputs

`canonicalize` and `requestSha256` (`src/operations/registry.ts`) on JSON values. `localeCompare` is the
comparison of the keys; it is total and transitive, and it may find two different keys equal. -/

namespace OpenLander.Operations
open Theory Theory.JsonValue

section
variable (localeCompare : JsString → JsString → Ordering)

def KeyLE (l r : JsString) : Prop := (localeCompare l r).isLE = true

instance : DecidableRel (KeyLE localeCompare) := fun l r =>
  inferInstanceAs (Decidable ((localeCompare l r).isLE = true))

/-- The stable sort of the entries. -/
def sortEntries {α : Type} (entries : List (JsString × α)) : List (JsString × α) :=
  entries.insertionSort fun l r => KeyLE localeCompare l.1 r.1

/-- The order of the members of a canonical object. -/
def arranged {α : Type} (entries : List (JsString × α)) : List (JsString × α) :=
  propertyOrder Prod.fst (sortEntries localeCompare entries)

mutual

def canonicalize : Value → Value
  | .array es => .array (canonicalizeElements es)
  | .object ms => .object (ofEntries (sortEntries localeCompare (canonicalizeMembers ms)))
  | .null => .null
  | .bool b => .bool b
  | .number x => .number x
  | .string text => .string text

def canonicalizeElements : List Value → List Value
  | [] => []
  | e :: es => canonicalize e :: canonicalizeElements es

def canonicalizeMembers : List (JsString × Value) → List (JsString × Value)
  | [] => []
  | (k, e) :: ms => (k, canonicalize e) :: canonicalizeMembers ms

end

/-- No two different keys are equal for the comparison; the order of the array indices is their own. -/
def keysSeparated (keys : List JsString) : Bool :=
  keys.all fun k => keys.all fun k' =>
    isIndex k || isIndex k' || localeCompare k k' != .eq || k == k'

mutual

/-- The keys of every object in the value are separated. -/
def separated : Value → Bool
  | .array es => elementsSeparated es
  | .object ms => keysSeparated localeCompare (ms.map Prod.fst) && membersSeparated ms
  | .null | .bool _ | .number _ | .string _ => true

def elementsSeparated : List Value → Bool
  | [] => true
  | e :: es => separated e && elementsSeparated es

def membersSeparated : List (JsString × Value) → Bool
  | [] => true
  | (_, e) :: ms => separated e && membersSeparated ms

end

end

/-- A JSON value in memory. -/
structure JsonValue where
  value : Value
  valid : value.Valid

/-- The values are equal up to the order of the keys. -/
def SameData (a b : JsonValue) : Prop := a.value.meaning = b.value.meaning

section
variable (localeCompare : JsString → JsString → Ordering)

/-- The text that is hashed. -/
def requestText (input : JsonValue) : JsString := (canonicalize localeCompare input.value).stringify

def requestSha256 {Digest : Type} (sha256 : JsString → Digest) (input : JsonValue) : Digest :=
  sha256 (requestText localeCompare input)

/-- The value shares its text with those that say the same and with no other, and so its hash, if the
hash function is injective. -/
def Exact (a : JsonValue) : Prop :=
  ∀ b, (requestText localeCompare a = requestText localeCompare b ↔ SameData a b) ∧
    ∀ (Digest : Type) (sha256 : JsString → Digest), Function.Injective sha256 →
      (requestSha256 localeCompare sha256 a = requestSha256 localeCompare sha256 b ↔ SameData a b)

end

section
variable {localeCompare : JsString → JsString → Ordering}

theorem canonicalizeElements_eq (es : List Value) :
    canonicalizeElements localeCompare es = es.map (canonicalize localeCompare) := by
  induction es with
  | nil => rfl
  | cons e es ih => rw [canonicalizeElements, ih, List.map_cons]

theorem canonicalizeMembers_eq (ms : List (JsString × Value)) :
    canonicalizeMembers localeCompare ms = ms.map (Prod.map id (canonicalize localeCompare)) := by
  induction ms with
  | nil => rfl
  | cons m ms ih =>
    rw [canonicalizeMembers, ih, List.map_cons]
    rfl

/-! ## Sorting -/

theorem sortEntries_perm {α : Type} (ms : List (JsString × α)) :
    (sortEntries localeCompare ms).Perm ms := List.perm_insertionSort _ ms

theorem map_sortEntries {α β : Type} (f : α → β) (ms : List (JsString × α)) :
    (sortEntries localeCompare ms).map (Prod.map id f) =
      sortEntries localeCompare (ms.map (Prod.map id f)) :=
  List.map_insertionSort _ _ _ _ fun _ _ _ _ => Iff.rfl

/-- The entries are sorted before their values are canonicalized. -/
theorem canonicalize_object (ms : List (JsString × Value)) : canonicalize localeCompare (.object ms) =
    .object (ofEntries ((sortEntries localeCompare ms).map
      (Prod.map id (canonicalize localeCompare)))) := by
  rw [canonicalize, canonicalizeMembers_eq, map_sortEntries]

theorem keys_map {α β : Type} (f : α → β) (ms : List (JsString × α)) :
    (ms.map (Prod.map id f)).map Prod.fst = ms.map Prod.fst := by
  rw [List.map_map]
  rfl

theorem arranged_perm {α : Type} (ms : List (JsString × α)) : (arranged localeCompare ms).Perm ms :=
  (propertyOrder_perm _ _).trans (sortEntries_perm ms)

theorem nodup_arranged {α β : Type} {ms : List (JsString × α)} (f : α → β)
    (hd : (ms.map Prod.fst).Nodup) :
    ((arranged localeCompare (ms.map (Prod.map id f))).map Prod.fst).Nodup := by
  rw [((arranged_perm _).map _).nodup_iff, keys_map]
  exact hd

/-- The members of a canonical object. -/
theorem canonicalize_of_nodup (hd : (ms.map Prod.fst).Nodup) : canonicalize localeCompare (.object ms) =
    .object (arranged localeCompare (ms.map (Prod.map id (canonicalize localeCompare)))) := by
  rw [canonicalize, canonicalizeMembers_eq, ofEntries_of_nodup]
  · rfl
  · rw [((sortEntries_perm _).map _).nodup_iff, keys_map]
    exact hd

theorem mem_map_members (f : Value → Value) (ms : List (JsString × Value)) :
    (k, v) ∈ ms.map (Prod.map id f) ↔ ∃ e, (k, e) ∈ ms ∧ f e = v := by
  rw [List.mem_map]
  constructor
  · rintro ⟨⟨k', e⟩, he, heq⟩
    obtain ⟨rfl, rfl⟩ := Prod.mk.inj heq
    exact ⟨e, he, rfl⟩
  · rintro ⟨e, he, rfl⟩
    exact ⟨(k, e), he, rfl⟩

/-! ## Canonical values say the same -/

theorem canonicalize_valid (h : v.Valid) : (canonicalize localeCompare v).Valid := by
  induction h with
  | null => exact .null
  | bool => exact .bool
  | number => exact .number
  | string => exact .string
  | array _ ih =>
    rw [canonicalize, canonicalizeElements_eq]
    exact .array (List.forall_mem_map.mpr ih)
  | object hd _ _ ih =>
    rw [canonicalize_of_nodup hd]
    refine .object (nodup_arranged _ hd) propertyOrder_propertyOrder ?_
    rintro ⟨k, v⟩ hm
    obtain ⟨e, he, rfl⟩ := (mem_map_members _ _).mp ((arranged_perm _).mem_iff.mp hm)
    exact ih (k, e) he

theorem meaning_object_perm {ms ms' : List (JsString × Value)} (hd : (ms.map Prod.fst).Nodup)
    (h : ms.Perm ms') : (Value.object ms).meaning = (Value.object ms').meaning := by
  rw [Value.meaning, Value.meaning, memberMeanings_eq, memberMeanings_eq,
    fromEntries_perm (by rw [keys_map]; exact hd) (h.map _)]

theorem meaning_object_map (f : Value → Value) (hf : ∀ m ∈ ms, (f m.2).meaning = m.2.meaning) :
    (Value.object (ms.map (Prod.map id f))).meaning = (Value.object ms).meaning := by
  rw [Value.meaning, Value.meaning, memberMeanings_eq, memberMeanings_eq, List.map_map]
  congr 2
  refine List.map_congr_left fun m hm => ?_
  exact Prod.ext rfl (hf m hm)

theorem meaning_canonicalize (h : v.Valid) :
    (canonicalize localeCompare v).meaning = v.meaning := by
  induction h with
  | null => rfl
  | bool => rfl
  | number => rfl
  | string => rfl
  | array _ ih =>
    rw [canonicalize, Value.meaning, Value.meaning, canonicalizeElements_eq, elementMeanings_eq,
      elementMeanings_eq, List.map_map]
    exact congrArg _ (List.map_congr_left ih)
  | object hd _ _ ih =>
    rw [canonicalize_of_nodup hd, ← meaning_object_map _ ih]
    exact meaning_object_perm (nodup_arranged _ hd) (arranged_perm _)

/-! ## One text for one meaning -/

theorem separated_array : separated localeCompare (.array es) = true ↔
    ∀ e ∈ es, separated localeCompare e = true := by
  rw [separated]
  induction es with
  | nil => simp [elementsSeparated]
  | cons e es ih => rw [elementsSeparated, Bool.and_eq_true, ih, List.forall_mem_cons]

theorem membersSeparated_iff : membersSeparated localeCompare ms = true ↔
    ∀ m ∈ ms, separated localeCompare m.2 = true := by
  induction ms with
  | nil => simp [membersSeparated]
  | cons m ms ih => rw [membersSeparated, Bool.and_eq_true, ih, List.forall_mem_cons]

theorem keysSeparated_iff {ks : List JsString} : keysSeparated localeCompare ks = true ↔
    ∀ k ∈ ks, ∀ k' ∈ ks, isIndex k = false → isIndex k' = false →
      localeCompare k k' = .eq → k = k' := by
  simp only [keysSeparated, List.all_eq_true, Bool.or_eq_true, bne_iff_ne, ne_eq, beq_iff_eq]
  refine forall₂_congr fun k _ => forall₂_congr fun k' _ => ?_
  cases isIndex k <;> cases isIndex k' <;> simp [imp_iff_not_or]

theorem separated_object : separated localeCompare (.object ms) = true ↔
    keysSeparated localeCompare (ms.map Prod.fst) = true ∧
      ∀ m ∈ ms, separated localeCompare m.2 = true := by
  rw [separated, Bool.and_eq_true, membersSeparated_iff]

/-- Objects that say the same have the same keys, with members that say the same. -/
theorem exists_of_meaning_object (hd : (ms.map Prod.fst).Nodup)
    (h : (Value.object ms).meaning = (Value.object ms').meaning) (hm : (k, v) ∈ ms) :
    ∃ v', (k, v') ∈ ms' ∧ v.meaning = v'.meaning := by
  rw [Value.meaning, Value.meaning, memberMeanings_eq, memberMeanings_eq] at h
  have hfun := congrFun (Meaning.object.inj h) k
  rw [fromEntries_of_nodup (v := v.meaning) (by rw [keys_map]; exact hd)
    (List.mem_map.mpr ⟨(k, v), hm, rfl⟩)] at hfun
  obtain ⟨⟨k', v'⟩, hm', heq⟩ := List.mem_map.mp (mem_of_fromEntries hfun.symm)
  obtain ⟨rfl, hv⟩ := Prod.mk.inj heq
  exact ⟨v', hm', hv.symm⟩

instance [Std.TransCmp localeCompare] {α : Type} :
    IsTrans (JsString × α) fun l r => KeyLE localeCompare l.1 r.1 :=
  ⟨fun _ _ _ => Std.TransCmp.isLE_trans⟩

instance [Std.OrientedCmp localeCompare] {α : Type} :
    Std.Total fun l r : JsString × α => KeyLE localeCompare l.1 r.1 :=
  ⟨fun l r => by
    unfold KeyLE
    rw [@Std.OrientedCmp.eq_swap _ localeCompare _ r.1]
    cases localeCompare l.1 r.1 <;> simp⟩

section
variable [Std.TransCmp localeCompare]

theorem pairwise_arranged {α : Type} (ms : List (JsString × α)) :
    (arranged localeCompare ms).Pairwise
      (Precedes Prod.fst fun l r => KeyLE localeCompare l.1 r.1) :=
  pairwise_propertyOrder (List.pairwise_insertionSort _ ms)

theorem eq_of_keyLE (h : KeyLE localeCompare k k') (h' : KeyLE localeCompare k' k) :
    localeCompare k k' = .eq := by
  unfold KeyLE at h h'
  rw [@Std.OrientedCmp.eq_swap _ localeCompare] at h'
  cases hk : localeCompare k k' <;> simp_all

/-- Lists of members in this order have one arrangement if their keys are separated. -/
theorem arranged_eq {α : Type} {ms ms' : List (JsString × α)} (hd : (ms.map Prod.fst).Nodup)
    (hs : keysSeparated localeCompare (ms.map Prod.fst) = true) (h : ms.Perm ms') :
    arranged localeCompare ms = arranged localeCompare ms' := by
  refine List.Perm.eq_of_pairwise ?_ (pairwise_arranged ms) (pairwise_arranged ms')
    ((arranged_perm ms).trans (h.trans (arranged_perm ms').symm))
  intro a b ha hb hab hba
  have ha := (arranged_perm ms).mem_iff.mp ha
  have hb := h.mem_iff.mpr ((arranged_perm ms').mem_iff.mp hb)
  refine List.inj_on_of_nodup_map hd ha hb (hab.antisymm hba fun hka hkb hle hge => ?_)
  exact keysSeparated_iff.mp hs _ (List.mem_map_of_mem ha) _ (List.mem_map_of_mem hb) hka hkb
    (eq_of_keyLE hle hge)

/-- By induction on the first value. -/
theorem canonicalize_eq_of_meaning (hv : v.Valid) (hv' : v'.Valid)
    (hs : separated localeCompare v = true) (h : v.meaning = v'.meaning) :
    canonicalize localeCompare v = canonicalize localeCompare v' := by
  induction hv generalizing v' with
  | null =>
    cases hv' with
    | null => rfl
    | _ => exact nomatch h
  | bool =>
    cases hv' with
    | bool => rw [Meaning.bool.inj h]
    | _ => exact nomatch h
  | number =>
    cases hv' with
    | number => rw [Meaning.number.inj h]
    | _ => exact nomatch h
  | string =>
    cases hv' with
    | string => rw [Meaning.string.inj h]
    | _ => exact nomatch h
  | array _ ih =>
    cases hv' with
    | array hes' =>
      rw [canonicalize, canonicalize, canonicalizeElements_eq, canonicalizeElements_eq]
      have hmap := Meaning.array.inj h
      rw [elementMeanings_eq, elementMeanings_eq] at hmap
      exact congrArg Value.array (map_eq_map_of (fun e he e' he' heq =>
        ih e he (hes' e' he') (separated_array.mp hs e he) heq) hmap)
    | _ => exact nomatch h
  | @object ms hd _ _ ih =>
    cases hv' with
    | @object ms' hd' _ hms' =>
      obtain ⟨hkeys, hmembers⟩ := separated_object.mp hs
      rw [canonicalize_of_nodup hd, canonicalize_of_nodup hd']
      have hperm : (ms.map (Prod.map id (canonicalize localeCompare))).Perm
          (ms'.map (Prod.map id (canonicalize localeCompare))) := by
        refine (List.perm_ext_iff_of_nodup (.of_map Prod.fst (by rw [keys_map]; exact hd))
          (.of_map Prod.fst (by rw [keys_map]; exact hd'))).mpr ?_
        rintro ⟨k, w⟩
        rw [mem_map_members, mem_map_members]
        constructor
        · rintro ⟨e, he, rfl⟩
          obtain ⟨e', he', heq⟩ := exists_of_meaning_object hd h he
          exact ⟨e', he', (ih (k, e) he (hms' _ he') (hmembers _ he) heq).symm⟩
        · rintro ⟨e', he', rfl⟩
          obtain ⟨e, he, heq⟩ := exists_of_meaning_object hd' h.symm he'
          exact ⟨e, he, ih (k, e) he (hms' _ he') (hmembers _ he) heq.symm⟩
      exact congrArg Value.object (arranged_eq (by rw [keys_map]; exact hd)
        (by rw [keys_map]; exact hkeys) hperm)
    | _ => exact nomatch h

end

/-! ## Members in the other order -/

mutual

/-- The same value with its members added the other way round. -/
def flip : Value → Value
  | .array es => .array (flipElements es)
  | .object ms => .object (propertyOrder Prod.fst (flipMembers ms).reverse)
  | .null => .null
  | .bool b => .bool b
  | .number x => .number x
  | .string text => .string text

def flipElements : List Value → List Value
  | [] => []
  | e :: es => flip e :: flipElements es

def flipMembers : List (JsString × Value) → List (JsString × Value)
  | [] => []
  | (k, e) :: ms => (k, flip e) :: flipMembers ms

end

theorem flipElements_eq (es : List Value) : flipElements es = es.map flip := by
  induction es with
  | nil => rfl
  | cons e es ih => rw [flipElements, ih, List.map_cons]

theorem flipMembers_eq (ms : List (JsString × Value)) :
    flipMembers ms = ms.map (Prod.map id flip) := by
  induction ms with
  | nil => rfl
  | cons m ms ih =>
    rw [flipMembers, ih, List.map_cons]
    rfl

theorem flip_object (ms : List (JsString × Value)) : flip (.object ms) =
    .object (propertyOrder Prod.fst (ms.reverse.map (Prod.map id flip))) := by
  rw [flip, flipMembers_eq, List.map_reverse]

theorem flipped_perm (ms : List (JsString × Value)) :
    (propertyOrder Prod.fst (ms.reverse.map (Prod.map id flip))).Perm
      (ms.map (Prod.map id flip)) :=
  (propertyOrder_perm _ _).trans ((List.reverse_perm ms).map _)

theorem nodup_flipped {ms : List (JsString × Value)} (hd : (ms.map Prod.fst).Nodup) :
    ((propertyOrder Prod.fst (ms.reverse.map (Prod.map id flip))).map Prod.fst).Nodup := by
  rw [((flipped_perm ms).map _).nodup_iff, keys_map]
  exact hd

theorem flip_valid (h : v.Valid) : (flip v).Valid := by
  induction h with
  | null => exact .null
  | bool => exact .bool
  | number => exact .number
  | string => exact .string
  | array _ ih =>
    rw [flip, flipElements_eq]
    exact .array (List.forall_mem_map.mpr ih)
  | object hd _ _ ih =>
    rw [flip_object]
    refine .object (nodup_flipped hd) propertyOrder_propertyOrder ?_
    rintro ⟨k, v⟩ hm
    obtain ⟨e, he, rfl⟩ := (mem_map_members _ _).mp ((flipped_perm _).mem_iff.mp hm)
    exact ih (k, e) he

theorem meaning_flip (h : v.Valid) : (flip v).meaning = v.meaning := by
  induction h with
  | null => rfl
  | bool => rfl
  | number => rfl
  | string => rfl
  | array _ ih =>
    rw [flip, Value.meaning, Value.meaning, flipElements_eq, elementMeanings_eq,
      elementMeanings_eq, List.map_map]
    exact congrArg _ (List.map_congr_left ih)
  | object hd _ _ ih =>
    rw [flip_object, ← meaning_object_map _ ih]
    exact meaning_object_perm (nodup_flipped hd) (flipped_perm _)

theorem pair_sublist_or {α : Type} {a b : α} {l : List α} (ha : a ∈ l) (hb : b ∈ l) (hab : a ≠ b) :
    List.Sublist [a, b] l ∨ List.Sublist [b, a] l := by
  induction l with
  | nil => exact nomatch ha
  | cons c l ih =>
    cases ha with
    | head =>
      cases hb with
      | head => exact absurd rfl hab
      | tail _ hb => exact .inl (.cons_cons _ (List.singleton_sublist.mpr hb))
    | tail _ ha =>
      cases hb with
      | head => exact .inr (.cons_cons _ (List.singleton_sublist.mpr ha))
      | tail _ hb => exact (ih ha hb).imp (.cons _) (.cons _)

theorem not_pair_sublist {α : Type} {a b : α} {l : List α} (hd : l.Nodup)
    (hab : List.Sublist [a, b] l) : ¬List.Sublist [b, a] l := by
  intro hba
  induction l with
  | nil => exact nomatch hab
  | cons c l ih =>
    obtain ⟨hc, hd⟩ := List.nodup_cons.mp hd
    cases hab with
    | cons _ hab =>
      cases hba with
      | cons _ hba => exact ih hd hab hba
      | cons_cons _ _ => exact hc (hab.subset (.tail _ (.head _)))
    | cons_cons _ hb =>
      cases hba with
      | cons _ hba => exact hc (hba.subset (.tail _ (.head _)))
      | cons_cons _ _ => exact hc (hb.subset (.head _))

theorem pair_sublist_arranged {α : Type} {m m' : JsString × α} {ms : List (JsString × α)}
    (hm : isIndex m.1 = false) (hm' : isIndex m'.1 = false)
    (hle : KeyLE localeCompare m.1 m'.1) (h : List.Sublist [m, m'] ms) :
    List.Sublist [m, m'] (arranged localeCompare ms) :=
  pair_sublist_propertyOrder hm hm' (List.pair_sublist_insertionSort hle h)

section
variable [Std.TransCmp localeCompare]

/-- Of two keys that are equal for the comparison the first one stays the first. -/
theorem canonical_flip_ne {m m' : JsString × Value} (hd : (ms.map Prod.fst).Nodup)
    (hm : isIndex m.1 = false) (hm' : isIndex m'.1 = false)
    (heq : localeCompare m.1 m'.1 = .eq) (h : List.Sublist [m, m'] ms) :
    canonicalize localeCompare (flip (.object ms)) ≠ canonicalize localeCompare (.object ms) := by
  intro hcanonical
  rw [flip_object, canonicalize_of_nodup hd, canonicalize_of_nodup (nodup_flipped hd)] at hcanonical
  have hle : KeyLE localeCompare m.1 m'.1 := by rw [KeyLE, heq]; rfl
  have hge : KeyLE localeCompare m'.1 m.1 := by
    rw [KeyLE, @Std.OrientedCmp.eq_swap _ localeCompare, heq]
    rfl
  let c := Prod.map (id : JsString → JsString) (canonicalize localeCompare)
  let f := Prod.map (id : JsString → JsString) flip
  have hmap : List.Sublist [c m, c m'] (ms.map c) := h.map c
  have hfirst : List.Sublist [m.1, m'.1] ((arranged localeCompare (ms.map c)).map Prod.fst) :=
    (@pair_sublist_arranged _ _ (c m) (c m') _ hm hm' hle hmap).map Prod.fst
  have hreverse : List.Sublist [f m', f m] (ms.reverse.map f) := h.reverse.map f
  have hflip : List.Sublist [f m', f m] (propertyOrder Prod.fst (ms.reverse.map f)) :=
    pair_sublist_propertyOrder hm' hm hreverse
  have hmap' : List.Sublist [c (f m'), c (f m)] _ := hflip.map c
  have hsecond : List.Sublist [m'.1, m.1] ((arranged localeCompare
      ((propertyOrder Prod.fst (ms.reverse.map f)).map c)).map Prod.fst) :=
    (@pair_sublist_arranged _ _ (c (f m')) (c (f m)) _ hm' hm hge hmap').map Prod.fst
  rw [Value.object.inj hcanonical] at hsecond
  exact not_pair_sublist (nodup_arranged _ hd) hfirst hsecond

/-- By induction on the value: where flipping it leaves the canonical value as it is, no object has two
keys that are equal for the comparison. -/
theorem separated_of_canonicalize_flip (hv : v.Valid)
    (h : canonicalize localeCompare (flip v) = canonicalize localeCompare v) :
    separated localeCompare v = true := by
  induction hv with
  | null => rfl
  | bool => rfl
  | number => rfl
  | string => rfl
  | array _ ih =>
    rw [flip, canonicalize, canonicalize, flipElements_eq, canonicalizeElements_eq,
      canonicalizeElements_eq, List.map_map] at h
    exact separated_array.mpr fun e he => ih e he (List.map_inj_left.mp (Value.array.inj h) e he)
  | @object ms hd _ _ ih =>
    refine separated_object.mpr ⟨keysSeparated_iff.mpr fun k hk k' hk' hik hik' heq => ?_, ?_⟩
    · obtain ⟨m, hm, rfl⟩ := List.mem_map.mp hk
      obtain ⟨m', hm', rfl⟩ := List.mem_map.mp hk'
      by_contra hne
      obtain hpair | hpair := pair_sublist_or hm hm' fun h => hne (congrArg Prod.fst h)
      · exact canonical_flip_ne hd hik hik' heq hpair h
      · refine canonical_flip_ne hd hik' hik ?_ hpair h
        rw [@Std.OrientedCmp.eq_swap _ localeCompare, heq]
        rfl
    · rintro ⟨k, v⟩ hm
      refine ih (k, v) hm ?_
      rw [flip_object, canonicalize_of_nodup hd, canonicalize_of_nodup (nodup_flipped hd)] at h
      have hmem : (k, canonicalize localeCompare v) ∈
          arranged localeCompare (ms.map (Prod.map id (canonicalize localeCompare))) :=
        (arranged_perm _).mem_iff.mpr ((mem_map_members _ _).mpr ⟨v, hm, rfl⟩)
      have hmem' : (k, canonicalize localeCompare (flip v)) ∈
          arranged localeCompare (ms.map (Prod.map id (canonicalize localeCompare))) := by
        rw [← Value.object.inj h, (arranged_perm _).mem_iff]
        refine (mem_map_members _ _).mpr ⟨flip v, (flipped_perm ms).mem_iff.mpr ?_, rfl⟩
        exact (mem_map_members _ _).mpr ⟨v, hm, rfl⟩
      exact congrArg Prod.snd (List.inj_on_of_nodup_map (nodup_arranged _ hd) hmem' hmem rfl)

end

/-! ## Fingerprints -/

/-- Different inputs have different texts. -/
theorem sameData_of_requestText_eq {a b : JsonValue}
    (h : requestText localeCompare a = requestText localeCompare b) : SameData a b := by
  have hcanonical := Value.stringify_injective h
  calc
    a.value.meaning = (canonicalize localeCompare a.value).meaning := (meaning_canonicalize a.valid).symm
    _ = (canonicalize localeCompare b.value).meaning := by rw [hcanonical]
    _ = b.value.meaning := meaning_canonicalize b.valid

theorem requestText_eq_of_separated [Std.TransCmp localeCompare] {a b : JsonValue}
    (hs : separated localeCompare a.value = true) (h : SameData a b) :
    requestText localeCompare a = requestText localeCompare b := by
  rw [requestText, requestText, canonicalize_eq_of_meaning a.valid b.valid hs h]

end

/-- The fingerprint of a value is exact if no two keys of an object in it are equal for the comparison,
and only then. -/
theorem exact_iff_separated (localeCompare : JsString → JsString → Ordering) [Std.TransCmp localeCompare]
    (a : JsonValue) : Exact localeCompare a ↔ separated localeCompare a.value = true := by
  constructor
  · intro h
    obtain ⟨htext, -⟩ := h ⟨flip a.value, flip_valid a.valid⟩
    have hcanonical := Value.stringify_injective (htext.mpr (meaning_flip a.valid).symm)
    exact separated_of_canonicalize_flip a.valid hcanonical.symm
  · intro hs b
    have htext : requestText localeCompare a = requestText localeCompare b ↔ SameData a b :=
      ⟨sameData_of_requestText_eq, requestText_eq_of_separated hs⟩
    exact ⟨htext, fun _ _ hinjective => hinjective.eq_iff.trans htext⟩

/-- What the comparison sees of a key: an accented letter and its decomposition are the same. -/
def decomposed (key : JsString) : List Nat :=
  key.flatMap fun u => if u = 0xE9 then [0x65, 0x301] else [u.toNat]

def sampleCompare : JsString → JsString → Ordering := compareOn decomposed

instance : Std.TransCmp sampleCompare := inferInstanceAs (Std.TransCmp (compareOn decomposed))

def one : Number := .decimal ⟨false, 1, 0, by decide⟩

/-- `{"10": true, "b": [1, null], "a": "x"}` -/
def sampleInput : JsonValue where
  value := .object [(units ['1', '0'], .bool true), (units ['b'], .array [.number one, .null]),
    (units ['a'], .string (units ['x']))]
  valid := by
    refine .object (by decide) rfl ?_
    simp only [List.forall_mem_cons]
    exact ⟨.bool, .array (by simpa using ⟨.number, .null⟩), .string, nofun⟩

theorem exact_keyOrder : Exact sampleCompare sampleInput :=
  (exact_iff_separated sampleCompare sampleInput).mpr (by decide)

/-- An accented letter and its decomposition as two keys. -/
def accentedMembers : List (JsString × Value) := [([0xE9], .number one), ([0x65, 0x301], .null)]

def accented : JsonValue where
  value := .object accentedMembers
  valid := .object (by decide) rfl (by simpa [accentedMembers] using ⟨.number, .null⟩)

def accentedReversed : JsonValue where
  value := .object accentedMembers.reverse
  valid := .object (by decide) rfl (by simpa [accentedMembers] using ⟨.null, .number⟩)

theorem not_forall_exact : ¬∀ a, Exact sampleCompare a := by
  intro h
  have hsame : SameData accented accentedReversed :=
    meaning_object_perm (by decide) (List.reverse_perm _).symm
  have htext := ((h accented) accentedReversed).1.mpr hsame
  exact absurd htext (by decide)

end OpenLander.Operations
