import Mathlib.Data.List.Nodup

/-! # Lists with keys

A list of elements that have keys. `put` sets an element in the place of those with its key, or appends
it where there is none, and `putAll` sets several one after the other. If their keys differ, what is in
place is replaced and what is missing is appended in order (`putAll_eq`). So elements with other keys
stay as they are, and of two rounds with the same keys only the last one counts. -/

namespace OpenLander.Theory

section
variable {α κ : Type} [DecidableEq κ] (keyOf : α → κ)

def put (l : List α) (a : α) : List α :=
  if l.any (keyOf · = keyOf a) then l.map fun x => if keyOf x = keyOf a then a else x
  else l ++ [a]

def putAll (l as : List α) : List α := as.foldl (put keyOf) l

/-- The last element with the key of `x`, or `x` itself. -/
def replacement (as : List α) (x : α) : α := (as.find? (keyOf · = keyOf x)).getD x

/-- The elements whose keys do not occur yet. -/
def missing (l as : List α) : List α := as.filter fun a => !l.any (keyOf · = keyOf a)

end

section
variable {α κ : Type} [DecidableEq κ] {keyOf : α → κ} {l as bs : List α} {a x : α}

theorem any_key : l.any (keyOf · = k) = true ↔ k ∈ l.map keyOf := by
  simp only [List.any_eq_true, decide_eq_true_eq, List.mem_map]

theorem keyOf_replacement (as : List α) (x : α) :
    keyOf (replacement keyOf as x) = keyOf x := by
  rw [replacement]
  cases h : as.find? (keyOf · = keyOf x) with
  | none => rfl
  | some a =>
    have hkey := List.find?_some h
    exact of_decide_eq_true hkey

theorem replacement_of_not_mem (h : keyOf x ∉ as.map keyOf) : replacement keyOf as x = x := by
  have hnone : as.find? (keyOf · = keyOf x) = none := by
    rw [List.find?_eq_none]
    exact fun a ha hkey => h (of_decide_eq_true hkey ▸ List.mem_map_of_mem ha)
  rw [replacement, hnone]
  rfl

theorem replacement_mem (h : keyOf x ∈ as.map keyOf) : replacement keyOf as x ∈ as := by
  obtain ⟨a, ha, hkey⟩ := List.mem_map.mp h
  obtain ⟨b, hb⟩ := Option.isSome_iff_exists.mp
    (List.find?_isSome.mpr ⟨a, ha, decide_eq_true hkey⟩ : (as.find? (keyOf · = keyOf x)).isSome)
  rw [replacement, hb]
  exact List.mem_of_find?_eq_some hb

theorem replacement_of_mem (hnodup : (as.map keyOf).Nodup) (ha : a ∈ as)
    (h : keyOf x = keyOf a) : replacement keyOf as x = a := by
  refine List.inj_on_of_nodup_map hnodup (replacement_mem ?_) ha ((keyOf_replacement as x).trans h)
  exact h ▸ List.mem_map_of_mem ha

/-! ## One element -/

theorem map_keyOf_put (l : List α) (a : α) : (put keyOf l a).map keyOf =
    if keyOf a ∈ l.map keyOf then l.map keyOf else l.map keyOf ++ [keyOf a] := by
  rw [put]
  by_cases h : l.any (keyOf · = keyOf a) = true
  · rw [if_pos h, if_pos (any_key.mp h), List.map_map]
    refine List.map_congr_left fun x _ => ?_
    rw [Function.comp_apply]
    split
    next hx => exact hx.symm
    next => rfl
  · rw [if_neg h, if_neg (mt any_key.mpr h), List.map_append]
    rfl

theorem mem_map_put : k ∈ (put keyOf l a).map keyOf ↔ k ∈ l.map keyOf ∨ k = keyOf a := by
  rw [map_keyOf_put]
  split
  next h => exact (or_iff_left_of_imp fun hk => hk ▸ h).symm
  next => rw [List.mem_append, List.mem_singleton]

theorem mem_put : x ∈ put keyOf l a ↔ x ∈ l ∧ keyOf x ≠ keyOf a ∨ x = a := by
  rw [put]
  split
  next h =>
    rw [List.mem_map]
    constructor
    · rintro ⟨y, hy, rfl⟩
      split
      next => exact .inr rfl
      next hkey => exact .inl ⟨hy, hkey⟩
    · rintro (⟨hx, hkey⟩ | rfl)
      · exact ⟨x, hx, if_neg hkey⟩
      · obtain ⟨y, hy, hkey⟩ := List.mem_map.mp (any_key.mp h)
        exact ⟨y, hy, if_pos hkey⟩
  next h =>
    have hne (hx : x ∈ l) : keyOf x ≠ keyOf a := fun hkey =>
      h (any_key.mpr (hkey ▸ List.mem_map_of_mem hx))
    rw [List.mem_append, List.mem_singleton]
    exact or_congr (and_iff_left_of_imp hne).symm Iff.rfl

theorem nodup_put (h : (l.map keyOf).Nodup) : ((put keyOf l a).map keyOf).Nodup := by
  rw [map_keyOf_put]
  split
  next => exact h
  next hmem => exact List.concat_eq_append ▸ h.concat hmem

/-- What is found with a key after an element was put: the element, if it has the key. -/
theorem find?_put (k : κ) : (put keyOf l a).find? (keyOf · = k) =
    if keyOf a = k then some a else l.find? (keyOf · = k) := by
  rw [put]
  by_cases hk : keyOf a = k
  · rw [if_pos hk]
    by_cases hany : l.any (keyOf · = keyOf a) = true
    · rw [if_pos hany]
      induction l with
      | nil => cases hany
      | cons y l ih =>
        rw [List.map_cons, List.find?_cons]
        by_cases hy : keyOf y = keyOf a
        · rw [if_pos hy, decide_eq_true hk]
        · rw [if_neg hy, decide_eq_false (hk ▸ hy)]
          refine ih ?_
          rwa [List.any_cons, decide_eq_false hy, Bool.false_or] at hany
    · have hnone : l.find? (keyOf · = k) = none := by
        rw [List.find?_eq_none]
        exact fun y hy hkey => hany (List.any_eq_true.mpr ⟨y, hy, hk ▸ hkey⟩)
      rw [if_neg hany, List.find?_append, hnone, Option.none_or, List.find?_singleton, decide_eq_true hk]
      rfl
  · have hother : (l.map fun x => if keyOf x = keyOf a then a else x).find? (keyOf · = k) =
        l.find? (keyOf · = k) := by
      induction l with
      | nil => rfl
      | cons y l ih =>
        rw [List.map_cons, List.find?_cons, List.find?_cons, ih]
        by_cases hy : keyOf y = keyOf a
        · rw [if_pos hy, decide_eq_false hk, decide_eq_false (hy ▸ hk)]
        · rw [if_neg hy]
    rw [if_neg hk]
    split
    · exact hother
    · rw [List.find?_append, List.find?_singleton, decide_eq_false hk]
      exact Option.or_none

/-- Of elements with different keys, some have the one that is found or none. -/
theorem find?_filter_key (h : (l.map keyOf).Nodup) (p : α → Bool) (k : κ) :
    (l.filter p).find? (keyOf · = k) = (l.find? (keyOf · = k)).filter p := by
  induction l with
  | nil => rfl
  | cons y l ih =>
    obtain ⟨hy, h⟩ := List.nodup_cons.mp h
    rw [List.find?_cons]
    by_cases hk : keyOf y = k
    · have hnone : (l.filter p).find? (keyOf · = k) = none := by
        rw [List.find?_eq_none]
        intro z hz hkey
        exact hy (hk ▸ of_decide_eq_true hkey ▸ List.mem_map_of_mem (List.mem_of_mem_filter hz))
      rw [decide_eq_true hk]
      cases hp : p y with
      | false =>
        rw [List.filter_cons_of_neg (by simp [hp]), hnone]
        exact (if_neg (Bool.eq_false_iff.mp hp)).symm
      | true =>
        rw [List.filter_cons_of_pos hp, List.find?_cons, decide_eq_true hk]
        exact (if_pos hp).symm
    · rw [decide_eq_false hk, ← ih h]
      cases hp : p y with
      | false => rw [List.filter_cons_of_neg (by simp [hp])]
      | true => rw [List.filter_cons_of_pos hp, List.find?_cons, decide_eq_false hk]

/-! ## Several elements -/

theorem putAll_cons (l as : List α) (a : α) :
    putAll keyOf l (a :: as) = putAll keyOf (put keyOf l a) as := rfl

theorem replacement_cons (as : List α) (a x : α) : replacement keyOf (a :: as) x =
    if keyOf x = keyOf a then a else replacement keyOf as x := by
  rw [replacement, replacement, List.find?_cons]
  by_cases h : keyOf a = keyOf x
  · rw [if_pos h.symm, decide_eq_true h]
    rfl
  · rw [if_neg (Ne.symm h), decide_eq_false h]

theorem missing_put (h : keyOf a ∉ as.map keyOf) :
    missing keyOf (put keyOf l a) as = missing keyOf l as := by
  refine List.filter_congr fun b hb => ?_
  have hne : keyOf b ≠ keyOf a := fun hkey => h (hkey ▸ List.mem_map_of_mem hb)
  rw [Bool.eq_iff_iff, Bool.not_eq_true', Bool.not_eq_true', ← Bool.not_eq_true,
    ← Bool.not_eq_true, any_key, any_key, mem_map_put, or_iff_left hne]

theorem putAll_eq (hnodup : (as.map keyOf).Nodup) :
    putAll keyOf l as = l.map (replacement keyOf as) ++ missing keyOf l as := by
  induction as generalizing l with
  | nil =>
    rw [missing, List.filter_nil, List.append_nil]
    exact (List.map_id' l).symm
  | cons a as ih =>
    rw [List.map_cons, List.nodup_cons] at hnodup
    obtain ⟨ha, hnodup⟩ := hnodup
    rw [putAll_cons, ih hnodup, missing_put ha, put, missing, missing, List.filter_cons]
    have hself : replacement keyOf as a = a := replacement_of_not_mem ha
    by_cases h : l.any (keyOf · = keyOf a) = true
    · rw [if_pos h, h, Bool.not_true, if_neg Bool.false_ne_true, List.map_map]
      refine congrArg (· ++ _) (List.map_congr_left fun x _ => ?_)
      rw [Function.comp_apply, replacement_cons]
      split
      · exact hself
      · rfl
    · rw [if_neg h, Bool.eq_false_iff.mpr h, Bool.not_false, if_pos rfl, List.map_append,
        List.append_assoc]
      refine congrArg₂ (· ++ ·) (List.map_congr_left fun x hx => ?_) ?_
      · have hne : keyOf x ≠ keyOf a :=
          fun hkey => h (any_key.mpr (hkey ▸ List.mem_map_of_mem hx))
        rw [replacement_cons, if_neg hne]
      · rw [List.map_singleton, hself]
        rfl

theorem putAll_nil (hnodup : (as.map keyOf).Nodup) : putAll keyOf [] as = as := by
  rw [putAll_eq hnodup, List.map_nil, List.nil_append]
  exact List.filter_eq_self.mpr fun _ _ => rfl

theorem mem_map_putAll : k ∈ (putAll keyOf l as).map keyOf ↔ k ∈ l.map keyOf ∨ k ∈ as.map keyOf := by
  induction as generalizing l with
  | nil => exact (or_iff_left List.not_mem_nil).symm
  | cons a as ih => rw [putAll_cons, ih, mem_map_put, List.map_cons, List.mem_cons, or_assoc]

/-- What has another key stays, in its order. -/
theorem filter_putAll (hnodup : (as.map keyOf).Nodup) :
    (putAll keyOf l as).filter (keyOf · ∉ as.map keyOf) = l.filter (keyOf · ∉ as.map keyOf) := by
  have hmissing : (missing keyOf l as).filter (keyOf · ∉ as.map keyOf) = [] := by
    refine List.filter_eq_nil_iff.mpr fun a ha => ?_
    rw [decide_eq_true_eq, not_not]
    exact List.mem_map_of_mem (List.mem_of_mem_filter ha)
  have hcomp : (fun x => decide (keyOf x ∉ as.map keyOf)) ∘ replacement keyOf as =
      fun x => decide (keyOf x ∉ as.map keyOf) := by
    funext x
    exact congrArg (fun k => decide (k ∉ as.map keyOf)) (keyOf_replacement as x)
  rw [putAll_eq hnodup, List.filter_append, hmissing, List.append_nil, List.filter_map, hcomp]
  refine (List.map_congr_left fun x hx => ?_).trans (List.map_id _)
  exact replacement_of_not_mem (of_decide_eq_true (List.mem_filter.mp hx).2)

/-- What has the key `k` stays, if nothing with that key is put. -/
theorem filter_key_putAll_of_not_mem (hnodup : (as.map keyOf).Nodup) (hk : k ∉ as.map keyOf) :
    (putAll keyOf l as).filter (keyOf · = k) = l.filter (keyOf · = k) := by
  have hrefine (l : List α) : l.filter (keyOf · = k) =
      (l.filter (keyOf · ∉ as.map keyOf)).filter (keyOf · = k) := by
    rw [List.filter_filter]
    refine List.filter_congr fun x _ => ?_
    rw [eq_comm, Bool.and_eq_left_iff_imp]
    intro hx
    exact decide_eq_true (of_decide_eq_true hx ▸ hk)
  rw [hrefine, hrefine l, filter_putAll hnodup]

theorem filter_key_of_nodup (hnodup : (as.map keyOf).Nodup) (ha : a ∈ as) :
    as.filter (keyOf · = keyOf a) = [a] := by
  induction as with
  | nil => exact absurd ha List.not_mem_nil
  | cons b as ih =>
    rw [List.map_cons, List.nodup_cons] at hnodup
    obtain ⟨hb, hnodup⟩ := hnodup
    rcases List.mem_cons.mp ha with rfl | ha
    · rw [List.filter_cons_of_pos (by simp)]
      refine congrArg _ (List.filter_eq_nil_iff.mpr fun x hx hkey => hb ?_)
      exact of_decide_eq_true hkey ▸ List.mem_map_of_mem hx
    · have hne : keyOf b ≠ keyOf a := fun hkey => hb (hkey ▸ List.mem_map_of_mem ha)
      rw [List.filter_cons_of_neg (by simpa using hne), ih hnodup ha]

/-- The elements with the key of `a`, where there was one at the most. -/
theorem filter_key_putAll (hnodup : (as.map keyOf).Nodup) (ha : a ∈ as)
    (hone : (l.filter (keyOf · = keyOf a)).length ≤ 1) :
    (putAll keyOf l as).filter (keyOf · = keyOf a) = [a] := by
  have hcomp : (fun x => decide (keyOf x = keyOf a)) ∘ replacement keyOf as =
      fun x => decide (keyOf x = keyOf a) := by
    funext x
    exact congrArg (fun k => decide (k = keyOf a)) (keyOf_replacement as x)
  have hplaced : ((l.map (replacement keyOf as)).filter (keyOf · = keyOf a)) =
      List.replicate (l.filter (keyOf · = keyOf a)).length a := by
    rw [List.filter_map, hcomp, ← List.map_const']
    exact List.map_congr_left fun x hx =>
      replacement_of_mem hnodup ha (of_decide_eq_true (List.mem_filter.mp hx).2)
  rw [putAll_eq hnodup, List.filter_append, hplaced]
  by_cases hmem : keyOf a ∈ l.map keyOf
  · have hlength : (l.filter (keyOf · = keyOf a)).length = 1 := by
      refine Nat.le_antisymm hone (List.length_pos_iff.mpr fun hnil => ?_)
      obtain ⟨x, hx, hkey⟩ := List.mem_map.mp hmem
      exact List.filter_eq_nil_iff.mp hnil x hx (decide_eq_true hkey)
    have hnone : (missing keyOf l as).filter (keyOf · = keyOf a) = [] := by
      refine List.filter_eq_nil_iff.mpr fun b hb hkey => ?_
      have hb := (List.mem_filter.mp hb).2
      rw [of_decide_eq_true hkey, any_key.mpr hmem] at hb
      exact nomatch hb
    rw [hlength, hnone]
    rfl
  · have hnone : l.filter (keyOf · = keyOf a) = [] :=
      List.filter_eq_nil_iff.mpr fun x hx hkey =>
        hmem (of_decide_eq_true hkey ▸ List.mem_map_of_mem hx)
    have hall : (missing keyOf l as).filter (keyOf · = keyOf a) =
        as.filter (keyOf · = keyOf a) := by
      rw [missing, List.filter_filter]
      refine List.filter_congr fun b _ => ?_
      rw [Bool.and_eq_left_iff_imp]
      intro hkey
      rw [of_decide_eq_true hkey, Bool.not_eq_true', ← Bool.not_eq_true, any_key]
      exact hmem
    rw [hnone, hall, filter_key_of_nodup hnodup ha]
    rfl

/-- Only the second round counts. -/
theorem putAll_putAll (hnodup : (as.map keyOf).Nodup) (h : bs.map keyOf = as.map keyOf) :
    putAll keyOf (putAll keyOf l as) bs = putAll keyOf l bs := by
  have hnodup' : (bs.map keyOf).Nodup := h ▸ hnodup
  have hmissing : missing keyOf (putAll keyOf l as) bs = [] := by
    refine List.filter_eq_nil_iff.mpr fun b hb => ?_
    rw [Bool.not_eq_true, Bool.not_eq_false', any_key, mem_map_putAll, ← h]
    exact .inr (List.mem_map_of_mem hb)
  have hreplaced (x : α) : replacement keyOf bs (replacement keyOf as x) = replacement keyOf bs x := by
    by_cases hx : keyOf x ∈ as.map keyOf
    · have hy : replacement keyOf bs x ∈ bs := replacement_mem (h ▸ hx)
      refine replacement_of_mem hnodup' hy ?_
      exact (keyOf_replacement as x).trans (keyOf_replacement bs x).symm
    · rw [replacement_of_not_mem hx]
  have hbs : as.map (replacement keyOf bs) = bs := by
    have hlength : as.length = bs.length := by
      simpa only [List.length_map] using (congrArg List.length h).symm
    refine List.ext_getElem (by rw [List.length_map, hlength]) fun i hi hi' => ?_
    rw [List.getElem_map]
    refine replacement_of_mem hnodup' (List.getElem_mem hi') ?_
    have hlt : i < (as.map keyOf).length := by simpa using hi
    have hkeys := List.getElem_of_eq h.symm hlt
    rwa [List.getElem_map, List.getElem_map] at hkeys
  rw [putAll_eq hnodup', hmissing, List.append_nil, putAll_eq hnodup, putAll_eq hnodup',
    List.map_append, List.map_map]
  refine congrArg₂ (· ++ ·) (List.map_congr_left fun x _ => hreplaced x) ?_
  have hcomp : (fun b => !l.any (keyOf · = keyOf b)) ∘ replacement keyOf bs =
      fun a => !l.any (keyOf · = keyOf a) := by
    funext a
    exact congrArg (fun k => !l.any (keyOf · = k)) (keyOf_replacement bs a)
  rw [missing, missing, ← hbs, List.filter_map, hbs, hcomp]

/-- A change that keeps the keys and the new element. -/
theorem map_put {f : α → α} (hf : ∀ x, keyOf (f x) = keyOf x) (ha : f a = a) :
    (put keyOf l a).map f = put keyOf (l.map f) a := by
  have hkeys : (l.map f).map keyOf = l.map keyOf := by
    rw [List.map_map]
    exact List.map_congr_left fun x _ => hf x
  have hany : (l.map f).any (keyOf · = keyOf a) = l.any (keyOf · = keyOf a) := by
    rw [Bool.eq_iff_iff, any_key, any_key, hkeys]
  rw [put, put, hany]
  split
  · rw [List.map_map, List.map_map]
    refine List.map_congr_left fun x _ => ?_
    rw [Function.comp_apply, Function.comp_apply, hf]
    split
    · exact ha
    · rfl
  · rw [List.map_append, List.map_singleton, ha]

end

end OpenLander.Theory
