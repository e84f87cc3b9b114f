import Mathlib.Data.List.Count
import Mathlib.Data.List.Nodup
import Mathlib.Data.List.Perm.Subperm
import Mathlib.Data.Fintype.Order
import Mathlib.Order.WellFounded
import Mathlib.Logic.Relation

/-! # Layered topological sorting

Kahn's algorithm by layers, over nodes with lists of dependencies. A node comes into the next
layer when the last of its dependencies is released. How a layer is ordered is a parameter: a
function `sort` that permutes it. -/

namespace OpenLander.Theory.LayeredSort

variable {α : Type u} [DecidableEq α] (deps : α → List α) (nodes : List α)

/-- One entry for every mention of `a` among the dependencies of the nodes. -/
def dependents (a : α) : List α :=
  nodes.flatMap fun n => ((deps n).filter (· == a)).map fun _ => n

/-- Release one dependency of `n`, which is ready when no other is left. -/
def release (state : (α → Int) × List α) (n : α) : (α → Int) × List α :=
  let degree := state.1 n - 1
  (Function.update state.1 n degree, if degree = 0 then state.2 ++ [n] else state.2)

/-- Release the dependents of a layer. -/
def releaseLayer (inDegree : α → Int) (layer : List α) : (α → Int) × List α :=
  (layer.flatMap (dependents deps nodes)).foldl release (inDegree, [])

def layers (sort : List α → List α) : Nat → (α → Int) → List α → List (List α)
  | 0, _, _ => []
  | fuel + 1, inDegree, layer =>
    if layer = [] then []
    else
      let released := releaseLayer deps nodes inDegree layer
      layer :: layers sort fuel released.1 (sort released.2)

/-! ## Releasing -/

section Release
variable (es : List α) (state : (α → Int) × List α)

theorem release_degree (e n : α) :
    (release state e).1 n = state.1 n - if n = e then 1 else 0 := by
  by_cases hn : n = e
  · simp [release, hn]
  · simp [release, hn]

theorem mem_release (e n : α) :
    n ∈ (release state e).2 ↔ n ∈ state.2 ∨ (n = e ∧ state.1 e = 1) := by
  rw [release]
  split
  next h => simp [show state.1 e = 1 by omega]
  next h => simp [show state.1 e ≠ 1 by omega]

theorem foldl_release_degree (n : α) :
    (es.foldl release state).1 n = state.1 n - es.count n := by
  induction es generalizing state with
  | nil => simp
  | cons e es ih =>
    rw [List.foldl_cons, ih, release_degree]
    by_cases hn : n = e
    · rw [if_pos hn, hn, List.count_cons_self]
      omega
    · rw [if_neg hn, List.count_cons_of_ne (Ne.symm hn)]
      omega

/-- Every node still has the dependencies that are to be released. -/
def Enough (es : List α) (state : (α → Int) × List α) : Prop :=
  ∀ n, (es.count n : Int) ≤ state.1 n ∨ n ∉ es

theorem Enough.tail {e : α} (h : Enough (e :: es) state) : Enough es (release state e) := by
  intro n
  by_cases hn : n = e
  · subst hn
    have := (h n).resolve_right (by simp)
    rw [List.count_cons_self] at this
    rw [release_degree, if_pos rfl]
    omega
  · rw [release_degree, if_neg hn]
    rcases h n with h | h
    · rw [List.count_cons_of_ne (Ne.symm hn)] at h
      omega
    · exact .inr fun hm => h (List.mem_cons_of_mem e hm)

/-- A node becomes ready exactly when as many of its dependencies are released as were left. -/
theorem mem_foldl_release (h : Enough es state) (n : α) :
    n ∈ (es.foldl release state).2 ↔ n ∈ state.2 ∨ (n ∈ es ∧ state.1 n = es.count n) := by
  induction es generalizing state with
  | nil => simp
  | cons e es ih =>
    rw [List.foldl_cons, ih _ (h.tail es state), mem_release, release_degree, or_assoc]
    apply or_congr_right
    by_cases hn : n = e
    · subst hn
      have hle := (h n).resolve_right (by simp)
      rw [List.count_cons_self] at hle ⊢
      have hpos := List.count_pos_iff (a := n) (l := es)
      simp only [List.mem_cons, true_or, true_and, if_pos]
      by_cases hm : n ∈ es
      · have := hpos.mpr hm
        simp only [hm, true_and]
        omega
      · have := List.count_eq_zero.mpr hm
        simp only [hm, false_and, or_false]
        omega
    · rw [if_neg hn, List.count_cons_of_ne (Ne.symm hn)]
      simp [hn]

theorem nodup_foldl_release (h : Enough es state) (hd : state.2.Nodup)
    (hnew : ∀ n ∈ state.2, n ∉ es) : (es.foldl release state).2.Nodup := by
  induction es generalizing state with
  | nil => exact hd
  | cons e es ih =>
    have he : e ∉ state.2 := fun hm => hnew e hm (List.mem_cons_self ..)
    apply ih _ (h.tail es state)
    · rw [release]
      split
      · exact List.nodup_append.mpr ⟨hd, List.nodup_singleton e, by simp_all⟩
      · exact hd
    · intro n hn
      rcases (mem_release state e n).mp hn with hn | ⟨rfl, h1⟩
      · exact fun hm => hnew n hn (List.mem_cons_of_mem e hm)
      · have hle := (h n).resolve_right (by simp)
        rw [List.count_cons_self] at hle
        exact List.count_eq_zero.mp (by omega)

end Release

/-! ## Counting mentions -/

theorem count_dependents (a n : α) :
    (dependents deps nodes a).count n = nodes.count n * (deps n).count a := by
  rw [dependents]
  induction nodes with
  | nil => simp
  | cons m ms ih =>
    rw [List.flatMap_cons, List.count_append, ih, List.count_cons, Nat.add_mul, Nat.add_comm]
    congr 1
    by_cases hm : m = n
    · subst hm
      simp [List.map_const', List.count_eq_length_filter]
    · simp [List.map_const', List.count_replicate, hm]

theorem countP_mem_cons {a : α} {layer : List α} (ha : a ∉ layer) (l : List α) :
    l.countP (· ∈ a :: layer) = l.count a + l.countP (· ∈ layer) := by
  induction l with
  | nil => rfl
  | cons x l ih =>
    rw [List.countP_cons, List.countP_cons, ih, List.count_cons]
    by_cases hx : x = a
    · subst hx
      simp [ha]
      omega
    · simp [hx]
      omega

theorem count_flatMap_dependents {layer : List α} (hd : layer.Nodup) (n : α) :
    (layer.flatMap (dependents deps nodes)).count n =
      nodes.count n * (deps n).countP (· ∈ layer) := by
  induction layer with
  | nil => simp
  | cons a layer ih =>
    rw [List.flatMap_cons, List.count_append, count_dependents, ih hd.tail,
      countP_mem_cons (List.nodup_cons.mp hd).1, Nat.mul_add]

/-- What is not yet released, before and after a layer is. -/
theorem countP_not_mem_append {done layer : List α} (hd : (done ++ layer).Nodup) (l : List α) :
    l.countP (· ∉ done) = l.countP (· ∈ layer) + l.countP (· ∉ done ++ layer) := by
  induction l with
  | nil => rfl
  | cons x l ih =>
    have hdisj : x ∈ layer → x ∉ done := fun hl hp => (List.disjoint_of_nodup_append hd) hp hl
    rw [List.countP_cons, List.countP_cons, List.countP_cons, ih]
    by_cases hp : x ∈ done
    · have hl : x ∉ layer := fun hl => hdisj hl hp
      simp [hp, hl]
    · by_cases hl : x ∈ layer
      · simp [hp, hl]
        omega
      · simp [hp, hl]
        omega

/-! ## The invariant of the layers -/

/-- The nodes in `done` are released, those in `layer` are next, and `inDegree` counts the
dependencies that are not released. -/
structure Inv (done : List α) (inDegree : α → Int) (layer : List α) : Prop where
  degree : ∀ n ∈ nodes, inDegree n = (deps n).countP (· ∉ done)
  nodup : (done ++ layer).Nodup
  subset : done ++ layer ⊆ nodes
  ready : ∀ n ∈ nodes, inDegree n = 0 ↔ n ∈ done ++ layer

variable {deps nodes} {sort : List α → List α} {done layer : List α} {inDegree : α → Int}

theorem Inv.start (hn : nodes.Nodup) :
    Inv deps nodes [] (fun n => (deps n).length)
      (nodes.filter fun n => ((deps n).length : Int) = 0) where
  degree n _ := by simp [List.countP_true]
  nodup := hn.filter _
  subset := List.filter_subset_self nodes
  ready n hn := by
    rw [List.nil_append, List.mem_filter, decide_eq_true_eq]
    exact ⟨fun h => ⟨hn, h⟩, fun h => h.2⟩

theorem count_eq (hn : nodes.Nodup) (H : Inv deps nodes done inDegree layer) (hm : n ∈ nodes) :
    (layer.flatMap (dependents deps nodes)).count n = (deps n).countP (· ∈ layer) := by
  rw [count_flatMap_dependents deps nodes H.nodup.of_append_right, List.count_eq_one_of_mem hn hm,
    Nat.one_mul]

theorem mem_nodes_of_mem_flatMap (H : Inv deps nodes done inDegree layer)
    (hm : n ∈ layer.flatMap (dependents deps nodes)) : n ∈ nodes := by
  have hpos := List.count_pos_iff.mpr hm
  rw [count_flatMap_dependents deps nodes H.nodup.of_append_right] at hpos
  exact List.count_pos_iff.mp (Nat.pos_of_mul_pos_right hpos)

theorem Inv.enough (hn : nodes.Nodup) (H : Inv deps nodes done inDegree layer) :
    Enough (layer.flatMap (dependents deps nodes)) (inDegree, []) := by
  intro n
  by_cases hm : n ∈ nodes
  · have hsplit := countP_not_mem_append H.nodup (deps n)
    have hdeg := H.degree n hm
    rw [count_eq hn H hm]
    dsimp only
    omega
  · exact .inr fun h => hm (mem_nodes_of_mem_flatMap H h)

theorem Inv.next (hn : nodes.Nodup) (H : Inv deps nodes done inDegree layer) :
    Inv deps nodes (done ++ layer) (releaseLayer deps nodes inDegree layer).1
      (releaseLayer deps nodes inDegree layer).2 := by
  have henough := H.enough hn
  have hmem : ∀ n, n ∈ (releaseLayer deps nodes inDegree layer).2 ↔
      n ∈ layer.flatMap (dependents deps nodes) ∧
        inDegree n = (layer.flatMap (dependents deps nodes)).count n := by
    intro n
    rw [releaseLayer, mem_foldl_release _ _ henough]
    simp
  have hdegree : ∀ n, (releaseLayer deps nodes inDegree layer).1 n =
      inDegree n - (layer.flatMap (dependents deps nodes)).count n :=
    foldl_release_degree _ _
  have hready : ∀ n ∈ done ++ layer, inDegree n = 0 := fun n h => (H.ready n (H.subset h)).mpr h
  refine ⟨?_, ?_, ?_, ?_⟩
  · intro n hm
    have hsplit := countP_not_mem_append H.nodup (deps n)
    have hdeg := H.degree n hm
    rw [hdegree, count_eq hn H hm]
    omega
  · apply List.nodup_append.mpr ⟨H.nodup, nodup_foldl_release _ _ henough .nil (by simp), ?_⟩
    intro a ha b hb hab
    subst hab
    obtain ⟨hes, hcount⟩ := (hmem a).mp hb
    have hpos := List.count_pos_iff.mpr hes
    have h0 := hready a ha
    omega
  · intro n h
    rcases List.mem_append.mp h with h | h
    · exact H.subset h
    · exact mem_nodes_of_mem_flatMap H ((hmem n).mp h).1
  · intro n hm
    have hnonneg : 0 ≤ inDegree n := by
      rw [H.degree n hm]
      omega
    rw [hdegree, List.mem_append, hmem, ← H.ready n hm]
    have hpos := List.count_pos_iff (a := n) (l := layer.flatMap (dependents deps nodes))
    by_cases hes : n ∈ layer.flatMap (dependents deps nodes)
    · have hle := (henough n).resolve_right (not_not.mpr hes)
      have := hpos.mpr hes
      simp only [hes, true_and]
      dsimp only at hle
      omega
    · rw [List.count_eq_zero.mpr hes]
      simp [hes]

theorem Inv.perm (hsort : ∀ l, (sort l).Perm l) (H : Inv deps nodes done inDegree layer) :
    Inv deps nodes done inDegree (sort layer) := by
  have hperm := (hsort layer).append_left done
  exact ⟨H.degree, hperm.nodup_iff.mpr H.nodup, List.Subset.trans hperm.subset H.subset,
    fun n hm => (H.ready n hm).trans hperm.mem_iff.symm⟩

/-- No node occurs twice, and only nodes occur. -/
theorem Inv.layers (hn : nodes.Nodup) (hsort : ∀ l, (sort l).Perm l) (fuel : Nat)
    (H : Inv deps nodes done inDegree layer) :
    (done ++ (layers deps nodes sort fuel inDegree layer).flatten).Nodup ∧
      (layers deps nodes sort fuel inDegree layer).flatten ⊆ nodes := by
  induction fuel generalizing done inDegree layer with
  | zero =>
    exact ⟨by simpa [LayeredSort.layers] using H.nodup.of_append_left, by simp [LayeredSort.layers]⟩
  | succ fuel ih =>
    rw [LayeredSort.layers]
    split
    · exact ⟨by simpa using H.nodup.of_append_left, by simp⟩
    · obtain ⟨hnodup, hsub⟩ := ih ((H.next hn).perm hsort)
      rw [List.flatten_cons, ← List.append_assoc]
      exact ⟨hnodup, List.append_subset.mpr ⟨fun n h => H.subset (List.mem_append_right _ h), hsub⟩⟩

/-! ## The law of the layers -/

/-- The next layer is made of the nodes that are not done and whose dependencies all are. -/
theorem Inv.mem_layer (H : Inv deps nodes done inDegree layer) :
    n ∈ layer ↔ n ∈ nodes ∧ n ∉ done ∧ deps n ⊆ done := by
  have hready (hn : n ∈ nodes) : deps n ⊆ done ↔ n ∈ done ++ layer := by
    rw [← H.ready n hn, H.degree n hn, Int.natCast_eq_zero, List.countP_eq_zero]
    exact forall₂_congr fun d _ => by simp
  constructor
  · intro hlayer
    have hn : n ∈ nodes := H.subset (List.mem_append_right _ hlayer)
    refine ⟨hn, fun hdone => ?_, (hready hn).mpr (List.mem_append_right _ hlayer)⟩
    exact List.disjoint_of_nodup_append H.nodup hdone hlayer
  · intro ⟨hn, hnot, hdeps⟩
    exact (List.mem_append.mp ((hready hn).mp hdeps)).resolve_left hnot

/-- A layer is made of the nodes in none of those before whose dependencies all are, and what is in no
layer depends on something in none. -/
structure Law (deps : α → List α) (nodes done : List α) (ls : List (List α)) : Prop where
  mem_iff : ∀ i (hi : i < ls.length) n, n ∈ ls[i] ↔
    n ∈ nodes ∧ n ∉ done ++ (ls.take i).flatten ∧ deps n ⊆ done ++ (ls.take i).flatten
  rest : ∀ n ∈ nodes, deps n ⊆ done ++ ls.flatten → n ∈ done ++ ls.flatten

theorem Inv.law (hn : nodes.Nodup) (hsort : ∀ l, (sort l).Perm l) (fuel : Nat)
    (H : Inv deps nodes done inDegree layer) (hfuel : nodes.length ≤ done.length + fuel) :
    Law deps nodes done (LayeredSort.layers deps nodes sort fuel inDegree layer) := by
  induction fuel generalizing done inDegree layer with
  | zero =>
    rw [LayeredSort.layers]
    refine ⟨fun i hi => (nomatch hi), fun n hmem _ => ?_⟩
    have hsub : done ⊆ nodes := fun m hm => H.subset (List.mem_append_left _ hm)
    have hperm : done.Perm nodes :=
      (List.subperm_of_subset H.nodup.of_append_left hsub).perm_of_length_le hfuel
    exact List.mem_append_left _ (hperm.mem_iff.mpr hmem)
  | succ fuel ih =>
    rw [LayeredSort.layers]
    split
    next hlayer =>
      refine ⟨fun i hi => (nomatch hi), fun n hmem hdeps => ?_⟩
      rw [List.flatten_nil, List.append_nil] at hdeps ⊢
      by_contra hnot
      have hin : n ∈ layer := H.mem_layer.mpr ⟨hmem, hnot, hdeps⟩
      rw [hlayer] at hin
      exact nomatch hin
    next hlayer =>
      have hpos : 0 < layer.length := List.length_pos_iff.mpr hlayer
      have hlaw := ih ((H.next hn).perm hsort) (by rw [List.length_append]; omega)
      constructor
      · intro i hi n
        cases i with
        | zero =>
          rw [List.take_zero, List.flatten_nil, List.append_nil]
          exact H.mem_layer
        | succ i =>
          rw [List.take_succ_cons, List.flatten_cons, ← List.append_assoc]
          exact hlaw.mem_iff i (Nat.lt_of_succ_lt_succ hi) n
      · rw [List.flatten_cons, ← List.append_assoc]
        exact hlaw.rest

/-- Every layer but the first has been sorted. -/
theorem mem_layers {fuel : Nat} (h : l ∈ LayeredSort.layers deps nodes sort fuel inDegree layer) :
    l = layer ∨ ∃ l', l = sort l' := by
  induction fuel generalizing inDegree layer with
  | zero => exact nomatch h
  | succ fuel ih =>
    rw [LayeredSort.layers] at h
    split at h
    · exact nomatch h
    · obtain rfl | h := List.mem_cons.mp h
      · exact .inl rfl
      · exact .inr ((ih h).elim (fun heq => ⟨_, heq⟩) id)

section
variable {ls : List (List α)} {i j : Nat}

omit [DecidableEq α] in
theorem mem_take_flatten : n ∈ (ls.take i).flatten ↔ ∃ j, j < i ∧ ∃ hj : j < ls.length, n ∈ ls[j] := by
  simp only [List.mem_flatten, List.mem_take_iff_getElem]
  constructor
  · rintro ⟨_, ⟨j, hj, rfl⟩, hn⟩
    exact ⟨j, by omega, by omega, hn⟩
  · intro ⟨j, hj, hlt, hn⟩
    exact ⟨_, ⟨j, by omega, rfl⟩, hn⟩

/-- The index of the first layer that the node is in. -/
def layerOf (ls : List (List α)) (n : α) : Nat := ls.findIdx (n ∈ ·)

variable (h : Law deps nodes [] ls)
include h

theorem Law.mem_iff_layerOf (hi : i < ls.length) : n ∈ ls[i] ↔ layerOf ls n = i := by
  rw [layerOf, List.findIdx_eq hi, decide_eq_true_iff]
  refine ⟨fun hn => ⟨hn, fun j hj => decide_eq_false fun hbefore => ?_⟩, And.left⟩
  exact ((h.mem_iff i hi n).mp hn).2.1 (mem_take_flatten.mpr ⟨j, hj, by omega, hbefore⟩)

omit h in
theorem layerOf_lt (hn : n ∈ ls.flatten) : layerOf ls n < ls.length := by
  obtain ⟨l, hl, hn⟩ := List.mem_flatten.mp hn
  exact List.findIdx_lt_length_of_exists ⟨l, hl, decide_eq_true hn⟩

theorem Law.mem_take_flatten_iff : n ∈ (ls.take i).flatten ↔ layerOf ls n < i ∧ n ∈ ls.flatten := by
  rw [mem_take_flatten]
  constructor
  · intro ⟨j, hj, hlt, hn⟩
    rw [(h.mem_iff_layerOf hlt).mp hn]
    exact ⟨hj, List.mem_flatten.mpr ⟨_, List.getElem_mem hlt, hn⟩⟩
  · intro ⟨hlt, hn⟩
    exact ⟨_, hlt, layerOf_lt hn, (h.mem_iff_layerOf (layerOf_lt hn)).mpr rfl⟩

theorem Law.layerOf_dep (hn : n ∈ ls.flatten) (hd : d ∈ deps n) :
    layerOf ls d < layerOf ls n ∧ d ∈ ls.flatten := by
  have hin := (h.mem_iff_layerOf (layerOf_lt hn)).mpr rfl
  exact h.mem_take_flatten_iff.mp (((h.mem_iff _ (layerOf_lt hn) n).mp hin).2.2 hd)

/-- A node is one layer above the highest of its dependencies. -/
theorem Law.layerOf_eq (hn : n ∈ ls.flatten) :
    layerOf ls n = (((deps n).map (layerOf ls · + 1)).max?).getD 0 := by
  have hlt := layerOf_lt hn
  obtain ⟨hnode, hnot, hdeps⟩ := (h.mem_iff _ hlt n).mp ((h.mem_iff_layerOf hlt).mpr rfl)
  cases hlayer : layerOf ls n with
  | zero =>
    have hnil : deps n = [] := by
      rw [hlayer] at hdeps
      exact List.subset_nil.mp hdeps
    rw [hnil]
    rfl
  | succ i =>
    -- The node is not in the layer before, where only a dependency can have kept it out of.
    obtain ⟨d, hd, hd'⟩ : ∃ d ∈ deps n, layerOf ls d = i := by
      by_contra hnone
      have hbefore : n ∈ ls[i] := by
        refine (h.mem_iff i (by omega) n).mpr ⟨hnode, fun hmem => ?_, fun d hd => ?_⟩
        · have hlt := (h.mem_take_flatten_iff.mp hmem).1
          omega
        · have hdep := h.layerOf_dep hn hd
          have hne : layerOf ls d ≠ i := fun heq => hnone ⟨d, hd, heq⟩
          exact h.mem_take_flatten_iff.mpr ⟨by omega, hdep.2⟩
      have heq := (h.mem_iff_layerOf (by omega)).mp hbefore
      omega
    have hmax : ((deps n).map (layerOf ls · + 1)).max? = some (i + 1) := by
      refine List.max?_eq_some_iff.mpr ⟨List.mem_map.mpr ⟨d, hd, by rw [hd']⟩, fun m hm => ?_⟩
      obtain ⟨d', hd', rfl⟩ := List.mem_map.mp hm
      have hdep := (h.layerOf_dep hn hd').1
      omega
    rw [hmax]
    rfl

/-- All nodes are in a layer exactly if there is no cycle. -/
theorem Law.complete_iff (hdeps : ∀ n ∈ nodes, deps n ⊆ nodes) :
    nodes ⊆ ls.flatten ↔
      ∀ n, ¬Relation.TransGen (fun a b => a ∈ nodes ∧ b ∈ deps a) n n := by
  constructor
  · intro hall n hcycle
    have hdown : ∀ a b, Relation.TransGen (fun a b => a ∈ nodes ∧ b ∈ deps a) a b →
        layerOf ls b < layerOf ls a := by
      intro a b hpath
      induction hpath with
      | single hedge => exact (h.layerOf_dep (hall hedge.1) hedge.2).1
      | tail _ hedge ih => exact (h.layerOf_dep (hall hedge.1) hedge.2).1.trans ih
    exact Nat.lt_irrefl _ (hdown n n hcycle)
  · intro hacyclic
    let below (a b : {n // n ∈ nodes}) : Prop :=
      Relation.TransGen (fun a b => a ∈ nodes ∧ b ∈ deps a) b.1 a.1
    have : IsTrans _ below := ⟨fun _ _ _ hab hbc => hbc.trans hab⟩
    have : Std.Irrefl below := ⟨fun a => hacyclic a.1⟩
    have hwf : WellFounded below := Finite.wellFounded_of_trans_of_irrefl below
    have hall : ∀ a : {n // n ∈ nodes}, a.1 ∈ ls.flatten := fun a => by
      induction a using hwf.induction with
      | h a ih =>
        refine h.rest a.1 a.2 fun d hd => ?_
        exact ih ⟨d, hdeps a.1 a.2 hd⟩ (.single ⟨a.2, hd⟩)
    exact fun n hn => hall ⟨n, hn⟩

end

end OpenLander.Theory.LayeredSort
