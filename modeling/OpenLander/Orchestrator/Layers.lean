import OpenLander.Orchestrator.Topology

/-! # The layers of a topology

`buildTopology` sorts the services exactly if their names differ, their dependencies are among them
and there is no cycle. What it returns are the layers by the length of the longest way down. -/

namespace OpenLander.Orchestrator
open Theory

variable {services : List ServiceNode} {t : ServiceTopology}

/-- A dependency that the first service names is the second. -/
def Depends (services : List ServiceNode) (a b : String) : Prop :=
  ∃ service ∈ services, service.name = a ∧ b ∈ service.dependsOn

/-- The services can be put in an order. -/
structure Sortable (services : List ServiceNode) : Prop where
  nodup : (serviceNames services).Nodup
  listed : ∀ service ∈ services, ∀ dependency ∈ service.dependsOn,
    dependency ∈ serviceNames services
  acyclic : ∀ name, ¬Relation.TransGen (Depends services) name name

/-- Every service is in one layer, which is as low as its dependencies let it be, and the layers are
in the order of the input. -/
structure ServiceTopology.Sorted (t : ServiceTopology) : Prop where
  perm : t.executionOrder.flatten.Perm (serviceNames t.services)
  once : ∀ service ∈ t.services, ∃! i : Fin t.executionOrder.length,
    service.name ∈ t.executionOrder[i]
  layerOf_eq : ∀ service ∈ t.services, LayeredSort.layerOf t.executionOrder service.name =
    ((service.dependsOn.map (LayeredSort.layerOf t.executionOrder · + 1)).max?).getD 0
  sublist : ∀ layer ∈ t.executionOrder, layer.Sublist (serviceNames t.services)

/-! ## The checks -/

theorem duplicateName_of_nodup {seen : List String} (hnodup : (serviceNames services).Nodup)
    (hseen : ∀ name ∈ serviceNames services, name ∉ seen) : duplicateName seen services = none := by
  induction services generalizing seen with
  | nil => rfl
  | cons service services ih =>
    obtain ⟨hnot, hnodup⟩ := List.nodup_cons.mp hnodup
    rw [duplicateName, if_neg (hseen service.name List.mem_cons_self)]
    refine ih hnodup fun name hname hmem => ?_
    obtain rfl | hmem := List.mem_cons.mp hmem
    · exact hnot hname
    · exact hseen name (List.mem_cons_of_mem _ hname) hmem

theorem missingDependencies_eq_nil : missingDependencies services = [] ↔
    ∀ service ∈ services, ∀ dependency ∈ service.dependsOn,
      dependency ∈ serviceNames services := by
  simp only [missingDependencies, List.flatMap_eq_nil_iff, List.map_eq_nil_iff,
    List.filter_eq_nil_iff, decide_eq_true_eq, not_not]

theorem dependsOn_name (hnodup : (serviceNames services).Nodup) (hservice : service ∈ services) :
    dependsOn services service.name = service.dependsOn := by
  have hfind : services.find? (·.name = service.name) = some service := by
    induction services with
    | nil => exact nomatch hservice
    | cons first services ih =>
      obtain ⟨hnot, hnodup⟩ := List.nodup_cons.mp hnodup
      obtain rfl | hservice := List.mem_cons.mp hservice
      · rw [List.find?_cons_of_pos (by simp)]
      · have hname : service.name ∈ serviceNames services := List.mem_map_of_mem hservice
        have hne : first.name ≠ service.name := fun heq =>
          hnot (show first.name ∈ _ from heq ▸ hname)
        rw [List.find?_cons_of_neg (by simpa using hne)]
        exact ih hnodup hservice
  rw [dependsOn, hfind]
  rfl

theorem depends_iff (hnodup : (serviceNames services).Nodup) {a b : String} :
    Depends services a b ↔ a ∈ serviceNames services ∧ b ∈ dependsOn services a := by
  constructor
  · intro ⟨service, hservice, ha, hb⟩
    rw [← ha, dependsOn_name hnodup hservice]
    exact ⟨List.mem_map_of_mem hservice, hb⟩
  · intro ⟨ha, hb⟩
    obtain ⟨service, hservice, rfl⟩ := List.mem_map.mp ha
    rw [dependsOn_name hnodup hservice] at hb
    exact ⟨service, hservice, rfl, hb⟩

/-! ## The order -/

section
variable (hnodup : (serviceNames services).Nodup)
include hnodup

theorem inv_start : LayeredSort.Inv (dependsOn services) (serviceNames services) []
    (inDegree services)
    (sortByIndex services ((serviceNames services).filter (inDegree services · = 0))) :=
  (LayeredSort.Inv.start hnodup).perm fun l => List.perm_insertionSort _ l

theorem executionOrder_law :
    LayeredSort.Law (dependsOn services) (serviceNames services) [] (executionOrder services) := by
  refine (inv_start hnodup).law hnodup (fun l => List.perm_insertionSort _ l) _ ?_
  rw [serviceNames, List.length_map]
  exact Nat.le_add_left ..

theorem executionOrder_nodup : (executionOrder services).flatten.Nodup :=
  ((inv_start hnodup).layers hnodup (fun l => List.perm_insertionSort _ l) _).1

theorem executionOrder_subset : (executionOrder services).flatten ⊆ serviceNames services :=
  ((inv_start hnodup).layers hnodup (fun l => List.perm_insertionSort _ l) _).2

/-- The order is complete exactly if there is no cycle. -/
theorem executionOrder_length (hlisted : ∀ service ∈ services,
      ∀ dependency ∈ service.dependsOn, dependency ∈ serviceNames services) :
    (executionOrder services).flatten.length = services.length ↔
      ∀ name, ¬Relation.TransGen (Depends services) name name := by
  have hdeps : ∀ name ∈ serviceNames services,
      dependsOn services name ⊆ serviceNames services := by
    intro name hname
    obtain ⟨service, hservice, rfl⟩ := List.mem_map.mp hname
    rw [dependsOn_name hnodup hservice]
    exact hlisted service hservice
  have hedge : Depends services =
      fun a b => a ∈ serviceNames services ∧ b ∈ dependsOn services a := by
    funext a b
    exact propext (depends_iff hnodup)
  rw [hedge, ← (executionOrder_law hnodup).complete_iff hdeps]
  have hsubperm := List.subperm_of_subset (executionOrder_nodup hnodup)
    (executionOrder_subset hnodup)
  have hlength : services.length = (serviceNames services).length := List.length_map _ |>.symm
  constructor
  · intro heq
    exact (hsubperm.perm_of_length_le (heq.trans hlength).ge).symm.subset
  · intro hsub
    have hperm := hsubperm.antisymm (List.subperm_of_subset hnodup hsub)
    rw [hperm.length_eq, hlength]

theorem serviceNames_pairwise : (serviceNames services).Pairwise fun left right =>
    orderIndex services left ≤ orderIndex services right := by
  refine List.pairwise_iff_getElem.mpr fun i j hi hj hij => ?_
  rw [orderIndex, orderIndex, hnodup.idxOf_getElem, hnodup.idxOf_getElem]
  exact hij.le

/-- What is sorted by the index is in the order of the input. -/
theorem sublist_of_pairwise {layer : List String} (hlayer : layer.Nodup)
    (hsub : layer ⊆ serviceNames services)
    (hsorted : layer.Pairwise fun left right =>
      orderIndex services left ≤ orderIndex services right) :
    layer.Sublist (serviceNames services) := by
  have hperm : layer.Perm ((serviceNames services).filter (· ∈ layer)) := by
    refine (List.perm_ext_iff_of_nodup hlayer (hnodup.filter _)).mpr fun name => ?_
    rw [List.mem_filter, decide_eq_true_iff]
    exact ⟨fun hname => ⟨hsub hname, hname⟩, And.right⟩
  have heq : layer = (serviceNames services).filter (· ∈ layer) := by
    refine hperm.eq_of_pairwise ?_ hsorted ((serviceNames_pairwise hnodup).sublist List.filter_sublist)
    intro a b ha _ hab hba
    exact (List.idxOf_inj (hsub ha)).mp (hab.antisymm hba)
  rw [heq]
  exact List.filter_sublist

omit hnodup in
theorem pairwise_sortByIndex (names : List String) :
    (sortByIndex services names).Pairwise fun left right =>
      orderIndex services left ≤ orderIndex services right := by
  have : Std.Total fun left right => orderIndex services left ≤ orderIndex services right :=
    ⟨fun left right => Nat.le_total ..⟩
  have : IsTrans String fun left right => orderIndex services left ≤ orderIndex services right :=
    ⟨fun _ _ _ => Nat.le_trans⟩
  exact List.pairwise_insertionSort _ names

theorem executionOrder_sublist (hlayer : layer ∈ executionOrder services) :
    layer.Sublist (serviceNames services) := by
  have hmem : ∃ names, layer = sortByIndex services names := by
    obtain rfl | hsorted := LayeredSort.mem_layers hlayer
    · exact ⟨_, rfl⟩
    · exact hsorted
  obtain ⟨names, rfl⟩ := hmem
  refine sublist_of_pairwise hnodup ?_ ?_ (pairwise_sortByIndex names)
  · exact (List.nodup_flatten.mp (executionOrder_nodup hnodup)).1 _ hlayer
  · intro name hname
    exact executionOrder_subset hnodup (List.mem_flatten_of_mem hlayer hname)

theorem sorted_executionOrder
    (hlength : (executionOrder services).flatten.length = services.length) :
    ServiceTopology.Sorted { services, executionOrder := executionOrder services } := by
  have hlaw := executionOrder_law hnodup
  have hperm : (executionOrder services).flatten.Perm (serviceNames services) := by
    refine (List.subperm_of_subset (executionOrder_nodup hnodup)
      (executionOrder_subset hnodup)).perm_of_length_le ?_
    rw [serviceNames, List.length_map, hlength]
  have hmem : ∀ service ∈ services, service.name ∈ (executionOrder services).flatten :=
    fun service hservice => hperm.mem_iff.mpr (List.mem_map_of_mem hservice)
  refine ⟨hperm, fun service hservice => ?_, fun service hservice => ?_, fun layer hlayer => ?_⟩
  · have hlt := LayeredSort.layerOf_lt (hmem service hservice)
    refine ⟨⟨_, hlt⟩, (hlaw.mem_iff_layerOf hlt).mpr rfl, fun i hi => ?_⟩
    exact Fin.ext ((hlaw.mem_iff_layerOf i.2).mp hi).symm
  · rw [← dependsOn_name hnodup hservice]
    exact hlaw.layerOf_eq (hmem service hservice)
  · exact executionOrder_sublist hnodup hlayer

end

/-- What the checks let through. -/
theorem buildTopology_eq_ok : buildTopology services = .ok t ↔
    (serviceNames services).Nodup ∧
      (∀ service ∈ services, ∀ dependency ∈ service.dependsOn,
        dependency ∈ serviceNames services) ∧
      (executionOrder services).flatten.length = services.length ∧
      t = { services, executionOrder := executionOrder services } := by
  rw [buildTopology]
  cases hdup : duplicateName [] services with
  | some name =>
    refine iff_of_false (by rintro ⟨⟩) fun h => ?_
    rw [duplicateName_of_nodup h.1 fun _ _ => List.not_mem_nil] at hdup
    cases hdup
  | none =>
    have hnodup := (duplicateName_eq_none hdup).1
    rw [← missingDependencies_eq_nil]
    dsimp only
    split
    next hmissing => exact iff_of_false (by rintro ⟨⟩) fun h => hmissing h.2.1
    next hmissing =>
      split
      next hlength => exact iff_of_false (by rintro ⟨⟩) fun h => hlength h.2.2.1
      next hlength =>
        rw [Except.ok.injEq]
        constructor
        · exact fun heq => ⟨hnodup, not_not.mp hmissing, not_not.mp hlength, heq.symm⟩
        · exact fun h => h.2.2.2.symm

theorem exists_buildTopology_iff (services : List ServiceNode) :
    (∃ t, buildTopology services = .ok t) ↔ Sortable services := by
  constructor
  · intro ⟨t, ht⟩
    obtain ⟨hnodup, hlisted, hlength, -⟩ := buildTopology_eq_ok.mp ht
    exact ⟨hnodup, hlisted, (executionOrder_length hnodup hlisted).mp hlength⟩
  · intro h
    have hlength := (executionOrder_length h.nodup h.listed).mpr h.acyclic
    exact ⟨_, buildTopology_eq_ok.mpr ⟨h.nodup, h.listed, hlength, rfl⟩⟩

theorem buildTopology_correct :
    ((∃ t, buildTopology services = .ok t) ↔ Sortable services) ∧
      ∀ t, buildTopology services = .ok t → t.services = services ∧ t.Sorted := by
  refine ⟨exists_buildTopology_iff services, fun t ht => ?_⟩
  obtain ⟨hnodup, -, hlength, rfl⟩ := buildTopology_eq_ok.mp ht
  exact ⟨rfl, sorted_executionOrder hnodup hlength⟩

end OpenLander.Orchestrator
