import Mathlib.Logic.Relation
import Mathlib.Data.List.Perm.Subperm

/-! # Looking for a cycle depth first

`dfs` goes down from a node and gives up where it meets a node of its own stack. It returns the
visited nodes, or nothing if it met one. `search` starts it at every node of a list that is not
visited yet. On a graph that is closed under its edges, `search` gives up exactly if there is a
cycle. -/

namespace OpenLander.Theory.CycleSearch

variable {α : Type u} [DecidableEq α] (next : α → List α)

/-- The fuel bounds the depth. -/
def dfs : Nat → List α → List α → α → Option (List α)
  | fuel, inStack, visited, a =>
    if a ∈ inStack then none
    else if a ∈ visited then some visited
    else match fuel with
      | 0 => some visited
      | fuel + 1 => (next a).foldlM (fun visited b => dfs fuel (a :: inStack) visited b) (a :: visited)

def search (fuel : Nat) (nodes : List α) : Option (List α) :=
  nodes.foldlM (fun visited a => if a ∈ visited then some visited else dfs next fuel [] visited a) []

def Edge (a b : α) : Prop := b ∈ next a

/-- What is visited and no longer on the stack is done: it only leads to such nodes, and to no
cycle. -/
structure Searched (inStack visited : List α) : Prop where
  subset : inStack ⊆ visited
  closed : ∀ a ∈ visited, a ∉ inStack → ∀ b ∈ next a, b ∈ visited ∧ b ∉ inStack
  acyclic : ∀ a ∈ visited, a ∉ inStack → ¬Relation.TransGen (Edge next) a a

variable {next} {inStack visited visited' nodes : List α} {a b : α}

omit [DecidableEq α] in
theorem Searched.start : Searched next [] ([] : List α) :=
  ⟨List.Subset.refl _, fun _ h => (nomatch h), fun _ h => (nomatch h)⟩

omit [DecidableEq α] in
theorem Searched.push (H : Searched next inStack visited) (ha : a ∉ visited) :
    Searched next (a :: inStack) (a :: visited) where
  subset := List.cons_subset_cons a H.subset
  closed b hb hnot c hc := by
    obtain ⟨hne, hnot⟩ := not_or.mp (mt List.mem_cons.mpr hnot)
    have hb := (List.mem_cons.mp hb).resolve_left hne
    obtain ⟨hc, hcnot⟩ := H.closed b hb hnot c hc
    refine ⟨.tail _ hc, fun hmem => ?_⟩
    rcases List.mem_cons.mp hmem with rfl | hmem
    · exact ha hc
    · exact hcnot hmem
  acyclic b hb hnot := by
    obtain ⟨hne, hnot⟩ := not_or.mp (mt List.mem_cons.mpr hnot)
    exact H.acyclic b ((List.mem_cons.mp hb).resolve_left hne) hnot

omit [DecidableEq α] in
/-- From a done node only done nodes are reached. -/
theorem Searched.reaches (H : Searched next inStack visited) (ha : a ∈ visited) (hnot : a ∉ inStack)
    (h : Relation.ReflTransGen (Edge next) a b) : b ∈ visited ∧ b ∉ inStack := by
  induction h with
  | refl => exact ⟨ha, hnot⟩
  | tail _ hstep ih => exact H.closed _ ih.1 ih.2 _ hstep

omit [DecidableEq α] in
/-- A node is done once all that it leads to is. -/
theorem Searched.pop (H : Searched next (a :: inStack) visited) (ha : a ∉ inStack)
    (hnext : ∀ b ∈ next a, b ∈ visited ∧ b ∉ a :: inStack) : Searched next inStack visited where
  subset := List.Subset.trans (List.subset_cons_self a inStack) H.subset
  closed b hb hnot c hc := by
    by_cases hba : b = a
    · subst hba
      exact (hnext c hc).imp_right fun h => mt (List.mem_cons_of_mem _) h
    · have hnot' : b ∉ a :: inStack := fun h => (List.mem_cons.mp h).elim hba hnot
      exact (H.closed b hb hnot' c hc).imp_right fun h => mt (List.mem_cons_of_mem _) h
  acyclic b hb hnot := by
    by_cases hba : b = a
    · subst hba
      intro hcycle
      -- The way back would only go through done nodes, and `b` is not one of them.
      obtain ⟨c, hstep, hrest⟩ := Relation.TransGen.head'_iff.mp hcycle
      obtain ⟨hc, hcnot⟩ := hnext c hstep
      exact (H.reaches hc hcnot hrest).2 (List.mem_cons_self ..)
    · exact H.acyclic b hb fun h => (List.mem_cons.mp h).elim hba hnot

/-- What `dfs` says about a node: it found a cycle, or the node is done. -/
def Verdict (next : α → List α) (inStack visited : List α) (names : List α) :
    Option (List α) → Prop
  | none => ∃ a, Relation.TransGen (Edge next) a a
  | some visited' => Searched next inStack visited' ∧ visited ⊆ visited' ∧
      ∀ a ∈ names, a ∈ visited' ∧ a ∉ inStack

omit [DecidableEq α] in
/-- A loop over names, each of which is done after its round. -/
theorem Verdict.foldlM {f : List α → α → Option (List α)} {names : List α}
    (hf : ∀ visited, ∀ a ∈ names, Searched next inStack visited →
      Verdict next inStack visited [a] (f visited a))
    (H : Searched next inStack visited) :
    Verdict next inStack visited names (names.foldlM f visited) := by
  induction names generalizing visited with
  | nil => exact ⟨H, List.Subset.refl _, fun _ h => (nomatch h)⟩
  | cons a names ih =>
    rw [List.foldlM_cons]
    have hfirst := hf visited a (.head _) H
    cases hresult : f visited a with
    | none =>
      rw [hresult] at hfirst
      exact hfirst
    | some visited₁ =>
      rw [hresult] at hfirst
      obtain ⟨H₁, hsub, hdone⟩ := hfirst
      obtain ⟨ha, hnot⟩ := hdone a (.head _)
      have hrest := ih (fun visited b hb => hf visited b (.tail _ hb)) H₁
      simp only [Option.bind_eq_bind, Option.bind_some]
      cases hresult' : names.foldlM f visited₁ with
      | none =>
        rw [hresult'] at hrest
        exact hrest
      | some visited₂ =>
        rw [hresult'] at hrest
        obtain ⟨H₂, hsub', hdone'⟩ := hrest
        refine ⟨H₂, List.Subset.trans hsub hsub', fun b hb => ?_⟩
        rcases List.mem_cons.mp hb with rfl | hb
        · exact ⟨hsub' ha, hnot⟩
        · exact hdone' b hb

/-- With fuel for the nodes that are not on the stack, `dfs` finds a cycle or is done. -/
theorem dfs_verdict (hclosed : ∀ a ∈ nodes, next a ⊆ nodes) (fuel : Nat) :
    ∀ inStack visited a, a ∈ nodes → inStack ⊆ nodes → inStack.Nodup →
      nodes.length ≤ fuel + inStack.length → Searched next inStack visited →
      (∀ s ∈ inStack, Relation.TransGen (Edge next) s a) →
      Verdict next inStack visited [a] (dfs next fuel inStack visited a) := by
  induction fuel with
  | zero =>
    intro inStack visited a ha hsub hnodup hfuel H hstack
    have hmem : a ∈ inStack := by
      have hperm := (List.subperm_of_subset hnodup hsub).perm_of_length_le (by simpa using hfuel)
      exact hperm.mem_iff.mpr ha
    rw [dfs, if_pos hmem]
    exact ⟨a, hstack a hmem⟩
  | succ fuel ih =>
    intro inStack visited a ha hsub hnodup hfuel H hstack
    rw [dfs]
    split
    next hmem => exact ⟨a, hstack a hmem⟩
    next hnot =>
      split
      next hvisited =>
        refine ⟨H, List.Subset.refl _, fun b hb => ?_⟩
        rw [List.mem_singleton.mp hb]
        exact ⟨hvisited, hnot⟩
      next hvisited =>
        have hloop : Verdict next (a :: inStack) (a :: visited) (next a)
            ((next a).foldlM (fun visited b => dfs next fuel (a :: inStack) visited b)
              (a :: visited)) := by
          refine Verdict.foldlM (fun visited b hb H => ?_) (H.push hvisited)
          refine ih _ _ _ (hclosed a ha hb) (List.cons_subset.mpr ⟨ha, hsub⟩)
            (List.nodup_cons.mpr ⟨hnot, hnodup⟩) (by simp only [List.length_cons]; omega) H ?_
          intro s hs
          rcases List.mem_cons.mp hs with rfl | hs
          · exact .single hb
          · exact (hstack s hs).tail hb
        cases hresult : (next a).foldlM (fun visited b => dfs next fuel (a :: inStack) visited b)
            (a :: visited) with
        | none =>
          rw [hresult] at hloop
          exact hloop
        | some visited' =>
          rw [hresult] at hloop
          obtain ⟨H', hsub', hdone⟩ := hloop
          refine ⟨H'.pop hnot hdone, List.Subset.trans (List.subset_cons_self a visited) hsub',
            fun b hb => ?_⟩
          rw [List.mem_singleton.mp hb]
          exact ⟨hsub' (List.mem_cons_self ..), hnot⟩

/-- `search` gives up exactly if there is a cycle through one of the nodes. -/
theorem search_eq_none_iff (hclosed : ∀ a ∈ nodes, next a ⊆ nodes)
    (hedge : ∀ a, a ∉ nodes → next a = []) :
    search next nodes.length nodes = none ↔ ∃ a, Relation.TransGen (Edge next) a a := by
  have hverdict : Verdict next [] [] nodes (search next nodes.length nodes) := by
    refine Verdict.foldlM (fun visited a ha H => ?_) .start
    split
    next hvisited =>
      refine ⟨H, List.Subset.refl _, fun b hb => ?_⟩
      rw [List.mem_singleton.mp hb]
      exact ⟨hvisited, List.not_mem_nil⟩
    next =>
      exact dfs_verdict hclosed nodes.length [] visited a ha (List.nil_subset _) .nil
        (by simp) H fun _ h => (nomatch h)
  cases hresult : search next nodes.length nodes with
  | none =>
    rw [hresult] at hverdict
    exact ⟨fun _ => hverdict, fun _ => rfl⟩
  | some visited =>
    rw [hresult] at hverdict
    obtain ⟨H, -, hdone⟩ := hverdict
    refine ⟨fun h => (nomatch h), fun ⟨a, hcycle⟩ => ?_⟩
    have ha : a ∈ nodes := by
      by_contra hnot
      obtain ⟨b, hstep, -⟩ := Relation.TransGen.head'_iff.mp hcycle
      rw [Edge, hedge a hnot] at hstep
      exact nomatch hstep
    exact absurd hcycle (H.acyclic a (hdone a ha).1 List.not_mem_nil)

end OpenLander.Theory.CycleSearch
