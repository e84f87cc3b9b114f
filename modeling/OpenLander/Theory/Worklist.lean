import OpenLander.Theory.Collections
import Mathlib.Logic.Relation

/-! # Closing a set with a worklist

`closure` adds to a set what follows its members, with a queue of the members whose followers are
still to be looked up. Where all followers are among finitely many nodes it terminates, and the
set it starts from and its queue determine the result up to order. -/

namespace OpenLander.Theory

variable {α : Type u} [DecidableEq α]

/-- A set with the members that are still to be looked up, both in the order of insertion. -/
structure Worklist (α : Type u) where
  seen : List α
  queue : List α

namespace Worklist

/-- A new member is queued. -/
def push (w : Worklist α) (a : α) : Worklist α :=
  if a ∈ w.seen then w else ⟨w.seen ++ [a], w.queue ++ [a]⟩

def pushAll (w : Worklist α) (l : List α) : Worklist α := l.foldl push w

variable {w : Worklist α} {a b : α} {l : List α}

@[simp] theorem mem_push_seen : b ∈ (w.push a).seen ↔ b ∈ w.seen ∨ b = a := by
  unfold push
  split <;> simp_all

theorem mem_push_queue : b ∈ (w.push a).queue ↔ b ∈ w.queue ∨ b = a ∧ a ∉ w.seen := by
  unfold push
  split <;> simp_all

@[simp] theorem mem_pushAll_seen : b ∈ (w.pushAll l).seen ↔ b ∈ w.seen ∨ b ∈ l := by
  have hpush : ∀ (w : Worklist α) (a : α), b ∈ (w.push a).seen ↔ b ∈ w.seen ∨ b = a :=
    fun _ _ => mem_push_seen
  rw [pushAll, foldl_iff_exists (p := fun w : Worklist α => b ∈ w.seen) hpush]
  simp

/-- What is pushed is queued, unless it was a member before. -/
theorem mem_pushAll_queue : b ∈ (w.pushAll l).queue ↔ b ∈ w.queue ∨ b ∈ l ∧ b ∉ w.seen := by
  induction l generalizing w with
  | nil => simp [pushAll]
  | cons a l ih =>
    rw [pushAll, List.foldl_cons, ← pushAll, ih, mem_push_queue, mem_push_seen, List.mem_cons]
    by_cases hba : b = a
    · subst hba
      simp
    · simp [hba]

/-- Each member that is pushed is a node less that is still to be seen. -/
theorem measure_pushAll {nodes : List α} (hl : l ⊆ nodes) :
    unseen nodes (w.pushAll l).seen + (w.pushAll l).queue.length ≤
      unseen nodes w.seen + w.queue.length := by
  induction l generalizing w with
  | nil => exact Nat.le_refl _
  | cons a l ih =>
    obtain ⟨ha, hl⟩ := List.cons_subset.mp hl
    apply Nat.le_trans (ih hl)
    unfold push
    split
    · exact Nat.le_refl _
    next hnot =>
      have hlt := unseen_insertLast_lt ha hnot
      rw [insertLast, if_neg hnot] at hlt
      simp only [List.length_append, List.length_singleton]
      omega

end Worklist

/-- A graph with finitely many followers. -/
structure Graph (α : Type u) where
  next : α → List α
  nodes : List α
  next_subset : ∀ a, next a ⊆ nodes

namespace Graph
variable (G : Graph α)

/-- `b` follows `a`. -/
def Edge (a b : α) : Prop := b ∈ G.next a

/-- Look up what follows the first of the queue, until it is empty. -/
def closure (seen : List α) : List α → List α
  | [] => seen
  | current :: queue =>
    closure (Worklist.pushAll ⟨seen, queue⟩ (G.next current)).seen
      (Worklist.pushAll ⟨seen, queue⟩ (G.next current)).queue
termination_by queue => unseen G.nodes seen + queue.length
decreasing_by
  have := Worklist.measure_pushAll (w := ⟨seen, queue⟩) (G.next_subset current)
  rw [List.length_cons]
  exact Nat.lt_succ_of_le this

variable {G} {seen queue : List α}

theorem subset_closure : seen ⊆ G.closure seen queue := by
  induction seen, queue using closure.induct G with
  | case1 seen =>
    rw [closure]
    exact List.Subset.refl seen
  | case2 seen current queue ih =>
    rw [closure]
    exact List.Subset.trans (fun b hb => Worklist.mem_pushAll_seen.mpr (.inl hb)) ih

/-- A member was there at the start, or is reached from the queue. -/
theorem reaches_of_mem_closure (hq : queue ⊆ seen) (h : b ∈ G.closure seen queue) :
    ∃ a ∈ seen, Relation.ReflTransGen G.Edge a b := by
  induction seen, queue using closure.induct G with
  | case1 seen =>
    rw [closure] at h
    exact ⟨b, h, .refl⟩
  | case2 seen current queue ih =>
    rw [closure] at h
    obtain ⟨hcurrent, hqueue⟩ := List.cons_subset.mp hq
    have hpushed : (Worklist.pushAll ⟨seen, queue⟩ (G.next current)).queue ⊆
        (Worklist.pushAll ⟨seen, queue⟩ (G.next current)).seen := by
      intro c hc
      rw [Worklist.mem_pushAll_seen]
      exact (Worklist.mem_pushAll_queue.mp hc).imp (fun hc => hqueue hc) (·.1)
    obtain ⟨a, ha, hab⟩ := ih hpushed h
    rcases Worklist.mem_pushAll_seen.mp ha with ha | ha
    · exact ⟨a, ha, hab⟩
    · exact ⟨current, hcurrent, .head ha hab⟩

/-- Where all members but those in the queue are followed by members, all members of the result
are. -/
theorem closed_closure (h : ∀ a ∈ seen, a ∉ queue → G.next a ⊆ seen) :
    ∀ a ∈ G.closure seen queue, G.next a ⊆ G.closure seen queue := by
  induction seen, queue using closure.induct G with
  | case1 seen =>
    rw [closure]
    exact fun a ha => h a ha (List.not_mem_nil)
  | case2 seen current queue ih =>
    rw [closure]
    apply ih
    intro a ha hnot b hb
    rw [Worklist.mem_pushAll_queue, not_or, not_and, not_not] at hnot
    rw [Worklist.mem_pushAll_seen] at ha ⊢
    by_cases hac : a = current
    · exact .inr (hac ▸ hb)
    · have hseen : a ∈ seen := ha.elim id fun ha => hnot.2 ha
      exact .inl (h a hseen (by simp [hac, hnot.1]) hb)

/-- The closure of a set is what its members reach. -/
theorem mem_closure_iff : b ∈ G.closure seen seen ↔
    ∃ a ∈ seen, Relation.ReflTransGen G.Edge a b := by
  constructor
  · exact reaches_of_mem_closure (List.Subset.refl seen)
  · rintro ⟨a, ha, hab⟩
    have hclosed : ∀ c ∈ G.closure seen seen, G.next c ⊆ G.closure seen seen :=
      closed_closure fun _ hc hnot => absurd hc hnot
    induction hab with
    | refl => exact subset_closure ha
    | tail _ hbc ih => exact hclosed _ ih hbc

end Graph

/-! ## Passes until nothing is added -/

/-- One pass over the edges of a graph: what follows a member becomes one. -/
def pass (edges : List (α × α)) (seen : List α) : List α :=
  edges.foldl (fun seen edge => if edge.1 ∈ seen then insertLast seen edge.2 else seen) seen

theorem subset_pass {edges : List (α × α)} {seen : List α} : seen ⊆ pass edges seen := by
  induction edges generalizing seen with
  | nil => exact List.Subset.refl seen
  | cons edge edges ih =>
    refine List.Subset.trans ?_ ih
    dsimp only
    split
    · exact fun a ha => mem_insertLast.mpr (.inl ha)
    · exact List.Subset.refl seen

theorem mem_pass_of_edge {edges : List (α × α)} {seen : List α} (hab : (a, b) ∈ edges)
    (ha : a ∈ seen) : b ∈ pass edges seen := by
  induction edges generalizing seen with
  | nil => exact nomatch hab
  | cons edge edges ih =>
    cases hab with
    | head =>
      rw [pass, List.foldl_cons, ← pass, if_pos ha]
      exact subset_pass (mem_insertLast.mpr (.inr rfl))
    | tail _ hab =>
      apply ih hab
      dsimp only
      split
      · exact mem_insertLast.mpr (.inl ha)
      · exact ha

theorem edge_of_mem_pass {edges : List (α × α)} {seen : List α} {start : α → Prop}
    (hseen : ∀ b ∈ seen, ∃ a, start a ∧ Relation.ReflTransGen (fun a b => (a, b) ∈ edges) a b) :
    ∀ b ∈ pass edges seen,
      ∃ a, start a ∧ Relation.ReflTransGen (fun a b => (a, b) ∈ edges) a b := by
  have hsub : edges ⊆ edges := List.Subset.refl edges
  suffices h : ∀ edges' ⊆ edges, ∀ b ∈ pass edges' seen,
      ∃ a, start a ∧ Relation.ReflTransGen (fun a b => (a, b) ∈ edges) a b from h edges hsub
  intro edges' hsub
  induction edges' generalizing seen with
  | nil => exact hseen
  | cons edge edges' ih =>
    obtain ⟨hedge, hsub⟩ := List.cons_subset.mp hsub
    refine ih ?_ hsub
    dsimp only
    split
    next hmem =>
      intro b hb
      obtain hb | rfl := mem_insertLast.mp hb
      · exact hseen b hb
      · obtain ⟨a, ha, hab⟩ := hseen edge.1 hmem
        exact ⟨a, ha, hab.tail hedge⟩
    · exact hseen

/-- A pass that changes something has seen a node more. -/
theorem pass_eq_or_lt {edges : List (α × α)} {seen nodes : List α} (h : edges.map (·.2) ⊆ nodes) :
    pass edges seen = seen ∨ unseen nodes (pass edges seen) < unseen nodes seen := by
  induction edges generalizing seen with
  | nil => exact .inl rfl
  | cons edge edges ih =>
    rw [List.map_cons, List.cons_subset] at h
    obtain ⟨hedge, h⟩ := h
    rw [pass, List.foldl_cons, ← pass]
    split
    next =>
      by_cases hnot : edge.2 ∈ seen
      · rw [insertLast, if_pos hnot]
        exact ih h
      · have hlt := unseen_insertLast_lt hedge hnot
        refine .inr ?_
        obtain heq | hless := @ih (insertLast seen edge.2) h
        · rw [heq]
          exact hlt
        · exact Nat.lt_trans hless hlt
    · exact ih h

/-- Go over the edges until a pass adds nothing. The number bounds the nodes still to be seen. -/
def saturateFrom (edges : List (α × α)) : Nat → List α → List α
  | 0, seen => seen
  | left + 1, seen =>
    if pass edges seen = seen then seen else saturateFrom edges left (pass edges seen)

def saturate (edges : List (α × α)) (seen : List α) : List α :=
  saturateFrom edges (unseen (edges.map (·.2)) seen) seen

theorem subset_saturateFrom {edges : List (α × α)} {seen : List α} :
    seen ⊆ saturateFrom edges left seen := by
  induction left generalizing seen with
  | zero => exact List.Subset.refl seen
  | succ left ih =>
    rw [saturateFrom]
    split
    · exact List.Subset.refl seen
    · exact List.Subset.trans subset_pass ih

theorem reaches_of_mem_saturateFrom {edges : List (α × α)} {seen : List α} {start : α → Prop}
    (hseen : ∀ b ∈ seen, ∃ a, start a ∧ Relation.ReflTransGen (fun a b => (a, b) ∈ edges) a b) :
    ∀ b ∈ saturateFrom edges left seen,
      ∃ a, start a ∧ Relation.ReflTransGen (fun a b => (a, b) ∈ edges) a b := by
  induction left generalizing seen with
  | zero => exact hseen
  | succ left ih =>
    rw [saturateFrom]
    split
    · exact hseen
    · exact ih (edge_of_mem_pass hseen)

/-- With the number of nodes it stops at a pass that adds nothing. -/
theorem pass_saturateFrom {edges : List (α × α)} {seen : List α}
    (h : unseen (edges.map (·.2)) seen ≤ left) :
    pass edges (saturateFrom edges left seen) = saturateFrom edges left seen := by
  induction left generalizing seen with
  | zero =>
    obtain hfix | (hlt : unseen _ (pass edges seen) < unseen _ seen) :=
      pass_eq_or_lt (List.Subset.refl (edges.map (·.2)))
    · exact hfix
    · exact absurd hlt (by omega)
  | succ left ih =>
    rw [saturateFrom]
    split
    next hfix => exact hfix
    next hnot =>
      have hlt := (pass_eq_or_lt (List.Subset.refl _)).resolve_left hnot
      exact ih (by omega)

/-- It adds what the members reach. -/
theorem mem_saturate_iff {edges : List (α × α)} {seen : List α} : b ∈ saturate edges seen ↔
    ∃ a ∈ seen, Relation.ReflTransGen (fun a b => (a, b) ∈ edges) a b := by
  constructor
  · exact reaches_of_mem_saturateFrom (fun a ha => ⟨a, ha, .refl⟩) b
  · rintro ⟨a, ha, hab⟩
    have hfix : pass edges (saturate edges seen) = saturate edges seen :=
      pass_saturateFrom (Nat.le_refl _)
    induction hab with
    | refl => exact subset_saturateFrom ha
    | tail _ hbc ih => exact hfix ▸ mem_pass_of_edge hbc ih

end OpenLander.Theory
