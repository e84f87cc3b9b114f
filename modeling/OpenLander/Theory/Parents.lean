import Mathlib.Data.Fintype.Card
import Mathlib.Data.Set.Finite.Basic
import Mathlib.Logic.Relation
import Mathlib.Order.WellFounded

/-! # Parent pointers

Each node has a parent or none, and the parents may run in a circle. What is above a node is a chain:
of two nodes above it one is above the other. In a list whose nodes are not above themselves, each
node is below a topmost one. -/

namespace OpenLander.Theory.Parents

variable {α : Type u} (parent : α → Option α)

/-- The pointers lead from `a` to `p` in one step or more. -/
def Above : α → α → Prop := Relation.TransGen fun p a => parent a = some p

/-- No node of the list is above. -/
def Topmost (l : List α) (a : α) : Prop := ∀ b ∈ l, ¬Above parent b a

variable {parent} {a b c p q : α} {l : List α}

theorem Above.of_parent (h : parent a = some p) : Above parent p a := .single h

theorem Above.trans (h : Above parent a b) (h' : Above parent b c) : Above parent a c :=
  Relation.TransGen.trans h h'

theorem above_iff (h : parent a = some q) : Above parent p a ↔ p = q ∨ Above parent p q := by
  rw [Above, Relation.TransGen.tail'_iff]
  constructor
  · rintro ⟨q', hp, hq'⟩
    obtain rfl := Option.some.inj (h.symm.trans hq')
    exact Relation.reflTransGen_iff_eq_or_transGen.mp hp |>.imp_left Eq.symm
  · intro hp
    exact ⟨q, Relation.reflTransGen_iff_eq_or_transGen.mpr (hp.imp_left Eq.symm), h⟩

theorem not_above_of_none (h : parent a = none) : ¬Above parent p a := by
  intro hp
  obtain ⟨q, -, hq⟩ := Relation.TransGen.tail'_iff.mp hp
  exact nomatch h.symm.trans hq

/-- What is above a node whose parent is among nodes that have their parents among them is there too. -/
theorem Above.mem_of_closed {S : α → Prop} (h : Above parent p a) (ha : ∀ q, parent a = some q → S q)
    (hclosed : ∀ b, S b → ∀ q, parent b = some q → S q) : S p := by
  induction h using Relation.TransGen.head_induction_on with
  | single h => exact ha _ h
  | head h _ ih => exact hclosed _ ih _ h

/-- Of two nodes above another, one is above the other. -/
theorem Above.total (hp : Above parent p a) (hq : Above parent q a) :
    p = q ∨ Above parent p q ∨ Above parent q p := by
  induction hp with
  | single h =>
    rcases (above_iff h).mp hq with rfl | hq
    · exact .inl rfl
    · exact .inr (.inr hq)
  | tail hp h ih =>
    rcases (above_iff h).mp hq with rfl | hq
    · exact .inr (.inl hp)
    · exact ih hq

/-- All that is above a node of a circle is on the circle. -/
theorem Above.of_circle (hp : Above parent p a) (ha : Above parent a a) : Above parent a p := by
  induction hp with
  | single h =>
    rcases (above_iff h).mp ha with rfl | hap
    · exact ha
    · exact hap
  | @tail b a _ h ih =>
    have hba : Above parent b a := .of_parent h
    rcases (above_iff h).mp ha with rfl | hab
    · exact ih ha
    · exact hab.trans (ih (hba.trans hab))

/-- Each node of the list is below a topmost one, if none is above itself. -/
theorem exists_topmost (hl : ∀ a ∈ l, ¬Above parent a a) (ha : a ∈ l) :
    ∃ top ∈ l, Topmost parent l top ∧ (top = a ∨ Above parent top a) := by
  let r : {b // b ∈ l} → {b // b ∈ l} → Prop := fun b c => Above parent b.1 c.1
  have : IsTrans {b // b ∈ l} r := ⟨fun _ _ _ h h' => Above.trans h h'⟩
  have : Std.Irrefl r := ⟨fun b => hl b.1 b.2⟩
  have : Finite {b // b ∈ l} := l.finite_toSet.to_subtype
  have hwf : WellFounded r := Finite.wellFounded_of_trans_of_irrefl r
  obtain ⟨top, htop, hmin⟩ :=
    hwf.has_min {b | b.1 = a ∨ Above parent b.1 a} ⟨⟨a, ha⟩, .inl rfl⟩
  refine ⟨top.1, top.2, fun b hb hbt => hmin ⟨b, hb⟩ ?_ hbt, htop⟩
  rcases htop with htop | htop
  · exact .inr (htop ▸ hbt)
  · exact .inr (hbt.trans htop)

end OpenLander.Theory.Parents
