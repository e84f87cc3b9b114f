import Mathlib.Algebra.GroupWithZero.Nat
import Mathlib.Data.List.Basic

/-! # Patterns that backtrack

A pattern gives all ways in which it matches at the start of a text, the preferred one first, each with what is
left of the text. A search for all matches goes through the text from left to right, and `scan` lists what it
finds. The matches cover the text if and only if they are as long as the text, whatever length means. -/

namespace OpenLander.Theory

/-- The values of the matches at the start of a list, with what is left of it. -/
def Pattern (α : Type u) (β : Type v) := List α → List (β × List α)

namespace Pattern
variable {α : Type u} {β γ : Type v} {p : Pattern α β} {s : List α}

instance : Monad (Pattern α) where
  pure b s := [(b, s)]
  bind p f s := (p s).flatMap fun m => f m.1 m.2

def char (accepts : α → Bool) : Pattern α α
  | c :: s => if accepts c then [(c, s)] else []
  | [] => []

/-- As many as there are, then fewer. -/
def many (accepts : α → Bool) : Pattern α (List α)
  | c :: s => (if accepts c then (many accepts s).map fun m => (c :: m.1, m.2) else []) ++ [([], c :: s)]
  | [] => [([], [])]

def many1 (accepts : α → Bool) : Pattern α (List α) := fun s => (many accepts s).filter fun m => !m.1.isEmpty

def optional (p : Pattern α β) : Pattern α (Option β) := fun s =>
  (p s).map (fun m => (some m.1, m.2)) ++ [(none, s)]

/-- One of the words, in their order. -/
def word [BEq α] (text : β → List α) (words : List β) : Pattern α β := fun s =>
  (words.filter fun b => (text b).isPrefixOf s).map fun b => (b, s.drop (text b).length)

/-- The match at the start of the list. -/
def first (p : Pattern α β) (s : List α) : Option (β × List α) := (p s).head?

/-- A match of the whole list. -/
def test (p : Pattern α β) (s : List α) : Bool := (p s).any fun m => m.2.isEmpty

/-! ## Matches -/

@[simp] theorem mem_pure : m ∈ (pure b : Pattern α β) s ↔ m = (b, s) := List.mem_singleton

theorem mem_bind {f : β → Pattern α γ} :
    m ∈ (p >>= f) s ↔ ∃ b r, (b, r) ∈ p s ∧ m ∈ f b r := by
  refine List.mem_flatMap.trans ⟨?_, ?_⟩
  · rintro ⟨⟨b, r⟩, hp, hm⟩
    exact ⟨b, r, hp, hm⟩
  · rintro ⟨b, r, hp, hm⟩
    exact ⟨(b, r), hp, hm⟩

theorem mem_char : (c, r) ∈ char accepts s ↔ s = c :: r ∧ accepts c = true := by
  cases s with
  | nil => exact ⟨nofun, fun h => nomatch h.1⟩
  | cons a s =>
    rw [char, List.cons.injEq]
    split
    next ha =>
      rw [List.mem_singleton, Prod.mk.injEq]
      constructor
      · rintro ⟨rfl, rfl⟩
        exact ⟨⟨rfl, rfl⟩, ha⟩
      · rintro ⟨⟨rfl, rfl⟩, _⟩
        exact ⟨rfl, rfl⟩
    next ha =>
      refine ⟨nofun, ?_⟩
      rintro ⟨⟨rfl, _⟩, hc⟩
      exact absurd hc ha

theorem mem_many : (x, r) ∈ many accepts s ↔ s = x ++ r ∧ ∀ c ∈ x, accepts c = true := by
  induction s generalizing x with
  | nil =>
    rw [many, List.mem_singleton, Prod.mk.injEq]
    constructor
    · rintro ⟨rfl, rfl⟩
      exact ⟨rfl, nofun⟩
    · rintro ⟨h, _⟩
      exact List.append_eq_nil_iff.mp h.symm
  | cons a s ih =>
    rw [many, List.mem_append, List.mem_singleton, Prod.mk.injEq]
    constructor
    · rintro (hm | ⟨rfl, rfl⟩)
      · split at hm
        next ha =>
          obtain ⟨⟨x', r'⟩, hrest, heq⟩ := List.mem_map.mp hm
          obtain ⟨rfl, rfl⟩ := Prod.mk.inj heq
          obtain ⟨rfl, hall⟩ := ih.mp hrest
          exact ⟨rfl, List.forall_mem_cons.mpr ⟨ha, hall⟩⟩
        · cases hm
      · exact ⟨rfl, nofun⟩
    · rintro ⟨heq, hall⟩
      cases x with
      | nil => exact .inr ⟨rfl, heq.symm⟩
      | cons c x =>
        obtain ⟨rfl, rfl⟩ := List.cons.inj heq
        rw [List.forall_mem_cons] at hall
        rw [if_pos hall.1]
        exact .inl (List.mem_map.mpr ⟨(x, r), ih.mpr ⟨rfl, hall.2⟩, rfl⟩)

theorem mem_many1 :
    (x, r) ∈ many1 accepts s ↔ x ≠ [] ∧ s = x ++ r ∧ ∀ c ∈ x, accepts c = true := by
  rw [many1, List.mem_filter, mem_many]
  simp only [Bool.not_eq_true', List.isEmpty_eq_false_iff]
  exact and_comm

theorem mem_optional :
    (x, r) ∈ optional p s ↔ (∃ b, x = some b ∧ (b, r) ∈ p s) ∨ x = none ∧ r = s := by
  rw [optional, List.mem_append, List.mem_singleton, Prod.mk.injEq]
  refine or_congr_left ?_
  simp only [List.mem_map, Prod.mk.injEq]
  constructor
  · rintro ⟨⟨b, _⟩, hm, rfl, rfl⟩
    exact ⟨b, rfl, hm⟩
  · rintro ⟨b, rfl, hm⟩
    exact ⟨(b, r), hm, rfl, rfl⟩

theorem mem_word [BEq α] [LawfulBEq α] {text : β → List α} :
    (b, r) ∈ word text words s ↔ b ∈ words ∧ s = text b ++ r := by
  simp only [word, List.mem_map, List.mem_filter, List.isPrefixOf_iff_prefix, Prod.mk.injEq]
  constructor
  · rintro ⟨b, ⟨hb, t, rfl⟩, rfl, rfl⟩
    exact ⟨hb, by rw [List.drop_left]⟩
  · rintro ⟨hb, rfl⟩
    exact ⟨b, ⟨hb, List.prefix_append ..⟩, rfl, List.drop_left⟩

theorem test_eq_true_iff : p.test s = true ↔ ∃ b, (b, []) ∈ p s := by
  rw [test, List.any_eq_true]
  constructor
  · rintro ⟨⟨b, r⟩, hm, hr⟩
    rw [List.isEmpty_iff] at hr
    exact ⟨b, hr ▸ hm⟩
  · rintro ⟨b, hm⟩
    exact ⟨(b, []), hm, rfl⟩

theorem mem_of_first (h : p.first s = some m) : m ∈ p s := List.mem_of_head? h

theorem first_isSome (h : m ∈ p s) : ∃ m', p.first s = some m' :=
  Option.isSome_iff_exists.mp (List.isSome_head?.mpr (List.ne_nil_of_mem h))

/-- What is preferred is preferred at one of the matches of the first pattern. -/
theorem exists_of_first_bind {f : β → Pattern α γ} (h : (p >>= f).first s = some m) :
    ∃ b r, (b, r) ∈ p s ∧ (f b).first r = some m := by
  have hfind : (p s).findSome? (fun m => (f m.1 m.2).head?) = some m := List.head?_flatMap.symm.trans h
  obtain ⟨⟨b, r⟩, hm, hf⟩ := List.exists_of_findSome?_eq_some hfind
  exact ⟨b, r, hm, hf⟩

theorem first_bind_pure (f : β → γ) :
    (p >>= fun b => pure (f b)).first s = (p.first s).map fun m => (f m.1, m.2) := by
  refine List.head?_flatMap.trans ?_
  rw [first]
  cases p s <;> rfl

/-! ## All matches -/

/-- No match is empty. -/
def Consuming (p : Pattern α β) : Prop := ∀ ⦃s b r⦄, (b, r) ∈ p s → ∃ text, text ≠ [] ∧ s = text ++ r

/-- The matches of a pattern without empty matches, one after the other, with their texts. The number is what
is left of the last one. -/
def scan (p : Pattern α β) : Nat → List α → List (List α × β)
  | _, [] => []
  | left + 1, _ :: s => scan p left s
  | 0, c :: s =>
    match p.first (c :: s) with
    | some (b, r) =>
      let length := (c :: s).length - r.length
      ((c :: s).take length, b) :: scan p (length - 1) s
    | none => scan p 0 s

/-- Matches that follow each other without a gap. -/
inductive Tiles (p : Pattern α β) : List α → List (List α × β) → Prop
  | nil : Tiles p [] []
  | cons : p.first (text ++ rest) = some (b, rest) → Tiles p rest l →
    Tiles p (text ++ rest) ((text, b) :: l)

theorem scan_left (p : Pattern α β) (left : Nat) (s : List α) : scan p left s = scan p 0 (s.drop left) := by
  induction s generalizing left with
  | nil => cases left <;> rfl
  | cons c s ih =>
    cases left with
    | zero => rfl
    | succ left => exact ih left

theorem scan_of_first (hp : p.Consuming) (h : p.first (text ++ r) = some (b, r)) :
    scan p 0 (text ++ r) = (text, b) :: scan p 0 r := by
  obtain ⟨text', hne, heq⟩ := hp (mem_of_first h)
  obtain rfl := List.append_cancel_right heq
  cases text with
  | nil => exact absurd rfl hne
  | cons c text =>
    rw [List.cons_append] at h ⊢
    rw [scan, h]
    have hlength : (c :: (text ++ r)).length - r.length = (c :: text).length := by simp; omega
    simp only [hlength, scan_left p _ (text ++ r)]
    rw [← List.cons_append, List.take_left, List.length_cons, Nat.add_sub_cancel, List.drop_left]

theorem Tiles.scan_eq (hp : p.Consuming) (h : Tiles p s l) : scan p 0 s = l := by
  induction h with
  | nil => rfl
  | cons hfirst _ ih => rw [scan_of_first hp hfirst, ih]

section
variable (weight : α → Nat)

/-- The length of a list whose elements have different lengths. -/
def size (s : List α) : Nat := (s.map weight).sum

def consumed (l : List (List α × β)) : Nat := (l.map fun m => size weight m.1).sum

theorem size_append (s t : List α) : size weight (s ++ t) = size weight s + size weight t := by
  rw [size, List.map_append, List.sum_append]
  rfl

theorem consumed_cons (m : List α × β) (l : List (List α × β)) :
    consumed weight (m :: l) = size weight m.1 + consumed weight l := by
  rw [consumed, List.map_cons, List.sum_cons]
  rfl

/-- Matches do not overlap, and where there is a gap they are shorter than the list. -/
theorem consumed_scan_le (hp : p.Consuming) (hweight : ∀ a, 0 < weight a) (s : List α) :
    consumed weight (scan p 0 s) ≤ size weight s ∧
      (consumed weight (scan p 0 s) = size weight s → Tiles p s (scan p 0 s)) := by
  generalize hn : s.length = n
  induction n using Nat.strongRecOn generalizing s with
  | ind n ih =>
    subst hn
    cases hfirst : p.first s with
    | some m =>
      obtain ⟨b, r⟩ := m
      obtain ⟨text, hne, rfl⟩ := hp (mem_of_first hfirst)
      have hlt : r.length < (text ++ r).length := by
        rw [List.length_append]
        have := List.length_pos_iff.mpr hne
        omega
      obtain ⟨hle, htiles⟩ := ih _ hlt r rfl
      rw [scan_of_first hp hfirst, consumed_cons, size_append]
      refine ⟨Nat.add_le_add_left hle _, fun heq => ?_⟩
      exact .cons hfirst (htiles (Nat.add_left_cancel heq))
    | none =>
      cases s with
      | nil => exact ⟨Nat.le_refl _, fun _ => .nil⟩
      | cons c s =>
        obtain ⟨hle, -⟩ := ih _ (Nat.lt_succ_self s.length) s rfl
        have hpos := hweight c
        have hsize : size weight (c :: s) = weight c + size weight s := by
          rw [size, List.map_cons, List.sum_cons]
          rfl
        rw [scan, hfirst]
        dsimp only
        exact ⟨by omega, fun heq => by omega⟩

theorem size_of_tiles (h : Tiles p s l) : consumed weight l = size weight s := by
  induction h with
  | nil => rfl
  | cons _ _ ih => rw [consumed_cons, size_append, ih]

theorem consumed_eq_iff (hp : p.Consuming) (hweight : ∀ a, 0 < weight a) :
    consumed weight (scan p 0 s) = size weight s ↔ Tiles p s (scan p 0 s) :=
  ⟨(consumed_scan_le weight hp hweight s).2, size_of_tiles weight⟩

end

end Pattern

end OpenLander.Theory
