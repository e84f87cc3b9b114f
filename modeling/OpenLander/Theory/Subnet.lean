import Mathlib.Data.Nat.Basic
import Mathlib.Tactic.Ring
import Mathlib.Algebra.Order.Ring.Nat

/-! # Subnets

A subnet of an address space of `w` bits is the block of the addresses that share their first `len`
bits, which as a number are its `index`. Blocks of one length partition the addresses, and a longer
prefix refines a shorter one: two blocks overlap only where one is within the other. -/

namespace OpenLander.Theory

structure Subnet (w : Nat) where
  len : Nat
  index : Nat
  len_le : len ≤ w
  index_lt : index < 2 ^ len
  deriving DecidableEq

namespace Subnet
variable {w : Nat} (S T P : Subnet w)

@[ext] theorem ext' {S T : Subnet w} (hlen : S.len = T.len) (hindex : S.index = T.index) : S = T := by
  obtain ⟨len, index, _, _⟩ := S
  obtain ⟨len', index', _, _⟩ := T
  obtain rfl : len = len' := hlen
  obtain rfl : index = index' := hindex
  rfl

/-- How many addresses the subnet has. -/
def size : Nat := 2 ^ (w - S.len)

def first : Nat := S.index * S.size

def last : Nat := S.first + S.size - 1

def Contains (a : Nat) : Prop := a / S.size = S.index

/-- Some address is in both. -/
def Overlaps : Prop := ∃ a, S.Contains a ∧ T.Contains a

def Within : Prop := ∀ a, S.Contains a → T.Contains a

theorem size_pos : 0 < S.size := Nat.two_pow_pos _

theorem contains_iff : S.Contains a ↔ S.first ≤ a ∧ a ≤ S.last := by
  rw [Contains, Nat.div_eq_iff S.size_pos, last, first]

theorem contains_first : S.Contains S.first := Nat.mul_div_cancel _ S.size_pos

theorem overlaps_iff : S.Overlaps T ↔ S.first ≤ T.last ∧ T.first ≤ S.last := by
  have hS := S.size_pos
  have hT := T.size_pos
  simp only [Overlaps, contains_iff]
  constructor
  · rintro ⟨a, ⟨h₁, h₂⟩, h₃, h₄⟩
    exact ⟨h₁.trans h₄, h₃.trans h₂⟩
  · rintro ⟨h₁, h₂⟩
    refine ⟨max S.first T.first, ⟨Nat.le_max_left _ _, ?_⟩, Nat.le_max_right _ _, ?_⟩
    · exact Nat.max_le.mpr ⟨by rw [last]; omega, h₂⟩
    · exact Nat.max_le.mpr ⟨h₁, by rw [last]; omega⟩

theorem overlaps_self : S.Overlaps S := ⟨S.first, S.contains_first, S.contains_first⟩

/-- Subnets of one length overlap only with themselves. -/
theorem overlaps_iff_eq {S T : Subnet w} (hlen : S.len = T.len) : S.Overlaps T ↔ S = T := by
  constructor
  · rintro ⟨a, hS, hT⟩
    have hsize : S.size = T.size := by rw [size, size, hlen]
    exact ext' hlen (hS.symm.trans ((congrArg (a / ·) hsize).trans hT))
  · rintro rfl
    exact S.overlaps_self

/-- The subnet of an address. -/
def ofAddress (a len : Nat) (ha : a < 2 ^ w) (hlen : len ≤ w) : Subnet w where
  len
  index := a / 2 ^ (w - len)
  len_le := hlen
  index_lt := by
    rw [Nat.div_lt_iff_lt_mul (Nat.two_pow_pos _), ← Nat.pow_add, Nat.add_sub_cancel' hlen]
    exact ha

theorem first_lt : S.first < 2 ^ w := by
  calc S.first < 2 ^ S.len * S.size := Nat.mul_lt_mul_of_pos_right S.index_lt S.size_pos
    _ = 2 ^ w := by rw [size, ← Nat.pow_add, Nat.add_sub_cancel' S.len_le]

theorem ofAddress_first : ofAddress S.first S.len S.first_lt S.len_le = S :=
  ext' rfl S.contains_first

/-! ## The subnets of a subnet -/

/-- The subnets of length `len` within `P`, by their number. -/
def child (len : Nat) (hlen : P.len ≤ len) (hle : len ≤ w) (i : Nat) (hi : i < 2 ^ (len - P.len)) :
    Subnet w where
  len
  index := P.index * 2 ^ (len - P.len) + i
  len_le := hle
  index_lt := by
    calc P.index * 2 ^ (len - P.len) + i < (P.index + 1) * 2 ^ (len - P.len) := by
          rw [Nat.add_mul, Nat.one_mul]
          exact Nat.add_lt_add_left hi _
      _ ≤ 2 ^ P.len * 2 ^ (len - P.len) := Nat.mul_le_mul_right _ P.index_lt
      _ = 2 ^ len := by rw [← Nat.pow_add, Nat.add_sub_cancel' hlen]

section
variable {S P : Subnet w}

theorem size_eq_mul (hlen : P.len ≤ S.len) : P.size = S.size * 2 ^ (S.len - P.len) := by
  have hadd : w - P.len = (w - S.len) + (S.len - P.len) := by
    have := S.len_le
    omega
  rw [size, size, hadd, Nat.pow_add]

/-- A longer subnet is within a shorter one exactly if it begins there. -/
theorem within_iff (hlen : P.len ≤ S.len) : S.Within P ↔ S.index / 2 ^ (S.len - P.len) = P.index := by
  have hdiv (a : Nat) (ha : S.Contains a) : a / P.size = S.index / 2 ^ (S.len - P.len) := by
    rw [size_eq_mul hlen, ← Nat.div_div_eq_div_mul, ha]
  constructor
  · intro h
    rw [← hdiv _ S.contains_first]
    exact h _ S.contains_first
  · intro h a ha
    rw [Contains, hdiv a ha, h]

theorem child_within {len : Nat} {hlen : P.len ≤ len} {hle : len ≤ w} {i : Nat} (hi : i < 2 ^ (len - P.len)) :
    (P.child len hlen hle i hi).Within P := by
  rw [within_iff (S := P.child len hlen hle i hi) hlen]
  change (P.index * 2 ^ (len - P.len) + i) / 2 ^ (len - P.len) = P.index
  rw [Nat.mul_comm, Nat.mul_add_div (Nat.two_pow_pos _), Nat.div_eq_of_lt hi, Nat.add_zero]

theorem first_child {len : Nat} {hlen : P.len ≤ len} {hle : len ≤ w} {i : Nat} (hi : i < 2 ^ (len - P.len)) :
    (P.child len hlen hle i hi).first = P.first + i * 2 ^ (w - len) := by
  have hsize : P.size = 2 ^ (w - len) * 2 ^ (len - P.len) :=
    size_eq_mul (S := P.child len hlen hle i hi) hlen
  change (P.index * 2 ^ (len - P.len) + i) * 2 ^ (w - len) = P.index * P.size + i * 2 ^ (w - len)
  rw [hsize]
  ring

/-- The subnets of one length within `P` are its children. -/
theorem within_iff_child (hlen : P.len ≤ S.len) : S.Within P ↔
    ∃ i, ∃ hi : i < 2 ^ (S.len - P.len), S = P.child S.len hlen S.len_le i hi := by
  constructor
  · intro h
    refine ⟨S.index % 2 ^ (S.len - P.len), Nat.mod_lt _ (Nat.two_pow_pos _), ext' rfl ?_⟩
    change S.index = P.index * 2 ^ (S.len - P.len) + S.index % 2 ^ (S.len - P.len)
    rw [← (within_iff hlen).mp h, Nat.mul_comm, Nat.div_add_mod]
  · rintro ⟨i, hi, heq⟩
    rw [heq]
    exact child_within hi

end

end Subnet

end OpenLander.Theory
