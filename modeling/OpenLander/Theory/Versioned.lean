/-! # Cells read and written at different times

A party that reads a shared cell, awaits something and writes the cell later acts on a copy that
may be out of date. `Versioned` counts the writes of a cell. A copy that was once read is
`Before` the cell from then on, and a copy of the version of the cell is the cell. -/

namespace OpenLander.Theory

structure Versioned (α : Type u) where
  value : α
  /-- The number of writes so far. -/
  version : Nat := 0
  deriving DecidableEq, Repr

namespace Versioned
variable {α : Type u} {copy cell : Versioned α}

def write (cell : Versioned α) (value : α) : Versioned α := ⟨value, cell.version + 1⟩

@[simp] theorem write_value (cell : Versioned α) (v : α) : (cell.write v).value = v := rfl

@[simp] theorem write_version (cell : Versioned α) (v : α) :
    (cell.write v).version = cell.version + 1 := rfl

/-- `copy` was read from `cell` at some time. -/
def Before (copy cell : Versioned α) : Prop := copy = cell ∨ copy.version < cell.version

theorem Before.refl : Before cell cell := .inl rfl

theorem Before.write (h : Before copy cell) (v : α) : Before copy (cell.write v) := by
  rcases h with rfl | h
  · exact .inr (Nat.lt_succ_self _)
  · exact .inr (Nat.lt_succ_of_lt h)

/-- If the cell was not written since, the copy is what it holds. -/
theorem Before.eq_of_version (h : Before copy cell) (hv : copy.version = cell.version) :
    copy = cell := by
  rcases h with h | h
  · exact h
  · exact absurd hv (Nat.ne_of_lt h)

end Versioned
end OpenLander.Theory
