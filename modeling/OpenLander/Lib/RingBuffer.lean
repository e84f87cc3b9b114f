import Mathlib.Data.List.DropRight

/-! # Ring buffer

`RingBuffer` (`src/lib/ring-buffer.ts`). The entry of the `i`-th push since the last `clear` is in the
slot `i % capacity` until `capacity` more have been pushed; `refines` says that the buffer is the list of
the last pushes. -/

namespace OpenLander.Lib

structure RingBufferEntry (α : Type) where
  data : α
  timestamp : Int
  deriving DecidableEq

structure RingBuffer (α : Type) where
  capacity : Nat
  /-- The slots; one that has not been written holds nothing. -/
  entries : List (Option (RingBufferEntry α))
  writeIndex : Nat
  isFull : Bool
  capacity_pos : 0 < capacity
  length_entries : entries.length = capacity
  writeIndex_lt : writeIndex < capacity

namespace RingBuffer

variable {α : Type}

/-- What the constructor and `clear` leave. -/
def empty (capacity : Nat) (h : 0 < capacity) : RingBuffer α where
  capacity := capacity
  entries := List.replicate capacity none
  writeIndex := 0
  isFull := false
  capacity_pos := h
  length_entries := List.length_replicate
  writeIndex_lt := h

/-- The constructor, which throws on a capacity that is not positive. -/
def create (capacity : Int) : Except String (RingBuffer α) :=
  if h : capacity ≤ 0 then .error "Capacity must be greater than 0"
  else .ok (empty capacity.toNat (by omega))

theorem create_natural (capacity : Nat) (h : 0 < capacity) :
    (create capacity : Except String (RingBuffer α)) = .ok (empty capacity h) := by
  rw [create, dif_neg (by omega)]
  rfl

def push (b : RingBuffer α) (item : α) (now : Int) : RingBuffer α :=
  { b with
    entries := b.entries.set b.writeIndex (some ⟨item, now⟩)
    writeIndex := (b.writeIndex + 1) % b.capacity
    isFull := if (b.writeIndex + 1) % b.capacity = 0 then true else b.isFull
    length_entries := by rw [List.length_set, b.length_entries]
    writeIndex_lt := Nat.mod_lt _ b.capacity_pos }

def clear (b : RingBuffer α) : RingBuffer α := empty b.capacity b.capacity_pos

/-- The entries of the slots, in the order of the list, without the empty ones. -/
def readSlots (b : RingBuffer α) (slots : List Nat) : List (RingBufferEntry α) :=
  slots.filterMap fun i => (b.entries[i]?).join

def getAll (b : RingBuffer α) : List (RingBufferEntry α) :=
  if b.isFull then
    b.readSlots ((List.range b.capacity).map fun i => (b.writeIndex + i) % b.capacity)
  else b.readSlots (List.range b.writeIndex)

def getRecent (b : RingBuffer α) (n : Int) (since : Option Int) : List (RingBufferEntry α) :=
  if n ≤ 0 then []
  else
    let result := b.getAll.rtake n.toNat
    match since with
    | some since => result.filter fun entry => since ≤ entry.timestamp
    | none => result

def size (b : RingBuffer α) : Nat := if b.isFull then b.capacity else b.writeIndex

/-! ## Runs -/

inductive Operation (α : Type)
  /-- `now` is what the clock shows. -/
  | push (item : α) (now : Int)
  | clear

def step (b : RingBuffer α) : Operation α → RingBuffer α
  | .push item now => b.push item now
  | .clear => b.clear

def run (b : RingBuffer α) (ops : List (Operation α)) : RingBuffer α := ops.foldl step b

/-- What has been pushed since the last `clear`. -/
def pushed (l : List (RingBufferEntry α)) : Operation α → List (RingBufferEntry α)
  | .push item now => l ++ [⟨item, now⟩]
  | .clear => []

/-- The last pushes are in their slots. -/
structure Holds (b : RingBuffer α) (l : List (RingBufferEntry α)) : Prop where
  writeIndex : b.writeIndex = l.length % b.capacity
  isFull : b.isFull = true ↔ b.capacity ≤ l.length
  slot : ∀ i (h : i < l.length), l.length ≤ i + b.capacity →
    b.entries[i % b.capacity]? = some (some l[i])

theorem Holds.empty (capacity : Nat) (h : 0 < capacity) :
    (empty capacity h : RingBuffer α).Holds [] where
  writeIndex := (Nat.zero_mod _).symm
  isFull := iff_of_false Bool.false_ne_true (Nat.not_le.mpr h)
  slot := nofun

theorem Holds.push {b : RingBuffer α} (h : b.Holds l) (item : α) (now : Int) :
    (b.push item now).Holds (l ++ [⟨item, now⟩]) where
  writeIndex := by
    rw [List.length_append, List.length_singleton]
    show (b.writeIndex + 1) % b.capacity = (l.length + 1) % b.capacity
    rw [h.writeIndex, Nat.mod_add_mod]
  isFull := by
    rw [List.length_append, List.length_singleton]
    show (if (b.writeIndex + 1) % b.capacity = 0 then true else b.isFull) = true ↔
      b.capacity ≤ l.length + 1
    rw [h.writeIndex, Nat.mod_add_mod]
    split
    next hzero => exact iff_of_true rfl (Nat.le_of_dvd (Nat.succ_pos _) (Nat.dvd_of_mod_eq_zero hzero))
    next hne =>
      rw [h.isFull]
      refine ⟨fun hle => hle.trans (Nat.le_succ _), fun hle => ?_⟩
      refine Nat.le_of_lt_succ (lt_of_le_of_ne hle fun heq => hne ?_)
      rw [heq]
      exact Nat.mod_self _
  slot := by
    intro i hi hrecent
    have hpos := b.capacity_pos
    rw [List.length_append, List.length_singleton] at hi hrecent
    show (b.entries.set b.writeIndex (some ⟨item, now⟩))[i % b.capacity]? = _
    rw [h.writeIndex]
    by_cases heq : i = l.length
    · subst heq
      rw [List.getElem?_set_self]
      · rw [List.getElem_concat_length rfl]
      · rw [b.length_entries]
        exact Nat.mod_lt _ hpos
    · have hlt : i < l.length := by omega
      rw [List.getElem?_set_ne, List.getElem_append_left hlt]
      · exact h.slot i hlt (by change l.length + 1 ≤ i + b.capacity at hrecent; omega)
      · intro hslot
        change l.length + 1 ≤ i + b.capacity at hrecent
        have hdvd : b.capacity ∣ l.length - i :=
          Nat.dvd_of_mod_eq_zero (Nat.sub_mod_eq_zero_of_mod_eq hslot)
        have hle := Nat.le_of_dvd (by omega) hdvd
        omega

theorem Holds.step {b : RingBuffer α} (h : b.Holds l) (op : Operation α) :
    (b.step op).Holds (pushed l op) := by
  cases op with
  | push item now => exact h.push item now
  | clear => exact .empty b.capacity b.capacity_pos

theorem Holds.run {b : RingBuffer α} (h : b.Holds l) (ops : List (Operation α)) :
    (b.run ops).Holds (ops.foldl pushed l) := by
  induction ops generalizing b l with
  | nil => exact h
  | cons op ops ih => exact ih (h.step op)

@[simp] theorem capacity_step (b : RingBuffer α) (op : Operation α) :
    (b.step op).capacity = b.capacity := by
  cases op with
  | push _ _ => rfl
  | clear => rfl

@[simp] theorem capacity_run (b : RingBuffer α) (ops : List (Operation α)) :
    (b.run ops).capacity = b.capacity := by
  induction ops generalizing b with
  | nil => rfl
  | cons op ops ih => exact (ih (b.step op)).trans (capacity_step b op)

/-! ## Reading -/

theorem filterMap_range (l : List α) : (List.range l.length).filterMap (l[·]?) = l := by
  have hmap : (List.range l.length).map (l[·]?) = l.map some := by
    refine List.ext_getElem? fun i => ?_
    rw [List.getElem?_map, List.getElem?_map]
    by_cases hi : i < l.length
    · rw [List.getElem?_range hi, List.getElem?_eq_getElem hi]
      exact congrArg some (List.getElem?_eq_getElem hi)
    · rw [List.getElem?_eq_none (by rw [List.length_range]; omega), List.getElem?_eq_none (by omega)]
      rfl
  have hid := congrArg (List.filterMap id) hmap
  rw [List.filterMap_map, List.filterMap_map] at hid
  exact hid.trans List.filterMap_some

/-- Reading the slots of the last pushes gives these pushes. -/
theorem Holds.readSlots {b : RingBuffer α} (h : b.Holds l) (hrecent : l.length ≤ n + b.capacity) :
    b.readSlots ((List.range (l.length - n)).map fun i => (n + i) % b.capacity) = l.drop n := by
  have hslots : ∀ i ∈ List.range (l.drop n).length,
      (b.entries[(n + i) % b.capacity]?).join = (l.drop n)[i]? := by
    intro i hi
    have hlt := List.mem_range.mp hi
    rw [List.length_drop] at hlt
    rw [h.slot (n + i) (by omega) (by omega), List.getElem?_drop, List.getElem?_eq_getElem (by omega)]
    rfl
  rw [RingBuffer.readSlots, List.filterMap_map, ← List.length_drop]
  exact (List.filterMap_congr hslots).trans (filterMap_range _)

theorem Holds.getAll {b : RingBuffer α} (h : b.Holds l) : b.getAll = l.rtake b.capacity := by
  unfold RingBuffer.getAll
  split
  next hfull =>
    have hle := h.isFull.mp hfull
    have hslots : (List.range b.capacity).map (fun i => (b.writeIndex + i) % b.capacity) =
        (List.range (l.length - (l.length - b.capacity))).map
          fun i => (l.length - b.capacity + i) % b.capacity := by
      rw [show l.length - (l.length - b.capacity) = b.capacity by omega]
      refine List.map_congr_left fun i _ => ?_
      rw [h.writeIndex, Nat.mod_add_mod, ← Nat.add_mod_right (l.length - b.capacity + i)]
      congr 1
      omega
    rw [hslots, h.readSlots (by omega)]
    rfl
  next hfull =>
    have hlt : l.length < b.capacity := Nat.not_le.mp (mt h.isFull.mpr hfull)
    have hslots : List.range b.writeIndex =
        (List.range (l.length - 0)).map fun i => (0 + i) % b.capacity := by
      rw [h.writeIndex, Nat.mod_eq_of_lt hlt]
      refine (List.map_id _).symm.trans (List.map_congr_left fun i hi => ?_)
      have hi := List.mem_range.mp hi
      rw [Nat.zero_add, Nat.mod_eq_of_lt (by omega)]
      rfl
    rw [hslots, h.readSlots (by omega), List.rtake, Nat.sub_eq_zero_of_le (Nat.le_of_lt hlt)]

theorem Holds.size {b : RingBuffer α} (h : b.Holds l) : b.size = (l.rtake b.capacity).length := by
  rw [List.rtake, List.length_drop, RingBuffer.size]
  split
  next hfull =>
    have hle := h.isFull.mp hfull
    omega
  next hfull =>
    have hlt : l.length < b.capacity := Nat.not_le.mp (mt h.isFull.mpr hfull)
    rw [h.writeIndex, Nat.mod_eq_of_lt hlt]
    omega

theorem getRecent_natural (b : RingBuffer α) (n : Nat) : b.getRecent n none = b.getAll.rtake n := by
  unfold getRecent
  split
  next hn =>
    obtain rfl : n = 0 := by omega
    exact (List.rtake_zero _).symm
  next => rfl

/-- After any run the buffer is the list of the last pushes since the last `clear`. -/
theorem refines (capacity : Nat) (hpos : 0 < capacity) (ops : List (Operation α)) (n : Nat) :
    let b := (empty capacity hpos : RingBuffer α).run ops
    let recent := (ops.foldl pushed []).rtake capacity
    b.getAll = recent ∧ b.getRecent n none = recent.rtake n ∧ b.size = recent.length := by
  intro b recent
  have h : b.Holds (ops.foldl pushed []) := (Holds.empty capacity hpos).run ops
  have hcapacity : b.capacity = capacity := capacity_run _ ops
  have hall : b.getAll = recent := by rw [h.getAll, hcapacity]
  refine ⟨hall, ?_, ?_⟩
  · rw [getRecent_natural, hall]
  · rw [h.size, hcapacity]

theorem refines_wrapped :
    let ops := [.push 1 10, .clear, .push 2 20, .push 3 30, .push 4 40]
    let b := (empty 2 (by decide) : RingBuffer Nat).run ops
    let recent := (ops.foldl pushed []).rtake 2
    b.getAll = recent ∧ b.getRecent 1 none = recent.rtake 1 ∧ b.size = recent.length :=
  refines 2 (by decide) _ 1

end RingBuffer

end OpenLander.Lib
