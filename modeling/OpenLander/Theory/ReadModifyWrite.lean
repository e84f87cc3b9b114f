import OpenLander.Theory.Run

/-! # Read, modify, write

An `Update` reads something of a store and later writes the store from what it read. `next`
interleaves any number of them. A write is `Fresh` if the store gets what the update would make of
it if it were run now, in one step. If all writes of a run are fresh, the updates that have written
have an order in which they lead to the store when each is run in one step (`serial_of_fresh`). -/

namespace OpenLander.Theory

structure Update (σ : Type u) (ρ : Type v) (ε : Type w) where
  read : σ → Except ε ρ
  write : ρ → σ → σ

namespace Update
variable {σ : Type u} {ρ : Type v} {ε : Type w} {ι : Type x}

/-- The update in one step. -/
def run (u : Update σ ρ ε) (store : σ) : Except ε σ := (u.read store).map (u.write · store)

inductive Phase (ρ : Type v)
  | waiting
  | read (value : ρ)
  | written
  | failed
  deriving DecidableEq, Repr

inductive Event (ι : Type x)
  | read (i : ι)
  | write (i : ι)
  /-- The store does not answer. -/
  | fail (i : ι)
  deriving DecidableEq, Repr

structure State (σ : Type u) (ρ : Type v) (ι : Type x) where
  store : σ
  phase : ι → Phase ρ

def State.start (store : σ) : State σ ρ ι := ⟨store, fun _ => .waiting⟩

/-- No update has read and not yet written. -/
def State.Completed (s : State σ ρ ι) : Prop := ∀ i value, s.phase i ≠ .read value

variable [DecidableEq ι] (updates : ι → Update σ ρ ε)

def State.to (s : State σ ρ ι) (i : ι) (phase : Phase ρ) : State σ ρ ι :=
  { s with phase := fun j => if j = i then phase else s.phase j }

def next (s : State σ ρ ι) : Event ι → Option (State σ ρ ι)
  | .read i =>
    match s.phase i with
    | .waiting =>
      match (updates i).read s.store with
      | .ok value => some (s.to i (.read value))
      | .error _ => some (s.to i .failed)
    | _ => none
  | .write i =>
    match s.phase i with
    | .read value => some { s.to i .written with store := (updates i).write value s.store }
    | _ => none
  | .fail i =>
    match s.phase i with
    | .waiting | .read _ => some (s.to i .failed)
    | _ => none

/-- What the update has read gives the store the same value as the store now. -/
def Fresh (s : State σ ρ ι) (e : Event ι) : Prop :=
  ∀ i value, e = .write i → s.phase i = .read value →
    (updates i).run s.store = .ok ((updates i).write value s.store)

/-- The store is what the updates of the list leave if they run one after the other. -/
def Serial (store : σ) (s : State σ ρ ι) (order : List ι) : Prop :=
  order.Nodup ∧ (∀ i, i ∈ order ↔ s.phase i = .written) ∧
    order.foldlM (fun store i => (updates i).run store) store = .ok s.store

section
variable {updates} {s t : State σ ρ ι} {order : List ι} {i j : ι} {phase : Phase ρ}

@[simp] theorem State.to_store : (s.to i phase).store = s.store := rfl

theorem State.to_self : (s.to i phase).phase i = phase := if_pos rfl

theorem State.to_of_ne (h : j ≠ i) : (s.to i phase).phase j = s.phase j := if_neg h

/-- A step is a write, or leaves the store and what has been written. -/
theorem next_cases (h : next updates s e = some t) :
    (∃ i value, e = .write i ∧ s.phase i = .read value ∧
      t = { s.to i .written with store := (updates i).write value s.store }) ∨
    (t.store = s.store ∧ ∀ i, t.phase i = .written ↔ s.phase i = .written) := by
  have hto {i phase} (hs : s.phase i ≠ .written) (hphase : phase ≠ .written) (j) :
      (s.to i phase).phase j = .written ↔ s.phase j = .written := by
    by_cases hj : j = i
    · subst hj
      rw [State.to_self]
      exact ⟨fun h => absurd h hphase, fun h => absurd h hs⟩
    · rw [State.to_of_ne hj]
  cases e with
  | read i =>
    rw [next] at h
    split at h
    · next hs =>
      have hs : s.phase i ≠ .written := hs ▸ nofun
      split at h
      · obtain rfl := Option.some.inj h
        exact .inr ⟨rfl, hto hs nofun⟩
      · obtain rfl := Option.some.inj h
        exact .inr ⟨rfl, hto hs nofun⟩
    · exact nomatch h
  | write i =>
    rw [next] at h
    split at h
    · next value hs => exact .inl ⟨i, value, rfl, hs, (Option.some.inj h).symm⟩
    · exact nomatch h
  | fail i =>
    rw [next] at h
    split at h
    · next hs =>
      obtain rfl := Option.some.inj h
      exact .inr ⟨rfl, hto (hs ▸ nofun) nofun⟩
    · next hs =>
      obtain rfl := Option.some.inj h
      exact .inr ⟨rfl, hto (hs ▸ nofun) nofun⟩
    · exact nomatch h

omit [DecidableEq ι] in
theorem Serial.start {store : σ} : Serial updates store (.start store) [] :=
  ⟨.nil, fun _ => ⟨fun h => absurd h List.not_mem_nil, nofun⟩, rfl⟩

theorem Serial.step {store : σ} (h : next updates s e = some t) (hfresh : Fresh updates s e)
    (hs : Serial updates store s order) : ∃ order', Serial updates store t order' := by
  obtain ⟨hnodup, hmem, hfold⟩ := hs
  obtain ⟨i, value, rfl, hi, rfl⟩ | ⟨hstore, hphase⟩ := next_cases h
  · have hnot : i ∉ order := fun h => nomatch hi.symm.trans ((hmem i).mp h)
    refine ⟨order ++ [i], List.nodup_append.mpr ⟨hnodup, List.pairwise_singleton _ i, ?_⟩, ?_, ?_⟩
    · intro j hj k hk
      rw [List.mem_singleton.mp hk]
      exact fun h => hnot (h ▸ hj)
    · intro j
      rw [List.mem_append, List.mem_singleton]
      by_cases hj : j = i
      · exact ⟨fun _ => hj ▸ State.to_self, fun _ => .inr hj⟩
      · refine Iff.trans ⟨fun h => h.resolve_right hj, .inl⟩ ((hmem j).trans ?_)
        exact iff_of_eq (congrArg (· = _) (State.to_of_ne hj).symm)
    · rw [List.foldlM_append, hfold]
      change ((updates i).run s.store >>= pure) = _
      rw [hfresh i value rfl hi]
      rfl
  · exact ⟨order, hnodup, fun i => (hmem i).trans (hphase i).symm, hstore ▸ hfold⟩

/-- A run all of whose writes are fresh is serial. -/
theorem serial_of_fresh {store : σ}
    (h : Run (Guarded (Fires (next updates)) (Fresh updates)) (.start store) es t) :
    ∃ order, Serial updates store t order :=
  h.invariant (I := fun s => ∃ order, Serial updates store s order)
    (fun _ _ _ ⟨hstep, hfresh⟩ ⟨_, hs⟩ => hs.step hstep hfresh) ⟨[], .start⟩

/-- What one update sees to, and the others keep, is so after all of them. -/
theorem foldlM_establishes {p : σ → Prop} {a b : σ}
    (hfold : order.foldlM (fun store i => (updates i).run store) a = .ok b)
    (hp : ∀ a b, (updates i).run a = .ok b → p b)
    (hkeep : ∀ j ∈ order, j ≠ i → ∀ a b, (updates j).run a = .ok b → p a → p b)
    (h : p a ∨ i ∈ order) : p b := by
  induction order generalizing a with
  | nil =>
    obtain rfl := Except.ok.inj hfold
    exact h.resolve_right List.not_mem_nil
  | cons j order ih =>
    rw [List.foldlM_cons] at hfold
    cases hj : (updates j).run a with
    | error => exact nomatch hj ▸ hfold
    | ok c =>
      rw [hj] at hfold
      refine ih hfold (fun k hk => hkeep k (.tail _ hk)) ?_
      by_cases hji : j = i
      · subst hji
        exact .inl (hp a c hj)
      · obtain h | h := h
        · exact .inl (hkeep j (.head _) hji a c hj h)
        · exact .inr ((List.mem_cons.mp h).resolve_left (Ne.symm hji))

theorem Serial.establishes {store : σ} {p : σ → Prop} (hs : Serial updates store s order)
    (hi : s.phase i = .written) (hp : ∀ a b, (updates i).run a = .ok b → p b)
    (hkeep : ∀ j, s.phase j = .written → j ≠ i → ∀ a b, (updates j).run a = .ok b → p a → p b) :
    p s.store :=
  let ⟨_, hmem, hfold⟩ := hs
  foldlM_establishes hfold hp (fun j hj => hkeep j ((hmem j).mp hj)) (.inr ((hmem i).mpr hi))

end
end Update
end OpenLander.Theory
