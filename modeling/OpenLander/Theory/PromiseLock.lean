import OpenLander.Theory.Client

/-! # A lock that is a chain of promises

Each call that takes the lock makes a promise of its own, which it resolves when its section has
ended, however that was. The lock is the promise of the last call, after all those before it; a call
enters its section when the lock it has found is settled.

A section is entered if and only if all earlier calls have ended (`Chained.enter_iff`), so that
sections never overlap and come in the order of the calls (`Chained`). What each section secures when
it is left alone holds when it ends (`Sections`). -/

namespace OpenLander.Theory

/-- Promises that resolve, by the calls that resolve them. -/
inductive Promise
  | resolved
  /-- `previous.then(() => current)` -/
  | after (previous : Promise) (current : Nat)
  deriving DecidableEq, Repr

namespace Promise

def settled (released : Nat → Bool) : Promise → Bool
  | resolved => true
  | after previous current => previous.settled released && released current

/-- The lock after `n` calls. -/
def chain : Nat → Promise
  | 0 => resolved
  | n + 1 => after (chain n) n

theorem settled_chain {released : Nat → Bool} {n : Nat} :
    (chain n).settled released ↔ ∀ i < n, released i := by
  induction n with
  | zero => exact ⟨fun _ i hi => absurd hi (Nat.not_lt_zero i), fun _ => rfl⟩
  | succ n ih =>
    rw [chain, settled, Bool.and_eq_true, ih]
    constructor
    · intro ⟨hearlier, hlast⟩ i hi
      obtain hi | rfl := Nat.lt_succ_iff_lt_or_eq.mp hi
      · exact hearlier i hi
      · exact hlast
    · intro h
      exact ⟨fun i hi => h i (Nat.lt_succ_of_lt hi), h n (Nat.lt_succ_self n)⟩

end Promise

namespace PromiseLock
variable {κ C ε α σ δ : Type} {R : C → Type}

inductive Phase (C : Type) (R : C → Type) (ε α : Type)
  | waiting
  | inside (rest : Client C R ε α)
  | ended (r : Except ε α)

structure Call (κ C : Type) (R : C → Type) (ε α : Type) where
  job : κ
  /-- The lock that the call has found. -/
  previous : Promise
  phase : Phase C R ε α := .waiting

structure State (κ C : Type) (R : C → Type) (ε α σ : Type) where
  store : σ
  lock : Promise := .resolved
  /-- In the order in which they were made. -/
  calls : List (Call κ C R ε α) := []

inductive Event (κ ε δ : Type)
  | call (job : κ)
  | enter (i : Nat)
  | step (i : Nat)
  /-- What the section calls does not answer. -/
  | fail (i : Nat) (e : ε)
  | release (i : Nat)
  /-- Something else happens to the store. -/
  | other (d : δ)
  deriving DecidableEq, Repr

namespace State
variable (s : State κ C R ε α σ)

def phase (i : Nat) : Option (Phase C R ε α) := s.calls[i]?.map (·.phase)

def ended (i : Nat) : Bool :=
  match s.phase i with
  | some (.ended _) => true
  | _ => false

/-- A call is made. -/
def push (job : κ) : State κ C R ε α σ :=
  { s with
    lock := .after s.lock s.calls.length
    calls := s.calls ++ [{ job, previous := s.lock }] }

def setPhase (i : Nat) (phase : Phase C R ε α) : State κ C R ε α σ :=
  { s with calls := s.calls.modify i fun call => { call with phase } }

end State

variable (serve : (c : C) → σ → Except ε (R c × σ)) (program : κ → Client C R ε α)
variable (other : δ → σ → σ)

def next (s : State κ C R ε α σ) : Event κ ε δ → Option (State κ C R ε α σ)
  | .call job => some (s.push job)
  | .enter i =>
    match s.calls[i]? with
    | some ⟨job, previous, .waiting⟩ =>
      if previous.settled s.ended then some (s.setPhase i (.inside (program job))) else none
    | _ => none
  | .step i =>
    match s.phase i with
    | some (.inside (.call c k)) =>
      match serve c s.store with
      | .ok (r, store) => some { s.setPhase i (.inside (k r)) with store := store }
      | .error e => some (s.setPhase i (.inside (.ret (.error e))))
    | _ => none
  | .fail i e =>
    match s.phase i with
    | some (.inside (.call _ _)) => some (s.setPhase i (.inside (.ret (.error e))))
    | _ => none
  | .release i =>
    match s.phase i with
    | some (.inside (.ret r)) => some (s.setPhase i (.ended r))
    | _ => none
  | .other d => some { s with store := other d s.store }

section
variable {serve program other} {s t : State κ C R ε α σ} {i j : Nat} {phase : Phase C R ε α}

/-! ## The phases -/

theorem State.setPhase_calls : (s.setPhase i phase).calls[j]? =
    if i = j then s.calls[j]?.map fun call => { call with phase } else s.calls[j]? := by
  rw [setPhase, List.getElem?_modify]
  by_cases h : i = j
  · rw [if_pos h]
    simp only [h, if_true]
    rfl
  · simp only [h, if_false]
    cases s.calls[j]? with
    | none => rfl
    | some call => rfl

theorem State.setPhase_phase :
    (s.setPhase i phase).phase j = if i = j then (s.phase j).map fun _ => phase else s.phase j := by
  rw [State.phase, setPhase_calls]
  by_cases h : i = j
  · rw [if_pos h, if_pos h, State.phase, Option.map_map, Option.map_map]
    rfl
  · rw [if_neg h, if_neg h, State.phase]

theorem State.setPhase_self {old : Phase C R ε α} (h : s.phase i = some old) :
    (s.setPhase i phase).phase i = some phase := by
  rw [setPhase_phase, if_pos rfl, h]
  rfl

theorem State.setPhase_of_ne (h : j ≠ i) : (s.setPhase i phase).phase j = s.phase j := by
  rw [setPhase_phase, if_neg h.symm]

theorem State.setPhase_length : (s.setPhase i phase).calls.length = s.calls.length :=
  List.length_modify ..

theorem State.push_calls {job : κ} : (s.push job).calls[j]? =
    if j = s.calls.length then some { job, previous := s.lock } else s.calls[j]? := by
  rw [push]
  obtain h | rfl | h := Nat.lt_trichotomy j s.calls.length
  · rw [if_neg (Nat.ne_of_lt h), List.getElem?_append_left h]
  · rw [if_pos rfl, List.getElem?_concat_length]
  · rw [if_neg (Nat.ne_of_gt h), List.getElem?_eq_none (Nat.le_of_lt h), List.getElem?_eq_none]
    rw [List.length_append, List.length_singleton]
    exact h

theorem State.push_phase {job : κ} (h : (s.push job).phase j = some phase)
    (hphase : phase ≠ .waiting) : s.phase j = some phase := by
  rw [State.phase, push_calls] at h
  split at h
  · exact absurd (Option.some.inj h).symm hphase
  · exact h

theorem State.push_phase_of_lt {job : κ} (h : j < s.calls.length) :
    (s.push job).phase j = s.phase j := by
  rw [State.phase, push_calls, if_neg (Nat.ne_of_lt h), State.phase]

theorem State.lt_length (h : s.phase j = some phase) : j < s.calls.length := by
  obtain ⟨call, hcall, -⟩ := Option.map_eq_some_iff.mp h
  exact (List.getElem?_eq_some_iff.mp hcall).1

/-- The section has been entered. -/
def State.Entered (s : State κ C R ε α σ) (i : Nat) : Prop :=
  ∃ phase, s.phase i = some phase ∧ phase ≠ .waiting

/-- The call is in its section. -/
def State.Inside (s : State κ C R ε α σ) (i : Nat) : Prop :=
  ∃ rest, s.phase i = some (.inside rest)

theorem State.ended_iff : s.ended i ↔ ∃ r, s.phase i = some (.ended r) := by
  rw [ended]
  constructor
  · intro h
    split at h
    · next r hr => exact ⟨r, hr⟩
    · exact nomatch h
  · intro ⟨r, hr⟩
    rw [hr]

theorem State.not_ended {old : Phase C R ε α} (h : s.phase i = some old)
    (hold : ∀ r, old ≠ .ended r) : ¬s.ended i := by
  intro hended
  obtain ⟨r, hr⟩ := ended_iff.mp hended
  exact hold r (Option.some.inj (h.symm.trans hr))

/-- Calls find the lock of those before them, and enter only when those have ended. -/
structure Chained (s : State κ C R ε α σ) : Prop where
  lock : s.lock = .chain s.calls.length
  previous : ∀ (i : Nat) (call : Call κ C R ε α), s.calls[i]? = some call → call.previous = .chain i
  order : ∀ i, s.Entered i → ∀ j < i, s.ended j

theorem Chained.init {store : σ} : Chained (⟨store, .resolved, []⟩ : State κ C R ε α σ) where
  lock := rfl
  previous _ _ h := nomatch h
  order _ h := let ⟨_, h, _⟩ := h; nomatch h

/-- A call enters exactly when all earlier ones have ended, whatever they ended with. -/
theorem Chained.enter_iff (h : Chained s) (hi : s.phase i = some .waiting) :
    (∃ t, next serve program other s (.enter i) = some t) ↔ ∀ j < i, s.ended j := by
  obtain ⟨⟨job, previous, phase⟩, hcall, rfl⟩ := Option.map_eq_some_iff.mp hi
  obtain rfl := h.previous i _ hcall
  rw [next, hcall, ← Promise.settled_chain]
  constructor
  · intro ⟨t, ht⟩
    by_cases hsettled : (Promise.chain i).settled s.ended
    · exact hsettled
    · exact nomatch (if_neg hsettled).symm.trans ht
  · intro hsettled
    exact ⟨_, if_pos hsettled⟩

theorem next_cases {e : Event κ ε δ} (h : next serve program other s e = some t) :
    (∃ job, t = s.push job) ∨
    (∃ i job previous, s.calls[i]? = some ⟨job, previous, .waiting⟩ ∧ previous.settled s.ended ∧
      t = s.setPhase i (.inside (program job))) ∨
    (∃ i c k r store, s.phase i = some (.inside (.call c k)) ∧ serve c s.store = .ok (r, store) ∧
      t = { s.setPhase i (.inside (k r)) with store := store }) ∨
    (∃ i c k e', s.phase i = some (.inside (.call c k)) ∧
      t = s.setPhase i (.inside (.ret (.error e')))) ∨
    (∃ i r, s.phase i = some (.inside (.ret r)) ∧ t = s.setPhase i (.ended r)) ∨
    ∃ d, t = { s with store := other d s.store } := by
  cases e with
  | call job => exact .inl ⟨job, (Option.some.inj h).symm⟩
  | enter i =>
    rw [next] at h
    split at h
    · next job previous hi =>
      split at h
      · next hsettled =>
        exact .inr (.inl ⟨i, job, previous, hi, hsettled, (Option.some.inj h).symm⟩)
      · exact nomatch h
    · exact nomatch h
  | step i =>
    rw [next] at h
    split at h
    · next c k hi =>
      split at h
      · next r store hr =>
        exact .inr (.inr (.inl ⟨i, c, k, r, store, hi, hr, (Option.some.inj h).symm⟩))
      · next e' _ => exact .inr (.inr (.inr (.inl ⟨i, c, k, e', hi, (Option.some.inj h).symm⟩)))
    · exact nomatch h
  | fail i e' =>
    rw [next] at h
    split at h
    · next c k hi =>
      exact .inr (.inr (.inr (.inl ⟨i, c, k, e', hi, (Option.some.inj h).symm⟩)))
    · exact nomatch h
  | release i =>
    rw [next] at h
    split at h
    · next r hi =>
      exact .inr (.inr (.inr (.inr (.inl ⟨i, r, hi, (Option.some.inj h).symm⟩))))
    · exact nomatch h
  | other d => exact .inr (.inr (.inr (.inr (.inr ⟨d, (Option.some.inj h).symm⟩))))

/-! ## Sections come one after the other -/

/-- A call that has not ended, with those before it ended, may go on. -/
theorem Chained.setPhase {old p : Phase C R ε α} (h : Chained s) (hi : s.phase i = some old)
    (hold : ∀ r, old ≠ .ended r) (hearlier : ∀ j < i, s.ended j) : Chained (s.setPhase i p) := by
  refine ⟨h.lock.trans (congrArg _ State.setPhase_length.symm), fun j call hj => ?_, ?_⟩
  · rw [State.setPhase_calls] at hj
    split at hj
    · obtain ⟨call, hcall, rfl⟩ := Option.map_eq_some_iff.mp hj
      exact h.previous j call hcall
    · exact h.previous j call hj
  · have hended {j} (hj : s.ended j) : (s.setPhase i p).ended j := by
      have hne : j ≠ i := fun h => State.not_ended hi hold (h ▸ hj)
      obtain ⟨r, hr⟩ := State.ended_iff.mp hj
      exact State.ended_iff.mpr ⟨r, (State.setPhase_of_ne hne).trans hr⟩
    intro k ⟨phase', hk, hphase'⟩ j hj
    by_cases hki : k = i
    · subst hki
      exact hended (hearlier j hj)
    · rw [State.setPhase_of_ne hki] at hk
      exact hended (h.order k ⟨phase', hk, hphase'⟩ j hj)

theorem Chained.earlier (h : Chained s) {rest : Client C R ε α}
    (hi : s.phase i = some (.inside rest)) : ∀ j < i, s.ended j :=
  h.order i ⟨_, hi, nofun⟩

theorem Chained.next {e : Event κ ε δ} (h : Chained s)
    (hstep : PromiseLock.next serve program other s e = some t) : Chained t := by
  obtain ⟨job, rfl⟩ | ⟨i, job, previous, hi, hsettled, rfl⟩ | ⟨i, c, k, r, store, hi, -, rfl⟩ |
    ⟨i, c, k, e', hi, rfl⟩ | ⟨i, r, hi, rfl⟩ | ⟨d, rfl⟩ := next_cases hstep
  · refine ⟨?_, fun j call hj => ?_, fun j ⟨phase, hj, hphase⟩ k hk => ?_⟩
    · rw [State.push, h.lock, List.length_append]
      rfl
    · rw [State.push_calls] at hj
      split at hj
      · next hlast =>
        obtain rfl := Option.some.inj hj
        exact hlast ▸ h.lock
      · exact h.previous j call hj
    · have hold := State.push_phase hj hphase
      have hended := h.order j ⟨phase, hold, hphase⟩ k hk
      obtain ⟨r, hr⟩ := State.ended_iff.mp hended
      exact State.ended_iff.mpr ⟨r, (State.push_phase_of_lt (State.lt_length hr)).trans hr⟩
  · have hphase : s.phase i = some .waiting := Option.map_eq_some_iff.mpr ⟨_, hi, rfl⟩
    obtain rfl := h.previous i _ hi
    exact h.setPhase hphase nofun (Promise.settled_chain.mp hsettled)
  · obtain ⟨hlock, hprevious, horder⟩ := h.setPhase (p := .inside (k r)) hi nofun (h.earlier hi)
    exact ⟨hlock, hprevious, horder⟩
  · exact h.setPhase hi nofun (h.earlier hi)
  · exact h.setPhase hi nofun (h.earlier hi)
  · exact ⟨h.lock, h.previous, h.order⟩

/-- No two calls are in their sections. -/
theorem Chained.inside_unique (h : Chained s) (hi : s.Inside i) (hj : s.Inside j) : i = j := by
  have not_lt {i j} (hi : s.Inside i) (hj : s.Inside j) : ¬i < j := by
    intro hlt
    obtain ⟨rest, hi⟩ := hi
    obtain ⟨rest', hj⟩ := hj
    exact State.not_ended hi nofun (h.earlier hj i hlt)
  exact Nat.le_antisymm (Nat.le_of_not_lt (not_lt hj hi)) (Nat.le_of_not_lt (not_lt hi hj))

/-! ## What sections end with -/

/-- The rest of a section secures `Q`, and what the last section has ended with holds. -/
structure Sections (serve : (c : C) → σ → Except ε (R c × σ)) (rely : σ → σ → Prop)
    (valid : σ → Prop) (Q : κ → Except ε α → σ → Prop) (s : State κ C R ε α σ) : Prop where
  chained : Chained s
  valid : valid s.store
  inside : ∀ (i : Nat) (call : Call κ C R ε α) rest, s.calls[i]? = some call → call.phase = .inside rest →
    rest.Secures serve (fun g _ _ => g) rely (fun _ _ _ => True) (fun r (_ : Unit) => Q call.job r)
      () s.store
  last : ∀ (i : Nat) (call : Call κ C R ε α) r, s.calls[i]? = some call → call.phase = .ended r →
    (∀ j, i < j → ¬s.Entered j) → Q call.job r s.store

theorem State.entered_of_calls {call : Call κ C R ε α} (h : s.calls[i]? = some call)
    (hphase : call.phase ≠ .waiting) : s.Entered i :=
  ⟨call.phase, Option.map_eq_some_iff.mpr ⟨call, h, rfl⟩, hphase⟩

theorem State.setPhase_entered (h : s.Entered j) (hphase : phase ≠ .waiting) :
    (s.setPhase i phase).Entered j := by
  obtain ⟨old, hj, hold⟩ := h
  by_cases hji : j = i
  · subst hji
    exact ⟨phase, State.setPhase_self hj, hphase⟩
  · exact ⟨old, (State.setPhase_of_ne hji).trans hj, hold⟩

variable {rely : σ → σ → Prop} {valid : σ → Prop} {Q : κ → Except ε α → σ → Prop}

/-- The one call that is inside goes on. -/
theorem Sections.advance {rest rest' : Client C R ε α} {store : σ}
    (h : Sections serve rely valid Q s) (hi : s.phase i = some (.inside rest))
    (hvalid : valid store) (hrest : ∀ call, s.calls[i]? = some call →
      rest'.Secures serve (fun g _ _ => g) rely (fun _ _ _ => True)
        (fun r (_ : Unit) => Q call.job r) () store) :
    Sections serve rely valid Q { s.setPhase i (.inside rest') with store := store } := by
  have hchained := h.chained.setPhase (p := .inside rest') hi nofun (h.chained.earlier hi)
  have hchained : Chained { s.setPhase i (.inside rest') with store := store } :=
    ⟨hchained.lock, hchained.previous, hchained.order⟩
  have hself : State.Inside { s.setPhase i (.inside rest') with store := store } i :=
    ⟨rest', State.setPhase_self hi⟩
  refine ⟨hchained, hvalid, fun j call rest'' hj hphase => ?_, fun j call r hj hphase hlast => ?_⟩
  · have hinside : State.Inside { s.setPhase i (.inside rest') with store := store } j :=
      ⟨rest'', Option.map_eq_some_iff.mpr ⟨call, hj, hphase⟩⟩
    obtain rfl := hchained.inside_unique hself hinside
    have hj : (s.setPhase i (.inside rest')).calls[i]? = some call := hj
    rw [State.setPhase_calls, if_pos rfl] at hj
    obtain ⟨old, hold, rfl⟩ := Option.map_eq_some_iff.mp hj
    obtain rfl := Phase.inside.inj hphase
    exact hrest old hold
  · -- a call that has ended comes before the one inside
    exfalso
    have hended : State.ended { s.setPhase i (.inside rest') with store := store } j :=
      State.ended_iff.mpr ⟨r, Option.map_eq_some_iff.mpr ⟨call, hj, hphase⟩⟩
    obtain ⟨_, hself'⟩ := hself
    obtain hlt | rfl | hlt := Nat.lt_trichotomy i j
    · have hentered := State.entered_of_calls (s := { s.setPhase i (.inside rest') with store })
        hj (hphase ▸ nofun)
      exact State.not_ended hself' nofun (hchained.order j hentered i hlt)
    · exact State.not_ended hself' nofun hended
    · exact hlast i hlt ⟨_, hself', nofun⟩

/-- One call changes its phase, and the store does not. -/
theorem Sections.setPhase (h : Sections serve rely valid Q s)
    (hchained : Chained (s.setPhase i phase)) (hphase : phase ≠ .waiting)
    (hinside : ∀ (call : Call κ C R ε α) rest, s.calls[i]? = some call → phase = .inside rest →
      rest.Secures serve (fun g _ _ => g) rely (fun _ _ _ => True)
        (fun r (_ : Unit) => Q call.job r) () s.store)
    (hended : ∀ (call : Call κ C R ε α) r, s.calls[i]? = some call → phase = .ended r →
      Q call.job r s.store) : Sections serve rely valid Q (s.setPhase i phase) := by
  refine ⟨hchained, h.valid, fun j call rest hj hrest => ?_, fun j call r hj hr hlast => ?_⟩
  · rw [State.setPhase_calls] at hj
    split at hj
    · next hij =>
      obtain ⟨old, hold, rfl⟩ := Option.map_eq_some_iff.mp hj
      exact hinside old rest (hij ▸ hold) hrest
    · exact h.inside j call rest hj hrest
  · rw [State.setPhase_calls] at hj
    split at hj
    · next hij =>
      obtain ⟨old, hold, rfl⟩ := Option.map_eq_some_iff.mp hj
      exact hended old r (hij ▸ hold) hr
    · exact h.last j call r hj hr fun k hk hentered =>
        hlast k hk (State.setPhase_entered hentered hphase)

theorem Sections.next {e : Event κ ε δ} (h : Sections serve rely valid Q s)
    (hstep : PromiseLock.next serve program other s e = some t)
    (hserve : ∀ c r store store', valid store → serve c store = .ok (r, store') → valid store')
    (hother : ∀ d store, valid store → valid (other d store) ∧ rely store (other d store))
    (hrefl : ∀ store, rely store store)
    (htrans : ∀ s₁ s₂ s₃, rely s₁ s₂ → rely s₂ s₃ → rely s₁ s₃)
    (hQ : ∀ job r store store', Q job r store → rely store store' → Q job r store')
    (herror : ∀ job e store, Q job (.error e) store)
    (hprogram : ∀ job store, valid store → (program job).Secures serve (fun g _ _ => g) rely
      (fun _ _ _ => True) (fun r (_ : Unit) => Q job r) () store) :
    Sections serve rely valid Q t := by
  have hchained := h.chained.next hstep
  obtain ⟨job, rfl⟩ | ⟨i, job, previous, hi, hsettled, rfl⟩ | ⟨i, c, k, r, store, hi, hr, rfl⟩ |
    ⟨i, c, k, e', hi, rfl⟩ | ⟨i, r, hi, rfl⟩ | ⟨d, rfl⟩ := next_cases hstep
  · refine ⟨hchained, h.valid, fun j call rest hj hrest => ?_, fun j call r hj hr hlast => ?_⟩
    · rw [State.push_calls] at hj
      split at hj
      · obtain rfl := Option.some.inj hj
        exact nomatch hrest
      · exact h.inside j call rest hj hrest
    · rw [State.push_calls] at hj
      split at hj
      · obtain rfl := Option.some.inj hj
        exact nomatch hr
      · refine h.last j call r hj hr fun k hk ⟨phase, hphase, hne⟩ => hlast k hk ⟨phase, ?_, hne⟩
        rw [State.push_phase_of_lt (State.lt_length hphase), hphase]
  · refine h.setPhase hchained nofun (fun call rest hcall hrest => ?_) nofun
    obtain rfl := Option.some.inj (hi.symm.trans hcall)
    obtain rfl := Phase.inside.inj hrest
    exact hprogram job s.store h.valid
  · refine h.advance hi (hserve c r s.store store h.valid hr) fun call hcall => ?_
    have hphase : call.phase = .inside (.call c k) := by
      obtain ⟨call', hcall', hphase⟩ := Option.map_eq_some_iff.mp hi
      rwa [Option.some.inj (hcall.symm.trans hcall')]
    exact h.inside i call _ hcall hphase s.store (hrefl _) trivial r store hr
  · exact h.advance hi h.valid fun call _ => herror call.job e' s.store
  · refine h.setPhase hchained nofun nofun fun call r' hcall hr' => ?_
    obtain rfl := Phase.ended.inj hr'
    obtain ⟨call', hcall', hphase⟩ := Option.map_eq_some_iff.mp hi
    obtain rfl := Option.some.inj (hcall.symm.trans hcall')
    exact h.inside i call _ hcall hphase
  · obtain ⟨hvalid, hrely⟩ := hother d s.store h.valid
    refine ⟨hchained, hvalid, fun j call rest hj hrest => ?_, fun j call r hj hr hlast => ?_⟩
    · exact (h.inside j call rest hj hrest).wait hrely htrans
        fun r _ store store' => hQ call.job r store store'
    · exact hQ _ _ _ _ (h.last j call r hj hr hlast) hrely

end
end PromiseLock
end OpenLander.Theory
