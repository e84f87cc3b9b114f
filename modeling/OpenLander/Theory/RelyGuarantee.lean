import OpenLander.Theory.Pool

/-! # Rely and guarantee

Programs that share a store, where each relies on what the steps of the others do, and guarantees
what its own do. `p.Guarantees rely guar Q s` is about what is left of a program once the store is
`s`: as long as the others' steps together are in `rely`, every step of the program is in `guar`, and
it ends in `Q`. In a pool where what each job guarantees is something that the others rely on, every
step is guaranteed by the job that takes it (`Guaranteed.advance`), whatever the order of the steps.

Here a job has a place of its own, so that no two jobs of one place ever run. -/

namespace OpenLander.Theory

variable {σ τ : Type u} {ε : Type v} {α β : Type w}

namespace Prog

/-- With others in `rely`, the steps are in `guar`, and the end is in `Q`. -/
def Guarantees (rely guar : σ → σ → Prop) (Q : Except ε α → σ → Prop) : Prog σ ε α → σ → Prop
  | .ret r, s => Q r s
  | .step f k, s => ∀ s', rely s s' → guar s' (f s') ∧ Guarantees rely guar Q (k s') (f s')

section
variable {p : Prog σ ε α} {rely guar guar' : σ → σ → Prop} {Q Q' : Except ε α → σ → Prop}

theorem Guarantees.mono (h : p.Guarantees rely guar Q s) (hguar : ∀ s s', guar s s' → guar' s s')
    (hQ : ∀ r s, Q r s → Q' r s) : p.Guarantees rely guar' Q' s := by
  induction p generalizing s with
  | ret r => exact hQ r s h
  | step f k ih => exact fun s' hs' => ⟨hguar _ _ (h s' hs').1, ih s' (h s' hs').2⟩

/-- What is left of a program waits for its turn. -/
theorem Guarantees.wait (h : p.Guarantees rely guar Q s) (hs : rely s s')
    (htrans : ∀ s₁ s₂ s₃, rely s₁ s₂ → rely s₂ s₃ → rely s₁ s₃)
    (hQ : ∀ r s s', Q r s → rely s s' → Q r s') : p.Guarantees rely guar Q s' := by
  cases p with
  | ret r => exact hQ r s s' h hs
  | step f k => exact fun s'' hs'' => h s'' (htrans _ _ _ hs hs'')

theorem Guarantees.handle {h : Except ε α → Prog σ ε β} {Q' : Except ε β → σ → Prop}
    (hp : p.Guarantees rely guar Q s) (hh : ∀ r s', Q r s' → (h r).Guarantees rely guar Q' s') :
    (p.handle h).Guarantees rely guar Q' s := by
  induction p generalizing s with
  | ret r => exact hh r s hp
  | step f k ih => exact fun s' hs' => ⟨(hp s' hs').1, ih s' (hp s' hs').2⟩

theorem Guarantees.bind {k : α → Prog σ ε β} {Q' : Except ε β → σ → Prop}
    (hp : p.Guarantees rely guar Q s)
    (ok : ∀ a s', Q (.ok a) s' → (k a).Guarantees rely guar Q' s')
    (error : ∀ e s', Q (.error e) s' → Q' (.error e) s') :
    (p >>= k).Guarantees rely guar Q' s := by
  refine hp.handle fun r s' hr => ?_
  cases r with
  | ok a => exact ok a s' hr
  | error e => exact error e s' hr

theorem Guarantees.tryCatch {k : ε → Prog σ ε α} (hp : p.Guarantees rely guar Q s)
    (ok : ∀ a s', Q (.ok a) s' → Q' (.ok a) s')
    (error : ∀ e s', Q (.error e) s' → (k e).Guarantees rely guar Q' s') :
    (tryCatch p k).Guarantees rely guar Q' s := by
  refine hp.handle fun r s' hr => ?_
  cases r with
  | ok a => exact ok a s' hr
  | error e => exact error e s' hr

theorem Guarantees.pure {a : α} (h : Q (.ok a) s) :
    (pure a : Prog σ ε α).Guarantees rely guar Q s := h

theorem Guarantees.throw {e : ε} (h : Q (.error e) s) :
    (throw e : Prog σ ε α).Guarantees rely guar Q s := h

theorem Guarantees.read {g : σ → α} (hguar : ∀ s, guar s s)
    (h : ∀ s', rely s s' → Q (.ok (g s')) s') : (read g : Prog σ ε α).Guarantees rely guar Q s :=
  fun s' hs' => ⟨hguar s', h s' hs'⟩

theorem Guarantees.modify {f : σ → σ} {Q : Except ε PUnit → σ → Prop}
    (h : ∀ s', rely s s' → guar s' (f s') ∧ Q (.ok ⟨⟩) (f s')) :
    (modify f : Prog σ ε PUnit).Guarantees rely guar Q s := h

/-- A program whose steps are in `guar` wherever they are taken. -/
theorem Steps.guarantees (h : p.Steps guar) : p.Guarantees rely guar (fun _ _ => True) s := by
  induction p generalizing s with
  | ret r => trivial
  | step f k ih => exact fun s' _ => ⟨(h s').1, ih s' (h s').2⟩

end

/-! ## Local variables -/

section
variable {rely guar : σ → σ → Prop}

/-- What others do next to variables that they do not touch. -/
def besideVars (rely : σ → σ → Prop) (s s' : σ × τ) : Prop := rely s.1 s'.1 ∧ s'.2 = s.2

theorem Guarantees.withVars {p : Prog (σ × τ) ε α} {Q : Except ε α → σ × τ → Prop}
    {R : Except ε α → σ → Prop}
    (h : p.Guarantees (besideVars rely) (fun s s' => guar s.1 s'.1) Q (s, t))
    (hQ : ∀ r s t, Q r (s, t) → R r s) : (p.withVars t).Guarantees rely guar R s := by
  induction p generalizing s t with
  | ret r => exact hQ r s t h
  | step f k ih =>
    intro s' hs'
    have hstep := h (s', t) ⟨hs', rfl⟩
    exact ⟨hstep.1, ih (s', t) hstep.2⟩

theorem Guarantees.lift {p : Prog σ ε α} {Q : Except ε α → σ → Prop}
    (h : p.Guarantees rely guar Q s) :
    (p.lift : Prog (σ × τ) ε α).Guarantees (besideVars rely) (fun s s' => guar s.1 s'.1)
      (fun r st => Q r st.1 ∧ st.2 = t) (s, t) := by
  induction p generalizing s with
  | ret r => exact ⟨h, rfl⟩
  | step f k ih =>
    intro (s', t') hs'
    obtain ⟨hrely, rfl⟩ := hs'
    exact ⟨(h s' hrely).1, ih s' (h s' hrely).2⟩

end

end Prog

/-! ## Pools -/

namespace Pool

variable {ι : Type y} {κ : Type z} {ρ : Type x} {P : Pool ι κ σ ε α ρ}
variable {rely guar : ι → σ → σ → Prop} {starts : ι → σ → Prop}

/-- Each job relies and guarantees, and each place without a job is ready for one. -/
structure Guaranteed (rely guar : ι → σ → σ → Prop) (starts : ι → σ → Prop) (P : Pool ι κ σ ε α ρ) :
    Prop where
  jobs : ∀ i job p, P.jobs i = some (job, p) →
    p.Guarantees (rely i) (guar i) (fun _ _ => True) P.store
  starts : ∀ i, P.jobs i = none → starts i P.store

theorem Guaranteed.init (h : ∀ i, starts i s) :
    (init s : Pool ι κ σ ε α ρ).Guaranteed rely guar starts where
  jobs _ _ _ hjob := nomatch hjob
  starts i _ := h i

/-- What a job guarantees, the others rely on. -/
structure Agree (rely guar : ι → σ → σ → Prop) (starts : ι → σ → Prop) : Prop where
  trans : ∀ i s₁ s₂ s₃, rely i s₁ s₂ → rely i s₂ s₃ → rely i s₁ s₃
  guar : ∀ i j s s', i ≠ j → guar j s s' → rely i s s'
  starts : ∀ i s s', starts i s → rely i s s' → starts i s'

inductive Action (ι : Type y) (κ : Type z)
  | start (job : κ)
  | step (i : ι)
  deriving DecidableEq, Repr

section
variable [DecidableEq ι] [DecidableEq ρ] {held : σ → Finset ρ}

omit [DecidableEq ρ] in
theorem Guaranteed.begin (h : P.Guaranteed rely guar starts) (hnone : P.jobs i = none)
    (hp : starts i P.store →
      p.Guarantees (rely i) (guar i) (fun _ _ => True) P.store) :
    (P.begin i job p).Guaranteed rely guar starts where
  jobs j job' p' hj := by
    by_cases hji : j = i
    · subst hji
      obtain ⟨rfl, rfl⟩ : job = job' ∧ p = p' := by simpa [Pool.begin] using hj
      exact hp (h.starts j hnone)
    · exact h.jobs j job' p' (by simpa [Pool.begin, hji] using hj)
  starts j hj := by
    by_cases hji : j = i
    · subst hji
      simp [Pool.begin] at hj
    · exact h.starts j (by simpa [Pool.begin, hji] using hj)

omit [DecidableEq ι] [DecidableEq ρ] in
theorem Guaranteed.step_guar (h : P.Guaranteed rely guar starts) (hrefl : ∀ i s, rely i s s)
    (hjob : P.jobs i = some (job, .step f k)) : guar i P.store (f P.store) :=
  (h.jobs i job _ hjob P.store (hrefl i P.store)).1

theorem Guaranteed.advance (h : P.Guaranteed rely guar starts) (hagree : Agree rely guar starts)
    (hrefl : ∀ i s, rely i s s) (hjob : P.jobs i = some (job, .step f k)) :
    (P.advance held i job (f P.store) (k P.store)).Guaranteed rely guar starts where
  jobs j job' p hj := by
    by_cases hji : j = i
    · subst hji
      obtain ⟨rfl, rfl⟩ : job = job' ∧ k P.store = p := by simpa [Pool.advance] using hj
      exact (h.jobs j job _ hjob P.store (hrefl j P.store)).2
    · have hrely := hagree.guar j i _ _ hji (h.step_guar hrefl hjob)
      exact (h.jobs j job' p (by simpa [Pool.advance, hji] using hj)).wait hrely (hagree.trans j)
        fun _ _ _ _ _ => trivial
  starts j hj := by
    by_cases hji : j = i
    · subst hji
      simp [Pool.advance] at hj
    · have hrely := hagree.guar j i _ _ hji (h.step_guar hrefl hjob)
      exact hagree.starts j _ _ (h.starts j (by simpa [Pool.advance, hji] using hj)) hrely

/-- Start a job at its place, or take the next step of one. -/
def act (held : σ → Finset ρ) (program : κ → Prog σ ε α) (place : κ → ι) (P : Pool ι κ σ ε α ρ) :
    Action ι κ → Option (Pool ι κ σ ε α ρ)
  | .start job => next held program P (.start (place job) job)
  | .step i => next held program P (.step i)

variable {program : κ → Prog σ ε α} {place : κ → ι}

theorem act_cases {P' : Pool ι κ σ ε α ρ} (h : Fires (act held program place) P a P') :
    (∃ job, a = .start job ∧ P.jobs (place job) = none ∧
      P' = P.begin (place job) job (program job)) ∨
    ∃ i job f k, a = .step i ∧ P.jobs i = some (job, .step f k) ∧
      P' = P.advance held i job (f P.store) (k P.store) := by
  cases a with
  | start job =>
    obtain ⟨i, job', he, hnone, rfl⟩ | ⟨i, job', f, k, he, -, -⟩ :=
      next_cases (show Fires (next held program) P (.start (place job) job) P' from h)
    · cases he
      exact .inl ⟨job, rfl, hnone, rfl⟩
    · cases he
  | step i =>
    obtain ⟨j, job', he, -, -⟩ | ⟨j, job', f, k, he, hjob, rfl⟩ :=
      next_cases (show Fires (next held program) P (.step i) P' from h)
    · cases he
    · cases he
      exact .inr ⟨i, job', f, k, rfl, hjob, rfl⟩

/-- Where programs guarantee from where they start, the pool stays guaranteed. -/
theorem Guaranteed.act (hagree : Agree rely guar starts) (hrefl : ∀ i s, rely i s s)
    (hprogram : ∀ job s, starts (place job) s →
      (program job).Guarantees (rely (place job)) (guar (place job)) (fun _ _ => True) s) :
    Preserves (Fires (Pool.act held program place))
      (Guaranteed rely guar starts : Pool ι κ σ ε α ρ → Prop) := by
  intro P a P' hstep h
  obtain ⟨job, -, hnone, rfl⟩ | ⟨i, job, f, k, -, hjob, rfl⟩ := act_cases hstep
  · exact h.begin hnone (hprogram job P.store)
  · exact h.advance hagree hrefl hjob

end

end Pool

end OpenLander.Theory
