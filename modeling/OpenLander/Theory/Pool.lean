import Mathlib.Data.Finset.Basic
import OpenLander.Theory.Prog
import OpenLander.Theory.Run

/-! # Programs that run side by side

A pool runs programs over one store, a step of one of them at a time. The store holds resources, and
the pool keeps account of who took them: `Pool.part` of a program is what steps of its own have put
into the store, as far as the store still holds it.

`p.Owns held part Q` says that `p` gives up nothing but what is its own, and ends with a part that
`Q` is about; `p.Tidy held` that it ends with nothing. The programs of jobs that are not tidy are only
known to give nothing up. Then the parts of a pool are disjoint and together make up what the store
holds (`Divided.next`), and what a job that is not tidy takes is never given back, so that only tidy
jobs have taken anything if the parts of the others are empty in the end (`clean_iff`). -/

namespace OpenLander.Theory

variable {σ : Type u} {ε : Type v} {α β : Type w} {ρ : Type x} [DecidableEq ρ] {held : σ → Finset ρ}

/-- What is left of a part, and what comes to it, in a step of its own. -/
def ownPart (part before after : Finset ρ) : Finset ρ := part ∩ after ∪ after \ before

@[simp] theorem mem_ownPart {part before after : Finset ρ} :
    r ∈ ownPart part before after ↔ r ∈ after ∧ (r ∈ part ∨ r ∉ before) := by
  simp only [ownPart, Finset.mem_union, Finset.mem_inter, Finset.mem_sdiff]
  tauto

namespace Prog

/-- With `part` of what the store holds, the program gives up nothing else, and ends in `Q`. -/
def Owns (held : σ → Finset ρ) : Prog σ ε α → Finset ρ → (Except ε α → Finset ρ → Prop) → Prop
  | .ret r, part, Q => Q r part
  | .step f k, part, Q => ∀ s, part ⊆ held s → held s \ held (f s) ⊆ part ∧
      Owns held (k s) (ownPart part (held s) (held (f s))) Q

section
variable {p : Prog σ ε α} {part : Finset ρ} {Q R : Except ε α → Finset ρ → Prop}

theorem Owns.mono (h : p.Owns held part R) (hQ : ∀ r part', R r part' → Q r part') :
    p.Owns held part Q := by
  induction p generalizing part with
  | ret r => exact hQ r part h
  | step f k ih => exact fun s hs => ⟨(h s hs).1, ih s (h s hs).2⟩

theorem Owns.handle {h : Except ε α → Prog σ ε β} {Q : Except ε β → Finset ρ → Prop}
    (hp : p.Owns held part R) (hh : ∀ r part', R r part' → (h r).Owns held part' Q) :
    (p.handle h).Owns held part Q := by
  induction p generalizing part with
  | ret r => exact hh r part hp
  | step f k ih => exact fun s hs => ⟨(hp s hs).1, ih s (hp s hs).2⟩

theorem Owns.bind {k : α → Prog σ ε β} {Q : Except ε β → Finset ρ → Prop}
    (hp : p.Owns held part R) (ok : ∀ a part', R (.ok a) part' → (k a).Owns held part' Q)
    (error : ∀ e part', R (.error e) part' → Q (.error e) part') :
    (p >>= k).Owns held part Q := by
  refine hp.handle fun r part' hr => ?_
  cases r with
  | ok a => exact ok a part' hr
  | error e => exact error e part' hr

theorem Owns.tryCatch {k : ε → Prog σ ε α} (hp : p.Owns held part R)
    (ok : ∀ a part', R (.ok a) part' → Q (.ok a) part')
    (error : ∀ e part', R (.error e) part' → (k e).Owns held part' Q) :
    (tryCatch p k).Owns held part Q := by
  refine hp.handle fun r part' hr => ?_
  cases r with
  | ok a => exact ok a part' hr
  | error e => exact error e part' hr

theorem Owns.onThrow {cleanup : Prog σ ε PUnit} (hp : p.Owns held part R)
    (ok : ∀ a part', R (.ok a) part' → Q (.ok a) part')
    (error : ∀ e part', R (.error e) part' → cleanup.Owns held part' fun _ part' =>
      ∀ e, Q (.error e) part') :
    (p.onThrow cleanup).Owns held part Q :=
  hp.tryCatch ok fun e part' hr =>
    (error e part' hr).bind (fun _ _ hQ => hQ e) fun e' _ hQ => hQ e'

/-- A program that neither takes nor gives up anything. -/
theorem Steps.owns (h : p.Steps fun s s' => held s' = held s) (hQ : p.Leaves T) :
    p.Owns held part fun r part' => T r ∧ part' = part := by
  induction p with
  | ret r => exact ⟨hQ, rfl⟩
  | step f k ih =>
    intro s hs
    have hpart : ownPart part (held s) (held (f s)) = part := by
      ext r
      rw [(h s).1, mem_ownPart]
      have hr : r ∈ part → r ∈ held s := @hs r
      tauto
    refine ⟨?_, ?_⟩
    · rw [(h s).1, Finset.sdiff_self]
      exact Finset.empty_subset part
    · rw [hpart]
      exact ih s (h s).2 (hQ s)

theorem Steps.owns_part (h : p.Steps fun s s' => held s' = held s) :
    p.Owns held part fun _ part' => part' = part :=
  (h.owns (.of_forall fun _ => trivial)).mono fun _ _ hr => hr.2

end

/-- The program begins with nothing, and ends with nothing. -/
def Tidy (held : σ → Finset ρ) (p : Prog σ ε α) : Prop := p.Owns held ∅ fun _ part => part = ∅

section
variable {p : Prog σ ε α}

theorem Tidy.handle {h : Except ε α → Prog σ ε β} (hp : p.Tidy held) (hh : ∀ r, (h r).Tidy held) :
    (p.handle h).Tidy held := by
  refine Owns.handle hp fun r part hpart => ?_
  rw [hpart]
  exact hh r

theorem Tidy.bind {k : α → Prog σ ε β} (hp : p.Tidy held) (hk : ∀ a, (k a).Tidy held) :
    (p >>= k).Tidy held :=
  hp.handle fun
    | .ok a => hk a
    | .error _ => rfl

theorem Tidy.tryCatch {k : ε → Prog σ ε α} (hp : p.Tidy held) (hk : ∀ e, (k e).Tidy held) :
    (tryCatch p k).Tidy held :=
  hp.handle fun
    | .ok _ => rfl
    | .error e => hk e

theorem Tidy.andFinally {after : Prog σ ε PUnit} (hp : p.Tidy held) (ha : after.Tidy held) :
    (p.andFinally after).Tidy held :=
  hp.handle fun _ => ha.handle fun _ => rfl

theorem Steps.tidy (h : p.Steps fun s s' => held s' = held s) : p.Tidy held := h.owns_part

end

end Prog

/-! ## Pools -/

structure Pool (ι : Type y) (κ : Type z) (σ : Type u) (ε : Type v) (α : Type w) (ρ : Type x) where
  store : σ
  /-- Each job with what is left of its program. -/
  jobs : ι → Option (κ × Prog σ ε α)
  part : ι → Finset ρ

namespace Pool

variable {ι : Type y} {κ : Type z} {tidy : κ → Prop} {P P' : Pool ι κ σ ε α ρ}

/-- Nothing has been started. -/
def init (s : σ) : Pool ι κ σ ε α ρ := ⟨s, fun _ => none, fun _ => ∅⟩

def Finished (P : Pool ι κ σ ε α ρ) (i : ι) : Prop := ∃ job r, P.jobs i = some (job, .ret r)

def InProgress (P : Pool ι κ σ ε α ρ) (i : ι) : Prop :=
  ∃ job f k, P.jobs i = some (job, .step f k)

/-- What is known of the program that is left of a job. -/
def Behaves (held : σ → Finset ρ) (tidy : κ → Prop) (job : κ) (p : Prog σ ε α) (part : Finset ρ) :
    Prop :=
  (tidy job ∧ p.Owns held part fun _ part' => part' = ∅) ∨
    (¬tidy job ∧ p.Steps fun s s' => held s ⊆ held s')

/-- The parts are disjoint, and together what the store holds. -/
structure Divided (held : σ → Finset ρ) (tidy : κ → Prop) (P : Pool ι κ σ ε α ρ) : Prop where
  behaves : ∀ i job p, P.jobs i = some (job, p) → Behaves held tidy job p (P.part i)
  unstarted : ∀ i, P.jobs i = none → P.part i = ∅
  disjoint : ∀ i j r, r ∈ P.part i → r ∈ P.part j → i = j
  covers : ∀ r, r ∈ held P.store ↔ ∃ i, r ∈ P.part i

theorem Divided.init (h : held s = ∅) : (init s : Pool ι κ σ ε α ρ).Divided held tidy where
  behaves _ _ _ h := nomatch h
  unstarted _ _ := rfl
  disjoint _ _ _ h := absurd h (Finset.notMem_empty _)
  covers r := by simp [Pool.init, h]

theorem Divided.part_subset (h : P.Divided held tidy) (i : ι) : P.part i ⊆ held P.store :=
  fun r hr => (h.covers r).mpr ⟨i, hr⟩

/-- A step gives up nothing but what is its own. -/
theorem Divided.released (h : P.Divided held tidy) (hjob : P.jobs i = some (job, .step f k)) :
    held P.store \ held (f P.store) ⊆ P.part i := by
  obtain ⟨-, howns⟩ | ⟨-, hgrows⟩ := h.behaves i job _ hjob
  · exact (howns P.store (h.part_subset i)).1
  · rw [Finset.sdiff_eq_empty_iff_subset.mpr (hgrows P.store).1]
    exact Finset.empty_subset _

/-- What the others have stays as it is. -/
theorem Divided.part_inter (h : P.Divided held tidy) (hjob : P.jobs i = some (job, .step f k))
    (hne : j ≠ i) : P.part j ∩ held (f P.store) = P.part j := by
  refine Finset.inter_eq_left.mpr fun r hr => ?_
  by_contra hnot
  have hreleased := h.released hjob (Finset.mem_sdiff.mpr ⟨h.part_subset j hr, hnot⟩)
  exact hne (h.disjoint j i r hr hreleased)

/-- A tidy job that has finished has nothing. -/
theorem Divided.part_eq_empty (h : P.Divided held tidy) (hjob : P.jobs i = some (job, .ret r))
    (htidy : tidy job) : P.part i = ∅ := by
  obtain ⟨-, howns⟩ | ⟨hnot, -⟩ := h.behaves i job _ hjob
  · exact howns
  · exact absurd htidy hnot

/-! ## Steps of a pool -/

inductive Event (ι : Type y) (κ : Type z)
  | start (i : ι) (job : κ)
  | step (i : ι)
  deriving DecidableEq, Repr

section
variable [DecidableEq ι]

def begin (P : Pool ι κ σ ε α ρ) (i : ι) (job : κ) (program : Prog σ ε α) : Pool ι κ σ ε α ρ :=
  { P with jobs := Function.update P.jobs i (some (job, program)) }

/-- The store becomes `store`, by a step of `i`. -/
def advance (held : σ → Finset ρ) (P : Pool ι κ σ ε α ρ) (i : ι) (job : κ) (store : σ)
    (rest : Prog σ ε α) : Pool ι κ σ ε α ρ where
  store := store
  jobs := Function.update P.jobs i (some (job, rest))
  part j :=
    if j = i then ownPart (P.part i) (held P.store) (held store) else P.part j ∩ held store

theorem advance_part_self :
    (advance held P i job s rest).part i = ownPart (P.part i) (held P.store) (held s) :=
  if_pos rfl

theorem advance_part_of_ne (h : j ≠ i) :
    (advance held P i job s rest).part j = P.part j ∩ held s :=
  if_neg h

/-- What a job has after a step of some job: what it had, and what the step took. -/
theorem mem_part_advance :
    r ∈ (P.advance held i job s rest).part j ↔
      r ∈ held s ∧ (r ∈ P.part j ∨ (j = i ∧ r ∉ held P.store)) := by
  by_cases hji : j = i
  · subst hji
    rw [advance_part_self, mem_ownPart]
    tauto
  · rw [advance_part_of_ne hji, Finset.mem_inter]
    tauto

def next (held : σ → Finset ρ) (program : κ → Prog σ ε α) (P : Pool ι κ σ ε α ρ) :
    Event ι κ → Option (Pool ι κ σ ε α ρ)
  | .start i job =>
    match P.jobs i with
    | some _ => none
    | none => some (P.begin i job (program job))
  | .step i =>
    match P.jobs i with
    | some (job, .step f k) => some (P.advance held i job (f P.store) (k P.store))
    | _ => none

/-- The event is no step in which a job that is not tidy takes anything. -/
def Admits (held : σ → Finset ρ) (tidy : κ → Prop) (P : Pool ι κ σ ε α ρ) : Event ι κ → Prop
  | .start _ _ => True
  | .step i =>
    ∀ job f k, P.jobs i = some (job, .step f k) → held (f P.store) ⊆ held P.store ∨ tidy job

variable {program : κ → Prog σ ε α}

theorem next_cases (h : Fires (next held program) P e P') :
    (∃ i job, e = .start i job ∧ P.jobs i = none ∧ P' = P.begin i job (program job)) ∨
    ∃ i job f k, e = .step i ∧ P.jobs i = some (job, .step f k) ∧
      P' = P.advance held i job (f P.store) (k P.store) := by
  cases e with
  | start i job =>
    simp only [Fires, next] at h
    split at h
    · cases h
    · exact .inl ⟨i, job, rfl, ‹_›, (Option.some.inj h).symm⟩
  | step i =>
    simp only [Fires, next] at h
    split at h
    · exact .inr ⟨i, _, _, _, rfl, ‹_›, (Option.some.inj h).symm⟩
    · cases h

theorem Divided.begin (h : P.Divided held tidy) (hnone : P.jobs i = none)
    (hp : Behaves held tidy job p ∅) : (P.begin i job p).Divided held tidy where
  behaves j job' p' hj := by
    by_cases hji : j = i
    · subst hji
      obtain ⟨rfl, rfl⟩ : job = job' ∧ p = p' := by simpa [Pool.begin] using hj
      rw [show (P.begin j job p).part j = ∅ from h.unstarted j hnone]
      exact hp
    · exact h.behaves j job' p' (by simpa [Pool.begin, hji] using hj)
  unstarted j hj := by
    by_cases hji : j = i
    · subst hji
      simp [Pool.begin] at hj
    · exact h.unstarted j (by simpa [Pool.begin, hji] using hj)
  disjoint := h.disjoint
  covers := h.covers

theorem Divided.advance (h : P.Divided held tidy) (hjob : P.jobs i = some (job, .step f k)) :
    (P.advance held i job (f P.store) (k P.store)).Divided held tidy := by
  refine ⟨fun j job' p hj => ?_, fun j hj => ?_, fun j j' r hr hr' => ?_, fun r => ?_⟩
  · by_cases hji : j = i
    · subst hji
      obtain ⟨rfl, rfl⟩ : job = job' ∧ k P.store = p := by simpa [Pool.advance] using hj
      rw [advance_part_self]
      obtain ⟨htidy, howns⟩ | ⟨htidy, hgrows⟩ := h.behaves j job _ hjob
      · exact .inl ⟨htidy, (howns P.store (h.part_subset j)).2⟩
      · exact .inr ⟨htidy, (hgrows P.store).2⟩
    · rw [advance_part_of_ne hji, h.part_inter hjob hji]
      exact h.behaves j job' p (by simpa [Pool.advance, hji] using hj)
  · by_cases hji : j = i
    · subst hji
      simp [Pool.advance] at hj
    · rw [advance_part_of_ne hji, h.part_inter hjob hji]
      exact h.unstarted j (by simpa [Pool.advance, hji] using hj)
  · -- What the step takes is in no other part, since the store did not hold it.
    obtain ⟨-, hj | ⟨rfl, hnot⟩⟩ := mem_part_advance.mp hr <;>
      obtain ⟨-, hj' | ⟨rfl, hnot'⟩⟩ := mem_part_advance.mp hr'
    · exact h.disjoint j j' r hj hj'
    · exact absurd (h.part_subset j hj) hnot'
    · exact absurd (h.part_subset j' hj') hnot
    · rfl
  · simp only [mem_part_advance]
    constructor
    · intro hr
      by_cases hbefore : r ∈ held P.store
      · obtain ⟨j, hj⟩ := (h.covers r).mp hbefore
        exact ⟨j, hr, .inl hj⟩
      · exact ⟨i, hr, .inr ⟨rfl, hbefore⟩⟩
    · intro ⟨_, hr, _⟩
      exact hr

/-- Where programs behave, the division lasts. -/
theorem Divided.next (hprogram : ∀ job, Behaves held tidy job (program job) ∅) :
    Preserves (Fires (Pool.next held program))
      (Divided held tidy : Pool ι κ σ ε α ρ → Prop) := by
  intro P e P' hstep h
  obtain ⟨i, job, -, hnone, rfl⟩ | ⟨i, job, f, k, -, hjob, rfl⟩ := next_cases hstep
  · exact h.begin hnone (hprogram job)
  · exact h.advance hjob

end

/-! ## Jobs that are not tidy -/

/-- Only tidy jobs have anything. -/
def Clean (tidy : κ → Prop) (P : Pool ι κ σ ε α ρ) : Prop :=
  ∀ i job p, P.jobs i = some (job, p) → ¬tidy job → P.part i = ∅

/-- A job that is not tidy has `r`. -/
def Lost (tidy : κ → Prop) (r : ρ) (P : Pool ι κ σ ε α ρ) : Prop :=
  ∃ i job p, P.jobs i = some (job, p) ∧ ¬tidy job ∧ r ∈ P.part i

omit [DecidableEq ρ] in
theorem Clean.init : (init s : Pool ι κ σ ε α ρ).Clean tidy := fun _ _ _ h => nomatch h

omit [DecidableEq ρ] in
theorem Lost.not_clean (h : P.Lost tidy r) : ¬P.Clean tidy := by
  intro hclean
  obtain ⟨i, job, p, hjob, htidy, hr⟩ := h
  rw [hclean i job p hjob htidy] at hr
  exact Finset.notMem_empty r hr

variable [DecidableEq ι] {program : κ → Prog σ ε α}

/-- What a job has that is not tidy, it keeps. -/
theorem Lost.next (h : P.Lost tidy r) (hP : P.Divided held tidy)
    (hstep : Fires (Pool.next held program) P e P') : P'.Lost tidy r := by
  obtain ⟨i, job, p, hjob, htidy, hr⟩ := h
  obtain ⟨j, job', -, hnone, rfl⟩ | ⟨j, job', f, k, -, hjob', rfl⟩ := next_cases hstep
  · have hne : i ≠ j := by
      intro heq
      rw [heq, hnone] at hjob
      cases hjob
    exact ⟨i, job, p, by simpa [begin, hne] using hjob, htidy, hr⟩
  · by_cases hij : i = j
    · subst hij
      obtain ⟨rfl, rfl⟩ : job = job' ∧ p = .step f k := by simpa [hjob] using hjob'
      obtain ⟨hnot, -⟩ | ⟨-, hgrows⟩ := hP.behaves i job _ hjob
      · exact absurd hnot htidy
      have hkept := (hgrows P.store).1 (hP.part_subset i hr)
      refine ⟨i, job, k P.store, by simp [advance], htidy, ?_⟩
      exact mem_part_advance.mpr ⟨hkept, .inl hr⟩
    · refine ⟨i, job, p, by simpa [advance, hij] using hjob, htidy, ?_⟩
      rw [advance_part_of_ne hij, hP.part_inter hjob' hij]
      exact hr

/-- A step that is not admitted loses something. -/
theorem lost_of_not_admits (hstep : Fires (Pool.next held program) P e P')
    (h : ¬P.Admits held tidy e) : ∃ r, P'.Lost tidy r := by
  obtain ⟨i, job, rfl, -, -⟩ | ⟨i, job, f, k, rfl, hjob, rfl⟩ := next_cases hstep
  · exact absurd trivial h
  · have hleaves : ¬(held (f P.store) ⊆ held P.store ∨ tidy job) := by
      intro hor
      refine h fun job' f' k' hjob' => ?_
      obtain ⟨rfl, rfl, -⟩ : job = job' ∧ f = f' ∧ k = k' := by simpa [hjob] using hjob'
      exact hor
    obtain ⟨hsubset, htidy⟩ := not_or.mp hleaves
    obtain ⟨r, hr, hnot⟩ := Finset.not_subset.mp hsubset
    refine ⟨r, i, job, k P.store, by simp [advance], htidy, ?_⟩
    rw [advance_part_self, mem_ownPart]
    exact ⟨hr, .inr hnot⟩

theorem Clean.next (h : P.Clean tidy) (hP : P.Divided held tidy)
    (hstep : Fires (Pool.next held program) P e P') (hadmits : P.Admits held tidy e) :
    P'.Clean tidy := by
  intro i job p hjob htidy
  obtain ⟨j, job', -, hnone, rfl⟩ | ⟨j, job', f, k, rfl, hjob', rfl⟩ := next_cases hstep
  · by_cases hij : i = j
    · subst hij
      exact hP.unstarted i hnone
    · exact h i job p (by simpa [begin, hij] using hjob) htidy
  · refine Finset.eq_empty_of_forall_notMem fun r hr => ?_
    obtain ⟨hheld, hr⟩ := mem_part_advance.mp hr
    by_cases hij : i = j
    · subst hij
      obtain ⟨rfl, -⟩ : job' = job ∧ k P.store = p := by simpa [advance] using hjob
      rw [h i job' _ hjob' htidy] at hr
      have hbefore := (hadmits job' f k hjob').resolve_right htidy hheld
      exact (hr.resolve_left (Finset.notMem_empty r)).2 hbefore
    · rw [h i job p (by simpa [advance, hij] using hjob) htidy] at hr
      exact hij (hr.resolve_left (Finset.notMem_empty r)).1

/-- In the end only tidy jobs have anything if and only if only tidy jobs have taken anything. -/
theorem clean_iff (hprogram : ∀ job, Behaves held tidy job (program job) ∅)
    (hrun : Run (Fires (Pool.next held program)) P es P') (hP : P.Divided held tidy)
    (hclean : P.Clean tidy) :
    P'.Clean tidy ↔ Run (Guarded (Fires (Pool.next held program)) (Admits held tidy)) P es P' := by
  have hlost : ∀ r, Preserves (Fires (Pool.next held program))
      fun P : Pool ι κ σ ε α ρ => P.Divided held tidy ∧ P.Lost tidy r :=
    fun _ => (Divided.next hprogram).and fun _ _ _ hstep hP h => h.next hP hstep
  induction hrun with
  | nil => exact ⟨fun _ => .nil, fun _ => hclean⟩
  | @cons P e P₁ es P' hstep hrun ih =>
    have hP₁ := Divided.next hprogram hstep hP
    by_cases hadmits : P.Admits held tidy e
    · refine (ih hP₁ (hclean.next hP hstep hadmits)).trans ⟨fun h => .cons ⟨hstep, hadmits⟩ h, fun h => ?_⟩
      cases h with
      | @cons _ _ P₂ _ _ hfirst hrest =>
        obtain rfl : P₁ = P₂ := Option.some.inj (hstep.symm.trans hfirst.1)
        exact hrest
    · obtain ⟨r, hr⟩ := lost_of_not_admits hstep hadmits
      have hend := hrun.invariant (hlost r) ⟨hP₁, hr⟩
      refine ⟨fun h => absurd h hend.2.not_clean, fun h => ?_⟩
      cases h with
      | cons hfirst hrest => exact absurd hfirst.2 hadmits

end Pool

end OpenLander.Theory
