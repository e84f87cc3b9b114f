/-! # Finite runs of labelled transition systems

A system is a step relation `σ → ε → σ → Prop`: from a state, by an event, to a state. The
relation `Run` chains steps along a list of events. `Guarded step G` keeps the steps taken in a
state that meets a condition `G` on the event to come, so that `Run (Guarded step G)` is a run
all of whose steps meet `G`.

A system given by a partial function `next : σ → ε → Option σ` has the step relation
`Fires next`; `exec` runs it, and `run_iff_exec` says that both agree. -/

namespace OpenLander.Theory

variable {σ : Type u} {ε : Type v} {step : σ → ε → σ → Prop} {next : σ → ε → Option σ}
variable {I J : σ → Prop}

/-- The events `es` lead from the first state to the last, one step each. -/
inductive Run (step : σ → ε → σ → Prop) : σ → List ε → σ → Prop
  | nil : Run step s [] s
  | cons : step s e t → Run step t es u → Run step s (e :: es) u

/-- Some run leads from `s` to `t`. -/
def Reaches (step : σ → ε → σ → Prop) (s t : σ) : Prop := ∃ es, Run step s es t

/-- No step leaves `I`. -/
def Preserves (step : σ → ε → σ → Prop) (I : σ → Prop) : Prop :=
  ∀ ⦃s e t⦄, step s e t → I s → I t

/-- The steps of `step` taken where `G` holds of the state and the event. -/
def Guarded (step : σ → ε → σ → Prop) (G : σ → ε → Prop) (s : σ) (e : ε) (t : σ) : Prop :=
  step s e t ∧ G s e

/-! ## Composition -/

theorem Run.single (h : step s e t) : Run step s [e] t := .cons h .nil

theorem Run.append (h : Run step s es t) (h' : Run step t es' u) : Run step s (es ++ es') u := by
  induction h with
  | nil => exact h'
  | cons hs _ ih => exact .cons hs (ih h')

theorem Run.snoc (h : Run step s es t) (h' : step t e u) : Run step s (es ++ [e]) u :=
  h.append (.single h')

theorem Reaches.refl : Reaches step s s := ⟨[], .nil⟩

theorem Reaches.tail (h : Reaches step s t) (h' : step t e u) : Reaches step s u :=
  let ⟨_, h⟩ := h; ⟨_, h.snoc h'⟩

theorem Run.mono {step' : σ → ε → σ → Prop} (hmono : ∀ s e t, step s e t → step' s e t)
    (h : Run step s es t) : Run step' s es t := by
  induction h with
  | nil => exact .nil
  | cons hs _ ih => exact .cons (hmono _ _ _ hs) ih

/-- The steps of a run are by its events. -/
theorem Run.restrict (h : Run step s es t) : Run (fun s e t => step s e t ∧ e ∈ es) s es t := by
  induction h with
  | nil => exact .nil
  | cons hs _ ih =>
    exact .cons ⟨hs, .head _⟩ (ih.mono fun _ _ _ ⟨hstep, hmem⟩ => ⟨hstep, .tail _ hmem⟩)

/-- Two step relations that agree have the same runs. -/
theorem Run.congr {step' : σ → ε → σ → Prop} (h : ∀ s e t, step s e t ↔ step' s e t) :
    Run step s es t ↔ Run step' s es t :=
  ⟨.mono fun s e t => (h s e t).mp, .mono fun s e t => (h s e t).mpr⟩

/-! ## Invariants -/

/-- What holds at the start and is preserved by every step holds at the end of every run. -/
theorem Run.invariant (hI : Preserves step I) (h : Run step s es t) (hs : I s) : I t := by
  induction h with
  | nil => exact hs
  | cons hstep _ ih => exact ih (hI hstep hs)

theorem Reaches.invariant (hI : Preserves step I) (h : Reaches step s t) (hs : I s) : I t :=
  let ⟨_, h⟩ := h; h.invariant hI hs

theorem Run.historic_append {H : List ε → σ → Prop}
    (hstep : ∀ ⦃seen s e t⦄, step s e t → H seen s → H (seen ++ [e]) t) (h : Run step s es t)
    (hs : H seen s) : H (seen ++ es) t := by
  induction h generalizing seen with
  | nil => rwa [List.append_nil]
  | @cons s e t es u he _ ih =>
    rw [List.append_cons]
    exact ih (hstep he hs)

/-- What each step keeps of the state and of the events before it, a run keeps. -/
theorem Run.historic {H : List ε → σ → Prop}
    (hstep : ∀ ⦃seen s e t⦄, step s e t → H seen s → H (seen ++ [e]) t) (h : Run step s es t)
    (hs : H [] s) : H es t :=
  h.historic_append hstep hs

/-- An invariant may be proved under the assumption of another one. -/
theorem Preserves.and (hI : Preserves step I)
    (hJ : ∀ ⦃s e t⦄, step s e t → I s → J s → J t) : Preserves step fun s => I s ∧ J s :=
  fun _ _ _ hs ⟨hi, hj⟩ => ⟨hI hs hi, hJ hs hi hj⟩

/-- Where each step adds to `p` exactly what its event says, a run adds what its events say. -/
theorem Run.iff_exists_mem {p : σ → Prop} {Q : ε → Prop} (h : Run step s es t) (hs : I s)
    (hI : Preserves step I) (hstep : ∀ ⦃s e t⦄, step s e t → I s → (p t ↔ p s ∨ Q e)) :
    p t ↔ p s ∨ ∃ e ∈ es, Q e := by
  induction h with
  | nil => simp
  | cons he _ ih =>
    rw [ih (hI he hs), hstep he hs, or_assoc]
    simp only [List.mem_cons, exists_eq_or_imp]

/-- Where each step keeps `p` exactly if it meets `G`, a run keeps it exactly if all steps do. -/
theorem Run.iff_guarded {p : σ → Prop} {G : σ → ε → Prop}
    (hdet : ∀ ⦃s e t t'⦄, step s e t → step s e t' → t = t') (h : Run step s es t) (hs : I s)
    (hI : Preserves step I) (hstep : ∀ ⦃s e t⦄, step s e t → I s → (p t ↔ p s ∧ G s e)) :
    p t ↔ p s ∧ Run (Guarded step G) s es t := by
  induction h with
  | nil => exact ⟨fun hp => ⟨hp, .nil⟩, And.left⟩
  | cons he _ ih =>
    rw [ih (hI he hs), hstep he hs]
    constructor
    · rintro ⟨⟨hp, hG⟩, hrun⟩
      exact ⟨hp, .cons ⟨he, hG⟩ hrun⟩
    · rintro ⟨hp, hrun⟩
      cases hrun with
      | cons hguarded hrun =>
        obtain rfl := hdet he hguarded.1
        exact ⟨⟨hp, hguarded.2⟩, hrun⟩

/-- Where a step adds to `p` what its event says, and to `q` what its event says while `p` holds, a
run adds to `q` the events of the second kind that come after one of the first. -/
theorem Run.iff_exists_after {p q : σ → Prop} {P Q : ε → Prop} (h : Run step s es t) (hs : I s)
    (hI : Preserves step I) (hp : ∀ ⦃s e t⦄, step s e t → I s → (p t ↔ p s ∨ P e))
    (hq : ∀ ⦃s e t⦄, step s e t → I s → (q t ↔ q s ∨ p s ∧ Q e)) :
    q t ↔ q s ∨ (p s ∧ ∃ e ∈ es, Q e) ∨
      ∃ es₁ e es₂, es = es₁ ++ e :: es₂ ∧ P e ∧ ∃ e' ∈ es₂, Q e' := by
  induction h with
  | nil => simp
  | @cons s e t es u he _ ih =>
    rw [ih (hI he hs), hp he hs, hq he hs]
    constructor
    · rintro ((h | h) | ⟨h | h, hQ⟩ | ⟨es₁, e', es₂, rfl, hP, hQ⟩)
      · exact .inl h
      · exact .inr (.inl ⟨h.1, e, .head _, h.2⟩)
      · exact .inr (.inl ⟨h, hQ.imp fun _ => .imp_left (.tail _)⟩)
      · exact .inr (.inr ⟨[], e, es, rfl, h, hQ⟩)
      · exact .inr (.inr ⟨e :: es₁, e', es₂, rfl, hP, hQ⟩)
    · rintro (h | ⟨h, e', he', hQ⟩ | ⟨es₁, e', es₂, heq, hP, hQ⟩)
      · exact .inl (.inl h)
      · cases he' with
        | head => exact .inl (.inr ⟨h, hQ⟩)
        | tail _ he' => exact .inr (.inl ⟨.inl h, e', he', hQ⟩)
      · cases es₁ with
        | nil =>
          obtain ⟨rfl, rfl⟩ := List.cons.inj heq
          exact .inr (.inl ⟨.inr hP, hQ⟩)
        | cons _ es₁ =>
          obtain ⟨rfl, rfl⟩ := List.cons.inj heq
          exact .inr (.inr ⟨es₁, e', es₂, rfl, hP, hQ⟩)

/-- What each step folds its event into, a run folds its events into. -/
theorem Run.foldl {τ : Type u'} {f : σ → τ} {g : τ → ε → τ} (h : Run step s es t)
    (hstep : ∀ ⦃s e t⦄, step s e t → f t = g (f s) e) : f t = es.foldl g (f s) := by
  induction h with
  | nil => rfl
  | cons hs _ ih => rw [ih, hstep hs, List.foldl_cons]

/-- Where a component of the state moves by the events that `g` selects and rests at all others,
a run of the system is a run of the component. -/
theorem Run.project {τ : Type u'} {δ : Type v'} {step' : τ → δ → τ → Prop} {f : σ → τ}
    {g : ε → Option δ} (h : Run step s es t)
    (hmove : ∀ ⦃s e t d⦄, step s e t → g e = some d → step' (f s) d (f t))
    (hrest : ∀ ⦃s e t⦄, step s e t → g e = none → f t = f s) :
    Run step' (f s) (es.filterMap g) (f t) := by
  induction h with
  | nil => exact .nil
  | @cons s e t es u hs _ ih =>
    cases hg : g e with
    | none =>
      rw [List.filterMap_cons_none hg, ← hrest hs hg]
      exact ih
    | some d =>
      rw [List.filterMap_cons_some hg]
      exact .cons (hmove hs hg) ih

/-! ## Systems given by a partial function -/

/-- The step relation of a partial transition function. -/
def Fires (next : σ → ε → Option σ) (s : σ) (e : ε) (t : σ) : Prop := next s e = some t

theorem Fires.det ⦃s : σ⦄ ⦃e : ε⦄ ⦃t t' : σ⦄ (h : Fires next s e t) (h' : Fires next s e t') :
    t = t' := by
  rw [Fires] at h h'
  exact Option.some.inj (h.symm.trans h')

/-- Run a partial transition function along a list of events. -/
def exec (next : σ → ε → Option σ) : σ → List ε → Option σ
  | s, [] => some s
  | s, e :: es => (next s e).bind (exec next · es)

theorem run_iff_exec : Run (Fires next) s es t ↔ exec next s es = some t := by
  constructor
  · intro h
    induction h with
    | nil => rfl
    | cons hs _ ih => simp only [exec, show next _ _ = some _ from hs, Option.bind_some, ih]
  · intro h
    induction es generalizing s with
    | nil => cases h; exact .nil
    | cons e es ih =>
      obtain ⟨m, hm, hr⟩ := Option.bind_eq_some_iff.mp h
      exact .cons hm (ih hr)

theorem Run.of_exec (h : exec next s es = some t) : Run (Fires next) s es t := run_iff_exec.mpr h

/-- A view of the state that moves as `next'` does at each step does so along a run. -/
theorem exec_map {τ : Type u'} {next' : τ → ε → Option τ} {f : σ → τ} (hI : Preserves (Fires next) I)
    (hstep : ∀ s e, I s → (next s e).map f = next' (f s) e) (hs : I s) (es : List ε) :
    (exec next s es).map f = exec next' (f s) es := by
  induction es generalizing s with
  | nil => rfl
  | cons e es ih =>
    rw [exec, exec, ← hstep s e hs]
    cases h : next s e with
    | none => rfl
    | some t => exact ih (hI h hs)

section
variable {G : σ → ε → Prop} [∀ s e, Decidable (G s e)]

/-- The partial function whose steps are those of `next` that meet `G`. -/
def guardedNext (next : σ → ε → Option σ) (G : σ → ε → Prop) [∀ s e, Decidable (G s e)] (s : σ) (e : ε) :
    Option σ :=
  if G s e then next s e else none

theorem fires_guardedNext_iff : Fires (guardedNext next G) s e t ↔ Guarded (Fires next) G s e t := by
  rw [Fires, guardedNext, Option.ite_none_right_eq_some]
  exact and_comm

theorem Run.of_exec_guardedNext (h : exec (guardedNext next G) s es = some t) :
    Run (Guarded (Fires next) G) s es t :=
  (Run.of_exec h).mono fun _ _ _ => fires_guardedNext_iff.mp

end

/-! ## What a run puts out -/

/-- What the steps along the events put out, one after the other. -/
def outputs (next : σ → ε → Option σ) (out : σ → ε → List β) : σ → List ε → List β
  | _, [] => []
  | s, e :: es => out s e ++ (next s e).elim [] (outputs next out · es)

section
variable {β : Type w} {out put : σ → ε → List β} {G : σ → ε → Prop}

theorem outputs_cons (h : Fires next s e t) :
    outputs next out s (e :: es) = out s e ++ outputs next out t es := by
  rw [outputs, show next s e = some t from h, Option.elim_some]

/-- Where what is put out comes from the event alone. -/
theorem Run.outputs_eq_flatMap {g : ε → List β} (h : Run (Guarded (Fires next) G) s es t) :
    outputs next (fun _ e => g e) s es = es.flatMap g := by
  induction h with
  | nil => rfl
  | cons hs _ ih => rw [outputs_cons hs.1, ih, List.flatMap_cons]

/-- Where each step adds to `p` what it puts out, a run adds all that is put out. -/
theorem Run.mem_outputs {p : σ → Prop} {b : β} (h : Run (Guarded (Fires next) G) s es t) (hs : I s)
    (hI : Preserves (Guarded (Fires next) G) I)
    (hstep : ∀ ⦃s e t⦄, Guarded (Fires next) G s e t → I s → (p t ↔ p s ∨ b ∈ out s e)) :
    p t ↔ p s ∨ b ∈ outputs next out s es := by
  induction h with
  | nil => simp [outputs]
  | cons he _ ih => rw [ih (hI he hs), hstep he hs, outputs_cons he.1, List.mem_append, or_assoc]

/-- A waiting line: where each step puts out the front of a list that the state is related to, and
appends to the list what it puts in, all that is put in is put out in order, up to the list. -/
theorem Run.outputs_append {R : σ → List β → Prop} (h : Run (Guarded (Fires next) G) s es t)
    (hs : I s) (hI : Preserves (Guarded (Fires next) G) I)
    (hstep : ∀ ⦃s e t l⦄, Guarded (Fires next) G s e t → I s → R s l →
      ∃ l', R t l' ∧ out s e ++ l' = l ++ put s e)
    (hl : R s l) : ∃ l', R t l' ∧ outputs next out s es ++ l' = l ++ outputs next put s es := by
  induction h generalizing l with
  | nil => exact ⟨l, hl, by simp [outputs]⟩
  | cons he _ ih =>
    obtain ⟨l₁, hl₁, heq₁⟩ := hstep he hs hl
    obtain ⟨l₂, hl₂, heq₂⟩ := ih (hI he hs) hl₁
    refine ⟨l₂, hl₂, ?_⟩
    rw [outputs_cons he.1, outputs_cons he.1, List.append_assoc, heq₂, ← List.append_assoc, heq₁,
      List.append_assoc]

end

end OpenLander.Theory
