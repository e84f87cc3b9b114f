import OpenLander.Theory.RelyGuarantee

/-! # Programs that are awaited together

`sideBySide schedule ps` takes the steps of the programs in the order of the schedule, which says by
its place whose turn it is, and then the steps that are left, one program after the other. Every order
of the steps belongs to some schedule. A program that throws does not stop the others.

Where what each program guarantees is something that the others rely on, they guarantee it together
(`Guarantees.sideBySide`), and each ends as it does alone. -/

namespace OpenLander.Theory.Prog

variable {σ : Type u} {ε α : Type w}

/-- One after the other, with the end of each. -/
def runAll : List (Prog σ ε α) → Prog σ ε (List (Except ε α))
  | [] => pure []
  | p :: ps => p.handle fun r => do
    let rs ← runAll ps
    return r :: rs

def sideBySide : List Nat → List (Prog σ ε α) → Prog σ ε (List (Except ε α))
  | [], ps => runAll ps
  | i :: schedule, ps =>
    match ps[i]? with
    | some (.step f k) => .step f fun s => sideBySide schedule (ps.set i (k s))
    | _ => sideBySide schedule ps

/-- Each of the ends is in the set that goes with its place. -/
def Ended (Q : Nat → Except ε α → Prop) (n : Nat) (r : Except ε (List (Except ε α))) : Prop :=
  ∃ rs, r = .ok rs ∧ rs.length = n ∧ ∀ (i : Nat) r, rs[i]? = some r → Q i r

theorem Steps.runAll {R : σ → σ → Prop} {ps : List (Prog σ ε α)} (h : ∀ p ∈ ps, Steps R p) :
    Steps R (runAll ps) := by
  induction ps with
  | nil => exact .pure _
  | cons p ps ih =>
    obtain ⟨hp, hps⟩ := List.forall_mem_cons.mp h
    exact hp.handle fun r => (ih hps).bind fun rs => .pure _

theorem Steps.sideBySide {R : σ → σ → Prop} {ps : List (Prog σ ε α)} {schedule : List Nat}
    (h : ∀ p ∈ ps, Steps R p) : Steps R (sideBySide schedule ps) := by
  induction schedule generalizing ps with
  | nil => exact .runAll h
  | cons i schedule ih =>
    rw [Prog.sideBySide]
    split
    next f k hi =>
      have hp := h _ (List.mem_of_getElem? hi)
      refine fun s => ⟨(hp s).1, ih fun p hmem => ?_⟩
      rcases List.mem_or_eq_of_mem_set hmem with hmem | rfl
      · exact h p hmem
      · exact (hp s).2
    next => exact ih h

section
variable {rely guar : σ → σ → Prop}

/-- Where others take their steps in between, the store moves by what is relied on. -/
theorem Guarantees.moved {p : Prog σ ε α} {Q : Except ε α → Prop} (hrefl : ∀ s, rely s s)
    (htrans : ∀ s₁ s₂ s₃, rely s₁ s₂ → rely s₂ s₃ → rely s₁ s₃)
    (hguar : ∀ s s', guar s s' → rely s s')
    (h : p.Guarantees rely guar (fun r _ => Q r) s) :
    p.Guarantees rely guar (fun r s' => Q r ∧ rely s s') s := by
  induction p generalizing s with
  | ret r => exact ⟨h, hrefl s⟩
  | step f k ih =>
    intro s' hs'
    obtain ⟨hstep, hrest⟩ := h s' hs'
    refine ⟨hstep, (ih s' hrest).mono (fun _ _ hg => hg) fun r s'' hr => ⟨hr.1, ?_⟩⟩
    exact htrans _ _ _ (htrans _ _ _ hs' (hguar _ _ hstep)) hr.2

variable {ps : List (Prog σ ε α)} {Q : Nat → Except ε α → Prop}

theorem Guarantees.runAll (hrefl : ∀ s, rely s s)
    (htrans : ∀ s₁ s₂ s₃, rely s₁ s₂ → rely s₂ s₃ → rely s₁ s₃)
    (hguar : ∀ s s', guar s s' → rely s s')
    (h : ∀ (i : Nat) p, ps[i]? = some p → p.Guarantees rely guar (fun r _ => Q i r) s) :
    (runAll ps).Guarantees rely guar (fun r _ => Ended Q ps.length r) s := by
  induction ps generalizing Q s with
  | nil =>
    refine ⟨[], rfl, rfl, fun i r hr => ?_⟩
    cases hr
  | cons p ps ih =>
    refine ((h 0 p rfl).moved hrefl htrans hguar).handle fun r s' hend => ?_
    obtain ⟨hr, hs'⟩ := hend
    have hps := ih (s := s') (Q := fun i => Q (i + 1)) fun i p' hp' =>
      (h (i + 1) p' hp').wait hs' htrans fun _ _ _ hq _ => hq
    refine hps.bind (fun rs _ hrs => ?_) fun e _ he => ?_
    · obtain ⟨_, heq, hlength, hends⟩ := hrs
      obtain rfl := Except.ok.inj heq
      refine ⟨r :: rs, rfl, congrArg (· + 1) hlength, fun i r' hr' => ?_⟩
      cases i with
      | zero =>
        obtain rfl := Option.some.inj hr'
        exact hr
      | succ i => exact hends i r' hr'
    · obtain ⟨_, heq, -⟩ := he
      cases heq

/-- What the programs guarantee alone, they guarantee together, and each ends as it does alone. -/
theorem Guarantees.sideBySide (hrefl : ∀ s, rely s s)
    (htrans : ∀ s₁ s₂ s₃, rely s₁ s₂ → rely s₂ s₃ → rely s₁ s₃)
    (hguar : ∀ s s', guar s s' → rely s s') {schedule : List Nat}
    (h : ∀ (i : Nat) p, ps[i]? = some p → p.Guarantees rely guar (fun r _ => Q i r) s) :
    (sideBySide schedule ps).Guarantees rely guar (fun r _ => Ended Q ps.length r) s := by
  induction schedule generalizing ps s with
  | nil => exact Guarantees.runAll hrefl htrans hguar h
  | cons i schedule ih =>
    rw [Prog.sideBySide]
    split
    next f k hi =>
      intro s' hs'
      obtain ⟨hstep, hrest⟩ := h i _ hi s' hs'
      refine ⟨hstep, ?_⟩
      rw [← List.length_set]
      refine ih fun j p hp => ?_
      rw [List.getElem?_set] at hp
      split at hp
      next heq =>
        subst heq
        rw [if_pos (List.getElem?_eq_some_iff.mp hi).1] at hp
        exact Option.some.inj hp ▸ hrest
      next =>
        exact (h j p hp).wait (htrans _ _ _ hs' (hguar _ _ hstep)) htrans fun _ _ _ hq _ => hq
    next => exact ih h

/-- A program that is left alone ends in what it guarantees. -/
theorem Guarantees.run {p : Prog σ ε α} {Q : Except ε α → σ → Prop} (hrefl : ∀ s, rely s s)
    (h : p.Guarantees rely guar Q s) : p.Ends s Q := by
  induction p generalizing s with
  | ret r => exact h
  | step f k ih => exact ih s (h s (hrefl s)).2

end

end OpenLander.Theory.Prog
