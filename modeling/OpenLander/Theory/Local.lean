import OpenLander.Theory.RelyGuarantee

/-! # Programs that see a part of the store

A program is local to a view of the store where its steps read and change no more of the view than
the view shows. Among others that leave the view alone, it ends as it does by itself, and what its
steps guarantee is guaranteed (`Confined.guarantees`). -/

namespace OpenLander.Theory.Prog

variable {σ τ : Type u} {ν : Type v} {ε : Type x} {α β : Type w}

/-- Stores that look the same go the same way. -/
def Local (view : σ → ν) : Prog σ ε α → Prop
  | .ret _ => True
  | .step f k =>
    (∀ s s', view s = view s' → view (f s) = view (f s') ∧ k s = k s') ∧ ∀ s, (k s).Local view

section
variable {view : σ → ν} {p : Prog σ ε α}

theorem Local.ret (r : Except ε α) : (Prog.ret r : Prog σ ε α).Local view := trivial

theorem Local.pure (a : α) : (Pure.pure a : Prog σ ε α).Local view := trivial

theorem Local.throw (e : ε) : (MonadExcept.throw e : Prog σ ε α).Local view := trivial

theorem Local.read {g : σ → α} (hg : ∀ s s', view s = view s' → g s = g s') :
    (Prog.read g : Prog σ ε α).Local view :=
  ⟨fun s s' h => ⟨h, congrArg Pure.pure (hg s s' h)⟩, fun _ => trivial⟩

theorem Local.modify {f : σ → σ} (hf : ∀ s s', view s = view s' → view (f s) = view (f s')) :
    (Prog.modify f : Prog σ ε PUnit).Local view :=
  ⟨fun s s' h => ⟨hf s s' h, rfl⟩, fun _ => trivial⟩

theorem Local.handle {h : Except ε α → Prog σ ε β} (hp : p.Local view) (hh : ∀ r, (h r).Local view) :
    (p.handle h).Local view := by
  induction p with
  | ret r => exact hh r
  | step f k ih =>
    refine ⟨fun s s' hs => ?_, fun s => ih s (hp.2 s)⟩
    obtain ⟨hf, hk⟩ := hp.1 s s' hs
    exact ⟨hf, congrArg (·.handle h) hk⟩

theorem Local.bind {k : α → Prog σ ε β} (hp : p.Local view) (hk : ∀ a, (k a).Local view) :
    (p >>= k).Local view := by
  refine hp.handle fun r => ?_
  cases r with
  | ok a => exact hk a
  | error e => trivial

theorem Local.tryCatch {k : ε → Prog σ ε α} (hp : p.Local view) (hk : ∀ e, (k e).Local view) :
    (tryCatch p k).Local view := by
  refine hp.handle fun r => ?_
  cases r with
  | ok a => trivial
  | error e => exact hk e

/-- Stores that look the same lead to the same end. -/
theorem Local.run (hp : p.Local view) (hs : view s = view s') :
    (p.run s).1 = (p.run s').1 ∧ view (p.run s).2 = view (p.run s').2 := by
  induction p generalizing s s' with
  | ret r => exact ⟨rfl, hs⟩
  | step f k ih =>
    obtain ⟨hf, hk⟩ := hp.1 s s' hs
    rw [run_step, run_step, ← hk]
    exact ih s (hp.2 s) hf

theorem Local.guarantees {guar : σ → σ → Prop} (hp : p.Local view) (hsteps : p.Steps guar) :
    p.Guarantees (fun s s' => view s' = view s) guar
      (fun r s' => r = (p.run s).1 ∧ view s' = view (p.run s).2) s := by
  induction p generalizing s with
  | ret r => exact ⟨rfl, rfl⟩
  | step f k ih =>
    intro s' hs'
    obtain ⟨hf, hk⟩ := hp.1 s' s hs'
    obtain ⟨hresult, hview⟩ := (hp.2 s').run hf
    refine ⟨(hsteps s').1, (ih s' (hp.2 s') (hsteps s').2).mono (fun _ _ hg => hg) fun r s'' hend => ?_⟩
    rw [run_step, ← hk, ← hresult, ← hview]
    exact hend

end

/-! ## Local variables -/

/-- What is seen of a store with variables. -/
def withVarsView (view : σ → ν) (s : σ × τ) : ν × τ := (view s.1, s.2)

section
variable {view : σ → ν}

theorem withVarsView_eq {s s' : σ × τ} :
    withVarsView view s = withVarsView view s' ↔ view s.1 = view s'.1 ∧ s.2 = s'.2 := Prod.ext_iff

theorem Local.lift {p : Prog σ ε α} (hp : p.Local view) :
    (liftM p : Prog (σ × τ) ε α).Local (withVarsView view) := by
  show p.lift.Local (withVarsView view)
  induction p with
  | ret r => trivial
  | step f k ih =>
    refine ⟨fun s s' hs => ?_, fun s => ih s.1 (hp.2 s.1)⟩
    obtain ⟨hview, hvars⟩ := withVarsView_eq.mp hs
    obtain ⟨hf, hk⟩ := hp.1 s.1 s'.1 hview
    exact ⟨withVarsView_eq.mpr ⟨hf, hvars⟩, congrArg Prog.lift hk⟩

theorem Local.assign (f : τ → τ) : (Prog.assign f : Prog (σ × τ) ε PUnit).Local (withVarsView view) := by
  refine .modify fun s s' hs => ?_
  obtain ⟨hview, hvars⟩ := withVarsView_eq.mp hs
  exact withVarsView_eq.mpr ⟨hview, congrArg f hvars⟩

theorem Local.withVars {p : Prog (σ × τ) ε α} (hp : p.Local (withVarsView view)) (t : τ) :
    (p.withVars t).Local view := by
  induction p generalizing t with
  | ret r => trivial
  | step f k ih =>
    refine ⟨fun s s' hs => ?_, fun s => ih (s, t) (hp.2 (s, t)) _⟩
    obtain ⟨hf, hk⟩ := hp.1 (s, t) (s', t) (withVarsView_eq.mpr ⟨hs, rfl⟩)
    obtain ⟨hview, hvars⟩ := withVarsView_eq.mp hf
    exact ⟨hview, congrArg₂ Prog.withVars hvars hk⟩

end

/-! ## Confined programs -/

/-- The program is local to the view, and its steps are in `guar`. -/
structure Confined (view : σ → ν) (guar : σ → σ → Prop) (p : Prog σ ε α) : Prop where
  isLocal : p.Local view
  steps : p.Steps guar

section
variable {view : σ → ν} {guar : σ → σ → Prop} {p : Prog σ ε α}

theorem Confined.ret (r : Except ε α) : (Prog.ret r : Prog σ ε α).Confined view guar :=
  ⟨.ret r, .ret r⟩

theorem Confined.read (hrefl : ∀ s, guar s s) {g : σ → α} (hg : ∀ s s', view s = view s' → g s = g s') :
    (Prog.read g : Prog σ ε α).Confined view guar :=
  ⟨.read hg, .read hrefl g⟩

theorem Confined.handle {h : Except ε α → Prog σ ε β} (hp : p.Confined view guar)
    (hh : ∀ r, (h r).Confined view guar) : (p.handle h).Confined view guar :=
  ⟨hp.isLocal.handle fun r => (hh r).isLocal, hp.steps.handle fun r => (hh r).steps⟩

theorem Confined.bind {k : α → Prog σ ε β} (hp : p.Confined view guar)
    (hk : ∀ a, (k a).Confined view guar) : (p >>= k).Confined view guar :=
  ⟨hp.isLocal.bind fun a => (hk a).isLocal, hp.steps.bind fun a => (hk a).steps⟩

theorem Confined.tryCatch {k : ε → Prog σ ε α} (hp : p.Confined view guar)
    (hk : ∀ e, (k e).Confined view guar) : (tryCatch p k).Confined view guar :=
  ⟨hp.isLocal.tryCatch fun e => (hk e).isLocal, hp.steps.tryCatch fun e => (hk e).steps⟩

theorem Confined.lift (hp : p.Confined view guar) :
    (liftM p : Prog (σ × τ) ε α).Confined (withVarsView view) (onStore guar) :=
  ⟨hp.isLocal.lift, hp.steps.lift⟩

theorem Confined.assign (hrefl : ∀ s, guar s s) (f : τ → τ) :
    (Prog.assign f : Prog (σ × τ) ε PUnit).Confined (withVarsView view) (onStore guar) :=
  ⟨.assign f, .assign hrefl f⟩

theorem Confined.withVars {p : Prog (σ × τ) ε α} (hp : p.Confined (withVarsView view) (onStore guar))
    (t : τ) : (p.withVars t).Confined view guar :=
  ⟨hp.isLocal.withVars t, hp.steps.withVars t⟩

/-- Others that leave the view alone do not change how the program ends. -/
theorem Confined.guarantees (hp : p.Confined view guar) :
    p.Guarantees (fun s s' => view s' = view s) guar
      (fun r s' => r = (p.run s).1 ∧ view s' = view (p.run s).2) s :=
  hp.isLocal.guarantees hp.steps

end

end OpenLander.Theory.Prog
