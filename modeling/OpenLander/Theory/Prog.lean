import Mathlib.Logic.Basic

/-! # Programs over a shared store

A program `Prog σ ε α` takes atomic steps on a store of type `σ`, and returns a value of type `α`
or throws an error of type `ε`. Between two steps of a program other programs may take theirs, so
that a step is given with the rest of the program, as a function of the store that the step found.

`run` is the meaning of a program that is left alone. `Keeps I p` says that a run of `p` does not
leave `I`, whether it returns or throws, and `p.Ends s Q` that the run from `s` ends in `Q`. What
`p.Steps R` says of each single step holds whatever other programs do in between. -/

namespace OpenLander.Theory

inductive Prog (σ : Type u) (ε : Type v) (α : Type w) : Type (max u v w)
  /-- The end: a value or an error. -/
  | ret (r : Except ε α)
  /-- Update the store by `f`, and go on with `k` of the store before the update. -/
  | step (f : σ → σ) (k : σ → Prog σ ε α)

namespace Prog

variable {σ τ : Type u} {ε : Type v} {α β : Type w}

/-- Go on with `h` once the program has returned or thrown. -/
def handle : Prog σ ε α → (Except ε α → Prog σ ε β) → Prog σ ε β
  | .ret r, h => h r
  | .step f k, h => .step f fun s => (k s).handle h

/-- What follows an end when only values go on. -/
def onValue (k : α → Prog σ ε β) : Except ε α → Prog σ ε β
  | .ok a => k a
  | .error e => .ret (.error e)

/-- What follows an end when only errors are handled. -/
def onError (k : ε → Prog σ ε α) : Except ε α → Prog σ ε α
  | .ok a => .ret (.ok a)
  | .error e => k e

instance : Monad (Prog σ ε) where
  pure a := .ret (.ok a)
  bind p k := p.handle (onValue k)

instance : MonadExceptOf ε (Prog σ ε) where
  throw e := .ret (.error e)
  tryCatch p k := p.handle (onError k)

/-- Read the store. -/
def read (g : σ → α) : Prog σ ε α := .step id fun s => pure (g s)

/-- Update the store. -/
def modify (f : σ → σ) : Prog σ ε PUnit := .step f fun _ => pure ⟨⟩

/-- Run `cleanup` where `p` throws, and throw the error on. -/
def onThrow (p : Prog σ ε α) (cleanup : Prog σ ε PUnit) : Prog σ ε α :=
  tryCatch p fun e => do
    cleanup
    throw e

/-- Run `p` and go on, whichever way it ends. -/
def settle (p : Prog σ ε α) : Prog σ ε PUnit := p.handle fun _ => pure ⟨⟩

/-- The end of a program with a `finally` that ends in the second argument. -/
def finish (r : Except ε α) : Except ε PUnit → Except ε α
  | .ok _ => r
  | .error e => .error e

/-- Run `after` at the end of `p`, which stays the end unless `after` throws. -/
def andFinally (p : Prog σ ε α) (after : Prog σ ε PUnit) : Prog σ ε α :=
  p.handle fun r => after.handle fun r' => .ret (finish r r')

/-! ## Local variables -/

/-- The program, next to variables that it does not touch. -/
def lift : Prog σ ε α → Prog (σ × τ) ε α
  | .ret r => .ret r
  | .step f k => .step (fun s => (f s.1, s.2)) fun s => (k s.1).lift

instance : MonadLift (Prog σ ε) (Prog (σ × τ) ε) := ⟨lift⟩

/-- Assign to the variables. -/
def assign (f : τ → τ) : Prog (σ × τ) ε PUnit := modify fun s => (s.1, f s.2)

/-- The program, with variables of its own that begin as `t`. -/
def withVars : τ → Prog (σ × τ) ε α → Prog σ ε α
  | _, .ret r => .ret r
  | t, .step f k => .step (fun s => (f (s, t)).1) fun s => withVars (f (s, t)).2 (k (s, t))

/-! ## Runs -/

/-- The end of a program that is left alone, and the store that it leaves. -/
def run : Prog σ ε α → σ → Except ε α × σ
  | .ret r, s => (r, s)
  | .step f k, s => (k s).run (f s)

@[simp] theorem run_ret (r : Except ε α) (s : σ) : (ret r).run s = (r, s) := rfl

@[simp] theorem run_step (f : σ → σ) (k : σ → Prog σ ε α) (s : σ) :
    (step f k).run s = (k s).run (f s) := rfl

@[simp] theorem run_pure (a : α) (s : σ) : (pure a : Prog σ ε α).run s = (.ok a, s) := rfl

@[simp] theorem run_throw (e : ε) (s : σ) : (throw e : Prog σ ε α).run s = (.error e, s) := rfl

@[simp] theorem run_read (g : σ → α) (s : σ) : (read g : Prog σ ε α).run s = (.ok (g s), s) := rfl

@[simp] theorem run_modify (f : σ → σ) (s : σ) :
    (modify f : Prog σ ε PUnit).run s = (.ok ⟨⟩, f s) := rfl

@[simp] theorem onValue_ok (k : α → Prog σ ε β) (a : α) : onValue k (.ok a) = k a := rfl

@[simp] theorem onValue_error (k : α → Prog σ ε β) (e : ε) :
    onValue k (.error e) = .ret (.error e) := rfl

@[simp] theorem onError_ok (k : ε → Prog σ ε α) (a : α) : onError k (.ok a) = .ret (.ok a) := rfl

@[simp] theorem onError_error (k : ε → Prog σ ε α) (e : ε) : onError k (.error e) = k e := rfl

theorem run_handle (p : Prog σ ε α) (h : Except ε α → Prog σ ε β) (s : σ) :
    (p.handle h).run s = (h (p.run s).1).run (p.run s).2 := by
  induction p generalizing s with
  | ret r => rfl
  | step f k ih => exact ih s (f s)

theorem run_bind (p : Prog σ ε α) (k : α → Prog σ ε β) (s : σ) :
    (p >>= k).run s = (onValue k (p.run s).1).run (p.run s).2 :=
  run_handle p (onValue k) s

theorem run_tryCatch (p : Prog σ ε α) (k : ε → Prog σ ε α) (s : σ) :
    (tryCatch p k).run s = (onError k (p.run s).1).run (p.run s).2 :=
  run_handle p (onError k) s

@[simp] theorem run_pure_bind (a : α) (k : α → Prog σ ε β) (s : σ) :
    (pure a >>= k).run s = (k a).run s := rfl

@[simp] theorem run_throw_bind (e : ε) (k : α → Prog σ ε β) (s : σ) :
    ((throw e : Prog σ ε α) >>= k).run s = (.error e, s) := rfl

@[simp] theorem run_read_bind (g : σ → α) (k : α → Prog σ ε β) (s : σ) :
    (read g >>= k).run s = (k (g s)).run s := rfl

@[simp] theorem run_modify_bind (f : σ → σ) (k : PUnit → Prog σ ε β) (s : σ) :
    (modify f >>= k).run s = (k ⟨⟩).run (f s) := rfl

@[simp] theorem run_step_bind (f : σ → σ) (k' : σ → Prog σ ε α) (k : α → Prog σ ε β) (s : σ) :
    (step f k' >>= k).run s = (k' s >>= k).run (f s) := rfl

theorem run_bind_ok {p : Prog σ ε α} {k : α → Prog σ ε β} (h : p.run s = (.ok a, s')) :
    (p >>= k).run s = (k a).run s' := by
  rw [run_bind, h, onValue_ok]

theorem run_bind_error {p : Prog σ ε α} {k : α → Prog σ ε β} (h : p.run s = (.error e, s')) :
    (p >>= k).run s = (.error e, s') := by
  rw [run_bind, h, onValue_error, run_ret]

/-- A sequence that returns: both of its programs do. -/
theorem run_bind_eq_ok {p : Prog σ ε α} {k : α → Prog σ ε β} (h : (p >>= k).run s = (.ok b, s')) :
    ∃ a s'', p.run s = (.ok a, s'') ∧ (k a).run s'' = (.ok b, s') := by
  rw [run_bind] at h
  generalize p.run s = fate at h ⊢
  obtain ⟨r, s''⟩ := fate
  cases r with
  | error e => exact nomatch (Prod.mk.inj h).1
  | ok a => exact ⟨a, s'', rfl, h⟩

@[simp] theorem run_settle (p : Prog σ ε α) (s : σ) : p.settle.run s = (.ok ⟨⟩, (p.run s).2) :=
  run_handle p _ s

theorem run_onThrow_ok {p : Prog σ ε α} {cleanup : Prog σ ε PUnit} (h : p.run s = (.ok a, s')) :
    (p.onThrow cleanup).run s = (.ok a, s') := by
  rw [onThrow, run_tryCatch, h, onError_ok, run_ret]

theorem run_onThrow_error {p : Prog σ ε α} {cleanup : Prog σ ε PUnit}
    (h : p.run s = (.error e, s')) (hc : cleanup.run s' = (.ok ⟨⟩, s'')) :
    (p.onThrow cleanup).run s = (.error e, s'') := by
  rw [onThrow, run_tryCatch, h, onError_error, run_bind_ok hc, run_throw]

theorem run_andFinally (p : Prog σ ε α) (after : Prog σ ε PUnit) (s : σ) :
    (p.andFinally after).run s =
      (finish (p.run s).1 (after.run (p.run s).2).1, (after.run (p.run s).2).2) := by
  rw [andFinally, run_handle, run_handle, run_ret]

theorem run_lift (p : Prog σ ε α) (s : σ) (t : τ) :
    (p.lift : Prog (σ × τ) ε α).run (s, t) = ((p.run s).1, (p.run s).2, t) := by
  induction p generalizing s with
  | ret r => rfl
  | step f k ih => exact ih s (f s)

theorem run_lift_bind (p : Prog σ ε α) (k : α → Prog (σ × τ) ε β) (s : σ) (t : τ) :
    ((liftM p : Prog (σ × τ) ε α) >>= k).run (s, t) =
      (onValue k (p.run s).1).run ((p.run s).2, t) := by
  rw [run_bind, show (liftM p : Prog (σ × τ) ε α).run (s, t) = _ from run_lift p s t]

theorem run_withVars (p : Prog (σ × τ) ε α) (s : σ) (t : τ) :
    (p.withVars t).run s = ((p.run (s, t)).1, (p.run (s, t)).2.1) := by
  induction p generalizing s t with
  | ret r => rfl
  | step f k ih => exact ih (s, t) (f (s, t)).1 (f (s, t)).2

/-! ## Postconditions -/

/-- Left alone, the program ends in `Q`. -/
def Ends (p : Prog σ ε α) (s : σ) (Q : Except ε α → σ → Prop) : Prop := Q (p.run s).1 (p.run s).2

/-- An end in the value that `P` is about, or in the failure, with `E`. -/
def Yields (failure : Option ε) (P : α → σ → Prop) (E : σ → Prop) : Except ε α → σ → Prop
  | .ok a, s => failure = none ∧ P a s
  | .error e, s => failure = some e ∧ E s

section
variable {p : Prog σ ε α} {Q R : Except ε α → σ → Prop}

theorem Ends.mono (h : p.Ends s R) (hQ : ∀ r s', R r s' → Q r s') : p.Ends s Q := hQ _ _ h

theorem Ends.and (h : p.Ends s Q) (h' : p.Ends s R) : p.Ends s fun r s' => Q r s' ∧ R r s' :=
  ⟨h, h'⟩

theorem Ends.of_run (h : p.run s = (r, s')) (hQ : Q r s') : p.Ends s Q := by
  rw [Ends, h]
  exact hQ

@[simp] theorem ends_pure {Q : Except ε α → σ → Prop} :
    (pure a : Prog σ ε α).Ends s Q ↔ Q (.ok a) s := .rfl

@[simp] theorem ends_throw {Q : Except ε α → σ → Prop} :
    (throw e : Prog σ ε α).Ends s Q ↔ Q (.error e) s := .rfl

@[simp] theorem ends_read_bind (g : σ → α) (k : α → Prog σ ε β) {Q : Except ε β → σ → Prop} :
    (read g >>= k).Ends s Q ↔ (k (g s)).Ends s Q := .rfl

@[simp] theorem ends_assign_bind (f : τ → τ) (k : PUnit → Prog (σ × τ) ε β)
    {Q : Except ε β → σ × τ → Prop} :
    (assign f >>= k).Ends s Q ↔ (k ⟨⟩).Ends (s.1, f s.2) Q := .rfl

theorem Ends.bind {k : α → Prog σ ε β} {Q : Except ε β → σ → Prop} (h : p.Ends s R)
    (ok : ∀ a s', R (.ok a) s' → (k a).Ends s' Q)
    (error : ∀ e s', R (.error e) s' → Q (.error e) s') : (p >>= k).Ends s Q := by
  rw [Ends] at h ⊢
  rw [run_bind]
  generalize p.run s = fate at h ⊢
  obtain ⟨r, s'⟩ := fate
  cases r with
  | ok a => exact ok a s' h
  | error e => exact error e s' h

/-- The first failure is that of `p`, or else that of `k`. -/
theorem Ends.bind_yields {k : α → Prog σ ε β} {F G : Option ε} {P : α → σ → Prop}
    {P' : β → σ → Prop} {E E' : σ → Prop} (h : p.Ends s (Yields F P E))
    (hk : ∀ a s', P a s' → (k a).Ends s' (Yields G P' E')) (hE : ∀ s', E s' → E' s') :
    (p >>= k).Ends s (Yields (F.or G) P' E') := by
  refine h.bind (fun a s' ⟨hF, hP⟩ => ?_) (fun e s' ⟨hF, hs'⟩ => ?_)
  · rw [hF, Option.none_or]
    exact hk a s' hP
  · rw [hF, Option.some_or]
    exact ⟨rfl, hE s' hs'⟩

theorem Ends.tryCatch {k : ε → Prog σ ε α} (h : p.Ends s R)
    (ok : ∀ a s', R (.ok a) s' → Q (.ok a) s')
    (error : ∀ e s', R (.error e) s' → (k e).Ends s' Q) : (tryCatch p k).Ends s Q := by
  rw [Ends] at h ⊢
  rw [run_tryCatch]
  generalize p.run s = fate at h ⊢
  obtain ⟨r, s'⟩ := fate
  cases r with
  | ok a => exact ok a s' h
  | error e => exact error e s' h

/-- A `finally` that does not throw. -/
theorem Ends.andFinally {after : Prog σ ε PUnit} (h : p.Ends s R)
    (hafter : ∀ r s', R r s' → after.Ends s' fun r' s'' => r' = .ok ⟨⟩ ∧ Q r s'') :
    (p.andFinally after).Ends s Q := by
  obtain ⟨hok, hQ⟩ := hafter _ _ h
  rw [Ends, run_andFinally, hok]
  exact hQ

theorem Ends.lift {t : τ} {Q : Except ε α → σ × τ → Prop}
    (h : p.Ends s fun r s' => Q r (s', t)) : (liftM p : Prog (σ × τ) ε α).Ends (s, t) Q :=
  .of_run (run_lift p s t) h

theorem Ends.lift_bind {t : τ} {k : α → Prog (σ × τ) ε β} {Q : Except ε β → σ × τ → Prop}
    (h : p.Ends s R) (ok : ∀ a s', R (.ok a) s' → (k a).Ends (s', t) Q)
    (error : ∀ e s', R (.error e) s' → Q (.error e) (s', t)) :
    ((liftM p : Prog (σ × τ) ε α) >>= k).Ends (s, t) Q := by
  rw [Ends] at h ⊢
  rw [run_bind, show (liftM p : Prog (σ × τ) ε α).run (s, t) = _ from run_lift p s t]
  generalize p.run s = fate at h ⊢
  obtain ⟨r, s'⟩ := fate
  cases r with
  | ok a => exact ok a s' h
  | error e => exact error e s' h

theorem Ends.lift_bind_yields {t : τ} {k : α → Prog (σ × τ) ε β} {F G : Option ε}
    {P : α → σ → Prop} {P' : β → σ × τ → Prop} {E : σ → Prop} {E' : σ × τ → Prop}
    (h : p.Ends s (Yields F P E)) (hk : ∀ a s', P a s' → (k a).Ends (s', t) (Yields G P' E'))
    (hE : ∀ s', E s' → E' (s', t)) :
    ((liftM p : Prog (σ × τ) ε α) >>= k).Ends (s, t) (Yields (F.or G) P' E') := by
  refine h.lift_bind (fun a s' ⟨hF, hP⟩ => ?_) (fun e s' ⟨hF, hs'⟩ => ?_)
  · rw [hF, Option.none_or]
    exact hk a s' hP
  · rw [hF, Option.some_or]
    exact ⟨rfl, hE s' hs'⟩

theorem Ends.withVars {p : Prog (σ × τ) ε α} {t : τ}
    (h : p.Ends (s, t) fun r s' => Q r s'.1) : (p.withVars t).Ends s Q :=
  .of_run (run_withVars p s t) h

end

/-! ## Steps -/

/-- Every step of the program goes by `R`, whatever store it finds. -/
def Steps (R : σ → σ → Prop) : Prog σ ε α → Prop
  | .ret _ => True
  | .step f k => ∀ s, R s (f s) ∧ Steps R (k s)

/-- The relation of stores with variables by which their stores go by `R`. -/
def onStore (R : σ → σ → Prop) (s s' : σ × τ) : Prop := R s.1 s'.1

section
variable {R S : σ → σ → Prop} {p : Prog σ ε α}

theorem Steps.ret (r : Except ε α) : Steps R (.ret r : Prog σ ε α) := trivial

theorem Steps.pure (a : α) : Steps R (Pure.pure a : Prog σ ε α) := trivial

theorem Steps.throw (e : ε) : Steps R (MonadExcept.throw e : Prog σ ε α) := trivial

theorem Steps.modify {f : σ → σ} (hf : ∀ s, R s (f s)) : Steps R (Prog.modify f : Prog σ ε PUnit) :=
  fun s => ⟨hf s, trivial⟩

theorem Steps.read (hR : ∀ s, R s s) (g : σ → α) : Steps R (Prog.read g : Prog σ ε α) :=
  fun s => ⟨hR s, trivial⟩

theorem Steps.mono (h : Steps R p) (hS : ∀ s s', R s s' → S s s') : Steps S p := by
  induction p with
  | ret r => trivial
  | step f k ih => exact fun s => ⟨hS _ _ (h s).1, ih s (h s).2⟩

theorem Steps.handle {h : Except ε α → Prog σ ε β} (hp : Steps R p) (hh : ∀ r, Steps R (h r)) :
    Steps R (p.handle h) := by
  induction p with
  | ret r => exact hh r
  | step f k ih => exact fun s => ⟨(hp s).1, ih s (hp s).2⟩

theorem Steps.bind {k : α → Prog σ ε β} (hp : Steps R p) (hk : ∀ a, Steps R (k a)) :
    Steps R (p >>= k) :=
  hp.handle fun
    | .ok a => hk a
    | .error e => .ret (.error e)

theorem Steps.tryCatch {k : ε → Prog σ ε α} (hp : Steps R p) (hk : ∀ e, Steps R (k e)) :
    Steps R (tryCatch p k) :=
  hp.handle fun
    | .ok a => .ret (.ok a)
    | .error e => hk e

theorem Steps.onThrow {cleanup : Prog σ ε PUnit} (hp : Steps R p) (hc : Steps R cleanup) :
    Steps R (p.onThrow cleanup) :=
  hp.tryCatch fun e => hc.bind fun _ => .throw e

theorem Steps.settle (hp : Steps R p) : Steps R p.settle := hp.handle fun _ => .pure _

theorem Steps.andFinally {after : Prog σ ε PUnit} (hp : Steps R p) (ha : Steps R after) :
    Steps R (p.andFinally after) :=
  hp.handle fun _ => ha.handle fun _ => .ret _

theorem Steps.lift (hp : Steps R p) :
    Steps (onStore R) (liftM p : Prog (σ × τ) ε α) := by
  induction p with
  | ret r => trivial
  | step f k ih => exact fun s => ⟨(hp s.1).1, ih s.1 (hp s.1).2⟩

theorem Steps.assign (hR : ∀ s, R s s) (f : τ → τ) :
    Steps (onStore R) (Prog.assign f : Prog (σ × τ) ε PUnit) :=
  .modify fun s => hR s.1

theorem Steps.withVars {p : Prog (σ × τ) ε α} (hp : Steps (onStore R) p) (t : τ) :
    Steps R (p.withVars t) := by
  induction p generalizing t with
  | ret r => trivial
  | step f k ih => exact fun s => ⟨(hp (s, t)).1, ih (s, t) (hp (s, t)).2 _⟩

/-- Every end of the program satisfies `Q`, whatever stores its steps find. -/
def Leaves (Q : Except ε α → Prop) : Prog σ ε α → Prop
  | .ret r => Q r
  | .step _ k => ∀ s, Leaves Q (k s)

theorem Leaves.of_forall {Q : Except ε α → Prop} (hQ : ∀ r, Q r) : p.Leaves Q := by
  induction p with
  | ret r => exact hQ r
  | step f k ih => exact fun s => ih s

theorem Leaves.run {Q : Except ε α → Prop} (h : p.Leaves Q) (s : σ) : Q (p.run s).1 := by
  induction p generalizing s with
  | ret r => exact h
  | step f k ih => exact ih s (h s) (f s)

theorem Leaves.bind {k : α → Prog σ ε β} {Q : Except ε α → Prop} {R : Except ε β → Prop}
    (hp : p.Leaves Q) (ok : ∀ a, Q (.ok a) → (k a).Leaves R) (error : ∀ e, Q (.error e) → R (.error e)) :
    (p >>= k).Leaves R := by
  induction p with
  | ret r =>
    cases r with
    | ok a => exact ok a hp
    | error e => exact error e hp
  | step f k' ih => exact fun s => ih s (hp s)

/-- What follows a program only has to go by `R` after the values that it can return. -/
theorem Steps.bind_of_leaves {k : α → Prog σ ε β} {Q : Except ε α → Prop} (hp : Steps R p)
    (hleaves : p.Leaves Q) (hk : ∀ a, Q (.ok a) → Steps R (k a)) : Steps R (p >>= k) := by
  induction p with
  | ret r =>
    cases r with
    | ok a => exact hk a hleaves
    | error e => exact .throw e
  | step f k' ih => exact fun s => ⟨(hp s).1, ih s (hp s).2 (hleaves s)⟩

/-- The program cannot throw. -/
def Returns (p : Prog σ ε α) : Prop := p.Leaves fun r => ∃ a, r = .ok a

/-- The program can only throw. -/
def Fails (p : Prog σ ε α) : Prop := p.Leaves fun r => ∃ e, r = .error e

theorem Returns.pure (a : α) : (Pure.pure a : Prog σ ε α).Returns := ⟨a, rfl⟩

theorem Returns.bind {k : α → Prog σ ε β} (hp : p.Returns) (hk : ∀ a, (k a).Returns) :
    (p >>= k).Returns := by
  induction p with
  | ret r =>
    obtain ⟨a, rfl⟩ := hp
    exact hk a
  | step f k ih => exact fun s => ih s (hp s)

theorem Fails.throw (e : ε) : (MonadExcept.throw e : Prog σ ε α).Fails := ⟨e, rfl⟩

theorem Fails.bind_left {k : α → Prog σ ε β} (hp : p.Fails) : (p >>= k).Fails := by
  induction p with
  | ret r =>
    obtain ⟨e, rfl⟩ := hp
    exact .throw e
  | step f k ih => exact fun s => ih s (hp s)

theorem Fails.bind_right (p : Prog σ ε α) {k : α → Prog σ ε β} (hk : ∀ a, (k a).Fails) :
    (p >>= k).Fails := by
  induction p with
  | ret r =>
    cases r with
    | ok a => exact hk a
    | error e => exact .throw e
  | step f k ih => exact fun s => ih s

/-- What follows a program that fails is not reached. -/
theorem Steps.bind_of_fails {k : α → Prog σ ε β} (hp : Steps R p) (hfails : p.Fails) :
    Steps R (p >>= k) := by
  induction p with
  | ret r =>
    obtain ⟨e, rfl⟩ := hfails
    exact .throw e
  | step f k ih => exact fun s => ⟨(hp s).1, ih s (hp s).2 (hfails s)⟩

end

/-! ## Invariants -/

/-- A run that starts in `I` ends in `I`. -/
def Keeps (I : σ → Prop) (p : Prog σ ε α) : Prop := ∀ s, I s → I (p.run s).2

variable {I : σ → Prop}

theorem Keeps.ret (r : Except ε α) : Keeps I (.ret r : Prog σ ε α) := fun _ hs => hs

theorem Keeps.step {f : σ → σ} {k : σ → Prog σ ε α} (hf : ∀ s, I s → I (f s))
    (hk : ∀ s, Keeps I (k s)) : Keeps I (.step f k) :=
  fun s hs => hk s (f s) (hf s hs)

theorem Keeps.read (g : σ → α) : Keeps I (Prog.read g : Prog σ ε α) := fun _ hs => hs

/-- What is read may be related to the store that it is read from. -/
theorem Keeps.read_bind {g : σ → β} {k : β → Prog σ ε α}
    (hk : ∀ s, I s → I ((k (g s)).run s).2) : Keeps I (Prog.read g >>= k) := hk

theorem Keeps.handle {p : Prog σ ε α} {h : Except ε α → Prog σ ε β} (hp : Keeps I p)
    (hh : ∀ r, Keeps I (h r)) : Keeps I (p.handle h) := by
  intro s hs
  rw [run_handle]
  exact hh _ _ (hp s hs)

theorem Keeps.bind {p : Prog σ ε α} {k : α → Prog σ ε β} (hp : Keeps I p)
    (hk : ∀ a, Keeps I (k a)) : Keeps I (p >>= k) :=
  hp.handle fun
    | .ok a => hk a
    | .error e => .ret (.error e)

theorem Keeps.tryCatch {p : Prog σ ε α} {k : ε → Prog σ ε α} (hp : Keeps I p)
    (hk : ∀ e, Keeps I (k e)) : Keeps I (tryCatch p k) :=
  hp.handle fun
    | .ok a => .ret (.ok a)
    | .error e => hk e

end Prog

end OpenLander.Theory
