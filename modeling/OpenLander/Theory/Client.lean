import OpenLander.Theory.Run

/-! # Clients of a service

A `Client C R ε α` makes calls of type `C`, goes on with the response to each, of type `R c`, and
ends with a value or an error. A service is a function `serve` that answers a call from its store,
or refuses it with an error and stays as it is.

`next` runs any number of clients side by side, a call at a time. A call may also fail though the
service would answer it. Of each client a memory is kept of the calls that it has made.

`p.Secures …` says what the rest of a client ends with as long as the store moves by `rely` between
two of its calls and each call is made where it is admitted. If every step of a run moves the store
by `rely` and makes an admitted call, what clients secure when they start, they end with
(`Secured.next`). -/

namespace OpenLander.Theory

inductive Client (C : Type u) (R : C → Type v) (ε : Type w) (α : Type x)
  | ret (r : Except ε α)
  | call (c : C) (k : R c → Client C R ε α)

namespace Client
variable {C : Type u} {ε : Type w} {α β : Type x} {R : C → Type x}

def bind : Client C R ε α → (α → Client C R ε β) → Client C R ε β
  | .ret (.ok a), f => f a
  | .ret (.error e), _ => .ret (.error e)
  | .call c k, f => .call c fun r => (k r).bind f

instance : Monad (Client C R ε) where
  pure a := .ret (.ok a)
  bind := Client.bind

protected def throw (e : ε) : Client C R ε α := .ret (.error e)

def perform (c : C) : Client C R ε (R c) := .call c pure

/-- The client makes a call next, and `Φ` is about it. -/
def Makes (Φ : C → Prop) : Client C R ε α → Prop
  | .ret _ => False
  | .call c _ => Φ c

/-- Every call that the client may make is one that `Φ` is about. -/
def Calls (Φ : C → Prop) : Client C R ε α → Prop
  | .ret _ => True
  | .call c k => Φ c ∧ ∀ r, Calls Φ (k r)

theorem Calls.bind {Φ : C → Prop} {p : Client C R ε α} {f : α → Client C R ε β} (h : p.Calls Φ)
    (hf : ∀ a, (f a).Calls Φ) : (p >>= f).Calls Φ := by
  induction p with
  | ret r =>
    cases r with
    | ok a => exact hf a
    | error e => trivial
  | call c k ih => exact ⟨h.1, fun r => ih r (h.2 r)⟩

theorem Calls.perform {Φ : C → Prop} {c : C} (h : Φ c) : (perform c : Client C R ε (R c)).Calls Φ :=
  ⟨h, fun _ => trivial⟩

/-! ## What a client ends with -/

section
variable {σ : Type y} {γ : Type z}
variable (serve : (c : C) → σ → Except ε (R c × σ)) (record : γ → C → σ → γ)
variable (rely : σ → σ → Prop) (admits : γ → C → σ → Prop)

/-- With others in `rely` and with admitted calls, the end is in `Q`. -/
def Secures (Q : Except ε α → γ → σ → Prop) : Client C R ε α → γ → σ → Prop
  | .ret r, g, s => Q r g s
  | .call c k, g, s => ∀ s', rely s s' → admits g c s' → ∀ r s'', serve c s' = .ok (r, s'') →
      Secures Q (k r) (record g c s') s''

variable {serve record rely admits} {p : Client C R ε α} {Q : Except ε α → γ → σ → Prop}

theorem secures_perform_bind {c : C} {f : R c → Client C R ε α} :
    (perform c >>= f).Secures serve record rely admits Q g s ↔
      ∀ s', rely s s' → admits g c s' → ∀ r s'', serve c s' = .ok (r, s'') →
        (f r).Secures serve record rely admits Q (record g c s') s'' :=
  .rfl

theorem Secures.wait (h : p.Secures serve record rely admits Q g s) (hs : rely s s')
    (htrans : ∀ s₁ s₂ s₃, rely s₁ s₂ → rely s₂ s₃ → rely s₁ s₃)
    (hQ : ∀ r g s s', Q r g s → rely s s' → Q r g s') : p.Secures serve record rely admits Q g s' := by
  cases p with
  | ret r => exact hQ r g s s' h hs
  | call c k => exact fun s'' hs'' => h s'' (htrans _ _ _ hs hs'')

theorem Secures.mono {Q' : Except ε α → γ → σ → Prop}
    (h : p.Secures serve record rely admits Q g s) (hQ : ∀ r g s, Q r g s → Q' r g s) :
    p.Secures serve record rely admits Q' g s := by
  induction p generalizing g s with
  | ret r => exact hQ r g s h
  | call c k ih => exact fun s' hs' hc r s'' hr => ih r (h s' hs' hc r s'' hr)

theorem Secures.bind {f : α → Client C R ε β} {Q' : Except ε β → γ → σ → Prop}
    (h : p.Secures serve record rely admits Q g s)
    (ok : ∀ a g s, Q (.ok a) g s → (f a).Secures serve record rely admits Q' g s)
    (error : ∀ e g s, Q (.error e) g s → Q' (.error e) g s) :
    (p >>= f).Secures serve record rely admits Q' g s := by
  induction p generalizing g s with
  | ret r =>
    cases r with
    | ok a => exact ok a g s h
    | error e => exact error e g s h
  | call c k ih => exact fun s' hs' hc r s'' hr => ih r (h s' hs' hc r s'' hr)

end
end Client

/-! ## Clients side by side -/

structure Client.Job (C : Type u) (R : C → Type v) (ε : Type w) (α : Type x) (κ : Type y)
    (γ : Type z) where
  job : κ
  /-- What is left of the job's client. -/
  rest : Client C R ε α
  memory : γ

structure Clients (ι : Type u') (κ : Type y) (C : Type u) (R : C → Type v) (ε : Type w) (α : Type x)
    (σ : Type v') (γ : Type z) where
  store : σ
  jobs : ι → Option (Client.Job C R ε α κ γ)

namespace Clients

inductive Event (ι : Type u) (κ : Type v) (ε : Type w) (δ : Type x)
  | start (i : ι) (job : κ)
  | step (i : ι)
  | fail (i : ι) (e : ε)
  /-- Something else happens to the store. -/
  | other (d : δ)
  deriving DecidableEq, Repr

variable {ι κ C ε α σ γ δ : Type} {R : C → Type}

/-- Nothing has been started. -/
def init (s : σ) : Clients ι κ C R ε α σ γ := ⟨s, fun _ => none⟩

/-- The job has ended with a value that `Q` is about. -/
def Returned (P : Clients ι κ C R ε α σ γ) (i : ι) (job : κ) (Q : α → γ → Prop) : Prop :=
  ∃ a g, P.jobs i = some ⟨job, .ret (.ok a), g⟩ ∧ Q a g

variable [DecidableEq ι]

def put (P : Clients ι κ C R ε α σ γ) (i : ι) (job : Client.Job C R ε α κ γ) :
    Clients ι κ C R ε α σ γ :=
  { P with jobs := fun j => if j = i then some job else P.jobs j }

section
variable (serve : (c : C) → σ → Except ε (R c × σ)) (record : γ → C → σ → γ) (memory : γ)
variable (program : κ → Client C R ε α) (other : δ → σ → σ)

def next (P : Clients ι κ C R ε α σ γ) : Event ι κ ε δ → Option (Clients ι κ C R ε α σ γ)
  | .start i job =>
    match P.jobs i with
    | none => some (P.put i ⟨job, program job, memory⟩)
    | some _ => none
  | .step i =>
    match P.jobs i with
    | some ⟨job, .call c k, g⟩ =>
      match serve c P.store with
      | .ok (r, store) =>
        some { P.put i ⟨job, k r, record g c P.store⟩ with store := store }
      | .error e => some (P.put i ⟨job, .ret (.error e), g⟩)
    | _ => none
  | .fail i e =>
    match P.jobs i with
    | some ⟨job, .call _ _, g⟩ => some (P.put i ⟨job, .ret (.error e), g⟩)
    | _ => none
  | .other d => some { P with store := other d P.store }

end

variable {serve : (c : C) → σ → Except ε (R c × σ)} {record : γ → C → σ → γ} {memory : γ}
variable {program : κ → Client C R ε α} {other : δ → σ → σ}
variable {P P' : Clients ι κ C R ε α σ γ} {i j : ι} {job : Client.Job C R ε α κ γ}

@[simp] theorem put_store : (P.put i job).store = P.store := rfl

theorem put_self : (P.put i job).jobs i = some job := if_pos rfl

theorem put_of_ne (h : j ≠ i) : (P.put i job).jobs j = P.jobs j := if_neg h

/-- Where something holds of all jobs, and of the new one, it holds of all jobs. -/
theorem put_cases {p : ι → Client.Job C R ε α κ γ → Prop} (hi : p i job)
    (h : ∀ j job, j ≠ i → P.jobs j = some job → p j job) :
    ∀ j job', (P.put i job).jobs j = some job' → p j job' := by
  intro j job' hj
  by_cases hji : j = i
  · subst hji
    obtain rfl := Option.some.inj (put_self.symm.trans hj)
    exact hi
  · exact h j job' hji ((put_of_ne hji).symm.trans hj)

/-- A step starts a job, answers a call, ends a job with an error, or is none of a job. -/
theorem next_cases (h : next serve record memory program other P e = some P') :
    (∃ i job, e = .start i job ∧ P.jobs i = none ∧ P' = P.put i ⟨job, program job, memory⟩) ∨
    (∃ i job c k g r store, e = .step i ∧ P.jobs i = some ⟨job, .call c k, g⟩ ∧
      serve c P.store = .ok (r, store) ∧
      P' = { P.put i ⟨job, k r, record g c P.store⟩ with store := store }) ∨
    (∃ i job c k g e', P.jobs i = some ⟨job, .call c k, g⟩ ∧
      P' = P.put i ⟨job, .ret (.error e'), g⟩) ∨
    ∃ d, e = .other d ∧ P' = { P with store := other d P.store } := by
  cases e with
  | start i job =>
    rw [next] at h
    split at h
    · next hi => exact .inl ⟨i, job, rfl, hi, (Option.some.inj h).symm⟩
    · exact nomatch h
  | step i =>
    rw [next] at h
    split at h
    · next job c k g hi =>
      split at h
      · next r store hr =>
        exact .inr (.inl ⟨i, job, c, k, g, r, store, rfl, hi, hr, (Option.some.inj h).symm⟩)
      · next e' _ =>
        exact .inr (.inr (.inl ⟨i, job, c, k, g, e', hi, (Option.some.inj h).symm⟩))
    · exact nomatch h
  | fail i e' =>
    rw [next] at h
    split at h
    · next job c k g hi =>
      exact .inr (.inr (.inl ⟨i, job, c, k, g, e', hi, (Option.some.inj h).symm⟩))
    · exact nomatch h
  | other d => exact .inr (.inr (.inr ⟨d, rfl, (Option.some.inj h).symm⟩))

/-! ## Jobs that secure something -/

/-- Each job secures what `Q` says of it. -/
def Secured (serve : (c : C) → σ → Except ε (R c × σ)) (record : γ → C → σ → γ)
    (rely : σ → σ → Prop) (admits : γ → C → σ → Prop) (Q : κ → Except ε α → γ → σ → Prop)
    (P : Clients ι κ C R ε α σ γ) : Prop :=
  ∀ i job, P.jobs i = some job →
    job.rest.Secures serve record rely admits (Q job.job) job.memory P.store

variable {rely : σ → σ → Prop} {admits : γ → C → σ → Prop} {Q : κ → Except ε α → γ → σ → Prop}

omit [DecidableEq ι] in
theorem Secured.init : Secured serve record rely admits Q (init s : Clients ι κ C R ε α σ γ) :=
  fun _ _ h => nomatch h

omit [DecidableEq ι] in
theorem Secured.moves (h : P.Secured serve record rely admits Q) (hs : rely P.store P'.store)
    (htrans : ∀ s₁ s₂ s₃, rely s₁ s₂ → rely s₂ s₃ → rely s₁ s₃)
    (hQ : ∀ job r g s s', Q job r g s → rely s s' → Q job r g s') (hi : P.jobs i = some job) :
    job.rest.Secures serve record rely admits (Q job.job) job.memory P'.store :=
  (h i job hi).wait hs htrans (hQ job.job)

/-- The step relies on nothing but that it moves by `rely` itself, and that its call is admitted. -/
theorem Secured.next (h : P.Secured serve record rely admits Q)
    (hstep : Clients.next serve record memory program other P e = some P')
    (hs : rely P.store P'.store) (hrefl : rely P.store P.store)
    (hadmits : ∀ i job c k g, e = .step i → P.jobs i = some ⟨job, .call c k, g⟩ →
      admits g c P.store)
    (htrans : ∀ s₁ s₂ s₃, rely s₁ s₂ → rely s₂ s₃ → rely s₁ s₃)
    (hQ : ∀ job r g s s', Q job r g s → rely s s' → Q job r g s')
    (hprogram : ∀ job,
      (program job).Secures serve record rely admits (Q job) memory P.store)
    (herror : ∀ job e g, Q job (.error e) g P.store) : P'.Secured serve record rely admits Q := by
  obtain ⟨i, job, -, -, rfl⟩ | ⟨i, job, c, k, g, r, store, rfl, hi, hr, rfl⟩ |
    ⟨i, job, c, k, g, e', -, rfl⟩ | ⟨d, -, rfl⟩ := next_cases hstep
  · exact put_cases (hprogram job) fun j job' _ hj => h j job' hj
  · refine put_cases (P := { P with store := store }) ?_ fun j job' _ hj =>
      (h j job' hj).wait hs htrans (hQ job'.job)
    exact h i _ hi P.store hrefl (hadmits i job c k g rfl hi) r store hr
  · exact put_cases (herror job e' g) fun j job' _ hj => h j job' hj
  · exact fun j job' hj => (h j job' hj).wait hs htrans (hQ job'.job)

end Clients
end OpenLander.Theory
