import OpenLander.Pipeline.DeployQueue

/-! # The order of the deploy queue

Without a release by force the queue is a waiting line: the slot goes to the callers in the order of
their calls, each of whom is handed it once all before have released it. A caller is handed the slot
at once in `acquire`, or by the release function that takes it off the queue, in which case its call
returns later, with its resumption. -/

namespace OpenLander.DeployQueue
open Theory

variable {ι : Type} [DecidableEq ι]

/-- How many callers are queued. -/
def State.getQueueLength (s : State ι) : Nat := s.queue.length

def State.isRunning (s : State ι) : Bool := s.running

/-- The caller was handed the slot, now or earlier. -/
def State.Granted (s : State ι) (i : ι) : Prop := s.phase i ≠ .idle ∧ s.phase i ≠ .queued

/-- The caller of an `acquire`. -/
def acquired : Event ι → List ι
  | .acquire i => [i]
  | _ => []

/-- The caller that is given the slot at once. -/
def entered (s : State ι) (i : ι) : List ι := if s.running && !s.stale then [] else [i]

/-- Who is handed the slot in a step. -/
def granted (s : State ι) : Event ι → List ι
  | .acquire i => (if s.stale then s.queue.take 1 else []) ++ entered s i
  | .release i => if s.phase i = .holding ∨ s.phase i = .forced then s.queue.take 1 else []
  | .watchdog => if s.running then s.queue.take 1 else []
  | .resume _ | .tick _ => []

/-- Whose `acquire` returns in a step. -/
def returned (s : State ι) : Event ι → List ι
  | .acquire i => entered s i
  | .resume i => [i]
  | .release _ | .watchdog | .tick _ => []

/-- The callers in the order of their calls. -/
def acquires (es : List (Event ι)) : List ι := es.flatMap acquired

/-- The callers in the order in which they are handed the slot. -/
def grants (es : List (Event ι)) : List ι := outputs next granted init es

/-- The callers in the order in which their calls return. -/
def returns (es : List (Event ι)) : List ι := outputs next returned init es

/-- The step does not release the slot by force. -/
def Unforced (s : State ι) : Event ι → Prop
  | .acquire _ => s.stale = false
  | .watchdog => s.running = false
  | .resume _ | .release _ | .tick _ => True

instance : ∀ (s : State ι) (e : Event ι), Decidable (Unforced s e)
  | _, .acquire _ => inferInstanceAs (Decidable (_ = false))
  | _, .watchdog => inferInstanceAs (Decidable (_ = false))
  | _, .resume _ | _, .release _ | _, .tick _ => .isTrue trivial

/-- The slot goes round in the order of the calls, and nobody is left behind. -/
structure Fair (es : List (Event ι)) (s : State ι) : Prop where
  granted : ∀ i, i ∈ grants es ↔ s.Granted i
  ordered : grants es <+: acquires es
  returned : returns es <+: grants es
  /-- Whoever comes next when all before have released the slot has it. -/
  served : ∀ before i after, acquires es = before ++ i :: after →
    (∀ j ∈ before, s.phase j = .released) → i ∈ grants es
  pending : s.getQueueLength = ((acquires es).filter (· ∉ grants es)).length
  idle : (∀ i ∈ grants es, s.phase i = .released) → s.isRunning = false ∧ s.queue = []

/-! ## Runs without a release by force -/

/-- The slot is exclusive, and nobody has lost it. -/
def Unbroken (s : State ι) : Prop := Inv s ∧ ∀ i, s.phase i ≠ .forced

/-- What a step may be. -/
theorem next_cases {s t : State ι} {e : Event ι} (h : Guarded (Fires next) Unforced s e t)
    (hs : Unbroken s) :
    (∃ i, e = .acquire i ∧ s.phase i = .idle ∧ s.stale = false ∧ t = s.enter i) ∨
    (∃ i, e = .resume i ∧ s.phase i = .resumable ∧ t = s.resume i) ∨
    (∃ i, e = .release i ∧ s.phase i = .holding ∧ t = s.release i) ∨
    (∃ i, e = .release i ∧ s.phase i = .released ∧ t = s) ∨
    (e = .watchdog ∧ s.running = false ∧ t = { s with watchdog := none }) ∨
    ∃ ms, e = .tick ms ∧ t = { s with now := s.now + ms } := by
  obtain ⟨hstep, hunforced⟩ := h
  cases e with
  | acquire i =>
    obtain ⟨hidle, ht⟩ := Option.ite_none_right_eq_some.mp hstep
    rw [State.acquire, if_neg (by rw [hunforced]; exact Bool.false_ne_true)] at ht
    exact .inl ⟨i, rfl, hidle, hunforced, (Option.some.inj ht).symm⟩
  | resume i =>
    obtain ⟨hresumable, ht⟩ := Option.ite_none_right_eq_some.mp hstep
    exact .inr (.inl ⟨i, rfl, hresumable, (Option.some.inj ht).symm⟩)
  | release i =>
    rw [Fires, next] at hstep
    split at hstep
    next hphase => exact .inr (.inr (.inl ⟨i, rfl, hphase, (Option.some.inj hstep).symm⟩))
    next hphase => exact absurd hphase (hs.2 i)
    next hphase => exact .inr (.inr (.inr (.inl ⟨i, rfl, hphase, (Option.some.inj hstep).symm⟩)))
    next => cases hstep
  | watchdog =>
    obtain ⟨-, ht⟩ := Option.ite_none_right_eq_some.mp hstep
    rw [State.expire, if_neg (by rw [hunforced]; exact Bool.false_ne_true)] at ht
    exact .inr (.inr (.inr (.inr (.inl ⟨rfl, hunforced, (Option.some.inj ht).symm⟩))))
  | tick ms => exact .inr (.inr (.inr (.inr (.inr ⟨ms, rfl, (Option.some.inj hstep).symm⟩))))

/-! ## What the steps do -/

section
variable {s : State ι} {i j : ι}

theorem enter_of_running (h : s.running = true) :
    s.enter i = { s with queue := s.queue ++ [i] }.setPhase i .queued := by
  rw [State.enter, if_pos h]

theorem enter_of_free (h : s.running = false) :
    s.enter i = { s with running := true, acquiredAt := some s.now }.createRelease i := by
  rw [State.enter, h]
  rfl

@[simp] theorem createRelease_phase :
    (s.createRelease i).phase j = if j = i then .holding else s.phase j := setPhase_phase ..

@[simp] theorem createRelease_queue : (s.createRelease i).queue = s.queue := rfl

theorem resume_phase : (s.resume i).phase j = if j = i then .holding else s.phase j :=
  createRelease_phase

theorem release_of_nil (h : s.queue = []) : s.release i =
    { s with watchdog := none, running := false, acquiredAt := none }.setPhase i .released := by
  rw [State.release, h]
  rfl

theorem release_of_cons (h : s.queue = n :: rest) : s.release i =
    ({ s with watchdog := none, queue := rest }.setPhase i .released).setPhase n .resumable := by
  rw [State.release, h]
  simp only [State.resolveNext, State.setPhase]

end

/-- The phases after a step, and what it puts out. -/
inductive Moves (s : State ι) : State ι → List ι → List ι → List ι → Prop
  | queued {t} (i : ι) (hidle : s.phase i = .idle) (hphase : t.phase = Function.update s.phase i .queued)
      (hqueue : t.queue = s.queue ++ [i]) : Moves s t [i] [] []
  | entered {t} (i : ι) (hidle : s.phase i = .idle) (hfree : s.running = false)
      (hphase : t.phase = Function.update s.phase i .holding)
      (hqueue : t.queue = s.queue) : Moves s t [i] [i] [i]
  | resumed {t} (i : ι) (hresumable : s.phase i = .resumable)
      (hphase : t.phase = Function.update s.phase i .holding)
      (hqueue : t.queue = s.queue) : Moves s t [] [] [i]
  | handed {t} (i n : ι) (hholding : s.phase i = .holding) (hqueued : s.phase n = .queued)
      (hphase : t.phase = Function.update (Function.update s.phase i .released) n .resumable)
      (hqueue : s.queue = n :: t.queue) : Moves s t [] [n] []
  | released {t} (i : ι) (hholding : s.phase i = .holding) (hnil : s.queue = [])
      (hphase : t.phase = Function.update s.phase i .released)
      (hqueue : t.queue = []) : Moves s t [] [] []
  | rested {t} (hphase : t.phase = s.phase) (hqueue : t.queue = s.queue) : Moves s t [] [] []

theorem moves {s t : State ι} {e : Event ι} (h : Guarded (Fires next) Unforced s e t)
    (hs : Unbroken s) : Moves s t (acquired e) (granted s e) (returned s e) := by
  obtain ⟨i, rfl, hidle, hstale, rfl⟩ | ⟨i, rfl, hresumable, rfl⟩ | ⟨i, rfl, hholding, rfl⟩ |
    ⟨i, rfl, hreleased, ht⟩ | ⟨rfl, hfree, rfl⟩ | ⟨ms, rfl, rfl⟩ := next_cases h hs
  · have hgranted : granted s (.acquire i) = entered s i := by
      rw [granted, hstale]
      rfl
    rw [hgranted, show returned s (.acquire i) = entered s i from rfl]
    cases hrunning : s.running with
    | true =>
      rw [entered, hrunning, hstale, enter_of_running hrunning]
      exact .queued i hidle rfl rfl
    | false =>
      rw [entered, hrunning, enter_of_free hrunning]
      exact .entered i hidle hrunning rfl rfl
  · exact .resumed i hresumable rfl rfl
  · have hgranted : granted s (.release i) = s.queue.take 1 := if_pos (.inl hholding)
    rw [hgranted]
    cases hqueue : s.queue with
    | nil =>
      rw [release_of_nil hqueue]
      exact .released i hholding hqueue rfl hqueue
    | cons n rest =>
      rw [release_of_cons hqueue]
      exact .handed i n hholding (hs.1.queued n (hqueue ▸ List.mem_cons_self)) rfl hqueue
  · have hgranted : granted s (.release i) = [] := by
      rw [granted, hreleased, if_neg (by decide)]
    rw [hgranted, ht]
    exact .rested rfl rfl
  · have hgranted : granted s .watchdog = [] := by
      rw [granted, hfree]
      rfl
    rw [hgranted]
    exact .rested rfl rfl
  · exact .rested rfl rfl

theorem Moves.phase_ne_forced {s t : State ι} {put out back : List ι} (h : Moves s t put out back)
    (hs : ∀ j, s.phase j ≠ .forced) (j : ι) : t.phase j ≠ .forced := by
  have hj := hs j
  cases h with
  | rested hphase | queued _ _ hphase | entered _ _ _ hphase | resumed _ _ hphase
  | handed _ _ _ _ hphase | released _ _ _ hphase =>
    rw [hphase]
    grind [Function.update_apply]

theorem Moves.queue {s t : State ι} {put out back : List ι} (h : Moves s t put out back) :
    (s.running = false → s.queue = []) → out ++ t.queue = s.queue ++ put := by
  intro hfree
  cases h with
  | rested _ hqueue | resumed _ _ _ hqueue => simp [hqueue]
  | queued _ _ _ hqueue => simp [hqueue]
  | entered _ _ hrunning _ hqueue => simp [hqueue, hfree hrunning]
  | handed _ _ _ _ _ hqueue => simp [hqueue]
  | released _ _ hnil _ hqueue => simp [hqueue, hnil]

theorem Moves.granted_iff {s t : State ι} {put out back : List ι} (h : Moves s t put out back) (j : ι) :
    t.Granted j ↔ s.Granted j ∨ j ∈ out := by
  unfold State.Granted
  cases h with
  | rested hphase | queued _ _ hphase | entered _ _ _ hphase | resumed _ _ hphase
  | handed _ _ _ _ hphase | released _ _ _ hphase =>
    rw [hphase]
    grind [Function.update_apply]

/-- The callers between the resolution of their promise and their resumption. -/
def Resolved (s : State ι) (l : List ι) : Prop :=
  l.Nodup ∧ ∀ i, i ∈ l ↔ s.phase i = .resumable

omit [DecidableEq ι] in
theorem resolved_singleton {s : State ι} (hs : Inv s) (hi : s.phase i = .resumable)
    (hl : Resolved s l) : l = [i] := by
  refine List.perm_singleton.mp ((List.perm_ext_iff_of_nodup hl.1 (List.nodup_singleton i)).mpr ?_)
  intro j
  rw [hl.2 j, List.mem_singleton]
  constructor
  · exact fun hj => hs.unique j i (.inr hj) (.inr hi)
  · intro hj
    rw [hj]
    exact hi

omit [DecidableEq ι] in
theorem resolved_nil {s : State ι} (hl : Resolved s l) (hnone : ∀ i, s.phase i ≠ .resumable) :
    l = [] :=
  List.eq_nil_iff_forall_not_mem.mpr fun i hi => hnone i ((hl.2 i).mp hi)

omit [DecidableEq ι] in
/-- Nobody waits for its resumption while the slot is held. -/
theorem not_resumable {s : State ι} (hs : Inv s) (hi : s.phase i = .holding) (j : ι) :
    s.phase j ≠ .resumable := by
  intro hj
  obtain rfl := hs.unique i j (.inl hi) (.inr hj)
  exact nomatch hi.symm.trans hj

/-- The calls return in the order in which the slot is handed over. -/
theorem Moves.resolved {s t : State ι} {put out back : List ι} (h : Moves s t put out back) (hs : Inv s)
    (hl : Resolved s l) : ∃ l', Resolved t l' ∧ back ++ l' = l ++ out := by
  cases h with
  | rested hphase hqueue =>
    refine ⟨l, ⟨hl.1, fun j => ?_⟩, (List.append_nil l).symm⟩
    rw [hphase]
    exact hl.2 j
  | queued i hidle hphase =>
    refine ⟨l, ⟨hl.1, fun j => ?_⟩, (List.append_nil l).symm⟩
    rw [hl.2 j, hphase]
    grind [Function.update_apply]
  | entered i hidle hfree hphase =>
    obtain rfl := resolved_nil hl fun j hj => (hs.free hfree).1 j (.inr hj)
    refine ⟨[], ⟨.nil, fun j => ?_⟩, rfl⟩
    rw [hl.2 j, hphase]
    grind [Function.update_apply]
  | resumed i hresumable hphase =>
    obtain rfl := resolved_singleton hs hresumable hl
    refine ⟨[], ⟨.nil, fun j => ?_⟩, rfl⟩
    have hj := hl.2 j
    rw [hphase]
    grind [Function.update_apply]
  | handed i n hholding hqueued hphase =>
    obtain rfl := resolved_nil hl (not_resumable hs hholding)
    refine ⟨[n], ⟨List.nodup_singleton n, fun j => ?_⟩, rfl⟩
    have hj := not_resumable hs hholding j
    rw [hphase]
    grind [Function.update_apply]
  | released i hholding hnil hphase =>
    obtain rfl := resolved_nil hl (not_resumable hs hholding)
    refine ⟨[], ⟨.nil, fun j => ?_⟩, rfl⟩
    have hj := not_resumable hs hholding j
    rw [hphase]
    grind [Function.update_apply]

/-! ## What the runs do -/

theorem preserves_unbroken : Preserves (Guarded (Fires next) Unforced) (Unbroken (ι := ι)) := by
  intro s e t h hs
  have horderly : Orderly s e := by
    cases e with
    | acquire i => exact fun hstale => absurd hstale (by rw [show s.stale = false from h.2]; decide)
    | release i => exact fun hforced => absurd hforced (hs.2 i)
    | watchdog => exact fun hrun => absurd hrun (by rw [show s.running = false from h.2]; decide)
    | resume i => trivial
    | tick ms => trivial
  exact ⟨Inv.step ⟨h.1, horderly⟩ hs.1, (moves h hs).phase_ne_forced hs.2⟩

section
variable {es : List (Event ι)} {s : State ι}

omit [DecidableEq ι] in
theorem unbroken_init : Unbroken (init : State ι) := ⟨.init, fun _ => nofun⟩

theorem mem_grants (h : Run (Guarded (Fires next) Unforced) init es s) (i : ι) :
    i ∈ grants es ↔ s.Granted i := by
  have hiff := h.mem_outputs (p := fun s => s.Granted i) unbroken_init preserves_unbroken
    fun _ _ _ hstep hs => (moves hstep hs).granted_iff i
  rw [grants, hiff]
  exact (or_iff_right fun hinit => hinit.1 rfl).symm

/-- Whoever has called has been handed the slot, or waits in the queue. -/
theorem grants_append_queue (h : Run (Guarded (Fires next) Unforced) init es s) :
    grants es ++ s.queue = acquires es := by
  obtain ⟨l, rfl, hout⟩ := h.outputs_append (R := fun s l => l = s.queue) unbroken_init
    preserves_unbroken
    (fun s e t l hstep hs hl => ⟨t.queue, rfl, hl ▸ (moves hstep hs).queue fun hfree =>
      (hs.1.free hfree).2⟩)
    rfl
  rw [h.outputs_eq_flatMap] at hout
  exact hout

theorem returns_prefix (h : Run (Guarded (Fires next) Unforced) init es s) :
    returns es <+: grants es := by
  obtain ⟨l, -, hout⟩ := h.outputs_append (R := Resolved) unbroken_init preserves_unbroken
    (fun _ _ _ _ hstep hs hl => (moves hstep hs).resolved hs.1 hl)
    (l := []) ⟨.nil, fun i => iff_of_false List.not_mem_nil nofun⟩
  exact ⟨l, hout⟩

/-- While somebody waits in the queue, one who was handed the slot has not released it. -/
theorem exists_unreleased (h : Run (Guarded (Fires next) Unforced) init es s)
    (hrunning : s.running = true) : ∃ i ∈ grants es, s.phase i ≠ .released := by
  have hs := h.invariant preserves_unbroken unbroken_init
  obtain ⟨i, hi⟩ := hs.1.taken hrunning
  refine ⟨i, (mem_grants h i).mpr ?_, ?_⟩
  · obtain hi | hi := hi
    · exact ⟨hi ▸ nofun, hi ▸ nofun⟩
    · exact ⟨hi ▸ nofun, hi ▸ nofun⟩
  · obtain hi | hi := hi
    · exact hi ▸ nofun
    · exact hi ▸ nofun

theorem fair_of_unforced (h : Run (Guarded (Fires next) Unforced) init es s) : Fair es s := by
  have hs := h.invariant preserves_unbroken unbroken_init
  have hline := grants_append_queue h
  refine ⟨mem_grants h, ⟨s.queue, hline⟩, returns_prefix h, ?_, ?_, ?_⟩
  · intro before i after hcalls hreleased
    by_contra hnot
    have hqueued : i ∈ s.queue := by
      have hmem : i ∈ acquires es := hcalls ▸ List.mem_append_right _ List.mem_cons_self
      rw [← hline] at hmem
      exact (List.mem_append.mp hmem).resolve_left hnot
    -- So the slot is held, by a caller that came before.
    have hrunning : s.running = true := by
      by_contra hfree
      rw [(hs.1.free (eq_false_of_ne_true hfree)).2] at hqueued
      exact nomatch hqueued
    obtain ⟨j, hj, hunreleased⟩ := exists_unreleased h hrunning
    refine hunreleased (hreleased j ?_)
    rw [hcalls, List.append_eq_append_iff] at hline
    obtain ⟨others, hbefore, -⟩ | ⟨others, hgrants, hcons⟩ := hline
    · exact hbefore ▸ List.mem_append_left _ hj
    · cases others with
      | nil =>
        rw [hgrants, List.append_nil] at hj
        exact hj
      | cons first others =>
        obtain rfl : i = first := (List.cons.inj hcons).1
        exact absurd (hgrants ▸ List.mem_append_right _ List.mem_cons_self) hnot
  · have hqueue : s.queue.filter (· ∉ grants es) = s.queue := by
      refine List.filter_eq_self.mpr fun i hi => decide_eq_true fun hgranted => ?_
      exact ((mem_grants h i).mp hgranted).2 (hs.1.queued i hi)
    have hgrants : (grants es).filter (· ∉ grants es) = [] :=
      List.filter_eq_nil_iff.mpr fun i hi => by simpa using hi
    rw [← hline, List.filter_append, hqueue, hgrants]
    rfl
  · intro hreleased
    have hfree : s.running = false := by
      by_contra hrunning
      obtain ⟨i, hi, hnot⟩ := exists_unreleased h (eq_true_of_ne_false hrunning)
      exact hnot (hreleased i hi)
    exact ⟨hfree, (hs.1.free hfree).2⟩

end

theorem fair_handover :
    ∃ s : State Nat, Fair [.acquire 0, .acquire 1, .release 0, .release 0, .acquire 2, .resume 1,
      .release 1, .resume 2, .release 2] s :=
  ⟨_, fair_of_unforced (.of_exec_guardedNext rfl)⟩

end OpenLander.DeployQueue
