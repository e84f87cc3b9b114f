import OpenLander.DeployPlan.Engine

/-! # The release of the deploy lock

`executePlan` acquires the deploy lock before its `try` block. The block releases it when it fails,
and otherwise the completion listeners do, which are registered after the dispatch. -/

namespace OpenLander.DeployPlan
open Theory Db

/-- The call has returned failed or rejected, or its deploy has reached a terminal event, and
nothing that this has set off is pending. -/
structure Call.Ended (c : Call) : Prop where
  handlers : c.handlers = []
  release : c.release ≠ .pending
  phase : c.phase = .failed ∨ c.phase = .rejected ∨ c.phase = .building ∧ c.terminal

/-- A step of the `try` block has failed, or a terminal event has come after the listeners were
registered. -/
def ReachesRelease (events : Bool) (es : List CallEvent) : Prop :=
  .throws ∈ es ∨ .dispatched true ∈ es ∨
    events ∧ ∃ es₁ preflightError es₂, es = es₁ ++ .dispatched preflightError :: es₂ ∧
      ∃ success, .terminal success ∈ es₂

/-- A release that succeeds frees the lock, if the session of the call holds it. -/
theorem not_held_of_released (h : next E s (.call i (.released true)) = some s')
    (hlock : (s.calls i).lockProjectId = some projectId) :
    s'.locks.holder projectId ≠ some (E.lockSession i) := by
  obtain ⟨c, -, h⟩ := Option.bind_eq_some_iff.mp h
  obtain ⟨locks, hlocks, rfl⟩ := Option.map_eq_some_iff.mp h
  rw [Engine.locksAfter, hlock] at hlocks
  cases hlocks
  exact s.locks.holder_releaseDeployLock projectId (E.lockSession i)

/-! ## The invariant of a call -/

/-- The call has not registered its listeners. -/
def Phase.unregistered : Phase → Bool
  | .idle | .loaded | .locked | .provisioning | .dispatching => true
  | _ => false

structure ReleaseInv (c : Call) : Prop where
  unregistered : c.phase.unregistered →
    c.listening = false ∧ c.heard = false ∧ c.caught = false
  handlers : c.handlers ≠ [] → c.heard = true
  caught : c.caught = true → c.lockProjectId.isSome → c.release ≠ .notCalled
  heard : c.heard = true → c.handlers = [] → c.lockProjectId.isSome → c.release ≠ .notCalled
  called : c.release ≠ .notCalled → c.caught = true ∨ c.heard = true

theorem callRelease_ne_notCalled (c : Call) (h : c.lockProjectId.isSome) :
    c.callRelease.release ≠ .notCalled := by
  rw [Call.callRelease]
  dsimp only
  split
  · intro heq
    cases heq
  next hnot => exact fun heq => hnot ⟨h, heq⟩

theorem ReleaseInv.callRelease {c : Call} (hunregistered : ¬c.phase.unregistered)
    (hhandlers : c.handlers ≠ [] → c.heard = true) (hcalled : c.caught = true ∨ c.heard = true) :
    ReleaseInv c.callRelease where
  unregistered h := absurd h hunregistered
  handlers := hhandlers
  caught _ := callRelease_ne_notCalled c
  heard _ _ := callRelease_ne_notCalled c
  called _ := hcalled

theorem ReleaseInv.init : ReleaseInv {} where
  unregistered _ := ⟨rfl, rfl, rfl⟩
  handlers h := absurd rfl h
  caught := nofun
  heard := nofun
  called h := absurd rfl h

theorem ReleaseInv.step {c c' : Call} (h : c.next events st e = some c') (H : ReleaseInv c) :
    ReleaseInv c' := by
  cases e with
  | load | refused | dispatch =>
    obtain ⟨hphase, ⟨⟩⟩ := Option.ite_none_right_eq_some.mp h
    exact { H with unregistered := fun _ => H.unregistered (by simp [hphase, Phase.unregistered]) }
  | acquire targetProject now =>
    obtain ⟨hphase, ⟨⟩⟩ := Option.ite_none_right_eq_some.mp h
    obtain ⟨hlistening, hheard, hcaught⟩ := H.unregistered (by rw [hphase]; rfl)
    exact { H with
      unregistered := fun _ => ⟨hlistening, hheard, hcaught⟩
      caught := fun hc => by cases hcaught.symm.trans hc
      heard := fun hh => by cases hheard.symm.trans hh }
  | persist ok =>
    obtain ⟨⟨hphase, -⟩, ⟨⟩⟩ := Option.ite_none_right_eq_some.mp h
    have hun := H.unregistered (by rw [hphase]; rfl)
    cases ok <;> exact { H with unregistered := fun _ => hun }
  | dispatched preflightError =>
    obtain ⟨hphase, ⟨⟩⟩ := Option.ite_none_right_eq_some.mp h
    cases preflightError with
    | true => exact .callRelease (by simp [Phase.unregistered]) H.handlers (.inl rfl)
    | false => exact { H with unregistered := (by rintro ⟨⟩) }
  | throws =>
    obtain ⟨-, ⟨⟩⟩ := Option.ite_none_right_eq_some.mp h
    exact .callRelease (by simp [Phase.unregistered]) H.handlers (.inl rfl)
  | estimated =>
    obtain ⟨-, ⟨⟩⟩ := Option.ite_none_right_eq_some.mp h
    exact { H with unregistered := (by rintro ⟨⟩) }
  | failCommitted ok =>
    obtain ⟨⟨hphase, -⟩, ⟨⟩⟩ := Option.ite_none_right_eq_some.mp h
    cases ok with
    | true => exact { H with unregistered := (by rintro ⟨⟩) }
    | false =>
      refine { H with unregistered := fun hun => ?_ }
      rcases hphase with hphase | hphase <;> simp [hphase, Phase.unregistered] at hun
  | terminal success =>
    obtain ⟨-, ⟨⟩⟩ := Option.ite_none_right_eq_some.mp h
    cases hl : c.listening with
    | false =>
      simp only [Bool.or_false, Bool.false_eq_true, if_false]
      exact { H with unregistered := fun hun => hl ▸ H.unregistered hun }
    | true =>
      simp only [Bool.or_true, if_true]
      refine { H with
        unregistered := fun hun => by cases hl.symm.trans (H.unregistered hun).1
        handlers := fun _ => rfl
        heard := fun _ hnil => ?_
        called := fun _ => .inr rfl }
      simp at hnil
  | finish success attached ok =>
    obtain ⟨⟨hmem, -⟩, ⟨⟩⟩ := Option.ite_none_right_eq_some.mp h
    have hheard := H.handlers (List.ne_nil_of_mem hmem)
    have hun : ¬c.phase.unregistered := by
      intro hun
      cases hheard.symm.trans (H.unregistered hun).2.1
    exact .callRelease hun (fun _ => hheard) (.inr hheard)
  | released ok =>
    obtain ⟨hrelease, ⟨⟩⟩ := Option.ite_none_right_eq_some.mp h
    have hne : (if ok then Release.done else .failed) ≠ .notCalled := by cases ok <;> simp
    exact { H with
      caught := fun _ _ => hne
      heard := fun _ _ _ => hne
      called := fun _ => H.called (by simp [hrelease]) }

/-! ## What the events say -/

theorem caught_of_next {c c' : Call} (h : c.next events st e = some c') :
    c'.caught = true ↔ c.caught = true ∨ (e = .throws ∨ e = .dispatched true) := by
  cases e with
  | persist ok | dispatched ok | failCommitted ok =>
    obtain ⟨-, ⟨⟩⟩ := Option.ite_none_right_eq_some.mp h
    cases ok <;> simp [Call.callRelease]
  | _ =>
    obtain ⟨-, ⟨⟩⟩ := Option.ite_none_right_eq_some.mp h
    simp [Call.callRelease]

theorem failed_of_next {c c' : Call} (h : c.next events st e = some c') :
    c'.release = .failed ↔ c.release = .failed ∨ e = .released false := by
  have hcall : ∀ c : Call, c.callRelease.release = .failed ↔ c.release = .failed := by
    intro c
    rw [Call.callRelease]
    dsimp only
    split <;> simp_all
  cases e with
  | persist ok | dispatched ok | failCommitted ok =>
    obtain ⟨-, ⟨⟩⟩ := Option.ite_none_right_eq_some.mp h
    cases ok <;> simp [hcall]
  | released ok =>
    obtain ⟨hrelease, ⟨⟩⟩ := Option.ite_none_right_eq_some.mp h
    cases ok <;> simp [hrelease]
  | _ =>
    obtain ⟨-, ⟨⟩⟩ := Option.ite_none_right_eq_some.mp h
    simp [hcall]

/-- The listeners are registered by the dispatch, and stay so until they have heard an event. -/
theorem registered_of_next {c c' : Call} (h : c.next events st e = some c') (H : ReleaseInv c) :
    c'.listening = true ∨ c'.heard = true ↔
      (c.listening = true ∨ c.heard = true) ∨ events = true ∧ ∃ b, e = .dispatched b := by
  cases e with
  | persist ok | failCommitted ok =>
    obtain ⟨-, ⟨⟩⟩ := Option.ite_none_right_eq_some.mp h
    cases ok <;> simp
  | dispatched preflightError =>
    obtain ⟨hphase, ⟨⟩⟩ := Option.ite_none_right_eq_some.mp h
    obtain ⟨hlistening, hheard, -⟩ := H.unregistered (by rw [hphase]; rfl)
    cases preflightError <;> simp [Call.callRelease, hlistening, hheard]
  | terminal success =>
    obtain ⟨-, ⟨⟩⟩ := Option.ite_none_right_eq_some.mp h
    cases c.listening <;> cases c.heard <;> simp
  | finish success attached ok =>
    obtain ⟨⟨hmem, -⟩, ⟨⟩⟩ := Option.ite_none_right_eq_some.mp h
    simp [Call.callRelease, H.handlers (List.ne_nil_of_mem hmem)]
  | _ =>
    obtain ⟨-, ⟨⟩⟩ := Option.ite_none_right_eq_some.mp h
    simp [Call.callRelease]

theorem heard_of_next {c c' : Call} (h : c.next events st e = some c') :
    c'.heard = true ↔ c.heard = true ∨
      (c.listening = true ∨ c.heard = true) ∧ ∃ success, e = .terminal success := by
  cases e with
  | persist ok | dispatched ok | failCommitted ok =>
    obtain ⟨-, ⟨⟩⟩ := Option.ite_none_right_eq_some.mp h
    cases ok <;> simp [Call.callRelease]
  | terminal success =>
    obtain ⟨-, ⟨⟩⟩ := Option.ite_none_right_eq_some.mp h
    cases c.listening <;> cases c.heard <;> simp
  | _ =>
    obtain ⟨-, ⟨⟩⟩ := Option.ite_none_right_eq_some.mp h
    simp [Call.callRelease]

section Run
variable {c : Call} (h : Run (Call.Step events) {} es c)
include h

theorem releaseInv_of_run : ReleaseInv c :=
  h.invariant (fun _ _ _ ⟨_, hs⟩ H => H.step hs) .init

theorem caught_iff : c.caught = true ↔ .throws ∈ es ∨ .dispatched true ∈ es := by
  have := h.iff_exists_mem (p := fun c : Call => c.caught = true) ReleaseInv.init
    (fun _ _ _ ⟨_, hs⟩ H => H.step hs) fun _ _ _ ⟨_, hs⟩ _ => caught_of_next hs
  simpa [and_or_left, exists_or] using this

theorem failed_iff : c.release = .failed ↔ .released false ∈ es := by
  have := h.iff_exists_mem (p := fun c : Call => c.release = .failed) ReleaseInv.init
    (fun _ _ _ ⟨_, hs⟩ H => H.step hs) fun _ _ _ ⟨_, hs⟩ _ => failed_of_next hs
  simpa using this

theorem heard_iff : c.heard = true ↔ events = true ∧ ∃ es₁ preflightError es₂,
    es = es₁ ++ .dispatched preflightError :: es₂ ∧ ∃ success, .terminal success ∈ es₂ := by
  have := h.iff_exists_after (p := fun c : Call => c.listening = true ∨ c.heard = true)
    (q := fun c : Call => c.heard = true) ReleaseInv.init
    (fun _ _ _ ⟨_, hs⟩ H => H.step hs) (fun _ _ _ ⟨_, hs⟩ H => registered_of_next hs H)
    fun _ _ _ ⟨_, hs⟩ _ => heard_of_next hs
  simp only [Bool.false_eq_true, or_false, false_and, false_or] at this
  rw [this]
  constructor
  · rintro ⟨es₁, _, es₂, rfl, ⟨hevents, preflightError, rfl⟩, e, he, success, rfl⟩
    exact ⟨hevents, es₁, preflightError, es₂, rfl, success, he⟩
  · rintro ⟨hevents, es₁, preflightError, es₂, rfl, success, he⟩
    exact ⟨es₁, _, es₂, rfl, ⟨hevents, preflightError, rfl⟩, _, he, success, rfl⟩

end Run

/-- A call that has acquired the deploy lock has released it in the end exactly when the release is
reached, and the database does not refuse it. -/
theorem released_iff (h : Run (Fires (next E)) (init status locks) es s)
    (hlock : (s.calls i).lockProjectId.isSome) (hend : (s.calls i).Ended) :
    (s.calls i).release = .done ↔ ReachesRelease E.events (stepsOf i es) ∧
      CallEvent.released false ∉ stepsOf i es := by
  have hcall := run_call h i
  have H := releaseInv_of_run hcall
  have hreach : (s.calls i).release ≠ .notCalled ↔
      ReachesRelease E.events (stepsOf i es) := by
    rw [ReachesRelease, ← or_assoc, ← caught_iff hcall, ← heard_iff hcall]
    constructor
    · exact H.called
    · rintro (hcaught | hheard)
      · exact H.caught hcaught hlock
      · exact H.heard hheard hend.handlers hlock
  rw [← hreach, ← failed_iff hcall]
  have hpending := hend.release
  cases hrelease : (s.calls i).release <;> simp_all

/-- A deploy that fails after the listeners are registered releases the lock. -/
theorem released_deployFailed :
    ∃ es s, Run (Fires (next engine)) (init .ready oneProject) es s ∧
      (s.calls 0).release = .done ∧ s.locks.holder "p" = none := by
  have hrun : Run (Fires (next engine)) (init .ready oneProject)
      [.call 0 .load, .call 0 (.acquire (some "p") 0), .call 0 (.persist true), .call 0 .dispatch,
        .call 0 (.dispatched false), .call 0 .estimated, .call 0 (.terminal false),
        .call 0 (.finish false true true), .call 0 (.released true)] _ := Run.of_exec rfl
  refine ⟨_, _, hrun, (released_iff hrun rfl ⟨rfl, by decide, .inr (.inr ⟨rfl, rfl⟩)⟩).mpr ?_, rfl⟩
  refine ⟨.inr (.inr ⟨rfl, ?_⟩), by decide⟩
  exact ⟨[.load, .acquire (some "p") 0, .persist true, .dispatch], false,
    [.estimated, .terminal false, .finish false true true, .released true], rfl, false, by decide⟩

/-- The write of the executing plan fails before the `try` block, and the lock stays. -/
theorem leaked_persistFailed :
    ∃ es s, Run (Fires (next engine)) (init .ready oneProject) es s ∧ (s.calls 0).Ended ∧
      (s.calls 0).lockProjectId = some "p" ∧ (s.calls 0).release ≠ .done ∧
        s.locks.holder "p" = some (engine.lockSession 0) := by
  have hrun : Run (Fires (next engine)) (init .ready oneProject)
      [.call 0 .load, .call 0 (.acquire (some "p") 0), .call 0 (.persist false)] _ :=
    Run.of_exec rfl
  exact ⟨_, _, hrun, ⟨rfl, by decide, .inr (.inl rfl)⟩, rfl, by decide, rfl⟩

end OpenLander.DeployPlan
