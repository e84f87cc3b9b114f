import OpenLander.Theory.Run
import Mathlib.Data.List.Nodup

/-! # The deploy queue

`DeployQueue` (`src/pipeline/deploy-queue.ts`) hands one deploy slot to its callers in turn. Its
methods run to completion between two awaits, so a state of the queue together with where each
caller is in `acquire` describes the program between two turns of the event loop. One step is

* a call of `acquire` up to its first await (the stale check included),
* the resumption of a waiter whose promise was resolved,
* a call of a release function that was returned before,
* the watchdog timer going off, or
* the passing of time.

The slot is handed over in three ways: at once in `acquire`, by `release` to the first waiter,
and by `forceReleaseCurrent`. `release` keeps `running` set when it hands over;
`forceReleaseCurrent` clears it in every case. -/

namespace OpenLander.DeployQueue
open Theory

variable {ι : Type} [DecidableEq ι]

/-- Thirty minutes, in milliseconds. -/
def STALE_JOB_MS : Nat := 30 * 60 * 1000

/-- Where a caller is. A release function exists from `holding` on, and its closure has
`released` set exactly at `released`. -/
inductive Phase
  | idle
  /-- Awaiting its promise in `acquire`. -/
  | queued
  /-- Its promise is resolved; the rest of `acquire` has yet to run. -/
  | resumable
  | holding
  /-- It was holding when the slot was released by force. -/
  | forced
  | released
  deriving DecidableEq, Repr

structure State (ι : Type) where
  queue : List ι := []
  running : Bool := false
  acquiredAt : Option Nat := none
  /-- When the armed timer is due. -/
  watchdog : Option Nat := none
  phase : ι → Phase := fun _ => .idle
  now : Nat := 0

def State.setPhase (s : State ι) (i : ι) (p : Phase) : State ι :=
  { s with phase := Function.update s.phase i p }

/-- `createRelease`: arm the watchdog and give the caller its release function. -/
def State.createRelease (s : State ι) (i : ι) : State ι :=
  { s with watchdog := some (s.now + STALE_JOB_MS) }.setPhase i .holding

/-- Resolve the promise of the first waiter, if there is one. -/
def State.resolveNext (s : State ι) : State ι :=
  match s.queue with
  | [] => s
  | next :: rest => { s with queue := rest }.setPhase next .resumable

/-- Every caller that holds the slot loses it; its release function stays callable. -/
def State.dropHolders (s : State ι) : State ι :=
  { s with phase := fun i => if s.phase i = .holding then .forced else s.phase i }

def State.forceReleaseCurrent (s : State ι) : State ι :=
  { s.dropHolders with watchdog := none, running := false, acquiredAt := none }.resolveNext

/-- The test of the stale check in `acquire`. -/
def State.stale (s : State ι) : Bool :=
  s.running && s.acquiredAt.any fun at' => STALE_JOB_MS < s.now - at'

/-- `acquire` up to its first await, once the stale check is done. -/
def State.enter (s : State ι) (i : ι) : State ι :=
  if s.running then { s with queue := s.queue ++ [i] }.setPhase i .queued
  else { s with running := true, acquiredAt := some s.now }.createRelease i

def State.acquire (s : State ι) (i : ι) : State ι :=
  if s.stale then s.forceReleaseCurrent.enter i else s.enter i

/-- The rest of `acquire` after its await. -/
def State.resume (s : State ι) (i : ι) : State ι :=
  { s with acquiredAt := some s.now }.createRelease i

/-- A release function called for the first time. -/
def State.release (s : State ι) (i : ι) : State ι :=
  let s := { s with watchdog := none }.setPhase i .released
  match s.queue with
  | [] => { s with running := false, acquiredAt := none }
  | _ :: _ => s.resolveNext

/-- The callback of the watchdog timer. -/
def State.expire (s : State ι) : State ι :=
  if s.running then s.forceReleaseCurrent else { s with watchdog := none }

inductive Event (ι : Type)
  | acquire (i : ι)
  | resume (i : ι)
  | release (i : ι)
  | watchdog
  | tick (ms : Nat)

/-- One step. A call of `acquire` is named by the caller it creates; a release function may be
called again, which does nothing. -/
def next (s : State ι) : Event ι → Option (State ι)
  | .acquire i => if s.phase i = .idle then some (s.acquire i) else none
  | .resume i => if s.phase i = .resumable then some (s.resume i) else none
  | .release i =>
    match s.phase i with
    | .holding | .forced => some (s.release i)
    | .released => some s
    | _ => none
  | .watchdog => if s.watchdog.any (· ≤ s.now) then some s.expire else none
  | .tick ms => some { s with now := s.now + ms }

def init : State ι := {}

/-- At most one caller has been granted the slot, has not called its release function and has not
been force-released. -/
def AtMostOneHolder (s : State ι) : Prop :=
  ∀ i j, s.phase i = .holding → s.phase j = .holding → i = j

/-! ## Orderly runs -/

/-- The caller has the slot, or will have it as soon as it is resumed. -/
def Active (s : State ι) (i : ι) : Prop := s.phase i = .holding ∨ s.phase i = .resumable

/-- No caller is queued and none is between its resolved promise and its resumption. -/
def NoneWaiting (s : State ι) : Prop := s.queue = [] ∧ ∀ i, s.phase i ≠ .resumable

/-- The step does not release the slot by force over a waiting caller, and is not the late call
of a release function by a force-released caller while the slot is taken again. -/
def Orderly (s : State ι) : Event ι → Prop
  | .acquire _ => s.stale = true → NoneWaiting s
  | .watchdog => s.running = true → NoneWaiting s
  | .release i => s.phase i = .forced → s.running = false
  | _ => True

structure Inv (s : State ι) : Prop where
  unique : ∀ i j, Active s i → Active s j → i = j
  free : s.running = false → (∀ i, ¬Active s i) ∧ s.queue = []
  taken : s.running = true → ∃ i, Active s i
  queued : ∀ i ∈ s.queue, s.phase i = .queued
  nodup : s.queue.Nodup

@[simp] theorem setPhase_phase (s : State ι) (i j : ι) (p : Phase) :
    (s.setPhase i p).phase j = if j = i then p else s.phase j := by
  simp [State.setPhase, Function.update_apply]

theorem forceReleaseCurrent_of_noneWaiting {s : State ι} (h : NoneWaiting s) :
    s.forceReleaseCurrent =
      { s.dropHolders with watchdog := none, running := false, acquiredAt := none } := by
  simp [State.forceReleaseCurrent, State.resolveNext, State.dropHolders, h.1]

omit [DecidableEq ι] in
/-- Once the slot is released by force with nobody waiting, nobody has it. -/
theorem not_active_dropHolders {s : State ι} (h : NoneWaiting s) (i : ι) :
    ¬Active s.dropHolders i := by
  have := h.2 i
  simp only [Active, State.dropHolders]
  split <;> simp_all

omit [DecidableEq ι] in
theorem Inv.init : Inv (init : State ι) := by
  refine ⟨fun i _ hi => ?_, fun _ => ⟨fun i hi => ?_, rfl⟩, (nomatch ·), fun i hi => (nomatch hi),
    .nil⟩
  all_goals simp [Active, DeployQueue.init] at hi

theorem Inv.forceReleaseCurrent {s : State ι} (h : NoneWaiting s) : Inv s.forceReleaseCurrent := by
  rw [forceReleaseCurrent_of_noneWaiting h]
  have hq : s.queue = [] := h.1
  refine ⟨fun i _ hi => absurd hi (not_active_dropHolders h i),
    fun _ => ⟨fun i => not_active_dropHolders h i, hq⟩, (nomatch ·), ?_, ?_⟩
  · intro i hi
    simp [State.dropHolders, hq] at hi
  · simp [State.dropHolders, hq]

/-- Entering an idle caller either takes the free slot or queues the caller. -/
theorem Inv.enter {s : State ι} (H : Inv s) (hi : s.phase i = .idle) : Inv (s.enter i) := by
  have hnq : i ∉ s.queue := fun hm => by rw [H.queued i hm] at hi; cases hi
  unfold State.enter
  split
  case isTrue hrun =>
    have hact : ∀ j, Active ({ s with queue := s.queue ++ [i] }.setPhase i .queued) j →
        Active s j := by
      intro j; simp only [Active, setPhase_phase]; split <;> simp
    refine ⟨fun j k hj hk => H.unique j k (hact j hj) (hact k hk),
      fun h => absurd (show s.running = false from h) (by simp [hrun]), fun _ => ?_, ?_, ?_⟩
    · obtain ⟨j, hj⟩ := H.taken hrun
      have hji : j ≠ i := by
        rintro rfl
        simp [Active, hi] at hj
      exact ⟨j, by simpa [Active, hji] using hj⟩
    · intro j hj
      rcases List.mem_append.mp hj with hj | hj
      · simp [H.queued j hj]
      · simp [List.mem_singleton.mp hj]
    · exact List.nodup_append.mpr ⟨H.nodup, by simp, fun a ha b hb hab => hnq (by simp_all)⟩
  case isFalse hrun =>
    obtain ⟨hfree, hq⟩ := H.free (by simpa using hrun)
    have hact : ∀ j, Active ({ s with running := true, acquiredAt := some s.now }.createRelease i) j
        → j = i := by
      intro j hj
      by_contra hne
      exact hfree j (by simpa [Active, State.createRelease, hne] using hj)
    refine ⟨fun j k hj hk => (hact j hj).trans (hact k hk).symm, (nomatch ·),
      fun _ => ⟨i, .inl (by simp [State.createRelease])⟩, ?_, H.nodup⟩
    intro j hj
    rw [show s.queue = [] from hq] at hj
    cases hj

theorem Inv.acquire {s : State ι} (H : Inv s) (hi : s.phase i = .idle)
    (ho : Orderly s (.acquire i)) : Inv (s.acquire i) := by
  unfold State.acquire
  split
  case isTrue hs =>
    refine (Inv.forceReleaseCurrent (ho hs)).enter ?_
    simp [forceReleaseCurrent_of_noneWaiting (ho hs), State.dropHolders, hi]
  case isFalse => exact H.enter hi

theorem Inv.resume {s : State ι} (H : Inv s) (hi : s.phase i = .resumable) :
    Inv (s.resume i) := by
  have hact : ∀ j, Active (s.resume i) j → Active s j := by
    intro j
    by_cases hj : j = i
    · exact fun _ => hj ▸ .inr hi
    · simp [Active, State.resume, State.createRelease, hj]
  refine ⟨fun j k hj hk => H.unique j k (hact j hj) (hact k hk), fun h => ?_,
    fun _ => ⟨i, .inl (by simp [State.resume, State.createRelease])⟩, ?_, H.nodup⟩
  · exact absurd (.inr hi) ((H.free h).1 i)
  · intro j hj
    have hne : j ≠ i := by
      rintro rfl
      rw [H.queued j hj] at hi
      cases hi
    simpa [State.resume, State.createRelease, hne] using H.queued j hj

/-- A release by the caller that has the slot, or by nobody at all, hands the slot on. -/
theorem Inv.release {s : State ι} (H : Inv s)
    (hi : s.phase i = .holding ∨ s.phase i = .forced ∧ s.running = false) :
    Inv (s.release i) := by
  have hothers : ∀ j, Active s j → j = i := by
    intro j hj
    rcases hi with hi | ⟨-, hr⟩
    · exact H.unique j i hj (.inl hi)
    · exact absurd hj ((H.free hr).1 j)
  have hnq : ∀ j ∈ s.queue, j ≠ i := by
    rintro j hj rfl
    rw [H.queued j hj] at hi
    rcases hi with hi | ⟨hi, -⟩ <;> cases hi
  unfold State.release
  cases hq : s.queue with
  | nil =>
    have hact : ∀ j, ¬Active ({ s with watchdog := none }.setPhase i .released) j := by
      intro j hj
      by_cases hji : j = i
      · simp [Active, hji] at hj
      · exact hji (hothers j (by simpa [Active, hji] using hj))
    simp only [State.setPhase]
    exact ⟨fun j _ hj => absurd hj (hact j), fun _ => ⟨hact, rfl⟩, (nomatch ·),
      fun _ hj => (nomatch hj), .nil⟩
  | cons n rest =>
    have hrun : s.running = true := by
      by_contra hr
      simpa [hq] using (H.free (by simpa using hr)).2
    have hnd : n ∉ rest ∧ rest.Nodup := List.nodup_cons.mp (hq ▸ H.nodup)
    have hact : ∀ j, Active (({ s with watchdog := none }.setPhase i .released).setPhase n
        .resumable) j → j = n := by
      intro j hj
      by_contra hjn
      by_cases hji : j = i
      · simp [Active, hji, show i ≠ n from hji ▸ hjn] at hj
      · exact hji (hothers j (by simpa [Active, hjn, hji] using hj))
    simp only [State.setPhase, State.resolveNext]
    refine ⟨fun j k hj hk => (hact j hj).trans (hact k hk).symm,
      fun h => absurd (show s.running = false from h) (by simp [hrun]), fun _ => ⟨n, ?_⟩,
      fun j hj => ?_, hnd.2⟩
    · exact .inr (by simp)
    have hjn : j ≠ n := by
      rintro rfl
      exact hnd.1 hj
    have hmem : j ∈ s.queue := hq ▸ List.mem_cons_of_mem n hj
    simpa [Function.update_apply, hjn, hnq j hmem] using H.queued j hmem

theorem Inv.expire {s : State ι} (H : Inv s) (ho : Orderly s .watchdog) : Inv s.expire := by
  unfold State.expire
  split
  case isTrue hrun => exact Inv.forceReleaseCurrent (ho hrun)
  case isFalse => exact ⟨H.unique, H.free, H.taken, H.queued, H.nodup⟩

/-- An orderly step keeps the invariant. -/
theorem Inv.step : Preserves (Guarded (Fires next) Orderly) (Inv (ι := ι)) := by
  rintro s e t ⟨hs, ho⟩ H
  cases e with
  | acquire i =>
    obtain ⟨hi, ⟨⟩⟩ := Option.ite_none_right_eq_some.mp hs
    exact H.acquire hi ho
  | resume i =>
    obtain ⟨hi, ⟨⟩⟩ := Option.ite_none_right_eq_some.mp hs
    exact H.resume hi
  | release i =>
    simp only [Fires, next] at hs
    split at hs <;> cases hs
    case h_1 hi => exact H.release (.inl hi)
    case h_2 hi => exact H.release (.inr ⟨hi, ho hi⟩)
    case h_3 => exact H
  | watchdog =>
    obtain ⟨-, ⟨⟩⟩ := Option.ite_none_right_eq_some.mp hs
    exact H.expire ho
  | tick ms =>
    cases hs
    exact ⟨H.unique, H.free, H.taken, H.queued, H.nodup⟩

/-- The slot is exclusive in every state of a run in which no release by force passes over a
waiting caller and no force-released caller releases the slot of a later holder. -/
theorem atMostOneHolder_of_orderly {es : List (Event ι)} {s : State ι}
    (h : Run (Guarded (Fires next) Orderly) init es s) : AtMostOneHolder s :=
  fun i j hi hj => (h.invariant Inv.step Inv.init).unique i j (.inl hi) (.inl hj)

theorem atMostOneHolder_handover :
    ∃ s, Run (Guarded (Fires next) Orderly) init
      [.acquire 0, .acquire 1, .release 0, .resume 1] s ∧ s.phase 1 = .holding ∧
        AtMostOneHolder s := by
  have h : Run (Guarded (Fires next) Orderly) init
      [.acquire 0, .acquire 1, .release 0, .resume 1] _ :=
    .cons ⟨rfl, (nomatch ·)⟩ <| .cons ⟨rfl, (nomatch ·)⟩ <| .cons ⟨rfl, (nomatch ·)⟩ <|
      .cons ⟨rfl, trivial⟩ .nil
  exact ⟨_, h, rfl, atMostOneHolder_of_orderly h⟩

/-- The watchdog releases the slot of caller `0` by force and resolves caller `1`; `running` is
clear while `1` holds the slot, so that caller `2` is granted it as well. -/
theorem two_holders_after_watchdog :
    ¬∀ (es : List (Event Nat)) (s : State Nat), Run (Fires next) init es s → AtMostOneHolder s := by
  intro h
  have hrun : Run (Fires next) init
      [.acquire 0, .acquire 1, .tick STALE_JOB_MS, .watchdog, .resume 1, .acquire 2] _ :=
    .of_exec rfl
  exact absurd (h _ _ hrun 1 2 rfl rfl) (by decide)

/-! ## Disorderly steps

A step that is not orderly leaves the queue in a state from which the slot is granted twice, so
that `Orderly` asks for no more than `AtMostOneHolder` needs. -/

/-- Some run from `s` leads to two holders. -/
def Doomed (s : State ι) : Prop := ∃ es u, Run (Fires next) s es u ∧ ¬AtMostOneHolder u

theorem exists_holding_of_active {s : State ι} (h : Active s i) :
    ∃ es u, Run (Fires next) s es u ∧ u.phase i = .holding ∧ u.running = s.running ∧
      ∀ j, j ≠ i → u.phase j = s.phase j := by
  rcases h with h | h
  · exact ⟨[], s, .nil, h, rfl, fun _ _ => rfl⟩
  · refine ⟨[.resume i], s.resume i, .single (by simp [Fires, next, h]), ?_, rfl, fun j hj => ?_⟩
    all_goals simp_all [State.resume, State.createRelease]

theorem Doomed.of_active {s : State ι} (hij : i ≠ j) (hi : Active s i) (hj : Active s j) :
    Doomed s := by
  obtain ⟨es, u, hu, hui, -, hothers⟩ := exists_holding_of_active hi
  have hj : Active u j := by rwa [Active, hothers j hij.symm]
  obtain ⟨es', v, hv, hvj, -, hothers⟩ := exists_holding_of_active hj
  exact ⟨_, v, hu.append hv, fun h => hij (h i j (hothers i hij ▸ hui) hvj)⟩

theorem Doomed.of_free {s : State ι} (hi : Active s i) (hr : s.running = false)
    (hk : s.phase k = .idle) : Doomed s := by
  have hki : k ≠ i := by
    rintro rfl
    simp [Active, hk] at hi
  obtain ⟨es, u, hu, hui, hur, hothers⟩ := exists_holding_of_active hi
  have huk : u.phase k = .idle := (hothers k hki).trans hk
  have hacq : u.acquire k =
      { u with running := true, acquiredAt := some u.now }.createRelease k := by
    simp [State.acquire, State.stale, State.enter, hur.trans hr]
  have hstep : Fires next u (.acquire k) (u.acquire k) := by simp [Fires, next, huk]
  refine ⟨_, u.acquire k, hu.snoc hstep, fun h => hki (h k i ?_ ?_)⟩
  · simp [hacq, State.createRelease]
  · simp [hacq, State.createRelease, hki.symm, hui]

/-- A release by force over a waiting caller makes that caller active while the slot is free. -/
theorem exists_active_forceReleaseCurrent {s : State ι} (H : Inv s) (h : ¬NoneWaiting s) :
    ∃ i, s.phase i ≠ .idle ∧ Active s.forceReleaseCurrent i := by
  unfold State.forceReleaseCurrent State.resolveNext
  cases hq : s.queue with
  | nil =>
    obtain ⟨i, hi⟩ : ∃ i, s.phase i = .resumable := by
      by_contra hno
      exact h ⟨hq, fun i hi => hno ⟨i, hi⟩⟩
    refine ⟨i, by simp [hi], ?_⟩
    simp [Active, State.dropHolders, hq, hi]
  | cons n rest =>
    refine ⟨n, by simp [H.queued n (by simp [hq])], ?_⟩
    simp [Active, State.dropHolders, hq]

@[simp] theorem forceReleaseCurrent_running (s : State ι) :
    s.forceReleaseCurrent.running = false := by
  unfold State.forceReleaseCurrent State.resolveNext
  split <;> rfl

/-- After a disorderly step two callers come to hold the slot, as soon as one more calls. -/
theorem doomed_of_disorderly {s t : State ι} {e : Event ι} (H : Inv s) (hs : Fires next s e t)
    (hd : ¬Orderly s e) (hk : t.phase k = .idle) : Doomed t := by
  cases e with
  | acquire i =>
    obtain ⟨hi, ⟨⟩⟩ := Option.ite_none_right_eq_some.mp hs
    simp only [Orderly, Classical.not_imp] at hd
    obtain ⟨hst, hw⟩ := hd
    obtain ⟨j, hj, hact⟩ := exists_active_forceReleaseCurrent H hw
    have hne : j ≠ i := by
      rintro rfl
      exact hj hi
    have hgrant : s.acquire i = { s.forceReleaseCurrent with
        running := true, acquiredAt := some s.forceReleaseCurrent.now }.createRelease i := by
      simp [State.acquire, hst, State.enter]
    refine .of_active hne ?_ (.inl (by simp [hgrant, State.createRelease]))
    simpa [Active, hgrant, State.createRelease, hne] using hact
  | watchdog =>
    obtain ⟨-, ⟨⟩⟩ := Option.ite_none_right_eq_some.mp hs
    simp only [Orderly, Classical.not_imp] at hd
    obtain ⟨hrun, hw⟩ := hd
    simp only [State.expire, hrun, if_true] at hk ⊢
    obtain ⟨j, -, hact⟩ := exists_active_forceReleaseCurrent H hw
    exact .of_free hact (forceReleaseCurrent_running s) hk
  | release i =>
    simp only [Orderly, Classical.not_imp, Bool.not_eq_false] at hd
    obtain ⟨hi, hrun⟩ := hd
    simp only [Fires, next, hi, Option.some.injEq] at hs
    subst hs
    obtain ⟨c, hc⟩ := H.taken hrun
    have hci : c ≠ i := by
      rintro rfl
      simp [Active, hi] at hc
    unfold State.release at hk ⊢
    cases hq : s.queue with
    | nil =>
      simp only [State.setPhase, hq] at hk ⊢
      exact .of_free (i := c) (by simpa [Active, hci] using hc) rfl hk
    | cons n rest =>
      have hn : s.phase n = .queued := H.queued n (by simp [hq])
      have hcn : c ≠ n := by
        rintro rfl
        simp [Active, hn] at hc
      simp only [State.setPhase, State.resolveNext]
      refine .of_active hcn (by simpa [Active, hcn, hci] using hc) (.inr (by simp))
  | _ => exact absurd trivial hd

end OpenLander.DeployQueue
