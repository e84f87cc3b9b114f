import Mathlib.Data.List.Chain
import OpenLander.DeployPlan.Once

/-! # The status of a stored plan

What `PlanStateMachine` says of a plan should hold of the row: an executing plan is completed or
failed by its own execution, and then stays so. Three writers write the row whatever its status
is: `updatePlan` and `persistExecutingPlan` after an earlier read, and the completion of an
execution, which a second terminal event or a failure of the call itself may repeat. -/

namespace OpenLander.DeployPlan
open Theory

/-- What one write may do after another. -/
def Follows (w w' : Write) : Prop :=
  (w.status = .executing →
    w'.status = .executing ∨ ∃ i, w.origin = .execution i ∧ w'.origin = .completion i) ∧
  (w.status = .completed ∨ w.status = .failed → w'.status = w.status)

/-- Once the plan is executing only its completion changes the status, and nothing changes it after
that. -/
def NeverRegresses (s : State) : Prop := s.store.writes.IsChain Follows

/-- No execution has been persisted since the writer has read the plan, and each execution is
completed once. -/
def InOrder (s : State) : Event → Prop
  | .call i e => PersistsFresh s (.call i e) ∧ (e.completes → (s.calls i).finished = false)
  | .updateWrite u _ => s.updates u = some s.store.executions.length
  | _ => True

namespace Store

variable {st : Store}

/-- The last write has written the status. -/
def LastWrite (st : Store) (origin : Origin) : Prop :=
  st.writes.getLast? = some ⟨origin, st.status⟩

def Alive (st : Store) : Prop := ¬st.status.terminal

theorem lastWrite_write (st : Store) (origin : Origin) (status : DeployPlanStatus) :
    (st.write origin status).LastWrite origin := List.getLast?_concat ..

theorem chain_write {status : DeployPlanStatus} (h : st.writes.IsChain Follows)
    (hlast : st.LastWrite origin) (hfollows : Follows ⟨origin, st.status⟩ ⟨origin', status⟩) :
    (st.write origin' status).writes.IsChain Follows := by
  refine h.append (.singleton _) fun w hw w' hw' => ?_
  rw [LastWrite] at hlast
  obtain rfl : _ = w := Option.some.inj (hlast.symm.trans hw)
  obtain rfl : _ = w' := Option.some.inj hw'
  exact hfollows

/-- A plan that is not executing or over may be written as anything. -/
theorem Alive.follows (h : st.Alive) (origin origin' : Origin) (status : DeployPlanStatus) :
    Follows ⟨origin, st.status⟩ ⟨origin', status⟩ := by
  constructor
  · intro hst
    exact absurd (by simp [show st.status = _ from hst, DeployPlanStatus.terminal]) h
  · rintro (hst | hst) <;>
      exact absurd (by simp [show st.status = _ from hst, DeployPlanStatus.terminal]) h

end Store

/-! ## The invariant -/

/-- Only the execution of one call is ever persisted; while it is not finished, the plan is
executing, and it was the last to write. -/
structure StatusInv (s : State) : Prop where
  chain : s.store.writes.IsChain Follows
  lastWrite : ∃ origin, s.store.LastWrite origin
  waits : ∀ i, (s.calls i).waiting → s.store.Since Store.Alive (s.calls i).loadedAt
  reads : ∀ u n, s.updates u = some n → s.store.Since Store.Alive n
  terminal : ∀ i, (s.calls i).plan = .executing → s.store.status.terminal
  unique : ∀ i j, (s.calls i).plan = .executing → (s.calls j).plan = .executing → i = j
  running : ∀ i, (s.calls i).plan = .executing → (s.calls i).finished = false →
    s.store.status = .executing ∧ s.store.LastWrite (.execution i)

theorem StatusInv.init (status : DeployPlanStatus) (locks : Db.DeployLocks) :
    StatusInv (init status locks) where
  chain := .singleton _
  lastWrite := ⟨.createPlan, rfl⟩
  waits _ hw := by simp [DeployPlan.init, Call.waiting] at hw
  reads _ _ h := by simp [DeployPlan.init] at h
  terminal _ h := by simp [DeployPlan.init] at h
  unique _ _ h := by simp [DeployPlan.init] at h
  running _ h := by simp [DeployPlan.init] at h

/-- A call executes the plan once it has persisted it, and is finished once it has completed it. -/
theorem executing_of_next {c c' : Call} (h : c.next events st e = some c')
    (hplan : c'.plan = .executing) : e = .persist true ∨ c.plan = .executing ∧
      (c'.finished = false → c.finished = false ∧ e.completes = false) := by
  cases e with
  | load =>
    obtain ⟨⟨-, hexec⟩, ⟨⟩⟩ := Option.ite_none_right_eq_some.mp h
    dsimp only at hplan
    rw [transitionApprovedPlanForExecution] at hplan
    split at hplan
    · cases hplan
    · rw [hplan] at hexec
      cases hexec
  | persist ok =>
    obtain ⟨-, ⟨⟩⟩ := Option.ite_none_right_eq_some.mp h
    cases ok with
    | true => exact .inl rfl
    | false => exact .inr ⟨hplan, fun hf => ⟨hf, rfl⟩⟩
  | dispatched preflightError =>
    obtain ⟨-, ⟨⟩⟩ := Option.ite_none_right_eq_some.mp h
    cases preflightError <;> exact .inr ⟨hplan, fun hf => ⟨hf, rfl⟩⟩
  | failCommitted ok =>
    obtain ⟨-, ⟨⟩⟩ := Option.ite_none_right_eq_some.mp h
    cases ok with
    | true => exact .inr ⟨hplan, fun hf => nomatch hf⟩
    | false => exact .inr ⟨hplan, fun hf => ⟨hf, rfl⟩⟩
  | finish success attached ok =>
    obtain ⟨-, ⟨⟩⟩ := Option.ite_none_right_eq_some.mp h
    exact .inr ⟨hplan, fun hf => Bool.or_eq_false_iff.mp hf⟩
  | _ =>
    obtain ⟨-, ⟨⟩⟩ := Option.ite_none_right_eq_some.mp h
    exact .inr ⟨hplan, fun hf => ⟨hf, rfl⟩⟩

/-- A call that executes the plan after a step has just persisted it or has executed it before. -/
theorem executing_of_step (h : next E s e = some s') (i : Nat)
    (hplan : (s'.calls i).plan = .executing) : e = .call i (.persist true) ∨
      (s.calls i).plan = .executing ∧ ((s'.calls i).finished = false →
        (s.calls i).finished = false ∧ ∀ e', e = .call i e' → e'.completes = false) := by
  have hcall := call_of_next h i
  cases e with
  | call j e =>
    rw [Event.ofCall] at hcall
    split at hcall
    next e' heq =>
      obtain ⟨rfl, ⟨⟩⟩ := Option.ite_none_right_eq_some.mp heq
      rcases executing_of_next hcall hplan with rfl | ⟨hplan, hf⟩
      · exact .inl rfl
      · refine .inr ⟨hplan, fun hfin => (hf hfin).imp_right fun he e' heq => ?_⟩
        cases heq
        exact he
    next heq =>
      rw [hcall] at hplan ⊢
      refine .inr ⟨hplan, fun hfin => ⟨hfin, fun e' heq' => ?_⟩⟩
      cases heq'
      simp at heq
  | _ =>
    rw [show s'.calls i = s.calls i from hcall] at hplan ⊢
    refine .inr ⟨hplan, fun hfin => ⟨hfin, fun e' heq => ?_⟩⟩
    cases heq

theorem reads_of_next (h : next E s e = some s')
    (hreads : ∀ u n, s.updates u = some n → s.store.Since Store.Alive n) (u n : Nat)
    (hu : s'.updates u = some n) : s.store.Since Store.Alive n := by
  cases e with
  | call i e =>
    obtain ⟨c, locks, -, rfl⟩ := next_call h
    exact hreads u n hu
  | updateRead u' =>
    obtain ⟨⟨-, halive⟩, ⟨⟩⟩ := Option.ite_none_right_eq_some.mp h
    dsimp only at hu
    rw [Function.update_apply] at hu
    split at hu
    · cases hu
      exact ⟨Nat.le_refl _, fun _ => halive⟩
    · exact hreads u n hu
  | updateWrite u' status =>
    obtain ⟨-, ⟨⟩⟩ := Option.ite_none_right_eq_some.mp h
    dsimp only at hu
    rw [Function.update_apply] at hu
    split at hu
    · cases hu
    · exact hreads u n hu
  | locksChange locks =>
    cases h
    exact hreads u n hu

/-! ## Steps -/

/-- What every step keeps of the readers and of the executions, whatever it writes. -/
structure Keeps (s : State) (e : Event) (s' : State) : Prop where
  waits : ∀ i, (s'.calls i).waiting → s.store.Since Store.Alive (s'.calls i).loadedAt
  reads : ∀ u n, s'.updates u = some n → s.store.Since Store.Alive n
  executing : ∀ i, (s'.calls i).plan = .executing → e = .call i (.persist true) ∨
    (s.calls i).plan = .executing ∧ ((s'.calls i).finished = false →
      (s.calls i).finished = false ∧ ∀ e', e = .call i e' → e'.completes = false)

theorem StatusInv.keeps (H : StatusInv s) (h : next E s e = some s') : Keeps s e s' where
  waits := since_of_step h DeployPlanStatus.not_terminal_of_executable H.waits
  reads := reads_of_next h H.reads
  executing := executing_of_step h

/-- Where a call that has loaded an executable plan persists it, no other call executes it. -/
theorem StatusInv.execute (H : StatusInv s) (hkeeps : Keeps s (.call i (.persist true)) s')
    (hst : s'.store = s.store.execute i) (halive : s.store.Alive) : StatusInv s' := by
  obtain ⟨origin, hlast⟩ := H.lastWrite
  have honly : ∀ j, (s'.calls j).plan = .executing → j = i := by
    intro j hj
    rcases hkeeps.executing j hj with heq | ⟨hj, -⟩
    · cases heq
      rfl
    · exact absurd (H.terminal j hj) halive
  have hlast' : s'.store.LastWrite (.execution i) := hst ▸ Store.lastWrite_write ..
  have hexec : s'.store.status = .executing := hst ▸ rfl
  refine {
    chain := hst ▸ Store.chain_write H.chain hlast (halive.follows ..)
    lastWrite := ⟨_, hlast'⟩
    waits := fun j hw => hst ▸ (hkeeps.waits j hw).execute i
    reads := fun u n hu => hst ▸ (hkeeps.reads u n hu).execute i
    terminal := fun _ _ => hexec ▸ rfl
    unique := fun j k hj hk => (honly j hj).trans (honly k hk).symm
    running := fun j hj _ => ⟨hexec, ?_⟩ }
  rw [honly j hj]
  exact hlast'

/-- While an `updatePlan` call has read what is still there, no call executes the plan. -/
theorem StatusInv.update (H : StatusInv s) (hkeeps : Keeps s (.updateWrite u status) s')
    (hst : s'.store = s.store.write .updatePlan status) (halive : s.store.Alive)
    (hstatus : ¬status.terminal) : StatusInv s' := by
  obtain ⟨origin, hlast⟩ := H.lastWrite
  have hnone : ∀ j, (s'.calls j).plan ≠ .executing := by
    intro j hj
    rcases hkeeps.executing j hj with heq | ⟨hj, -⟩
    · cases heq
    · exact halive (H.terminal j hj)
  exact {
    chain := hst ▸ Store.chain_write H.chain hlast (halive.follows ..)
    lastWrite := ⟨.updatePlan, hst ▸ Store.lastWrite_write ..⟩
    waits := fun j hw => hst ▸ (hkeeps.waits j hw).write _ _ fun _ => hstatus
    reads := fun u n hu => hst ▸ (hkeeps.reads u n hu).write _ _ fun _ => hstatus
    terminal := fun j hj => absurd hj (hnone j)
    unique := fun j _ hj => absurd hj (hnone j)
    running := fun j hj => absurd hj (hnone j) }

/-- The completion of the one execution is the last write of it. -/
theorem StatusInv.complete (H : StatusInv s) (hkeeps : Keeps s (.call i e) s')
    (hst : s'.store = s.store.write (.completion i) status) (he : e.completes)
    (hplan : (s.calls i).plan = .executing) (hfin : (s.calls i).finished = false)
    (hstatus : status = .completed ∨ status = .failed) : StatusInv s' := by
  obtain ⟨hexec, hlast⟩ := H.running i hplan hfin
  have hbefore : ∀ j, (s'.calls j).plan = .executing → (s.calls j).plan = .executing ∧
      ((s'.calls j).finished = false → j ≠ i) := by
    intro j hj
    rcases hkeeps.executing j hj with heq | ⟨hj, hf⟩
    · cases heq
      cases he
    · refine ⟨hj, fun hfin hji => ?_⟩
      rw [(hf hfin).2 e (by rw [hji])] at he
      cases he
  have hdead : s.store.Alive → (s.store.write (.completion i) status).Alive := by
    intro halive
    exact absurd (by simp [hexec, DeployPlanStatus.terminal]) halive
  have hterminal : status.terminal := by
    rcases hstatus with rfl | rfl <;> rfl
  refine {
    chain := hst ▸ Store.chain_write H.chain hlast ⟨fun _ => .inr ⟨i, rfl, rfl⟩, fun hor => ?_⟩
    lastWrite := ⟨.completion i, hst ▸ Store.lastWrite_write ..⟩
    waits := fun j hw => hst ▸ (hkeeps.waits j hw).write _ _ hdead
    reads := fun u n hu => hst ▸ (hkeeps.reads u n hu).write _ _ hdead
    terminal := fun _ _ => hst ▸ hterminal
    unique := fun j k hj hk => H.unique j k (hbefore j hj).1 (hbefore k hk).1
    running := fun j hj hfin => ?_ }
  · simp [hexec] at hor
  · exact absurd (H.unique j i (hbefore j hj).1 hplan) ((hbefore j hj).2 hfin)

theorem StatusInv.rest (H : StatusInv s) (hkeeps : Keeps s e s') (hst : s'.store = s.store)
    (hrest : ∀ i, e ≠ .call i (.persist true)) : StatusInv s' := by
  have hbefore : ∀ j, (s'.calls j).plan = .executing → (s.calls j).plan = .executing ∧
      ((s'.calls j).finished = false → (s.calls j).finished = false) := by
    intro j hj
    rcases hkeeps.executing j hj with heq | ⟨hj, hf⟩
    · exact absurd heq (hrest j)
    · exact ⟨hj, fun hfin => (hf hfin).1⟩
  exact {
    chain := hst ▸ H.chain
    lastWrite := hst ▸ H.lastWrite
    waits := hst ▸ hkeeps.waits
    reads := hst ▸ hkeeps.reads
    terminal := fun j hj => hst ▸ H.terminal j (hbefore j hj).1
    unique := fun j k hj hk => H.unique j k (hbefore j hj).1 (hbefore k hk).1
    running := fun j hj hfin => hst ▸ H.running j (hbefore j hj).1 ((hbefore j hj).2 hfin) }

theorem StatusInv.step (h : next E s e = some s') (horder : InOrder s e) (H : StatusInv s) :
    StatusInv s' := by
  have hkeeps := H.keeps h
  have hwrites := writes_of_next h
  generalize hst : s'.store = st at hwrites
  cases hwrites with
  | execute hphase => exact H.execute hkeeps hst ((H.waits _ (.inr hphase)).holds horder.1)
  | update hread hstatus =>
    have halive := (H.reads _ _ hread).holds (Option.some.inj (hread.symm.trans horder))
    exact H.update hkeeps hst halive hstatus
  | complete he hplan hstatus =>
    exact H.complete hkeeps hst he hplan (horder.2 he) hstatus
  | rest hrest => exact H.rest hkeeps hst hrest

/-- The status of a stored plan never regresses, as long as no execution is persisted between the
read and the write of a writer and each execution is completed once. -/
theorem neverRegresses_of_inOrder
    (h : Run (Guarded (Fires (next E)) InOrder) (init status locks) es s) : NeverRegresses s := by
  have hI : Preserves (Guarded (Fires (next E)) InOrder) StatusInv :=
    fun _ _ _ hs H => H.step hs.1 hs.2
  exact (h.invariant hI (.init status locks)).chain

/-- An update that ends before the plan is loaded does no harm. -/
theorem neverRegresses_updated :
    ∃ es s, Run (Guarded (Fires (next engine)) InOrder) (init .needs_input oneProject) es s ∧
      s.store.status = .completed ∧ NeverRegresses s := by
  have hrun : Run (Guarded (Fires (next engine)) InOrder) (init .needs_input oneProject)
      [.updateRead 0, .updateWrite 0 .ready, .call 0 .load, .call 0 (.acquire none 0),
        .call 0 (.persist true), .call 0 .dispatch, .call 0 (.dispatched false),
        .call 0 (.terminal true), .call 0 (.finish true true true)] _ :=
    .cons ⟨rfl, trivial⟩ (.cons ⟨rfl, rfl⟩ (.cons ⟨rfl, trivial, nofun⟩
      (.cons ⟨rfl, trivial, nofun⟩ (.cons ⟨rfl, rfl, nofun⟩ (.cons ⟨rfl, trivial, nofun⟩
        (.cons ⟨rfl, trivial, nofun⟩ (.cons ⟨rfl, trivial, nofun⟩
          (.single ⟨rfl, trivial, fun _ => rfl⟩))))))))
  exact ⟨_, _, hrun, rfl, neverRegresses_of_inOrder hrun⟩

/-- An update that reads the plan before it is executed, and writes it after that, makes it ready
again. -/
theorem executing_made_ready :
    ∃ es s, Run (Fires (next engine)) (init .ready oneProject) es s ∧
      ¬NeverRegresses s := by
  have hrun : Run (Fires (next engine)) (init .ready oneProject)
      [.updateRead 0, .call 0 .load, .call 0 (.acquire none 0), .call 0 (.persist true),
        .updateWrite 0 .ready] _ := Run.of_exec rfl
  refine ⟨_, _, hrun, fun h => ?_⟩
  have hfollows := (List.isChain_cons_cons.mp (List.isChain_cons_cons.mp h).2).1
  simp [Follows] at hfollows

end OpenLander.DeployPlan
