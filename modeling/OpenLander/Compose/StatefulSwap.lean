import OpenLander.Compose.StatefulGuard
import OpenLander.Orchestrator.Execute

/-! # Stateful swaps

What `deployComposeViaDockerode` (`src/pipeline/compose.ts`) does with the containers of an
approved stateful change. The old container is renamed and stopped, and
`restorePreservedStatefulContainer` undoes that. It is called for a swap in the `catch` block of
`deployService`, in `rollbackService` and in the `catch` block of the whole deployment, and for an
archived removal when the deployment has errors. No call of it throws. -/

namespace OpenLander.Compose.StatefulSwap
open Theory Orchestrator

/-- The services of the approved changes of one kind. -/
def approved (approval : StatefulComposeApproval) (change : StatefulChange) : List String :=
  (approval.changes.filter (·.change = change)).map (·.serviceName)

/-- Where `deployComposeViaDockerode` is. -/
inductive Stage
  | archiving
  | orchestrating
  /-- The statuses are reconciled and written. -/
  | reporting
  /-- The `catch` block has not restored yet. -/
  | catching
  /-- The `catch` block has restored; the deployment has failed. -/
  | caught
  | returned (success : Bool)
  deriving DecidableEq, Repr

structure State where
  stage : Stage := .archiving
  /-- `executeOrdered` has been called. -/
  begun : Bool := false
  orchestration : Orchestrator.State
  /-- The approved removals that are still to be archived. -/
  removals : List String
  archivedStatefulRemovals : List String := []
  statefulSwaps : List String := []
  /-- Every service whose container was renamed to its preserved name. -/
  renamed : List String := []
  /-- Every service handed to `restorePreservedStatefulContainer`. -/
  restored : List String := []
  /-- The services swapped since the `catch` block restored. -/
  recent : List String := []

/-- A swap that fails undoes its own renaming, and then `deployService` fails or the archiving
throws; `swap` and `archive` are the ones that do not fail. -/
inductive Event
  | archive (name : String)
  /-- The container is renamed, but its rows cannot be written. -/
  | archiveFails (name : String)
  | begin
  | swap (name : String)
  | orchestrate (e : Orchestrator.Event)
  | report
  | unarchive (name : String)
  | finish
  | throws
  | restoreAll
  deriving DecidableEq

/-- The service whose container is restored, if it was swapped: the `catch` block of
`deployService` restores before it writes the row, so that it may still throw, and
`rollbackService` restores once the new container is stopped. -/
def restores : Orchestrator.Event → Option String
  | .deployed name false | .deployRejected name | .rolledBack name .rolled_back => some name
  | _ => none

namespace State

def answer (s : State) (e : Orchestrator.Event) (orchestration : Orchestrator.State) : State :=
  { s with
    orchestration
    statefulSwaps := s.statefulSwaps.filter (restores e ≠ some ·)
    restored := s.restored ++ s.statefulSwaps.filter (restores e = some ·) }

def swap (s : State) (name : String) : State :=
  { s with
    statefulSwaps := s.statefulSwaps ++ [name]
    renamed := s.renamed ++ [name]
    recent := s.recent ++ [name] }

def restoreAll (s : State) : State :=
  { s with
    stage := .caught
    statefulSwaps := []
    archivedStatefulRemovals := []
    restored := s.restored ++ s.statefulSwaps ++ s.archivedStatefulRemovals
    recent := [] }

/-- The orchestration reports no success, or it reports a service as failed. -/
def hasError (t : ServiceTopology) (s : State) : Bool :=
  s.orchestration.mode != .succeeded ||
    t.services.any fun service => (s.orchestration.phase service.name).failing

end State

variable (t : ServiceTopology) (approval : StatefulComposeApproval)

def init : State where
  orchestration := Orchestrator.init t
  removals := approved approval .remove

def next (s : State) : Event → Option State
  | .archive name =>
    if s.stage = .archiving ∧ s.removals.head? = some name then
      some { s with
        removals := s.removals.tail
        archivedStatefulRemovals := s.archivedStatefulRemovals ++ [name]
        renamed := s.renamed ++ [name] }
    else none
  | .archiveFails name =>
    if s.stage = .archiving ∧ s.removals.head? = some name then
      some { s with
        stage := .catching
        renamed := s.renamed ++ [name]
        restored := s.restored ++ [name] }
    else none
  | .begin =>
    if s.stage = .archiving ∧ s.removals = [] then
      some { s with stage := .orchestrating, begun := true }
    else none
  | .swap name =>
    if s.begun ∧ s.orchestration.phase name = .deploying ∧ name ∈ approved approval .update ∧
        name ∉ s.renamed then
      some (s.swap name)
    else none
  | .orchestrate e =>
    if s.begun then
      (Orchestrator.next t true s.orchestration e).map (s.answer e)
    else none
  | .report =>
    if s.stage = .orchestrating ∧
        (s.orchestration.mode = .succeeded ∨ s.orchestration.mode = .failed) then
      some { s with stage := .reporting }
    else none
  | .unarchive name =>
    if s.stage = .reporting ∧ s.hasError t ∧ s.archivedStatefulRemovals.head? = some name then
      some { s with
        archivedStatefulRemovals := s.archivedStatefulRemovals.tail
        restored := s.restored ++ [name] }
    else none
  | .finish =>
    if s.stage = .reporting ∧ (s.hasError t → s.archivedStatefulRemovals = []) then
      some { s with stage := .returned !s.hasError t }
    else none
  | .throws =>
    if s.stage = .archiving ∨ s.stage = .reporting ∨
        s.stage = .orchestrating ∧ s.orchestration.mode = .rejected then
      some { s with stage := .catching }
    else none
  | .restoreAll => if s.stage = .catching then some s.restoreAll else none

/-! ## The invariant -/

variable {t approval}

structure Inv (t : ServiceTopology) (s : State) : Prop where
  orchestration : Orchestrator.Inv t s.orchestration
  archiving : s.stage = .archiving → s.begun = false
  unbegun : s.begun = false → s.statefulSwaps = [] ∧ s.recent = []
  finished : s.begun = true → s.stage ≠ .orchestrating → s.orchestration.mode.finished
  reporting : s.stage = .reporting →
    s.orchestration.mode = .succeeded ∨ s.orchestration.mode = .failed
  returned : s.stage = .returned false → s.archivedStatefulRemovals = [] ∧
    (s.orchestration.mode = .failed ∨
      s.orchestration.mode = .succeeded ∧ s.orchestration.failedServiceName t = some "")
  caught : s.stage = .caught →
    s.archivedStatefulRemovals = [] ∧ (s.recent ≠ [] → s.orchestration.mode = .rejected)
  renamed : ∀ name, name ∈ s.renamed ↔
    name ∈ s.restored ∨ name ∈ s.statefulSwaps ∨ name ∈ s.archivedStatefulRemovals
  disjoint : ∀ name ∈ s.statefulSwaps, name ∉ s.restored ∧ name ∉ s.archivedStatefulRemovals
  started : ∀ name ∈ s.recent, s.orchestration.phase name ≠ .notStarted
  swapped : ∀ name, name ∈ s.statefulSwaps ↔ name ∈ s.recent ∧
    s.orchestration.phase name ≠ .failed ∧ s.orchestration.phase name ≠ .deployRejected ∧
      (name, .rolled_back) ∉ s.orchestration.outcomes

theorem restores_eq_some (e : Orchestrator.Event) (name : String) : restores e = some name ↔
    e = .deployed name false ∨ e = .deployRejected name ∨ e = .rolledBack name .rolled_back := by
  unfold restores
  split <;> simp_all

theorem Inv.init (ht : t.Layered) : Inv t (init t approval) where
  orchestration := .init ht
  archiving _ := rfl
  unbegun _ := ⟨rfl, rfl⟩
  finished := nofun
  reporting := nofun
  returned := nofun
  caught := nofun
  renamed := by simp [StatefulSwap.init]
  disjoint := by simp [StatefulSwap.init]
  started := by simp [StatefulSwap.init]
  swapped := by simp [StatefulSwap.init]

theorem mem_statefulSwaps_answer (s : State) (o : Orchestrator.State) (name : String) :
    name ∈ (s.answer e o).statefulSwaps ↔ name ∈ s.statefulSwaps ∧ restores e ≠ some name := by
  simp [State.answer]

theorem mem_restored_answer (s : State) (o : Orchestrator.State) (name : String) :
    name ∈ (s.answer e o).restored ↔
      name ∈ s.restored ∨ name ∈ s.statefulSwaps ∧ restores e = some name := by
  simp [State.answer]

/-- An answer takes the swap that it restores out of `statefulSwaps`. -/
theorem Inv.answer (ht : t.Layered) (H : Inv t s) (hbegun : s.begun = true)
    (ho : Orchestrator.next t true s.orchestration e = some o) : Inv t (s.answer e o) := by
  have hmoves := moves_of_next ht ho H.orchestration
  have hmode : s.stage ≠ .orchestrating → o.mode = s.orchestration.mode :=
    fun hstage => mode_of_finished ho (H.finished hbegun hstage)
  have hlive : ¬(s.orchestration.mode = .succeeded ∨ s.orchestration.mode = .failed) := by
    intro hresolved
    rw [H.orchestration.next_eq_none hresolved] at ho
    cases ho
  refine {
    orchestration := H.orchestration.step ht ho
    archiving := H.archiving
    unbegun := fun hb => by cases hbegun.symm.trans hb
    finished := fun _ hstage => (hmode hstage).symm ▸ H.finished hbegun hstage
    reporting := fun hstage => absurd (H.reporting hstage) hlive
    returned := fun hstage => absurd ((H.returned hstage).2.symm.imp_left (·.1)) hlive
    caught := fun hstage => ?_
    renamed := fun name => ?_, disjoint := fun name hname => ?_
    started := fun name hname => ?_, swapped := fun name => ?_ }
  · have hstage : s.stage = .caught := hstage
    exact (H.caught hstage).imp_right fun h hrecent => (hmode (by simp [hstage])).trans (h hrecent)
  · rw [mem_statefulSwaps_answer, mem_restored_answer]
    refine (H.renamed name).trans ?_
    change _ ↔ _ ∨ _ ∨ name ∈ s.archivedStatefulRemovals
    tauto
  · rw [mem_statefulSwaps_answer] at hname
    refine (H.disjoint name hname.1).imp_left fun hnot => ?_
    rw [mem_restored_answer]
    rintro (h | ⟨-, h⟩)
    · exact hnot h
    · exact hname.2 h
  · exact (hmoves name).started (H.started name hname)
  · have hfailed := (hmoves name).failed_iff
    have hrejected := (hmoves name).deployRejected_iff
    have hout := outcomes_of_next ho name .rolled_back
    have hrestores := (restores_eq_some e name).not
    rw [not_or, not_or] at hrestores
    rw [mem_statefulSwaps_answer, H.swapped, Ne, Ne, Ne, hrestores]
    change _ ↔ name ∈ s.recent ∧ o.phase name ≠ .failed ∧ o.phase name ≠ .deployRejected ∧
      (name, .rolled_back) ∉ o.outcomes
    rw [Ne, hfailed, Ne, hrejected, hout, not_or, not_or, not_or]
    constructor
    · rintro ⟨⟨hrecent, hf, hr, ho⟩, hf', hr', ho'⟩
      exact ⟨hrecent, ⟨hf, hf'⟩, ⟨hr, hr'⟩, ho, ho'⟩
    · rintro ⟨hrecent, ⟨hf, hf'⟩, ⟨hr, hr'⟩, ho, ho'⟩
      exact ⟨⟨hrecent, hf, hr, ho⟩, hf', hr', ho'⟩

theorem Inv.swap (H : Inv t s) (hbegun : s.begun = true)
    (hphase : s.orchestration.phase name = .deploying) (hname : name ∉ s.renamed) :
    Inv t (s.swap name) := by
  obtain ⟨-, hmode⟩ := H.orchestration.inFlight (.inl hphase)
  have hout : s.orchestration.outcomes = [] :=
    hmode.elim (H.orchestration.running · |>.2.2.1) (H.orchestration.rejected · |>.1)
  refine { H with
    unbegun := fun hb => by cases hbegun.symm.trans hb
    caught := fun hstage => ⟨(H.caught hstage).1, fun _ => hmode.resolve_left fun hrun => ?_⟩
    renamed := fun name' => ?_, disjoint := fun name' hname' => ?_
    started := fun name' hname' => ?_, swapped := fun name' => ?_ }
  · have hfin := H.finished hbegun (by simp [show s.stage = .caught from hstage])
    rw [hrun] at hfin
    cases hfin
  · simp only [State.swap, List.mem_append, List.mem_singleton, H.renamed]
    tauto
  · rcases List.mem_append.mp hname' with hmem | hmem
    · exact H.disjoint name' hmem
    · rw [List.mem_singleton.mp hmem]
      have hnot := (H.renamed name).not.mp hname
      tauto
  · rcases List.mem_append.mp hname' with hmem | hmem
    · exact H.started name' hmem
    · rw [List.mem_singleton.mp hmem]
      exact fun h => by cases hphase.symm.trans h
  · simp only [State.swap, List.mem_append, List.mem_singleton, H.swapped, hout]
    constructor
    · rintro (⟨hrecent, hrest⟩ | rfl)
      · exact ⟨.inl hrecent, hrest⟩
      · exact ⟨.inr rfl, by simp [hphase]⟩
    · rintro ⟨hrecent | rfl, hrest⟩
      · exact .inl ⟨hrecent, hrest⟩
      · exact .inr rfl

theorem Inv.restoreAll (H : Inv t s) (hstage : s.stage = .catching) : Inv t s.restoreAll where
  orchestration := H.orchestration
  archiving := nofun
  unbegun _ := ⟨rfl, rfl⟩
  finished hb _ := H.finished hb (by simp [hstage])
  reporting := nofun
  returned := nofun
  caught _ := ⟨rfl, fun h => absurd rfl h⟩
  renamed name := by simp [State.restoreAll, H.renamed]
  disjoint := nofun
  started := nofun
  swapped := by simp [State.restoreAll]

/-- While nothing is swapped, a removal may be archived and restored. -/
theorem Inv.step (ht : t.Layered) (h : next t approval s e = some s') (H : Inv t s) :
    Inv t s' := by
  unfold next at h
  cases e with
  | archive name =>
    obtain ⟨⟨hstage, -⟩, ⟨⟩⟩ := Option.ite_none_right_eq_some.mp h
    refine { H with
      reporting := fun hs => by cases hstage.symm.trans hs
      returned := fun hs => by cases hstage.symm.trans hs
      caught := fun hs => by cases hstage.symm.trans hs
      renamed := fun name' => ?_, disjoint := fun name' hname' => ?_ }
    · simp only [List.mem_append, List.mem_singleton, H.renamed, or_assoc]
    · rw [show s.statefulSwaps = [] from (H.unbegun (H.archiving hstage)).1] at hname'
      cases hname'
  | archiveFails name =>
    obtain ⟨⟨hstage, -⟩, ⟨⟩⟩ := Option.ite_none_right_eq_some.mp h
    have hb := H.archiving hstage
    refine { H with
      archiving := by rintro ⟨⟩
      reporting := by rintro ⟨⟩
      returned := by rintro ⟨⟩
      caught := by rintro ⟨⟩
      finished := fun hb' => by cases hb.symm.trans hb'
      renamed := fun name' => ?_, disjoint := fun name' hname' => ?_ }
    · simp only [List.mem_append, List.mem_singleton, H.renamed, or_assoc, or_comm,
        or_left_comm]
    · rw [show s.statefulSwaps = [] from (H.unbegun hb).1] at hname'
      cases hname'
  | begin =>
    obtain ⟨⟨hstage, -⟩, ⟨⟩⟩ := Option.ite_none_right_eq_some.mp h
    exact { H with
      archiving := by rintro ⟨⟩
      unbegun := by rintro ⟨⟩
      reporting := by rintro ⟨⟩
      returned := by rintro ⟨⟩
      caught := by rintro ⟨⟩
      finished := fun _ hs => absurd rfl hs }
  | swap name =>
    obtain ⟨⟨hbegun, hphase, -, hname⟩, ⟨⟩⟩ := Option.ite_none_right_eq_some.mp h
    exact H.swap hbegun hphase hname
  | orchestrate e =>
    obtain ⟨hbegun, h⟩ := Option.ite_none_right_eq_some.mp h
    obtain ⟨o, ho, rfl⟩ := Option.map_eq_some_iff.mp h
    exact H.answer ht hbegun ho
  | report =>
    obtain ⟨⟨hstage, hmode⟩, ⟨⟩⟩ := Option.ite_none_right_eq_some.mp h
    refine { H with
      archiving := by rintro ⟨⟩
      returned := by rintro ⟨⟩
      caught := by rintro ⟨⟩
      reporting := fun _ => hmode
      finished := fun _ _ => ?_ }
    rcases hmode with hmode | hmode <;> simp [hmode, Mode.finished]
  | unarchive name =>
    obtain ⟨⟨hstage, -, hhead⟩, ⟨⟩⟩ := Option.ite_none_right_eq_some.mp h
    have hrest := List.eq_cons_of_mem_head? hhead
    refine { H with
      returned := fun hs => by cases hstage.symm.trans hs
      caught := fun hs => by cases hstage.symm.trans hs
      renamed := fun name' => ?_, disjoint := fun name' hname' => ?_ }
    · rw [H.renamed, hrest]
      simp only [List.mem_append, List.mem_cons, List.tail_cons, List.not_mem_nil, or_false,
        or_assoc, or_left_comm]
    · obtain ⟨hrestored, harchived⟩ := H.disjoint name' hname'
      rw [hrest, List.mem_cons, not_or] at harchived
      rw [List.mem_append, List.mem_singleton, not_or]
      exact ⟨⟨hrestored, harchived.1⟩, harchived.2⟩
  | finish =>
    obtain ⟨⟨hstage, harchived⟩, ⟨⟩⟩ := Option.ite_none_right_eq_some.mp h
    refine { H with
      archiving := by rintro ⟨⟩
      reporting := by rintro ⟨⟩
      caught := by rintro ⟨⟩
      finished := fun hb _ => H.finished hb (by simp [hstage])
      returned := fun hs => ?_ }
    have herror : s.hasError t = true := by simpa using hs
    refine ⟨harchived herror, (H.reporting hstage).symm.imp_right fun hmode => ⟨hmode, ?_⟩⟩
    rw [State.hasError, hmode] at herror
    exact H.orchestration.failedServiceName_of_succeeded ht hmode (by simpa using herror)
  | throws =>
    obtain ⟨hstage, ⟨⟩⟩ := Option.ite_none_right_eq_some.mp h
    refine { H with
      archiving := by rintro ⟨⟩
      reporting := by rintro ⟨⟩
      returned := by rintro ⟨⟩
      caught := by rintro ⟨⟩
      finished := fun hb _ => ?_ }
    rcases hstage with hstage | hstage | ⟨-, hmode⟩
    · cases hb.symm.trans (H.archiving hstage)
    · exact H.finished hb (by simp [hstage])
    · rw [show (s.orchestration.mode) = _ from hmode]
      rfl
  | restoreAll =>
    obtain ⟨hstage, ⟨⟩⟩ := Option.ite_none_right_eq_some.mp h
    exact H.restoreAll hstage

/-! ## Runs -/

def recentAfter (recent : List String) : Event → List String
  | .swap name => recent ++ [name]
  | .restoreAll => []
  | _ => recent

/-- The services swapped since the `catch` block restored, or in the whole run if it did not. -/
def recentSwaps (es : List Event) : List String := es.foldl recentAfter []

theorem recent_of_next (h : next t approval s e = some s') :
    s'.recent = recentAfter s.recent e := by
  unfold next at h
  cases e with
  | orchestrate e =>
    obtain ⟨-, h⟩ := Option.ite_none_right_eq_some.mp h
    obtain ⟨o, -, rfl⟩ := Option.map_eq_some_iff.mp h
    rfl
  | _ =>
    obtain ⟨-, ⟨⟩⟩ := Option.ite_none_right_eq_some.mp h
    rfl

theorem caught_of_next (h : next t approval s e = some s') :
    s'.stage = .caught ↔ s.stage = .caught ∨ e = .restoreAll := by
  unfold next at h
  cases e with
  | orchestrate e =>
    obtain ⟨-, h⟩ := Option.ite_none_right_eq_some.mp h
    obtain ⟨o, -, rfl⟩ := Option.map_eq_some_iff.mp h
    simp [State.answer]
  | throws =>
    obtain ⟨hstage, ⟨⟩⟩ := Option.ite_none_right_eq_some.mp h
    rcases hstage with hstage | hstage | ⟨hstage, -⟩ <;> simp [hstage]
  | _ =>
    obtain ⟨hstage, ⟨⟩⟩ := Option.ite_none_right_eq_some.mp h
    simp [State.swap, State.restoreAll, hstage]

section Run
variable {s : State} (h : Run (Fires (next t approval)) (init t approval) es s)
include h

theorem recent_eq : s.recent = recentSwaps es :=
  h.foldl fun _ _ _ hs => recent_of_next hs

theorem caught_iff : s.stage = .caught ↔ .restoreAll ∈ es := by
  have := h.iff_exists_mem (p := fun s : State => s.stage = .caught) (I := fun _ => True) trivial
    (fun _ _ _ _ _ => trivial) fun _ _ _ hs _ => caught_of_next hs
  simpa [init] using this

theorem inv_of_run (ht : t.Layered) : Inv t s :=
  h.invariant (fun _ _ _ hs H => H.step ht hs) (.init ht)

end Run

end OpenLander.Compose.StatefulSwap
