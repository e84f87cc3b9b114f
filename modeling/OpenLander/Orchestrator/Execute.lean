import OpenLander.Theory.Run
import OpenLander.Orchestrator.Topology

/-! # Ordered execution

`DeployOrchestrator.executeOrdered` (`src/pipeline/orchestrator.ts`) deploys the layers of a
topology one after another and rolls back when one fails. The calls of a layer run concurrently.
A step is the answer of a callback of the pipeline, or what `executeOrdered` does when the calls
of a layer have all settled. When a callback rejects, `executeOrdered` rejects with it at once,
and the other calls of the layer go on. -/

namespace OpenLander.Orchestrator
open Theory

/-- Where the call for one service is. -/
inductive Phase
  | notStarted
  | deploying
  | failed
  | deployRejected
  /-- `deployService` returned success, and `waitForHealthy` is awaited. -/
  | checking
  | healthy
  | unhealthy
  | healthRejected
  deriving DecidableEq, Repr

namespace Phase

/-- `deployService` returned success. -/
def deployed : Phase → Bool
  | checking | healthy | unhealthy | healthRejected => true
  | _ => false

/-- The call returned a status. -/
def settled : Phase → Bool
  | failed | healthy | unhealthy => true
  | _ => false

/-- The call returned the status `failed`. -/
def failing : Phase → Bool
  | failed | unhealthy => true
  | _ => false

def rejected : Phase → Bool
  | deployRejected | healthRejected => true
  | _ => false

end Phase

inductive RollbackOutcome
  | rolled_back
  | rollback_failed_due_to_policy (reason : String)
  | rollback_failed (reason : String)
  deriving DecidableEq, Repr

inductive Mode
  | running
  | rollingBack (queue : List String)
  | succeeded
  | failed
  /-- The promise of `executeOrdered` is rejected. -/
  | rejected
  deriving DecidableEq, Repr

/-- The promise of `executeOrdered` is settled. -/
def Mode.finished : Mode → Bool
  | running | rollingBack _ => false
  | succeeded | failed | rejected => true

structure State where
  /-- The layer whose calls run, by its place in the execution order. -/
  layer : Nat := 0
  phase : String → Phase := fun _ => .notStarted
  executed : List String := []
  outcomes : List (String × RollbackOutcome) := []
  mode : Mode := .running

/-- The answers of the callbacks, and what `executeOrdered` does of itself. -/
inductive Event
  | deployed (name : String) (success : Bool)
  | deployRejected (name : String)
  | health (name : String) (healthy : Bool)
  | healthRejected (name : String)
  | settle
  | rolledBack (name : String) (outcome : RollbackOutcome)
  | complete
  deriving DecidableEq

variable (t : ServiceTopology)

def ServiceTopology.group (layer : Nat) : List String := t.executionOrder[layer]?.getD []

/-- The layer that a service is in. -/
def ServiceTopology.layerOf (name : String) : Nat := t.executionOrder.findIdx (name ∈ ·)

namespace State

def setPhase (s : State) (name : String) (p : Phase) : State :=
  { s with phase := Function.update s.phase name p }

/-- Start the calls of a layer, or report success when there is none left. -/
def start (s : State) (layer : Nat) : State :=
  if layer < t.executionOrder.length then
    { s with
      layer
      phase := fun name =>
        if name ∈ t.group layer then
          if name ∈ t.services.map (·.name) then .deploying else .failed
        else s.phase name }
  else { s with layer, mode := .succeeded }

/-- What follows `Promise.all`. -/
def settle (s : State) : State :=
  let group := t.group s.layer
  let executed := s.executed ++ group.filter (s.phase · = .healthy)
  match group.find? fun name => (s.phase name).failing with
  | some failedServiceName =>
    -- The empty name is falsy: nothing is rolled back, and success is reported.
    if failedServiceName = "" then { s with executed, mode := .succeeded }
    else { s with executed, mode := .rollingBack executed.reverse }
  | none => { s with executed }.start t (s.layer + 1)

def reject (s : State) : State :=
  { s with mode := if s.mode = .running then .rejected else s.mode }

end State

def init : State :=
  if t.services = [] then { mode := .failed } else ({} : State).start t 0

/-- One step. `waits` says that the pipeline has a `waitForHealthy`. -/
def next (waits : Bool) (s : State) : Event → Option State
  | .deployed name success =>
    if s.phase name = .deploying then
      some (s.setPhase name
        (if success then if waits then .checking else .healthy else .failed))
    else none
  | .deployRejected name =>
    if s.phase name = .deploying then some (s.setPhase name .deployRejected).reject else none
  | .health name healthy =>
    if s.phase name = .checking then
      some (s.setPhase name (if healthy then .healthy else .unhealthy))
    else none
  | .healthRejected name =>
    if s.phase name = .checking then some (s.setPhase name .healthRejected).reject else none
  | .settle =>
    if s.mode = .running ∧ ∀ name ∈ t.group s.layer, (s.phase name).settled then
      some (s.settle t)
    else none
  | .rolledBack name outcome =>
    match s.mode with
    | .rollingBack (first :: queue) =>
      if first = name then
        some { s with mode := .rollingBack queue, outcomes := s.outcomes ++ [(name, outcome)] }
      else none
    | _ => none
  | .complete => if s.mode = .rollingBack [] then some { s with mode := .failed } else none

/-! ## Layers -/

variable {t}

theorem group_eq (h : layer < t.executionOrder.length) :
    t.group layer = t.executionOrder[layer] := by
  rw [ServiceTopology.group, List.getElem?_eq_getElem h, Option.getD_some]

theorem lt_length_of_mem_group (hn : name ∈ t.group layer) : layer < t.executionOrder.length := by
  by_contra hlt
  rw [ServiceTopology.group, List.getElem?_eq_none (Nat.le_of_not_lt hlt)] at hn
  cases hn

theorem layerOf_eq (ht : t.Layered) (hn : name ∈ t.group layer) : t.layerOf name = layer := by
  have hlt := lt_length_of_mem_group hn
  have hpair := (List.nodup_flatten.mp (ht.perm.nodup_iff.mpr ht.nodup)).2
  rw [group_eq hlt] at hn
  refine (List.findIdx_eq hlt).mpr ⟨decide_eq_true hn, fun j hj => decide_eq_false fun hmem => ?_⟩
  exact List.pairwise_iff_getElem.mp hpair j layer (hj.trans hlt) hlt hj hmem hn

theorem mem_group (h : t.layerOf name < t.executionOrder.length) :
    name ∈ t.group (t.layerOf name) := by
  rw [group_eq h]
  exact of_decide_eq_true (List.findIdx_getElem (w := h))

theorem mem_group_of_layerOf (h : t.layerOf name = layer) (hlt : layer < t.executionOrder.length) :
    name ∈ t.group layer :=
  h ▸ mem_group (h ▸ hlt)

theorem mem_take_flatten (ht : t.Layered) (layer : Nat) :
    name ∈ (t.executionOrder.take layer).flatten ↔
      t.layerOf name < layer ∧ t.layerOf name < t.executionOrder.length := by
  rw [List.mem_flatten]
  constructor
  · rintro ⟨group, hgroup, hname⟩
    obtain ⟨i, hi, rfl⟩ := List.mem_take_iff_getElem.mp hgroup
    obtain ⟨hlayer, hlt⟩ := Nat.lt_min.mp hi
    have hmem : name ∈ t.group i := group_eq hlt ▸ hname
    rw [layerOf_eq ht hmem]
    exact ⟨hlayer, hlt⟩
  · rintro ⟨hlayer, hlt⟩
    refine ⟨t.group (t.layerOf name), ?_, mem_group hlt⟩
    rw [group_eq hlt]
    exact List.mem_take_iff_getElem.mpr ⟨_, Nat.lt_min.mpr ⟨hlayer, hlt⟩, rfl⟩

theorem take_succ_flatten (h : layer < t.executionOrder.length) :
    (t.executionOrder.take (layer + 1)).flatten =
      (t.executionOrder.take layer).flatten ++ t.group layer := by
  rw [List.take_succ_eq_append_getElem h, List.flatten_append, List.flatten_singleton, group_eq h]

theorem take_flatten_sublist (layer : Nat) :
    (t.executionOrder.take layer).flatten.Sublist t.executionOrder.flatten := by
  have hsplit : t.executionOrder.flatten =
      (t.executionOrder.take layer).flatten ++ (t.executionOrder.drop layer).flatten := by
    rw [← List.flatten_append, List.take_append_drop]
  rw [hsplit]
  exact List.sublist_append_left ..

/-! ## The invariant -/

/-- The first service of the execution order whose call returned the status `failed`. -/
def State.failedServiceName (t : ServiceTopology) (s : State) : Option String :=
  t.executionOrder.flatten.find? fun name => (s.phase name).failing

/-- After healthy layers it is the first one of the layer that runs. -/
theorem failedServiceName_of_group {s : State} (ht : t.Layered)
    (hlt : layer < t.executionOrder.length)
    (hearlier : ∀ name, t.layerOf name < layer → s.phase name = .healthy)
    (hfind : (t.group layer).find? (fun name => (s.phase name).failing) = some name) :
    s.failedServiceName t = some name := by
  have hsplit : t.executionOrder.flatten = (t.executionOrder.take (layer + 1)).flatten ++
      (t.executionOrder.drop (layer + 1)).flatten := by
    rw [← List.flatten_append, List.take_append_drop]
  have hnone : (t.executionOrder.take layer).flatten.find? (fun name => (s.phase name).failing) =
      none := by
    refine List.find?_eq_none.mpr fun name hname => ?_
    rw [hearlier name ((mem_take_flatten ht layer).mp hname).1]
    exact Bool.false_ne_true
  rw [State.failedServiceName, hsplit, take_succ_flatten hlt, List.find?_append,
    List.find?_append, hnone, hfind]
  rfl

/-- While the layers run, every earlier layer is healthy and no later one is started. In the end
`executed` holds the healthy services, of which those in `queue` are still to be rolled back. -/
structure Inv (t : ServiceTopology) (s : State) : Prop where
  earlier : ∀ name, t.layerOf name < s.layer → s.phase name = .healthy
  later : ∀ name, s.layer < t.layerOf name → s.phase name = .notStarted
  running : s.mode = .running → s.layer < t.executionOrder.length ∧
    s.executed = (t.executionOrder.take s.layer).flatten ∧ s.outcomes = [] ∧
      ∀ name, (s.phase name).rejected = false
  rejected : s.mode = .rejected → s.outcomes = [] ∧ ∃ name, (s.phase name).rejected
  succeeded : s.mode = .succeeded → s.outcomes = [] ∧
    (∀ name, (s.phase name).settled ∨ s.phase name = .notStarted) ∧
      ∀ name ∈ s.failedServiceName t, name = ""
  ended : ∀ queue, s.mode = .rollingBack queue ∨ s.mode = .failed ∧ queue = [] →
    (∀ name, (s.phase name).settled ∨ s.phase name = .notStarted) ∧
      (∀ name, name ∈ s.executed ↔ s.phase name = .healthy) ∧
      s.executed.Sublist t.executionOrder.flatten ∧
      s.outcomes.map (·.1) ++ queue = s.executed.reverse ∧ s.failedServiceName t ≠ some ""

@[simp] theorem setPhase_phase (s : State) (name name' : String) (p : Phase) :
    (s.setPhase name p).phase name' = if name' = name then p else s.phase name' := by
  simp [State.setPhase, Function.update_apply]

@[simp] theorem reject_phase (s : State) : s.reject.phase = s.phase := rfl

theorem start_phase (ht : t.Layered) (s : State) (layer : Nat) (name : String) :
    (s.start t layer).phase name = s.phase name ∨
      t.layerOf name = layer ∧ (s.start t layer).phase name = .deploying := by
  rw [State.start]
  split
  next hlt =>
    dsimp only
    split
    next hgroup =>
      have hname : name ∈ t.services.map (·.name) := by
        apply ht.perm.subset
        rw [group_eq hlt] at hgroup
        exact List.mem_flatten.mpr ⟨_, List.getElem_mem hlt, hgroup⟩
      exact .inr ⟨layerOf_eq ht hgroup, if_pos hname⟩
    next => exact .inl rfl
  · exact .inl rfl

theorem settle_phase (ht : t.Layered) (s : State) (name : String) :
    (s.settle t).phase name = s.phase name ∨
      t.layerOf name = s.layer + 1 ∧ (s.settle t).phase name = .deploying := by
  rw [State.settle]
  split
  · split <;> exact .inl rfl
  · let executed := s.executed ++ (t.group s.layer).filter (s.phase · = .healthy)
    exact start_phase ht { s with executed } (s.layer + 1) name

/-- A call that is in flight belongs to the layer that runs, and no rollback has begun. -/
theorem Inv.inFlight (H : Inv t s) (h : s.phase name = .deploying ∨ s.phase name = .checking) :
    t.layerOf name = s.layer ∧ (s.mode = .running ∨ s.mode = .rejected) := by
  have hended : ∀ queue, ¬(s.mode = .rollingBack queue ∨ s.mode = .failed ∧ queue = []) := by
    intro queue hq
    have hquiet := (H.ended queue hq).1 name
    rcases h with h | h <;> simp [h, Phase.settled] at hquiet
  constructor
  · rcases Nat.lt_trichotomy (t.layerOf name) s.layer with hlt | heq | hgt
    · have hearlier := H.earlier name hlt
      rcases h with h | h <;> simp [h] at hearlier
    · exact heq
    · have hlater := H.later name hgt
      rcases h with h | h <;> simp [h] at hlater
  · cases hmode : s.mode with
    | running => exact .inl rfl
    | rejected => exact .inr rfl
    | succeeded =>
      have hsucc := (H.succeeded hmode).2.1 name
      rcases h with h | h <;> simp [h, Phase.settled] at hsucc
    | rollingBack queue => exact absurd (.inl hmode) (hended queue)
    | failed => exact absurd (.inr ⟨hmode, rfl⟩) (hended [])

/-- An answer changes only the phase of a service in the layer that runs. -/
theorem Inv.phase_frame (H : Inv t s) (h : s.phase name = .deploying ∨ s.phase name = .checking)
    (p : Phase) :
    (∀ name', t.layerOf name' < s.layer → (s.setPhase name p).phase name' = .healthy) ∧
      ∀ name', s.layer < t.layerOf name' → (s.setPhase name p).phase name' = .notStarted := by
  have hlayer := (H.inFlight h).1
  constructor
  · intro name' hlt
    have hne : name' ≠ name := fun heq => by rw [heq] at hlt; omega
    rw [setPhase_phase, if_neg hne]
    exact H.earlier name' hlt
  · intro name' hgt
    have hne : name' ≠ name := fun heq => by rw [heq] at hgt; omega
    rw [setPhase_phase, if_neg hne]
    exact H.later name' hgt

theorem Inv.setPhase (H : Inv t s) (h : s.phase name = .deploying ∨ s.phase name = .checking)
    (hp : p.rejected = false) : Inv t (s.setPhase name p) := by
  obtain ⟨-, hmode⟩ := H.inFlight h
  obtain ⟨hearlier, hlater⟩ := H.phase_frame h p
  refine ⟨hearlier, hlater, fun hrun => ?_, fun hrej => ?_, fun hsucc => ?_, fun queue hq => ?_⟩
  · obtain ⟨hlt, hexec, hout, hnone⟩ := H.running hrun
    refine ⟨hlt, hexec, hout, fun name' => ?_⟩
    rw [setPhase_phase]
    split
    · exact hp
    · exact hnone name'
  · obtain ⟨hout, name', hrej⟩ := H.rejected hrej
    have hne : name' ≠ name := fun heq => by
      rw [heq] at hrej
      rcases h with h | h <;> simp [h, Phase.rejected] at hrej
    exact ⟨hout, name', by rwa [setPhase_phase, if_neg hne]⟩
  · rw [show s.mode = .succeeded from hsucc] at hmode
    simp at hmode
  · rcases hmode with hmode | hmode <;> simp [State.setPhase, hmode] at hq

theorem Inv.reject (H : Inv t s) (h : s.phase name = .deploying ∨ s.phase name = .checking)
    (hp : p.rejected = true) : Inv t (s.setPhase name p).reject := by
  obtain ⟨-, hmode⟩ := H.inFlight h
  obtain ⟨hearlier, hlater⟩ := H.phase_frame h p
  have hrej : (s.setPhase name p).reject.mode = .rejected := by
    rcases hmode with hmode | hmode <;> simp [State.reject, State.setPhase, hmode]
  have hout : s.outcomes = [] := hmode.elim (H.running · |>.2.2.1) (H.rejected · |>.1)
  refine ⟨hearlier, hlater, fun hm => ?_, fun _ => ⟨hout, name, by simp [hp]⟩, fun hm => ?_,
    fun queue hq => ?_⟩
  · rw [hrej] at hm
    cases hm
  · rw [hrej] at hm
    cases hm
  · simp [hrej] at hq

theorem Inv.start (ht : t.Layered) (s : State) (layer : Nat)
    (hearlier : ∀ name, t.layerOf name < layer → s.phase name = .healthy)
    (hlater : ∀ name, layer ≤ t.layerOf name → s.phase name = .notStarted)
    (hmode : s.mode = .running) (hexec : s.executed = (t.executionOrder.take layer).flatten)
    (hout : s.outcomes = []) : Inv t (s.start t layer) := by
  have hphase := start_phase ht s layer
  have hlayer : (s.start t layer).layer = layer := by
    rw [State.start]
    split <;> rfl
  have hframe : ∀ name, t.layerOf name ≠ layer → (s.start t layer).phase name = s.phase name :=
    fun name hne => (hphase name).resolve_right fun h => hne h.1
  refine ⟨?_, ?_, fun hrun => ?_, fun hrej => ?_, fun hsucc => ?_, fun queue hq => ?_⟩
  · intro name hlt
    rw [hlayer] at hlt
    rw [hframe name (Nat.ne_of_lt hlt), hearlier name hlt]
  · intro name hgt
    rw [hlayer] at hgt
    rw [hframe name (Nat.ne_of_gt hgt), hlater name (Nat.le_of_lt hgt)]
  · have hnone : ∀ name, ((s.start t layer).phase name).rejected = false := by
      intro name
      rcases hphase name with h | ⟨-, h⟩
      · rcases Nat.lt_or_ge (t.layerOf name) layer with hlt | hge
        · rw [h, hearlier name hlt]
          rfl
        · rw [h, hlater name hge]
          rfl
      · rw [h]
        rfl
    refine ⟨?_, ?_, ?_, hnone⟩
    all_goals rw [State.start] at hrun ⊢; split at hrun
    all_goals first | cases hrun | simp_all
  · rw [State.start] at hrej
    split at hrej
    · rw [hmode] at hrej
      cases hrej
    · cases hrej
  · rw [State.start] at hsucc ⊢
    split at hsucc
    · rw [hmode] at hsucc
      cases hsucc
    next hge =>
      rw [if_neg hge]
      have hend : ∀ name, s.phase name = .healthy ∨ s.phase name = .notStarted := fun name =>
        (Nat.lt_or_ge (t.layerOf name) layer).imp (hearlier name) (hlater name)
      refine ⟨hout, fun name => (hend name).imp_left fun h => by rw [h]; rfl, fun name hname => ?_⟩
      have hfailing : (s.phase name).failing := by simpa using List.find?_some hname
      rcases hend name with h | h <;> simp [h, Phase.failing] at hfailing
  · rw [State.start] at hq
    split at hq
    · simp [hmode] at hq
    · simp at hq

theorem Inv.settled_or (H : Inv t s) (hlt : s.layer < t.executionOrder.length)
    (hsettled : ∀ name ∈ t.group s.layer, (s.phase name).settled) (name : String) :
    (s.phase name).settled ∨ s.phase name = .notStarted := by
  rcases Nat.lt_trichotomy (t.layerOf name) s.layer with hn | hn | hn
  · exact .inl (by rw [H.earlier name hn]; rfl)
  · exact .inl (hsettled name (mem_group_of_layerOf hn hlt))
  · exact .inr (H.later name hn)

/-- Once the layer that runs has settled, `executed` gets its healthy services. -/
theorem Inv.mem_executed (ht : t.Layered) (H : Inv t s) (hmode : s.mode = .running)
    (name : String) :
    name ∈ s.executed ++ (t.group s.layer).filter (s.phase · = .healthy) ↔
      s.phase name = .healthy := by
  obtain ⟨hlt, hexec, -⟩ := H.running hmode
  rw [hexec, List.mem_append, mem_take_flatten ht, List.mem_filter, decide_eq_true_eq]
  constructor
  · rintro (⟨hn, -⟩ | ⟨-, hn⟩)
    · exact H.earlier name hn
    · exact hn
  · intro hn
    rcases Nat.lt_trichotomy (t.layerOf name) s.layer with hlt' | heq | hgt
    · exact .inl ⟨hlt', hlt'.trans hlt⟩
    · exact .inr ⟨mem_group_of_layerOf heq hlt, hn⟩
    · rw [H.later name hgt] at hn
      cases hn

theorem Inv.settle (ht : t.Layered) (H : Inv t s) (hmode : s.mode = .running)
    (hsettled : ∀ name ∈ t.group s.layer, (s.phase name).settled) : Inv t (s.settle t) := by
  obtain ⟨hlt, hexec, hout, -⟩ := H.running hmode
  have hquiet := H.settled_or hlt hsettled
  rw [State.settle]
  split
  next failedServiceName hfind =>
    have hfirst := failedServiceName_of_group ht hlt H.earlier hfind
    split
    next hempty =>
      refine ⟨H.earlier, H.later, (nomatch ·), (nomatch ·), fun _ => ⟨hout, hquiet, ?_⟩,
        fun queue hq => by simp at hq⟩
      intro name hname
      exact (Option.some.inj (hname.symm.trans hfirst)).trans hempty
    next hne =>
      refine ⟨H.earlier, H.later, (nomatch ·), (nomatch ·), (nomatch ·), fun queue hq => ?_⟩
      obtain rfl : _ = queue := by simpa using hq
      refine ⟨hquiet, H.mem_executed ht hmode, ?_, by simp [hout], fun hnil => ?_⟩
      · rw [hexec]
        refine .trans ?_ (take_flatten_sublist (s.layer + 1))
        rw [take_succ_flatten hlt]
        exact (List.Sublist.refl _).append List.filter_sublist
      · exact hne (Option.some.inj (hfirst.symm.trans hnil))
  next hnone =>
    have hhealthy : ∀ name ∈ t.group s.layer, s.phase name = .healthy := by
      intro name hname
      have hset := hsettled name hname
      have hnot := List.find?_eq_none.mp hnone name hname
      cases hp : s.phase name <;> simp_all [Phase.settled, Phase.failing]
    have hfilter : (t.group s.layer).filter (s.phase · = .healthy) = t.group s.layer :=
      List.filter_eq_self.mpr fun name hname => decide_eq_true (hhealthy name hname)
    apply Inv.start ht
    · intro name hn
      rcases Nat.lt_succ_iff_lt_or_eq.mp hn with hn | hn
      · exact H.earlier name hn
      · exact hhealthy name (mem_group_of_layerOf hn hlt)
    · exact fun name hn => H.later name hn
    · exact hmode
    · dsimp only
      rw [hfilter, hexec, take_succ_flatten hlt]
    · exact hout

theorem Inv.init (ht : t.Layered) : Inv t (init t) := by
  rw [Orchestrator.init]
  split
  · refine ⟨fun name h => absurd h (Nat.not_lt_zero _), fun _ _ => rfl, (nomatch ·), (nomatch ·),
      (nomatch ·), fun queue hq => ?_⟩
    obtain rfl : queue = [] := by simpa using hq
    refine ⟨fun _ => .inr rfl, fun name => by simp, List.nil_sublist _, rfl, fun hname => ?_⟩
    cases List.find?_some hname
  · apply Inv.start ht
    · exact fun name h => absurd h (Nat.not_lt_zero _)
    · exact fun _ _ => rfl
    · rfl
    · rfl
    · rfl

theorem next_rolledBack (h : next t waits s (.rolledBack name outcome) = some s') :
    ∃ queue, s.mode = .rollingBack (name :: queue) ∧
      s' = { s with mode := .rollingBack queue, outcomes := s.outcomes ++ [(name, outcome)] } := by
  simp only [next] at h
  split at h
  next first queue hmode =>
    obtain ⟨rfl, ⟨⟩⟩ := Option.ite_none_right_eq_some.mp h
    exact ⟨queue, hmode, rfl⟩
  next => cases h

theorem Inv.step (ht : t.Layered) (h : next t waits s e = some s') (H : Inv t s) : Inv t s' := by
  cases e with
  | deployed name success =>
    obtain ⟨hphase, ⟨⟩⟩ := Option.ite_none_right_eq_some.mp h
    exact H.setPhase (.inl hphase) (by cases success <;> cases waits <;> rfl)
  | deployRejected name =>
    obtain ⟨hphase, ⟨⟩⟩ := Option.ite_none_right_eq_some.mp h
    exact H.reject (.inl hphase) rfl
  | health name healthy =>
    obtain ⟨hphase, ⟨⟩⟩ := Option.ite_none_right_eq_some.mp h
    exact H.setPhase (.inr hphase) (by cases healthy <;> rfl)
  | healthRejected name =>
    obtain ⟨hphase, ⟨⟩⟩ := Option.ite_none_right_eq_some.mp h
    exact H.reject (.inr hphase) rfl
  | settle =>
    obtain ⟨⟨hmode, hsettled⟩, ⟨⟩⟩ := Option.ite_none_right_eq_some.mp h
    exact H.settle ht hmode hsettled
  | rolledBack name outcome =>
    obtain ⟨queue, hmode, rfl⟩ := next_rolledBack h
    obtain ⟨hquiet, hexec, hsub, hout, hname⟩ := H.ended _ (.inl hmode)
    refine ⟨H.earlier, H.later, (nomatch ·), (nomatch ·), (nomatch ·), fun queue' hq => ?_⟩
    obtain rfl : queue = queue' := by simpa using hq
    exact ⟨hquiet, hexec, hsub, by simpa using hout, hname⟩
  | complete =>
    obtain ⟨hmode, ⟨⟩⟩ := Option.ite_none_right_eq_some.mp h
    refine ⟨H.earlier, H.later, (nomatch ·), (nomatch ·), (nomatch ·), fun queue hq => ?_⟩
    obtain rfl : queue = [] := by simpa using hq
    exact H.ended [] (.inl hmode)

/-- When the promise of `executeOrdered` is resolved, every call has settled. -/
theorem Inv.next_eq_none (H : Inv t s) (hmode : s.mode = .succeeded ∨ s.mode = .failed)
    (e : Event) : next t waits s e = none := by
  have hrest : ∀ name, ¬(s.phase name = .deploying ∨ s.phase name = .checking) := by
    intro name h
    rcases hmode with hm | hm <;> simpa [hm] using (H.inFlight h).2
  cases e with
  | deployed name | deployRejected name => exact if_neg fun h => hrest name (.inl h)
  | health name | healthRejected name => exact if_neg fun h => hrest name (.inr h)
  | _ => rcases hmode with hm | hm <;> simp [next, hm]

/-- Success is reported of a failed service only if its name is empty. -/
theorem Inv.failedServiceName_of_succeeded (ht : t.Layered) (H : Inv t s)
    (hmode : s.mode = .succeeded)
    (hfail : ∃ service ∈ t.services, (s.phase service.name).failing) :
    s.failedServiceName t = some "" := by
  obtain ⟨service, hmem, hfail⟩ := hfail
  have hflat : service.name ∈ t.executionOrder.flatten :=
    ht.perm.mem_iff.mpr (List.mem_map_of_mem hmem)
  obtain ⟨name, hname⟩ := Option.isSome_iff_exists.mp
    (List.find?_isSome.mpr ⟨_, hflat, hfail⟩ : (s.failedServiceName t).isSome)
  exact (H.succeeded hmode).2.2 name hname ▸ hname

/-! ## The answers along a run -/

/-- The service that an answer is about. -/
def Event.about : Event → Option String
  | .deployed name _ | .deployRejected name | .health name _ | .healthRejected name => some name
  | _ => none

/-- The first service of the execution order that was not deployed or is unhealthy. -/
def ServiceTopology.failedServiceName (t : ServiceTopology) (es : List Event) : Option String :=
  t.executionOrder.flatten.find? fun name => .deployed name false ∈ es ∨ .health name false ∈ es

/-- What a step does to the phase of one service. -/
inductive Moves (waits : Bool) (name : String) : Event → Phase → Phase → Prop
  | deployed (success : Bool) : Moves waits name (.deployed name success) .deploying
      (if success then if waits then .checking else .healthy else .failed)
  | deployRejected : Moves waits name (.deployRejected name) .deploying .deployRejected
  | health (healthy : Bool) : Moves waits name (.health name healthy) .checking
      (if healthy then .healthy else .unhealthy)
  | healthRejected : Moves waits name (.healthRejected name) .checking .healthRejected
  | start : Moves waits name .settle .notStarted .deploying
  | stay (h : e.about ≠ some name) : Moves waits name e p p

theorem moves_of_next (ht : t.Layered) (h : next t waits s e = some s') (H : Inv t s)
    (name : String) : Moves waits name e (s.phase name) (s'.phase name) := by
  cases e with
  | deployed name' success =>
    obtain ⟨hphase, ⟨⟩⟩ := Option.ite_none_right_eq_some.mp h
    rw [setPhase_phase]
    split
    next heq =>
      rw [heq, hphase]
      exact .deployed success
    next hne => exact .stay fun habout => hne (Option.some.inj habout).symm
  | deployRejected name' =>
    obtain ⟨hphase, ⟨⟩⟩ := Option.ite_none_right_eq_some.mp h
    rw [reject_phase, setPhase_phase]
    split
    next heq =>
      rw [heq, hphase]
      exact .deployRejected
    next hne => exact .stay fun habout => hne (Option.some.inj habout).symm
  | health name' healthy =>
    obtain ⟨hphase, ⟨⟩⟩ := Option.ite_none_right_eq_some.mp h
    rw [setPhase_phase]
    split
    next heq =>
      rw [heq, hphase]
      exact .health healthy
    next hne => exact .stay fun habout => hne (Option.some.inj habout).symm
  | healthRejected name' =>
    obtain ⟨hphase, ⟨⟩⟩ := Option.ite_none_right_eq_some.mp h
    rw [reject_phase, setPhase_phase]
    split
    next heq =>
      rw [heq, hphase]
      exact .healthRejected
    next hne => exact .stay fun habout => hne (Option.some.inj habout).symm
  | settle =>
    obtain ⟨-, ⟨⟩⟩ := Option.ite_none_right_eq_some.mp h
    rcases settle_phase ht s name with h | ⟨hlayer, h⟩
    · rw [h]
      exact .stay (nomatch ·)
    · rw [H.later name (by omega), h]
      exact .start
  | rolledBack name' outcome =>
    obtain ⟨queue, -, rfl⟩ := next_rolledBack h
    exact .stay (nomatch ·)
  | complete =>
    obtain ⟨-, ⟨⟩⟩ := Option.ite_none_right_eq_some.mp h
    exact .stay (nomatch ·)

theorem Event.ne_of_about {e : Event} (h : e.about ≠ some name) (e' : Event)
    (h' : e'.about = some name) : e ≠ e' :=
  fun heq => h (heq ▸ h')

theorem Moves.deployed_iff (h : Moves waits name e p p') :
    p'.deployed ↔ p.deployed ∨ e = .deployed name true := by
  cases h with
  | deployed success => cases success <;> cases waits <;> simp [Phase.deployed]
  | health healthy => cases healthy <;> simp [Phase.deployed]
  | stay h => simp [Event.ne_of_about h (.deployed name true) rfl]
  | _ => simp [Phase.deployed]

theorem Moves.unhealthy_iff (h : Moves waits name e p p') :
    p' = .unhealthy ↔ p = .unhealthy ∨ e = .health name false := by
  cases h with
  | deployed success => cases success <;> cases waits <;> simp
  | health healthy => cases healthy <;> simp
  | stay h => simp [Event.ne_of_about h (.health name false) rfl]
  | _ => simp

theorem Moves.failed_iff (h : Moves waits name e p p') :
    p' = .failed ↔ p = .failed ∨ e = .deployed name false := by
  cases h with
  | deployed success => cases success <;> cases waits <;> simp
  | health healthy => cases healthy <;> simp
  | stay h => simp [Event.ne_of_about h (.deployed name false) rfl]
  | _ => simp

theorem Moves.deployRejected_iff (h : Moves waits name e p p') :
    p' = .deployRejected ↔ p = .deployRejected ∨ e = .deployRejected name := by
  cases h with
  | deployed success => cases success <;> cases waits <;> simp
  | health healthy => cases healthy <;> simp
  | stay h => simp [Event.ne_of_about h (.deployRejected name) rfl]
  | _ => simp

theorem Moves.rejected_iff (h : Moves waits name e p p') :
    p'.rejected ↔ p.rejected ∨ (e = .deployRejected name ∨ e = .healthRejected name) := by
  cases h with
  | deployed success => cases success <;> cases waits <;> simp [Phase.rejected]
  | health healthy => cases healthy <;> simp [Phase.rejected]
  | stay h =>
    simp [Event.ne_of_about h (.deployRejected name) rfl,
      Event.ne_of_about h (.healthRejected name) rfl]
  | _ => simp [Phase.rejected]

/-- A call that is started stays so. -/
theorem Moves.started (h : Moves waits name e p p') (hp : p ≠ .notStarted) : p' ≠ .notStarted := by
  cases h with
  | deployed success => cases success <;> cases waits <;> simp
  | health healthy => cases healthy <;> simp
  | stay => exact hp
  | start => exact absurd rfl hp
  | _ => simp

theorem init_phase (ht : t.Layered) (name : String) :
    (init t).phase name = .notStarted ∨ (init t).phase name = .deploying := by
  rw [init]
  split
  · exact .inl rfl
  · exact (start_phase ht {} 0 name).imp_right (·.2)

theorem start_outcomes (s : State) (layer : Nat) : (s.start t layer).outcomes = s.outcomes := by
  rw [State.start]
  split <;> rfl

theorem settle_outcomes (s : State) : (s.settle t).outcomes = s.outcomes := by
  rw [State.settle]
  split
  · split <;> rfl
  · exact start_outcomes ..

/-- Only the answer of `rollbackService` is recorded as an outcome. -/
theorem outcomes_of_next (h : next t waits s e = some s') (name : String)
    (outcome : RollbackOutcome) :
    (name, outcome) ∈ s'.outcomes ↔
      (name, outcome) ∈ s.outcomes ∨ e = .rolledBack name outcome := by
  cases e with
  | rolledBack name' outcome' =>
    obtain ⟨queue, -, rfl⟩ := next_rolledBack h
    simp [eq_comm]
  | settle =>
    obtain ⟨-, ⟨⟩⟩ := Option.ite_none_right_eq_some.mp h
    simp [settle_outcomes]
  | _ =>
    obtain ⟨-, ⟨⟩⟩ := Option.ite_none_right_eq_some.mp h
    simp [State.setPhase, State.reject]

/-- The promise of `executeOrdered` is settled once. -/
theorem mode_of_finished (h : next t waits s e = some s') (hs : s.mode.finished) :
    s'.mode = s.mode := by
  cases e with
  | settle =>
    obtain ⟨⟨hmode, -⟩, -⟩ := Option.ite_none_right_eq_some.mp h
    rw [hmode] at hs
    cases hs
  | rolledBack name outcome =>
    obtain ⟨queue, hmode, -⟩ := next_rolledBack h
    rw [hmode] at hs
    cases hs
  | complete =>
    obtain ⟨hmode, -⟩ := Option.ite_none_right_eq_some.mp h
    rw [hmode] at hs
    cases hs
  | deployed | health =>
    obtain ⟨-, ⟨⟩⟩ := Option.ite_none_right_eq_some.mp h
    rfl
  | deployRejected | healthRejected =>
    obtain ⟨-, ⟨⟩⟩ := Option.ite_none_right_eq_some.mp h
    refine if_neg fun hmode => ?_
    rw [show s.mode = .running from hmode] at hs
    cases hs

theorem preserves_inv (ht : t.Layered) : Preserves (Fires (next t waits)) (Inv t) :=
  fun _ _ _ hs H => H.step ht hs

section Run
variable {s : State} (ht : t.Layered) (h : Run (Fires (next t waits)) (init t) es s)
include ht h

theorem inv_of_run : Inv t s :=
  h.invariant (preserves_inv ht) (.init ht)

theorem deployed_iff (name : String) : (s.phase name).deployed ↔ .deployed name true ∈ es := by
  have hstart : ¬((init t).phase name).deployed := by
    rcases init_phase ht name with h | h <;> simp [h, Phase.deployed]
  have := h.iff_exists_mem (p := fun s : State => (s.phase name).deployed)
    (.init ht) (preserves_inv ht) fun _ _ _ hs H => (moves_of_next ht hs H name).deployed_iff
  simpa [hstart] using this

theorem failed_iff (name : String) : s.phase name = .failed ↔ .deployed name false ∈ es := by
  have hstart : ¬(init t).phase name = .failed := by
    rcases init_phase ht name with h | h <;> simp [h]
  have := h.iff_exists_mem (p := fun s : State => s.phase name = .failed)
    (.init ht) (preserves_inv ht) fun _ _ _ hs H => (moves_of_next ht hs H name).failed_iff
  simpa [hstart] using this

theorem deployRejected_iff (name : String) :
    s.phase name = .deployRejected ↔ .deployRejected name ∈ es := by
  have hstart : ¬(init t).phase name = .deployRejected := by
    rcases init_phase ht name with h | h <;> simp [h]
  have := h.iff_exists_mem (p := fun s : State => s.phase name = .deployRejected)
    (.init ht) (preserves_inv ht) fun _ _ _ hs H => (moves_of_next ht hs H name).deployRejected_iff
  simpa [hstart] using this

theorem unhealthy_iff (name : String) : s.phase name = .unhealthy ↔ .health name false ∈ es := by
  have hstart : ¬(init t).phase name = .unhealthy := by
    rcases init_phase ht name with h | h <;> simp [h]
  have := h.iff_exists_mem (p := fun s : State => s.phase name = .unhealthy)
    (.init ht) (preserves_inv ht) fun _ _ _ hs H => (moves_of_next ht hs H name).unhealthy_iff
  simpa [hstart] using this

theorem rejected_iff (name : String) :
    (s.phase name).rejected ↔ .deployRejected name ∈ es ∨ .healthRejected name ∈ es := by
  have hstart : ¬((init t).phase name).rejected := by
    rcases init_phase ht name with h | h <;> simp [h, Phase.rejected]
  have := h.iff_exists_mem (p := fun s : State => (s.phase name).rejected)
    (.init ht) (preserves_inv ht) fun _ _ _ hs H => (moves_of_next ht hs H name).rejected_iff
  simpa [hstart, and_or_left, exists_or] using this

/-! ## Atomic rollback -/

/-- Every service whose `deployService` returned success has had one rollback attempt, the
attempts follow the execution order backwards, and no service of a layer after a failing one was
started. -/
structure AtomicRollback (t : ServiceTopology) (es : List Event) (s : State) : Prop where
  attempted : ∀ name, .deployed name true ∈ es → (s.outcomes.map (·.1)).count name = 1
  order : (s.outcomes.map (·.1)).reverse.Sublist t.executionOrder.flatten
  notStarted : ∀ name name', (s.phase name).failing ∨ (s.phase name).rejected →
    t.layerOf name < t.layerOf name' → s.phase name' = .notStarted

omit ht h in
theorem notStarted_of_failing (H : Inv t s)
    (h : (s.phase name).failing ∨ (s.phase name).rejected)
    (hlt : t.layerOf name < t.layerOf name') : s.phase name' = .notStarted := by
  apply H.later
  by_contra hle
  have hearlier := H.earlier name (by omega)
  simp [hearlier, Phase.failing, Phase.rejected] at h

omit h in
/-- After a failure, each healthy service had one rollback attempt, and no other service had one. -/
theorem outcomes_of_failed (H : Inv t s) (hmode : s.mode = .failed) :
    (s.outcomes.map (·.1)).Nodup ∧
      ∀ name, name ∈ s.outcomes.map (·.1) ↔ s.phase name = .healthy := by
  obtain ⟨-, hexec, hsub, hout, -⟩ := H.ended [] (.inr ⟨hmode, rfl⟩)
  rw [List.append_nil] at hout
  rw [hout]
  refine ⟨List.nodup_reverse.mpr (hsub.nodup (ht.perm.nodup_iff.mpr ht.nodup)), fun name => ?_⟩
  rw [List.mem_reverse, hexec]

omit h in
theorem count_outcomes (H : Inv t s) (hmode : s.mode = .failed) (name : String) :
    (s.outcomes.map (·.1)).count name = if s.phase name = .healthy then 1 else 0 := by
  obtain ⟨hnodup, hmem⟩ := outcomes_of_failed ht H hmode
  rw [hnodup.count]
  simp only [hmem]

end Run

/-- `executeOrdered` rolls back atomically exactly when no deployed service is unhealthy and, if a
callback rejects, none is deployed. -/
theorem atomicRollback_iff (hb : buildTopology services = .ok t)
    (h : Run (Fires (next t waits)) (init t) es s)
    (hend : s.mode = .failed ∨ s.mode = .rejected) :
    AtomicRollback t es s ↔ (∀ name, .health name false ∉ es) ∧
      ((∃ name, .deployRejected name ∈ es ∨ .healthRejected name ∈ es) →
        ∀ name, .deployed name true ∉ es) := by
  have ht := (buildTopology_layered hb).2
  have H := inv_of_run ht h
  constructor
  · intro hA
    have hcount : ∀ name, .deployed name true ∈ es →
        s.mode = .failed ∧ s.phase name = .healthy := by
      intro name hname
      have hone := hA.attempted name hname
      rcases hend with hmode | hmode
      · rw [count_outcomes ht H hmode] at hone
        exact ⟨hmode, by_contra fun hne => by simp [hne] at hone⟩
      · rw [(H.rejected hmode).1] at hone
        cases hone
    refine ⟨fun name hname => ?_, fun ⟨name', hrej⟩ name hname => ?_⟩
    · have hun := (unhealthy_iff ht h name).mpr hname
      have hdep := (deployed_iff ht h name).mp (by rw [hun]; rfl)
      rw [(hcount name hdep).2] at hun
      cases hun
    · have hrej := (rejected_iff ht h name').mpr hrej
      rcases (H.ended [] (.inr ⟨(hcount name hname).1, rfl⟩)).1 name' with hset | hnot
      · cases hp : s.phase name' <;> simp_all [Phase.settled, Phase.rejected]
      · rw [hnot] at hrej
        cases hrej
  · intro ⟨hhealth, hrej⟩
    refine ⟨fun name hname => ?_, ?_, fun name name' => notStarted_of_failing H⟩
    · have hdep := (deployed_iff ht h name).mpr hname
      have hun : s.phase name ≠ .unhealthy := fun hp =>
        hhealth name ((unhealthy_iff ht h name).mp hp)
      rcases hend with hmode | hmode
      · rw [count_outcomes ht H hmode, if_pos]
        rcases (H.ended [] (.inr ⟨hmode, rfl⟩)).1 name with hset | hnot
        · cases hp : s.phase name <;> simp_all [Phase.settled, Phase.deployed]
        · rw [hnot] at hdep
          cases hdep
      · obtain ⟨name', hr⟩ := (H.rejected hmode).2
        exact absurd hname (hrej ⟨name', (rejected_iff ht h name').mp hr⟩ name)
    · rcases hend with hmode | hmode
      · obtain ⟨-, -, hsub, hout, -⟩ := H.ended [] (.inr ⟨hmode, rfl⟩)
        rw [List.append_nil] at hout
        rw [hout, List.reverse_reverse]
        exact hsub
      · rw [(H.rejected hmode).1]
        exact List.nil_sublist _

def webOnDatabase : ServiceTopology where
  services := [⟨"db", []⟩, ⟨"web", ["db"]⟩]
  executionOrder := [["db"], ["web"]]

/-- The failure of `web` rolls `db` back. -/
theorem atomicRollback_webFailed :
    ∃ es s, Run (Fires (next webOnDatabase true)) (init webOnDatabase) es s ∧
      s.mode = .failed ∧ AtomicRollback webOnDatabase es s := by
  have hb : buildTopology webOnDatabase.services = .ok webOnDatabase := by decide
  have hrun : Run (Fires (next webOnDatabase true)) (init webOnDatabase)
      [.deployed "db" true, .health "db" true, .settle, .deployed "web" false, .settle,
        .rolledBack "db" .rolled_back, .complete] _ := Run.of_exec rfl
  exact ⟨_, _, hrun, rfl, (atomicRollback_iff hb hrun (.inl rfl)).mpr ⟨by simp, by simp⟩⟩

/-- A service that is unhealthy after its deployment is left as it is. -/
theorem unhealthy_not_rolled_back :
    buildTopology webOnDatabase.services = .ok webOnDatabase ∧
      ∃ es s, Run (Fires (next webOnDatabase true)) (init webOnDatabase) es s ∧
        s.mode = .failed ∧ ¬AtomicRollback webOnDatabase es s := by
  have hrun : Run (Fires (next webOnDatabase true)) (init webOnDatabase)
      [.deployed "db" true, .health "db" false, .settle, .complete] _ := Run.of_exec rfl
  refine ⟨by decide, _, _, hrun, rfl, fun h => ?_⟩
  have hone := h.attempted "db" (by simp)
  revert hone
  decide

end OpenLander.Orchestrator
