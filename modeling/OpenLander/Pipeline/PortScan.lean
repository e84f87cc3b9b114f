import OpenLander.Pipeline.Port
import OpenLander.Theory.Run

/-! # The scan of the used ports

`allocatePort` takes the ports in use from a scan of the database, of Docker and of the operating
system, one after another, or from the last scan if that began less than a second ago; it then looks at
the reserved ports, chooses a port and reserves it in one step. A reservation is released once the
container is bound to the port and the database has it, from when on the scan has to keep the port from
being given again.

Calls of `allocatePort`, the steps of those that were given a port, and the clock go on in any order. A
scan that was taken before the database had a port may be used after the reservation of the port is
released, and then the port is given twice (`not_free_returned`). Where the releases wait for such
scans, and nobody releases what another call has reserved, it is given only once
(`free_of_admitted`). -/

namespace OpenLander.Pipeline.PortScan
open Theory

def PORT_SCAN_CACHE_TTL_MS : Nat := 1000

/-- How far the owner of a port has come. -/
inductive Stage
  | reserved
  /-- The container is bound to the port. -/
  | bound
  /-- The database has the port. -/
  | recorded
  | released
  deriving DecidableEq, Repr

inductive Call
  | idle
  /-- Before the database is read, with the time at which the scan began. -/
  | querying (timestamp : Nat)
  /-- Before the containers are listed. -/
  | listing (timestamp : Nat) (found : List Nat)
  /-- Before the operating system is asked. -/
  | probing (timestamp : Nat) (found : List Nat)
  /-- With the result of `scanUsedPorts`. -/
  | scanned (found : List Nat)
  /-- With the port that `allocatePort` returned, and whether the container runs. -/
  | owner (port : Nat) (stage : Stage) (running : Bool)
  deriving DecidableEq, Repr

/-- The ports of a scan that has read the database. -/
def Call.found : Call → Option (List Nat)
  | .listing _ found => some found
  | .probing _ found => some found
  | .scanned found => some found
  | _ => none

structure State (ι : Type) where
  now : Nat
  /-- The last scan and the time at which it began. -/
  portScanCache : Option (List Nat × Nat)
  reservedPorts : Finset Nat
  /-- The ports of `getUsedPorts`. -/
  rows : List Nat
  /-- The ports of the containers that run. -/
  bound : List Nat
  calls : ι → Call

inductive Event (ι : Type)
  | elapse (ms : Nat)
  | allocatePort (i : ι)
  | readDatabase (i : ι) (ok : Bool)
  /-- With the ports of containers that no call owns, unless Docker fails. -/
  | listContainers (i : ι) (others : Option (List Nat))
  /-- With the ports of other processes, unless the command fails. -/
  | scanOSPorts (i : ι) (others : Option (List Nat))
  | choose (i : ι) (options : AllocatePortOptions)
  | bind (i : ι)
  | record (i : ι)
  | releasePortReservation (i : ι)
  /-- Whether the row of the port goes with the container. -/
  | stop (i : ι) (clearsRow : Bool)
  deriving DecidableEq, Repr

namespace State

variable {ι : Type} [DecidableEq ι]

def init : State ι := ⟨0, none, ∅, [], [], fun _ => .idle⟩

def set (s : State ι) (i : ι) (call : Call) : State ι :=
  { s with calls := Function.update s.calls i call }

/-- The scan that `scanUsedPorts` does not repeat. -/
def cached (s : State ι) : Option (List Nat) :=
  match s.portScanCache with
  | some (found, timestamp) =>
    if s.now - timestamp < PORT_SCAN_CACHE_TTL_MS then some found else none
  | none => none

/-- What is seen of the containers that run, where it is seen. -/
def seen (s : State ι) : Option (List Nat) → List Nat
  | some others => s.bound ++ others
  | none => []

def next (s : State ι) : Event ι → Option (State ι)
  | .elapse ms => some { s with now := s.now + ms }
  | .allocatePort i =>
    match s.calls i, s.cached with
    | .idle, some found => some (s.set i (.scanned found))
    | .idle, none => some (s.set i (.querying s.now))
    | _, _ => none
  | .readDatabase i ok =>
    match s.calls i with
    | .querying timestamp => some (s.set i (if ok then .listing timestamp s.rows else .idle))
    | _ => none
  | .listContainers i others =>
    match s.calls i with
    | .listing timestamp found => some (s.set i (.probing timestamp (found ++ s.seen others)))
    | _ => none
  | .scanOSPorts i others =>
    match s.calls i with
    | .probing timestamp found =>
      let all := found ++ s.seen others
      some { s.set i (.scanned all) with portScanCache := some (all, timestamp) }
    | _ => none
  | .choose i options =>
    match s.calls i with
    | .scanned found =>
      match choosePort options found s.reservedPorts with
      | some port =>
        some { s.set i (.owner port .reserved false) with
               reservedPorts := insert port s.reservedPorts }
      | none => some (s.set i .idle)
    | _ => none
  | .bind i =>
    match s.calls i with
    | .owner port .reserved false =>
      some { s.set i (.owner port .bound true) with bound := port :: s.bound }
    | _ => none
  | .record i =>
    match s.calls i with
    | .owner port .bound running =>
      some { s.set i (.owner port .recorded running) with rows := port :: s.rows }
    | _ => none
  | .releasePortReservation i =>
    match s.calls i with
    | .owner port .recorded running | .owner port .released running =>
      some { s.set i (.owner port .released running) with
             reservedPorts := s.reservedPorts.erase port }
    | _ => none
  | .stop i clearsRow =>
    match s.calls i with
    | .owner port stage true =>
      some { s.set i (.owner port stage false) with
             bound := s.bound.erase port
             rows := if clearsRow then s.rows.erase port else s.rows }
    | _ => none

/-- The call has reserved the port and not released it. -/
def Reserves (s : State ι) (i : ι) (port : Nat) : Prop :=
  ∃ stage running, s.calls i = .owner port stage running ∧ stage ≠ .released

/-- The container of the call is bound to the port that it was given. -/
def Binds (s : State ι) (i : ι) (port : Nat) : Prop :=
  ∃ stage, s.calls i = .owner port stage true

/-- The port is the call's: it has reserved it, or its container is bound to it. -/
def Has (s : State ι) (i : ι) (port : Nat) : Prop := s.Reserves i port ∨ s.Binds i port

/-- The port is kept from being given again by scans alone. -/
def Uncovered (s : State ι) (port : Nat) : Prop :=
  ∃ i, s.calls i = .owner port .released true

/-- A release waits for the scans that do not have the port of a container that runs, and is no
release of what another call has reserved; an old scan is used only if it has the ports that are
released since. -/
def Admits (s : State ι) : Event ι → Prop
  | .allocatePort _ => ∀ found, s.cached = some found → ∀ port, s.Uncovered port → port ∈ found
  | .releasePortReservation i => ∀ port stage running, s.calls i = .owner port stage running →
      (∀ j, j ≠ i → ¬s.Reserves j port) ∧
        (running = true → ∀ j found, (s.calls j).found = some found → port ∈ found)
  | _ => True

/-! ## The invariant -/

/-- Who has what, and what keeps it. -/
structure Inv (s : State ι) : Prop where
  reserved : ∀ i port, s.Reserves i port → port ∈ s.reservedPorts
  row : ∀ i port stage, s.calls i = .owner port stage true →
    stage = .recorded ∨ stage = .released → port ∈ s.rows
  covered : ∀ port, s.Uncovered port → ∀ j found, (s.calls j).found = some found → port ∈ found
  exclusive : ∀ i j port, s.Has i port → s.Has j port → i = j

variable {s : State ι} {c : Call}

omit [DecidableEq ι] in
theorem Inv.init : (init : State ι).Inv where
  reserved i port h := by
    obtain ⟨stage, running, hcall, -⟩ := h
    cases hcall
  row i port stage hcall := nomatch hcall
  covered port h := by
    obtain ⟨i, hcall⟩ := h
    cases hcall
  exclusive i j port h := by
    obtain ⟨stage, running, hcall, -⟩ | ⟨stage, hcall⟩ := h <;> cases hcall

omit [DecidableEq ι] in
theorem has_iff : s.Has i port ↔
    ∃ stage running, s.calls i = .owner port stage running ∧ (stage ≠ .released ∨ running = true) := by
  constructor
  · intro h
    obtain ⟨stage, running, hcall, hstage⟩ | ⟨stage, hcall⟩ := h
    · exact ⟨stage, running, hcall, .inl hstage⟩
    · exact ⟨stage, true, hcall, .inr rfl⟩
  · intro ⟨stage, running, hcall, hor⟩
    obtain hstage | rfl := hor
    · exact .inl ⟨stage, running, hcall, hstage⟩
    · exact .inr ⟨stage, hcall⟩

/-- A call that has no port comes to another such state. -/
theorem Inv.scan (h : s.Inv) {s' : State ι} (hcalls : s'.calls = Function.update s.calls i c)
    (hreserved : s'.reservedPorts = s.reservedPorts) (hrows : s'.rows = s.rows)
    (hbefore : ∀ port stage running, s.calls i ≠ .owner port stage running)
    (hafter : ∀ port stage running, c ≠ .owner port stage running)
    (hfound : ∀ found, c.found = some found → ∀ port, s.Uncovered port → port ∈ found) : s'.Inv := by
  have howner : ∀ j port stage running,
      s'.calls j = .owner port stage running ↔ s.calls j = .owner port stage running := by
    intro j port stage running
    rw [hcalls]
    by_cases hji : j = i
    · subst hji
      simp [hbefore, hafter]
    · rw [Function.update_of_ne hji]
  have huncovered : ∀ port, s'.Uncovered port ↔ s.Uncovered port := by
    intro port
    simp only [Uncovered, howner]
  refine ⟨fun j port hj => ?_, fun j port stage hj => ?_, fun port hport j found hj => ?_,
    fun j k port hj hk => ?_⟩
  · obtain ⟨stage, running, hcall, hstage⟩ := hj
    rw [hreserved]
    exact h.reserved j port ⟨stage, running, (howner ..).mp hcall, hstage⟩
  · rw [hrows]
    exact h.row j port stage ((howner ..).mp hj)
  · rw [hcalls] at hj
    by_cases hji : j = i
    · subst hji
      rw [Function.update_self] at hj
      exact hfound found hj port ((huncovered port).mp hport)
    · rw [Function.update_of_ne hji] at hj
      exact h.covered port ((huncovered port).mp hport) j found hj
  · simp only [has_iff, howner] at hj hk
    exact h.exclusive j k port (has_iff.mpr hj) (has_iff.mpr hk)

/-- A call is given a port, or comes to another stage with it. -/
theorem Inv.own (h : s.Inv) {s' : State ι}
    (hcalls : s'.calls = Function.update s.calls i (.owner port stage running))
    (hhas : stage ≠ .released ∨ running = true → s.Has i port ∨ ∀ j, ¬s.Has j port)
    (hreserved : stage ≠ .released → port ∈ s'.reservedPorts)
    (hothers : ∀ j port', j ≠ i → s.Reserves j port' → port' ∈ s'.reservedPorts)
    (hrow : running = true → stage = .recorded ∨ stage = .released → port ∈ s'.rows)
    (hrows : ∀ j port', j ≠ i → s.Binds j port' → port' ∈ s.rows → port' ∈ s'.rows)
    (hcovered : stage = .released → running = true → ∀ j found, (s.calls j).found = some found →
      port ∈ found) : s'.Inv := by
  have hself : s'.calls i = .owner port stage running := by
    rw [hcalls, Function.update_self]
  have hother : ∀ j, j ≠ i → s'.calls j = s.calls j := by
    intro j hji
    rw [hcalls, Function.update_of_ne hji]
  have hhas' : ∀ j port', s'.Has j port' → j = i ∧ port' = port ∧
      (stage ≠ .released ∨ running = true) ∨ j ≠ i ∧ s.Has j port' := by
    intro j port' hj
    obtain ⟨stage', running', hcall, hor⟩ := has_iff.mp hj
    by_cases hji : j = i
    · subst hji
      obtain ⟨rfl, rfl, rfl⟩ := Call.owner.inj (hself.symm.trans hcall)
      exact .inl ⟨rfl, rfl, hor⟩
    · rw [hother j hji] at hcall
      exact .inr ⟨hji, has_iff.mpr ⟨stage', running', hcall, hor⟩⟩
  have hnew : ∀ j, j ≠ i → s.Has j port → stage ≠ .released ∨ running = true → False := by
    intro j hji hj hor
    obtain hi | hnone := hhas hor
    · exact hji (h.exclusive j i port hj hi)
    · exact hnone j hj
  refine ⟨fun j port' hj => ?_, fun j port' stage' hj => ?_, fun port' hport j found hj => ?_,
    fun j k port' hj hk => ?_⟩
  · obtain ⟨stage', running', hcall, hstage⟩ := hj
    by_cases hji : j = i
    · subst hji
      obtain ⟨rfl, rfl, rfl⟩ := Call.owner.inj (hself.symm.trans hcall)
      exact hreserved hstage
    · rw [hother j hji] at hcall
      exact hothers j port' hji ⟨stage', running', hcall, hstage⟩
  · intro hstage
    by_cases hji : j = i
    · subst hji
      obtain ⟨rfl, rfl, hrunning⟩ := Call.owner.inj (hself.symm.trans hj)
      exact hrow hrunning hstage
    · rw [hother j hji] at hj
      exact hrows j port' hji ⟨stage', hj⟩ (h.row j port' stage' hj hstage)
  · obtain ⟨k, hk⟩ := hport
    have hji : j ≠ i := by
      intro heq
      rw [heq, hself] at hj
      cases hj
    rw [hother j hji] at hj
    by_cases hki : k = i
    · subst hki
      obtain ⟨rfl, hstage, hrunning⟩ := Call.owner.inj (hself.symm.trans hk)
      exact hcovered hstage hrunning j found hj
    · rw [hother k hki] at hk
      exact h.covered port' ⟨k, hk⟩ j found hj
  · obtain ⟨rfl, rfl, hor⟩ | ⟨hji, hj⟩ := hhas' j port' hj <;>
      obtain ⟨rfl, heq, hor'⟩ | ⟨hki, hk⟩ := hhas' k _ hk
    · rfl
    · exact (hnew k hki hk hor).elim
    · rw [heq] at hj
      exact (hnew j hji hj hor').elim
    · exact h.exclusive j k port' hj hk

/-! ## Steps -/

omit [DecidableEq ι] in
/-- The ports that are released while their containers run are in the database. -/
theorem Inv.uncovered_mem_rows (h : s.Inv) (hport : s.Uncovered port) : port ∈ s.rows := by
  obtain ⟨i, hi⟩ := hport
  exact h.row i port .released hi (.inr rfl)

omit [DecidableEq ι] in
/-- The port that is chosen is nobody's. -/
theorem Inv.free (h : s.Inv) (hi : s.calls i = .scanned found)
    (hchoose : choosePort options found s.reservedPorts = some port) (j : ι) : ¬s.Has j port := by
  obtain ⟨hused, hreserved⟩ := choosePort_free hchoose
  intro hj
  obtain ⟨stage, running, hcall, hor⟩ := has_iff.mp hj
  by_cases hstage : stage = .released
  · subst hstage
    obtain rfl := hor.resolve_left fun hne => hne rfl
    exact hused (h.covered port ⟨j, hcall⟩ i found (by rw [hi]; rfl))
  · exact hreserved (h.reserved j port ⟨stage, running, hcall, hstage⟩)

theorem Inv.release (h : s.Inv) (hadmits : s.Admits (.releasePortReservation i))
    (hcall : s.calls i = .owner port stage running)
    (hstage : stage = .recorded ∨ stage = .released) :
    Inv { s.set i (.owner port .released running) with
          reservedPorts := s.reservedPorts.erase port } := by
  obtain ⟨hothers, hcovered⟩ := hadmits port stage running hcall
  refine h.own rfl (fun hor => .inl (.inr ⟨stage, ?_⟩)) (fun hne => absurd rfl hne)
    (fun j port' hji hj => ?_) (fun hrunning _ => ?_) (fun _ _ _ _ hmem => hmem)
    (fun _ hrunning => hcovered hrunning)
  · obtain rfl := hor.resolve_left fun hne => hne rfl
    exact hcall
  · refine Finset.mem_erase.mpr ⟨fun heq => ?_, h.reserved j port' hj⟩
    rw [heq] at hj
    exact hothers j hji hj
  · rw [hrunning] at hcall
    exact h.row i port stage hcall hstage

theorem Inv.stop (h : s.Inv) (hcall : s.calls i = .owner port stage true) (clearsRow : Bool) :
    Inv { s.set i (.owner port stage false) with
          bound := s.bound.erase port
          rows := if clearsRow then s.rows.erase port else s.rows } := by
  refine h.own rfl (fun hor => .inl (.inr ⟨stage, hcall⟩)) (fun hne => ?_)
    (fun j port' _ hj => h.reserved j port' hj) (by simp) (fun j port' hji hj hmem => ?_) (by simp)
  · exact h.reserved i port ⟨stage, true, hcall, hne⟩
  · have hne : port' ≠ port := by
      intro heq
      rw [heq] at hj
      exact hji (h.exclusive j i port (.inr hj) (.inr ⟨stage, hcall⟩))
    cases clearsRow with
    | true => exact (List.mem_erase_of_ne hne).mpr hmem
    | false => exact hmem

theorem Inv.next (h : s.Inv) (hadmits : s.Admits e) (hnext : s.next e = some s') : s'.Inv := by
  cases e with
  | elapse ms =>
    cases hnext
    exact ⟨h.reserved, h.row, h.covered, h.exclusive⟩
  | allocatePort i =>
    simp only [State.next] at hnext
    split at hnext
    · rename_i found hcall hcached
      cases hnext
      refine h.scan rfl rfl rfl (by simp [hcall]) (by simp) fun found' hfound port hport => ?_
      cases hfound
      exact hadmits found hcached port hport
    · rename_i hcall hcached
      cases hnext
      exact h.scan rfl rfl rfl (by simp [hcall]) (by simp) fun found' hfound => nomatch hfound
    · cases hnext
  | readDatabase i ok =>
    simp only [State.next] at hnext
    split at hnext
    · rename_i timestamp hcall
      cases hnext
      refine h.scan rfl rfl rfl (by simp [hcall]) (by split <;> simp) fun found hfound port hport => ?_
      cases ok with
      | true =>
        cases hfound
        exact h.uncovered_mem_rows hport
      | false => cases hfound
    · cases hnext
  | listContainers i others =>
    simp only [State.next] at hnext
    split at hnext
    · rename_i timestamp found hcall
      cases hnext
      refine h.scan rfl rfl rfl (by simp [hcall]) (by simp) fun found' hfound port hport => ?_
      cases hfound
      exact List.mem_append_left _ (h.covered port hport i found (by rw [hcall]; rfl))
    · cases hnext
  | scanOSPorts i others =>
    simp only [State.next] at hnext
    split at hnext
    · rename_i timestamp found hcall
      cases hnext
      refine h.scan rfl rfl rfl (by simp [hcall]) (by simp) fun found' hfound port hport => ?_
      cases hfound
      exact List.mem_append_left _ (h.covered port hport i found (by rw [hcall]; rfl))
    · cases hnext
  | choose i options =>
    simp only [State.next] at hnext
    split at hnext
    · rename_i found hcall
      split at hnext
      · rename_i port hchoose
        cases hnext
        refine h.own rfl (fun _ => .inr (h.free hcall hchoose)) (fun _ => Finset.mem_insert_self ..)
          (fun j port' _ hj => Finset.mem_insert_of_mem (h.reserved j port' hj)) (by simp)
          (fun _ _ _ _ hmem => hmem) (by simp)
      · cases hnext
        exact h.scan rfl rfl rfl (by simp [hcall]) (by simp) fun found' hfound => nomatch hfound
    · cases hnext
  | bind i =>
    simp only [State.next] at hnext
    split at hnext
    · rename_i port hcall
      cases hnext
      have hreserves : s.Reserves i port := ⟨_, _, hcall, by simp⟩
      exact h.own rfl (fun _ => .inl (.inl hreserves)) (fun _ => h.reserved i port hreserves)
        (fun j port' _ hj => h.reserved j port' hj) (by simp) (fun _ _ _ _ hmem => hmem) (by simp)
    · cases hnext
  | record i =>
    simp only [State.next] at hnext
    split at hnext
    · rename_i port running hcall
      cases hnext
      have hreserves : s.Reserves i port := ⟨_, _, hcall, by simp⟩
      exact h.own rfl (fun _ => .inl (.inl hreserves)) (fun _ => h.reserved i port hreserves)
        (fun j port' _ hj => h.reserved j port' hj) (fun _ _ => List.mem_cons_self)
        (fun _ _ _ _ hmem => List.mem_cons_of_mem _ hmem) (by simp)
    · cases hnext
  | releasePortReservation i =>
    simp only [State.next] at hnext
    split at hnext
    · rename_i port running hcall
      cases hnext
      exact h.release hadmits hcall (.inl rfl)
    · rename_i port running hcall
      cases hnext
      exact h.release hadmits hcall (.inr rfl)
    · cases hnext
  | stop i clearsRow =>
    simp only [State.next] at hnext
    split at hnext
    · rename_i port stage hcall
      cases hnext
      exact h.stop hcall clearsRow
    · cases hnext

/-- The call returns the port. -/
def Returns (s : State ι) (i : ι) (options : AllocatePortOptions) (port : Nat) : Prop :=
  ∃ s', s.next (.choose i options) = some s' ∧ s'.calls i = .owner port .reserved false

end State

end OpenLander.Pipeline.PortScan
