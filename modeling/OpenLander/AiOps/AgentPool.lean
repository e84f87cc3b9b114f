import OpenLander.Theory.Run
import Mathlib.Data.List.Nodup

/-! # The pool of agents

`AgentPool` (`src/_ai-ops/agent-pool.ts`) keeps an agent for each session of a chat, for as long as the
session is active and ten minutes more. It also has the locks of projects, which are in memory and
expire.

The map of sessions is a list in the order of insertion, and agents are numbered as they are made. A
timer may fire at any time after its delay is over. -/

namespace OpenLander.AgentPool
open Theory

def MAX_POOL_SIZE : Nat := 5

def IDLE_TIMEOUT_MS : Nat := 10 * 60 * 1000

def PROJECT_LOCK_TIMEOUT_MS : Nat := 30 * 60 * 1000

/-! ## Sessions -/

structure PoolEntry where
  sessionId : String
  agent : Nat
  lastAccessedAt : Nat
  isActive : Bool
  deriving DecidableEq, Repr

structure IdleTimer where
  sessionId : String
  fireAt : Nat
  /-- Until it has fired. -/
  pending : Bool
  deriving DecidableEq, Repr

structure State where
  now : Nat := 0
  /-- How many agents have been made. -/
  agents : Nat := 0
  pool : List PoolEntry := []
  recoveryAgent : Option Nat := none
  idleTimers : List IdleTimer := []
  deriving DecidableEq, Repr

inductive Error
  | llmConcurrencyExceeded (max active : Nat)
  deriving DecidableEq, Repr

namespace State

def get (s : State) (sessionId : String) : Option PoolEntry :=
  s.pool.find? (·.sessionId = sessionId)

/-- `pool.delete(sessionId)` -/
def delete (s : State) (sessionId : String) : State :=
  { s with pool := s.pool.filter (·.sessionId ≠ sessionId) }

/-- What becomes of an entry, where that of the session is changed. -/
def change (sessionId : String) (f : PoolEntry → PoolEntry) (e : PoolEntry) : PoolEntry :=
  if e.sessionId = sessionId then f e else e

def modify (s : State) (sessionId : String) (f : PoolEntry → PoolEntry) : State :=
  { s with pool := s.pool.map (change sessionId f) }

def clearIdleTimer (s : State) (sessionId : String) : State :=
  { s with idleTimers := s.idleTimers.filter (·.sessionId ≠ sessionId) }

def startIdleTimer (s : State) (sessionId : String) : State :=
  let s := s.clearIdleTimer sessionId
  { s with idleTimers := s.idleTimers ++ [⟨sessionId, s.now + IDLE_TIMEOUT_MS, true⟩] }

/-- The older one of idle entries. -/
def older (oldest : Option PoolEntry) (e : PoolEntry) : Option PoolEntry :=
  if e.isActive || oldest.any (·.lastAccessedAt ≤ e.lastAccessedAt) then oldest else some e

def oldestIdleEntry (pool : List PoolEntry) : Option PoolEntry := pool.foldl older none

def evictOldest (s : State) : State :=
  match oldestIdleEntry s.pool with
  | none => s
  | some e => (s.clearIdleTimer e.sessionId).delete e.sessionId

def createAgent (s : State) (sessionId : String) : Nat × State :=
  (s.agents, { s with
    agents := s.agents + 1
    pool := s.pool ++ [⟨sessionId, s.agents, s.now, true⟩] })

def getOrCreate (s : State) (sessionId : String) : Except Error Nat × State :=
  match s.get sessionId with
  | some e =>
    (.ok e.agent, (s.modify sessionId ({ · with isActive := true, lastAccessedAt := s.now })).clearIdleTimer
      sessionId)
  | none =>
    let s := if MAX_POOL_SIZE ≤ s.pool.length then s.evictOldest else s
    if MAX_POOL_SIZE ≤ s.pool.length then
      (.error (.llmConcurrencyExceeded MAX_POOL_SIZE (s.pool.countP (·.isActive))), s)
    else
      (.ok (s.createAgent sessionId).1, (s.createAgent sessionId).2)

def release (s : State) (sessionId : String) : State :=
  match s.get sessionId with
  | none => s
  | some _ =>
    (s.modify sessionId ({ · with isActive := false, lastAccessedAt := s.now })).startIdleTimer sessionId

def invalidateAll (s : State) : State :=
  { s with idleTimers := [], pool := [], recoveryAgent := none }

def getRecoveryAgent (s : State) : State :=
  if s.recoveryAgent.isSome then s
  else { s with agents := s.agents + 1, recoveryAgent := some s.agents }

/-- The callback of the timer of the session. -/
def fire (s : State) (sessionId : String) : Option State :=
  match s.idleTimers.find? (·.sessionId = sessionId) with
  | none => none
  | some timer =>
    if timer.pending && timer.fireAt ≤ s.now then
      if (s.get sessionId).any (!·.isActive) then some ((s.delete sessionId).clearIdleTimer sessionId)
      else some { s with idleTimers := s.idleTimers.map fun t =>
        if t.sessionId = sessionId then { t with pending := false } else t }
    else none

end State

open State

inductive Event
  | tick (ms : Nat)
  | getOrCreate (sessionId : String)
  | release (sessionId : String)
  | invalidateAll
  | getRecoveryAgent
  | fire (sessionId : String)
  deriving DecidableEq, Repr

def next (s : State) : Event → Option State
  | .tick ms => some { s with now := s.now + ms }
  | .getOrCreate sessionId => some (s.getOrCreate sessionId).2
  | .release sessionId => some (s.release sessionId)
  | .invalidateAll => some s.invalidateAll
  | .getRecoveryAgent => some s.getRecoveryAgent
  | .fire sessionId => s.fire sessionId

/-- The pool is bounded, its agents are different ones, and exactly the idle entries have a timer, that
fires ten minutes after the last access. -/
structure Kept (s : State) : Prop where
  bounded : s.pool.length ≤ MAX_POOL_SIZE
  sessions : (s.pool.map (·.sessionId)).Nodup
  agents : (s.pool.map (·.agent)).Nodup
  made : ∀ e ∈ s.pool, e.agent < s.agents
  timers : (s.idleTimers.map (·.sessionId)).Nodup
  timed : ∀ t, t ∈ s.idleTimers ↔ t.pending = true ∧
    ∃ e ∈ s.pool, e.sessionId = t.sessionId ∧ e.isActive = false ∧
      t.fireAt = e.lastAccessedAt + IDLE_TIMEOUT_MS

section
variable {s t : State} {sessionId : String} {e e' : PoolEntry}

theorem get_eq_some (h : s.get sessionId = some e) : e ∈ s.pool ∧ e.sessionId = sessionId :=
  ⟨List.mem_of_find?_eq_some h, by simpa using List.find?_some h⟩

theorem get_eq_none : s.get sessionId = none ↔ ∀ e ∈ s.pool, e.sessionId ≠ sessionId := by
  simp [State.get]

/-- A session has one entry. -/
theorem Kept.eq_of_sessionId (hs : Kept s) (he : e ∈ s.pool) (he' : e' ∈ s.pool)
    (h : e.sessionId = e'.sessionId) : e = e' :=
  List.inj_on_of_nodup_map hs.sessions he he' h

theorem Kept.get_of_mem (hs : Kept s) (he : e ∈ s.pool) : s.get e.sessionId = some e := by
  cases hget : s.get e.sessionId with
  | none => exact absurd rfl (get_eq_none.mp hget e he)
  | some e' =>
    obtain ⟨he', hid⟩ := get_eq_some hget
    rw [hs.eq_of_sessionId he he' hid.symm]

/-- A session goes with its timer. -/
theorem Kept.drop (hs : Kept s) (sessionId : String) :
    Kept ((s.delete sessionId).clearIdleTimer sessionId) where
  bounded := Nat.le_trans (List.length_filter_le ..) hs.bounded
  sessions := hs.sessions.sublist (List.filter_sublist.map _)
  agents := hs.agents.sublist (List.filter_sublist.map _)
  made e he := hs.made e (List.mem_of_mem_filter he)
  timers := hs.timers.sublist (List.filter_sublist.map _)
  timed t := by
    simp only [State.clearIdleTimer, State.delete, List.mem_filter, hs.timed, decide_eq_true_iff]
    constructor
    · rintro ⟨⟨hp, e, he, hid, hidle⟩, ht⟩
      exact ⟨hp, e, ⟨he, hid ▸ ht⟩, hid, hidle⟩
    · rintro ⟨hp, e, ⟨he, ht⟩, hid, hidle⟩
      exact ⟨⟨hp, e, he, hid, hidle⟩, hid ▸ ht⟩

/-- A session is accessed, and its timer goes with it. -/
theorem Kept.access (hs : Kept s) {f : PoolEntry → PoolEntry} {timers : List IdleTimer}
    (hid : ∀ e, (f e).sessionId = e.sessionId) (hagent : ∀ e, (f e).agent = e.agent)
    (htimers : (timers.map (·.sessionId)).Nodup)
    (htimed : ∀ t, t ∈ timers ↔ t ∈ s.idleTimers ∧ t.sessionId ≠ sessionId ∨
      t.pending = true ∧ t.sessionId = sessionId ∧ ∃ e ∈ s.pool, e.sessionId = sessionId ∧
        (f e).isActive = false ∧ t.fireAt = (f e).lastAccessedAt + IDLE_TIMEOUT_MS) :
    Kept { s.modify sessionId f with idleTimers := timers } := by
  have hchange (e : PoolEntry) : (change sessionId f e).sessionId = e.sessionId ∧
      (change sessionId f e).agent = e.agent := by
    rw [change]
    split
    · exact ⟨hid e, hagent e⟩
    · exact ⟨rfl, rfl⟩
  refine ⟨?_, ?_, ?_, ?_, htimers, fun t => ?_⟩
  · rw [State.modify, List.length_map]
    exact hs.bounded
  · have hsame : (·.sessionId) ∘ change sessionId f = (·.sessionId) := funext fun e => (hchange e).1
    rw [State.modify, List.map_map, hsame]
    exact hs.sessions
  · have hsame : (·.agent) ∘ change sessionId f = (·.agent) := funext fun e => (hchange e).2
    rw [State.modify, List.map_map, hsame]
    exact hs.agents
  · intro e' he'
    obtain ⟨e, he, rfl⟩ := List.mem_map.mp he'
    rw [(hchange e).2]
    exact hs.made e he
  · show t ∈ timers ↔ t.pending = true ∧ ∃ e ∈ s.pool.map (change sessionId f), _
    rw [htimed, hs.timed]
    constructor
    · rintro (⟨⟨hp, e, he, hsame, hidle⟩, hne⟩ | ⟨hp, rfl, e, he, hsame, hidle⟩)
      · refine ⟨hp, change sessionId f e, List.mem_map_of_mem he, ?_⟩
        rw [change, if_neg (hsame ▸ hne)]
        exact ⟨hsame, hidle⟩
      · refine ⟨hp, change t.sessionId f e, List.mem_map_of_mem he, ?_⟩
        rw [change, if_pos hsame]
        exact ⟨(hid e).trans hsame, hidle⟩
    · rintro ⟨hp, e', he', hsame, hidle⟩
      obtain ⟨e, he, rfl⟩ := List.mem_map.mp he'
      rw [(hchange e).1] at hsame
      by_cases hne : t.sessionId = sessionId
      · rw [change, if_pos (hsame.trans hne)] at hidle
        exact .inr ⟨hp, hne, e, he, hsame.trans hne, hidle⟩
      · rw [change, if_neg (hsame ▸ hne)] at hidle
        exact .inl ⟨⟨hp, e, he, hsame, hidle⟩, hne⟩

theorem Kept.create (hs : Kept s) (hget : s.get sessionId = none)
    (hroom : s.pool.length < MAX_POOL_SIZE) : Kept (s.createAgent sessionId).2 where
  bounded := by
    rw [State.createAgent, List.length_append]
    exact hroom
  sessions := by
    rw [State.createAgent, List.map_append, List.nodup_append]
    refine ⟨hs.sessions, List.nodup_singleton _, fun id hid id' hid' => ?_⟩
    obtain ⟨e, he, rfl⟩ := List.mem_map.mp hid
    rw [List.mem_singleton.mp hid']
    exact get_eq_none.mp hget e he
  agents := by
    rw [State.createAgent, List.map_append, List.nodup_append]
    refine ⟨hs.agents, List.nodup_singleton _, fun a ha a' ha' => ?_⟩
    obtain ⟨e, he, rfl⟩ := List.mem_map.mp ha
    rw [List.mem_singleton.mp ha']
    exact Nat.ne_of_lt (hs.made e he)
  made e he := by
    obtain he | he := List.mem_append.mp he
    · exact Nat.lt_succ_of_lt (hs.made e he)
    · rw [List.mem_singleton.mp he]
      exact Nat.lt_succ_self _
  timers := hs.timers
  timed t := by
    show t ∈ s.idleTimers ↔ t.pending = true ∧ ∃ e ∈ s.pool ++ [_], _
    rw [hs.timed]
    simp

theorem Kept.evictOldest (hs : Kept s) : Kept s.evictOldest := by
  rw [State.evictOldest]
  split
  · exact hs
  · exact hs.drop _

theorem get_evictOldest (h : s.get sessionId = none) : s.evictOldest.get sessionId = none := by
  rw [State.evictOldest]
  split
  · exact h
  · rw [get_eq_none] at h ⊢
    exact fun e he => h e (List.mem_of_mem_filter he)

theorem Kept.getOrCreate (hs : Kept s) (sessionId : String) : Kept (s.getOrCreate sessionId).2 := by
  rw [State.getOrCreate]
  cases hget : s.get sessionId with
  | some e =>
    refine hs.access (fun _ => rfl) (fun _ => rfl) (hs.timers.sublist (List.filter_sublist.map _))
      fun t => ?_
    simp [State.modify]
  | none =>
    dsimp only
    split
    next hfull =>
      split
      · exact hs.evictOldest
      next hroom => exact hs.evictOldest.create (get_evictOldest hget) (Nat.lt_of_not_le hroom)
    next hroom => exact hs.create hget (Nat.lt_of_not_le hroom)

theorem Kept.release (hs : Kept s) (sessionId : String) : Kept (s.release sessionId) := by
  rw [State.release]
  cases hget : s.get sessionId with
  | none => exact hs
  | some e =>
    obtain ⟨he, hid⟩ := get_eq_some hget
    refine hs.access (fun _ => rfl) (fun _ => rfl) ?_ fun t => ?_
    · rw [List.map_append, List.nodup_append]
      refine ⟨hs.timers.sublist (List.filter_sublist.map _), List.nodup_singleton _, ?_⟩
      intro id hid' id' hid''
      obtain ⟨t, ht, rfl⟩ := List.mem_map.mp hid'
      rw [List.mem_singleton.mp hid'']
      exact of_decide_eq_true (List.mem_filter.mp ht).2
    · rw [List.mem_append, State.clearIdleTimer, List.mem_filter, decide_eq_true_iff, List.mem_singleton]
      refine or_congr Iff.rfl ⟨?_, ?_⟩
      · rintro rfl
        exact ⟨rfl, rfl, e, he, hid, rfl, rfl⟩
      · rintro ⟨hp, hsame, _, -, -, -, hfire⟩
        rw [show t = ⟨t.sessionId, t.fireAt, t.pending⟩ from rfl, hp, hsame, hfire, State.modify]

/-- A timer that fires finds a session that has been idle for ten minutes. -/
theorem Kept.fire (hs : Kept s) (h : s.fire sessionId = some t) :
    t = (s.delete sessionId).clearIdleTimer sessionId ∧
      ∃ e ∈ s.pool, e.sessionId = sessionId ∧ e.isActive = false ∧
        e.lastAccessedAt + IDLE_TIMEOUT_MS ≤ s.now := by
  rw [State.fire] at h
  cases hfind : s.idleTimers.find? (·.sessionId = sessionId) with
  | none =>
    rw [hfind] at h
    cases h
  | some timer =>
    rw [hfind] at h
    have hid : timer.sessionId = sessionId := by simpa using List.find?_some hfind
    obtain ⟨-, e, he, hsame, hidle, hfire⟩ := (hs.timed timer).mp (List.mem_of_find?_eq_some hfind)
    have hget : s.get sessionId = some e := by rw [← hid, ← hsame, hs.get_of_mem he]
    dsimp only at h
    split at h
    next hdue =>
      rw [hget, if_pos (by simp [hidle])] at h
      obtain ⟨-, hdue⟩ := Bool.and_eq_true_iff.mp hdue
      exact ⟨(Option.some.inj h).symm, e, he, hsame.trans hid, hidle, hfire ▸ of_decide_eq_true hdue⟩
    · cases h

/-- Every step keeps the pool. -/
theorem preserves_kept : Preserves (Fires next) Kept := by
  intro s e t h hs
  cases e with
  | tick ms =>
    cases h
    exact ⟨hs.bounded, hs.sessions, hs.agents, hs.made, hs.timers, hs.timed⟩
  | getOrCreate sessionId =>
    cases h
    exact hs.getOrCreate sessionId
  | release sessionId =>
    cases h
    exact hs.release sessionId
  | invalidateAll =>
    cases h
    exact ⟨Nat.zero_le _, .nil, .nil, List.forall_mem_nil _, .nil, by simp [State.invalidateAll]⟩
  | getRecoveryAgent =>
    cases h
    rw [State.getRecoveryAgent]
    split
    · exact hs
    · exact ⟨hs.bounded, hs.sessions, hs.agents, fun e he => Nat.lt_succ_of_lt (hs.made e he),
        hs.timers, hs.timed⟩
  | fire sessionId =>
    obtain ⟨rfl, -⟩ := hs.fire h
    exact hs.drop sessionId

theorem kept_init : Kept {} :=
  ⟨Nat.zero_le _, .nil, .nil, List.forall_mem_nil _, .nil, by simp⟩

/-! ## What a session is given -/

/-- The entry is idle, and none is older. -/
structure Oldest (pool : List PoolEntry) (e : PoolEntry) : Prop where
  mem : e ∈ pool
  idle : e.isActive = false
  le : ∀ e' ∈ pool, e'.isActive = false → e.lastAccessedAt ≤ e'.lastAccessedAt

/-- What is known of the oldest entry so far. -/
def OldestSoFar (pool : List PoolEntry) : Option PoolEntry → Prop
  | none => ∀ e ∈ pool, e.isActive = true
  | some e => Oldest pool e

theorem oldestSoFar_older {pool : List PoolEntry} {oldest : Option PoolEntry} (h : OldestSoFar pool oldest) (e : PoolEntry) :
    OldestSoFar (pool ++ [e]) (older oldest e) := by
  rw [older]
  cases oldest with
  | none =>
    cases hactive : e.isActive with
    | true =>
      intro e' he'
      obtain he' | he' := List.mem_append.mp he'
      · exact h e' he'
      · rw [List.mem_singleton.mp he', hactive]
    | false =>
      refine ⟨List.mem_append_right _ (.head _), hactive, fun e' he' hidle => ?_⟩
      obtain he' | he' := List.mem_append.mp he'
      · rw [h e' he'] at hidle
        cases hidle
      · exact Nat.le_of_eq (congrArg _ (List.mem_singleton.mp he').symm)
  | some o =>
    obtain ⟨hmem, hidle, hle⟩ := h
    split
    next hcond =>
      refine ⟨List.mem_append_left _ hmem, hidle, fun e' he' hidle' => ?_⟩
      obtain he' | he' := List.mem_append.mp he'
      · exact hle e' he' hidle'
      · rw [List.mem_singleton.mp he'] at hidle' ⊢
        simpa [hidle'] using hcond
    next hcond =>
      simp only [Option.any_some, Bool.or_eq_true, decide_eq_true_eq, not_or, Bool.not_eq_true] at hcond
      refine ⟨List.mem_append_right _ (.head _), hcond.1, fun e' he' hidle' => ?_⟩
      obtain he' | he' := List.mem_append.mp he'
      · exact Nat.le_of_lt (Nat.lt_of_lt_of_le (Nat.lt_of_not_le hcond.2) (hle e' he' hidle'))
      · exact Nat.le_of_eq (congrArg _ (List.mem_singleton.mp he').symm)

theorem oldestSoFar_foldl {seen : List PoolEntry} {oldest : Option PoolEntry}
    (h : OldestSoFar seen oldest) (pool : List PoolEntry) :
    OldestSoFar (seen ++ pool) (pool.foldl older oldest) := by
  induction pool generalizing seen oldest with
  | nil => rwa [List.append_nil]
  | cons e pool ih =>
    rw [List.append_cons]
    exact ih (oldestSoFar_older h e)

theorem oldestIdleEntry_spec (pool : List PoolEntry) : OldestSoFar pool (oldestIdleEntry pool) :=
  @oldestSoFar_foldl [] none (List.forall_mem_nil _) pool

/-- A pool that is full has room again exactly if a session is idle. -/
theorem length_evictOldest_lt_iff :
    s.evictOldest.pool.length < s.pool.length ↔ ∃ e ∈ s.pool, e.isActive = false := by
  have hspec := oldestIdleEntry_spec s.pool
  rw [State.evictOldest]
  cases holdest : oldestIdleEntry s.pool with
  | none =>
    rw [holdest] at hspec
    refine iff_of_false (Nat.lt_irrefl _) ?_
    rintro ⟨e, he, hidle⟩
    rw [hspec e he] at hidle
    cases hidle
  | some e =>
    rw [holdest] at hspec
    refine iff_of_true ?_ ⟨e, hspec.mem, hspec.idle⟩
    exact List.length_filter_lt_length_iff_exists.mpr ⟨e, hspec.mem, by simp⟩

/-- A session is refused exactly if it has no entry and all five entries are active. -/
theorem Kept.getOrCreate_error_iff (hs : Kept s) (sessionId : String) :
    (∃ error, (s.getOrCreate sessionId).1 = .error error) ↔
      s.get sessionId = none ∧ s.pool.length = MAX_POOL_SIZE ∧ ∀ e ∈ s.pool, e.isActive = true := by
  rw [State.getOrCreate]
  cases hget : s.get sessionId with
  | some e => simp
  | none =>
    dsimp only
    by_cases hfull : MAX_POOL_SIZE ≤ s.pool.length
    · have hlength := Nat.le_antisymm hs.bounded hfull
      rw [if_pos hfull]
      have hiff := @length_evictOldest_lt_iff s
      rw [hlength] at hiff
      by_cases hidle : ∃ e ∈ s.pool, e.isActive = false
      · rw [if_neg (Nat.not_le_of_lt (hiff.mpr hidle))]
        obtain ⟨e, he, hidle⟩ := hidle
        simp only [reduceCtorEq, exists_false, false_iff, true_and, not_and]
        intro _ hall
        rw [hall e he] at hidle
        cases hidle
      · rw [if_pos (Nat.le_of_not_lt (mt hiff.mp hidle))]
        refine iff_of_true ⟨_, rfl⟩ ⟨rfl, hlength, fun e he => ?_⟩
        by_contra hactive
        exact hidle ⟨e, he, by simpa using hactive⟩
    · rw [if_neg hfull, if_neg hfull]
      refine iff_of_false (fun h => ?_) fun h => hfull (Nat.le_of_eq h.2.1.symm)
      obtain ⟨error, h⟩ := h
      cases h

/-- The session is active, with the agent. -/
def Holds (sessionId : String) (agent : Nat) (s : State) : Prop :=
  ∃ e ∈ s.pool, e.sessionId = sessionId ∧ e.agent = agent ∧ e.isActive = true

theorem holds_delete (hs : Kept s) (h : Holds sessionId agent s) (he : e ∈ s.pool)
    (hidle : e.isActive = false) :
    Holds sessionId agent ((s.clearIdleTimer e.sessionId).delete e.sessionId) := by
  obtain ⟨e', he', hid, hagent, hactive⟩ := h
  refine ⟨e', List.mem_filter.mpr ⟨he', decide_eq_true fun hsame => ?_⟩, hid, hagent, hactive⟩
  rw [hs.eq_of_sessionId he' he hsame, hidle] at hactive
  cases hactive

theorem holds_evictOldest (hs : Kept s) (h : Holds sessionId agent s) :
    Holds sessionId agent s.evictOldest := by
  have hspec := oldestIdleEntry_spec s.pool
  rw [State.evictOldest]
  cases holdest : oldestIdleEntry s.pool with
  | none => exact h
  | some e =>
    rw [holdest] at hspec
    exact holds_delete hs h hspec.mem hspec.idle

theorem holds_modify {f : PoolEntry → PoolEntry} {other : String} (h : Holds sessionId agent s)
    (hid : ∀ e, (f e).sessionId = e.sessionId) (hagent : ∀ e, (f e).agent = e.agent)
    (hactive : other = sessionId → ∀ e, (f e).isActive = true) :
    Holds sessionId agent (s.modify other f) := by
  obtain ⟨e, he, hsame, hagent', hactive'⟩ := h
  refine ⟨change other f e, List.mem_map_of_mem he, ?_⟩
  rw [change]
  split
  next heq => exact ⟨(hid e).trans hsame, (hagent e).trans hagent', hactive (heq ▸ hsame) e⟩
  next => exact ⟨hsame, hagent', hactive'⟩

theorem holds_getOrCreate (hs : Kept s) (h : Holds sessionId agent s) (other : String) :
    Holds sessionId agent (s.getOrCreate other).2 := by
  rw [State.getOrCreate]
  cases hget : s.get other with
  | some e => exact holds_modify h (fun _ => rfl) (fun _ => rfl) fun _ _ => rfl
  | none =>
    have hcreate {s : State} (h : Holds sessionId agent s) :
        Holds sessionId agent (s.createAgent other).2 := by
      obtain ⟨e, he, hrest⟩ := h
      exact ⟨e, List.mem_append_left _ he, hrest⟩
    dsimp only
    split
    · split
      · exact holds_evictOldest hs h
      · exact hcreate (holds_evictOldest hs h)
    · exact hcreate h

/-- A session that is not released keeps its agent. -/
theorem holds_step {ev : Event} (hs : Kept s) (hstep : Fires next s ev t)
    (hrelease : ev ≠ .release sessionId) (hinvalidate : ev ≠ .invalidateAll)
    (h : Holds sessionId agent s) : Holds sessionId agent t := by
  cases ev with
  | tick ms =>
    cases hstep
    exact h
  | getOrCreate other =>
    cases hstep
    exact holds_getOrCreate hs h other
  | release other =>
    cases hstep
    rw [State.release]
    split
    · exact h
    · exact holds_modify h (fun _ => rfl) (fun _ => rfl) fun heq => absurd (congrArg _ heq) hrelease
  | invalidateAll => exact absurd rfl hinvalidate
  | getRecoveryAgent =>
    cases hstep
    rw [State.getRecoveryAgent]
    split
    · exact h
    · exact h
  | fire other =>
    obtain ⟨rfl, e, he, rfl, hidle, -⟩ := hs.fire hstep
    exact holds_delete hs h he hidle

theorem holds_of_getOrCreate (h : s.getOrCreate sessionId = (.ok agent, t)) :
    Holds sessionId agent t := by
  rw [State.getOrCreate] at h
  cases hget : s.get sessionId with
  | some e =>
    obtain ⟨he, hid⟩ := get_eq_some hget
    rw [hget] at h
    cases h
    refine ⟨_, List.mem_map_of_mem he, ?_⟩
    rw [change, if_pos hid]
    exact ⟨hid, rfl, rfl⟩
  | none =>
    rw [hget] at h
    dsimp only at h
    have hcreate (s : State) : Holds sessionId (s.createAgent sessionId).1 (s.createAgent sessionId).2 :=
      ⟨_, List.mem_append_right _ (.head _), rfl, rfl, rfl⟩
    split at h
    · split at h
      · cases h
      · cases h
        exact hcreate _
    · cases h
      exact hcreate s

theorem evictOldest_agents : s.evictOldest.agents = s.agents := by
  rw [State.evictOldest]
  split <;> rfl

/-- A session is given its agent, and no other session is. -/
theorem Kept.getOrCreate_of_holds (hs : Kept s) (h : Holds sessionId agent s) :
    (s.getOrCreate sessionId).1 = .ok agent ∧
      ∀ other, other ≠ sessionId → (s.getOrCreate other).1 ≠ .ok agent := by
  obtain ⟨e, he, rfl, rfl, -⟩ := h
  refine ⟨?_, fun other hother hok => ?_⟩
  · rw [State.getOrCreate, hs.get_of_mem he]
  rw [State.getOrCreate] at hok
  cases hget : s.get other with
  | some e' =>
    obtain ⟨he', hid⟩ := get_eq_some hget
    rw [hget] at hok
    have hsame := List.inj_on_of_nodup_map hs.agents he' he (Except.ok.inj hok)
    exact hother (hid.symm.trans (congrArg _ hsame))
  | none =>
    have hnew : e.agent ≠ s.agents := Nat.ne_of_lt (hs.made e he)
    rw [hget] at hok
    dsimp only at hok
    split at hok
    · split at hok
      · cases hok
      · rw [State.createAgent, evictOldest_agents] at hok
        exact hnew (Except.ok.inj hok).symm
    · exact hnew (Except.ok.inj hok).symm

/-- At every time there are at most five agents, of sessions of their own; the idle ones are those with
a timer, to fire ten minutes after the last access; and only a session without an agent is refused one,
and only if all five are active. -/
theorem reachable_kept (h : Theory.Reaches (Fires next) {} s) :
    Kept s ∧ ∀ sessionId, (∃ error, (s.getOrCreate sessionId).1 = .error error) ↔
      s.get sessionId = none ∧ s.pool.length = MAX_POOL_SIZE ∧ ∀ e ∈ s.pool, e.isActive = true := by
  have hs := h.invariant preserves_kept kept_init
  exact ⟨hs, hs.getOrCreate_error_iff⟩

def oneActive : State where
  agents := 1
  pool := [⟨"a", 0, 0, true⟩]

theorem reachable_kept_oneActive :
    Kept oneActive ∧ ∀ sessionId, (∃ error, (oneActive.getOrCreate sessionId).1 = .error error) ↔
      oneActive.get sessionId = none ∧ oneActive.pool.length = MAX_POOL_SIZE ∧
        ∀ e ∈ oneActive.pool, e.isActive = true :=
  reachable_kept ⟨[.getOrCreate "a"], run_iff_exec.mpr rfl⟩

/-- Until it is released, or all are invalidated, a session is given the same agent again and again,
whatever other sessions do, and no other session is given it. -/
theorem session_keeps_agent {s' : State} (h : Theory.Reaches (Fires next) {} s)
    (hget : s.getOrCreate sessionId = (.ok agent, s')) (hrun : Run (Fires next) s' es t)
    (hrelease : Event.release sessionId ∉ es) (hinvalidate : Event.invalidateAll ∉ es) :
    (t.getOrCreate sessionId).1 = .ok agent ∧
      ∀ other, other ≠ sessionId → (t.getOrCreate other).1 ≠ .ok agent := by
  have hs' : Kept s' := by
    have hkept := (h.invariant preserves_kept kept_init).getOrCreate sessionId
    rwa [hget] at hkept
  have hboth : Kept t ∧ Holds sessionId agent t := by
    refine hrun.restrict.invariant (I := fun s => Kept s ∧ Holds sessionId agent s) ?_
      ⟨hs', holds_of_getOrCreate hget⟩
    intro s ev t hstep hs
    refine ⟨preserves_kept hstep.1 hs.1, holds_step hs.1 hstep.1 (fun heq => ?_) (fun heq => ?_) hs.2⟩
    · exact hrelease (heq ▸ hstep.2)
    · exact hinvalidate (heq ▸ hstep.2)
  exact hboth.1.getOrCreate_of_holds hboth.2

def twoActive : State where
  now := 5
  agents := 2
  pool := [⟨"a", 0, 0, true⟩, ⟨"b", 1, 0, true⟩]

theorem session_keeps_agent_twoActive :
    (twoActive.getOrCreate "a").1 = .ok 0 ∧
      ∀ other, other ≠ "a" → (twoActive.getOrCreate other).1 ≠ .ok 0 :=
  @session_keeps_agent {} twoActive "a" 0 [.getOrCreate "b", .tick 5] oneActive .refl rfl
    (run_iff_exec.mpr rfl) (by decide) (by decide)

end

/-! ## Project locks -/

structure ProjectLock where
  sessionId : String
  startedAt : Nat
  deriving DecidableEq, Repr

/-- A call of `executeWithProjectLock` that has the lock, and has not returned. -/
structure Call where
  projectId : String
  sessionId : String
  startedAt : Nat
  deriving DecidableEq, Repr

structure Locks where
  now : Nat := 0
  projectLocks : String → Option ProjectLock := fun _ => none
  running : List Call := []

namespace Locks

def isStale (s : Locks) (lock : ProjectLock) : Bool :=
  PROJECT_LOCK_TIMEOUT_MS ≤ s.now - lock.startedAt

def set (s : Locks) (projectId : String) (lock : Option ProjectLock) : Locks :=
  { s with projectLocks := Function.update s.projectLocks projectId lock }

def acquireProjectLock (s : Locks) (projectId sessionId : String) : Bool × Locks :=
  if (s.projectLocks projectId).any (!s.isStale ·) then (false, s)
  else (true, s.set projectId (some ⟨sessionId, s.now⟩))

def releaseProjectLock (s : Locks) (projectId sessionId : String) : Locks :=
  if (s.projectLocks projectId).any (·.sessionId = sessionId) then s.set projectId none else s

def getProjectLock (s : Locks) (projectId : String) : Option ProjectLock × Locks :=
  match s.projectLocks projectId with
  | none => (none, s)
  | some lock => if s.isStale lock then (none, s.set projectId none) else (some lock, s)

end Locks

inductive LockEvent
  | tick (ms : Nat)
  /-- `executeWithProjectLock`, up to the call of `fn`. -/
  | execute (sessionId projectId : String)
  /-- `fn` has ended, in whichever way. -/
  | finish (call : Call)
  | getProjectLock (projectId : String)
  deriving DecidableEq, Repr

def Locks.next (s : Locks) : LockEvent → Option Locks
  | .tick ms => some { s with now := s.now + ms }
  | .execute sessionId projectId =>
    if (s.acquireProjectLock projectId sessionId).1 then
      some { (s.acquireProjectLock projectId sessionId).2 with
        running := s.running ++ [⟨projectId, sessionId, s.now⟩] }
    else some (s.getProjectLock projectId).2
  | .finish call =>
    if call ∈ s.running then
      some ({ s with running := s.running.erase call }.releaseProjectLock call.projectId call.sessionId)
    else none
  | .getProjectLock projectId => some (s.getProjectLock projectId).2

/-- A session does not take the lock of a project anew while a call of its own is running there. -/
def NoReentry (s : Locks) : LockEvent → Prop
  | .execute sessionId projectId =>
    ∀ call ∈ s.running, (call.projectId, call.sessionId) ≠ (projectId, sessionId)
  | _ => True

/-- The calls of the project that have begun less than half an hour ago. -/
def Locks.fresh (s : Locks) (projectId : String) : List Call :=
  s.running.filter fun call =>
    call.projectId = projectId && s.now - call.startedAt < PROJECT_LOCK_TIMEOUT_MS

/-- A call that is not stale has the lock. -/
structure Locked (s : Locks) : Prop where
  sessions : (s.running.map fun call => (call.projectId, call.sessionId)).Nodup
  held : ∀ call ∈ s.running, s.now - call.startedAt < PROJECT_LOCK_TIMEOUT_MS →
    s.projectLocks call.projectId = some ⟨call.sessionId, call.startedAt⟩

section
variable {s t : Locks} {call : Call}

theorem set_of_ne {projectId other : String} {lock : Option ProjectLock} (h : other ≠ projectId) :
    (s.set projectId lock).projectLocks other = s.projectLocks other :=
  Function.update_of_ne h ..

theorem Locked.drop_stale (hs : Locked s) (projectId : String)
    (hstale : (s.projectLocks projectId).all s.isStale = true) (lock : Option ProjectLock) :
    Locked (s.set projectId lock) := by
  refine ⟨hs.sessions, fun call hcall hfresh => ?_⟩
  have hheld := hs.held call hcall hfresh
  have hne : call.projectId ≠ projectId := by
    rintro rfl
    rw [hheld, Option.all_some, Locks.isStale, decide_eq_true_iff] at hstale
    exact Nat.not_le_of_lt hfresh hstale
  exact (set_of_ne hne).trans hheld

theorem Locked.getProjectLock (hs : Locked s) (projectId : String) :
    Locked (s.getProjectLock projectId).2 := by
  rw [Locks.getProjectLock]
  split
  · exact hs
  next lock hlock =>
    split
    next hstale => exact hs.drop_stale projectId (by rw [hlock]; exact hstale) none
    · exact hs

theorem Locked.execute (hs : Locked s) (hnew : NoReentry s (.execute sessionId projectId))
    (hstale : (s.projectLocks projectId).all s.isStale = true) :
    Locked { s.set projectId (some ⟨sessionId, s.now⟩) with
      running := s.running ++ [⟨projectId, sessionId, s.now⟩] } := by
  have hset := hs.drop_stale projectId hstale (some ⟨sessionId, s.now⟩)
  refine ⟨?_, fun call hcall hfresh => ?_⟩
  · rw [List.map_append, List.nodup_append]
    refine ⟨hs.sessions, List.nodup_singleton _, fun key hkey key' hkey' => ?_⟩
    obtain ⟨call, hcall, rfl⟩ := List.mem_map.mp hkey
    rw [List.mem_singleton.mp hkey']
    exact hnew call hcall
  · obtain hcall | hcall := List.mem_append.mp hcall
    · exact hset.held call hcall hfresh
    · rw [List.mem_singleton.mp hcall]
      exact Function.update_self ..

theorem Locked.finish (hs : Locked s) (hcall : call ∈ s.running) :
    Locked ({ s with running := s.running.erase call }.releaseProjectLock
      call.projectId call.sessionId) := by
  have hsessions : ((s.running.erase call).map fun call => (call.projectId, call.sessionId)).Nodup :=
    hs.sessions.sublist (List.erase_sublist.map _)
  have hheld := fun other (hother : other ∈ s.running.erase call) =>
    hs.held other (List.mem_of_mem_erase hother)
  rw [Locks.releaseProjectLock]
  split
  next hlock =>
    refine ⟨hsessions, fun other hother hfresh => ?_⟩
    have hheld := hheld other hother hfresh
    -- the lock is not that of another call, which would be of another session
    have hne : other.projectId ≠ call.projectId := by
      intro hproject
      rw [hproject] at hheld
      rw [hheld, Option.any_some, decide_eq_true_iff] at hlock
      have hsame := List.inj_on_of_nodup_map hs.sessions (List.mem_of_mem_erase hother) hcall
        (Prod.ext hproject hlock)
      exact (hs.sessions.of_map.mem_erase_iff.mp hother).1 hsame
    exact (set_of_ne hne).trans hheld
  next => exact ⟨hsessions, hheld⟩

theorem preserves_locked : Preserves (Guarded (Fires Locks.next) NoReentry) Locked := by
  intro s ev t h hs
  obtain ⟨h, hguard⟩ := h
  cases ev with
  | tick ms =>
    cases h
    refine ⟨hs.sessions, fun call hcall hfresh => hs.held call hcall ?_⟩
    dsimp only at hfresh
    omega
  | execute sessionId projectId =>
    rw [Fires, Locks.next, Locks.acquireProjectLock] at h
    cases hfree : (s.projectLocks projectId).any (!s.isStale ·) with
    | true =>
      simp only [hfree, if_true, Bool.false_eq_true, if_false] at h
      obtain rfl := Option.some.inj h
      exact hs.getProjectLock projectId
    | false =>
      simp only [hfree, if_true, Bool.false_eq_true, if_false] at h
      obtain rfl := Option.some.inj h
      refine hs.execute hguard ?_
      cases hlock : s.projectLocks projectId with
      | none => rfl
      | some lock => simpa [hlock] using hfree
  | finish call =>
    rw [Fires, Locks.next] at h
    split at h
    next hcall =>
      obtain rfl := Option.some.inj h
      exact hs.finish hcall
    · cases h
  | getProjectLock projectId =>
    cases h
    exact hs.getProjectLock projectId

/-- The calls that are not stale have the one lock, and so they are one call. -/
theorem Locked.fresh_le (hs : Locked s) (projectId : String) : (s.fresh projectId).length ≤ 1 := by
  have hsame : ∀ call ∈ s.fresh projectId, ∀ call' ∈ s.fresh projectId, call = call' := by
    intro call hcall call' hcall'
    obtain ⟨hmem, hcond⟩ := List.mem_filter.mp hcall
    obtain ⟨hmem', hcond'⟩ := List.mem_filter.mp hcall'
    simp only [Bool.and_eq_true, decide_eq_true_eq] at hcond hcond'
    have hlock := hs.held call hmem hcond.2
    have hlock' := hs.held call' hmem' hcond'.2
    rw [hcond.1] at hlock
    rw [hcond'.1, hlock] at hlock'
    obtain ⟨hsession, -⟩ := ProjectLock.mk.inj (Option.some.inj hlock')
    exact List.inj_on_of_nodup_map hs.sessions hmem hmem'
      (Prod.ext (hcond.1.trans hcond'.1.symm) hsession)
  have hnodup : (s.fresh projectId).Nodup := hs.sessions.of_map.filter _
  generalize s.fresh projectId = calls at hsame hnodup
  cases calls with
  | nil => exact Nat.zero_le _
  | cons call rest =>
    cases rest with
    | nil => exact Nat.le_refl _
    | cons call' rest =>
      have heq := hsame call (.head _) call' (.tail _ (.head _))
      exact absurd (heq ▸ .head _) (List.nodup_cons.mp hnodup).1

/-- Where no session takes the lock of a project anew while a call of its own is running there, at most
one of the calls of a project has begun less than half an hour ago, and that one has the lock. -/
theorem one_fresh_call (h : Run (Guarded (Fires Locks.next) NoReentry) {} es s) (projectId : String) :
    (s.fresh projectId).length ≤ 1 ∧ ∀ call ∈ s.fresh projectId,
      s.projectLocks projectId = some ⟨call.sessionId, call.startedAt⟩ := by
  have hs : Locked s := h.invariant preserves_locked ⟨.nil, List.forall_mem_nil _⟩
  refine ⟨hs.fresh_le projectId, fun call hcall => ?_⟩
  obtain ⟨hmem, hcond⟩ := List.mem_filter.mp hcall
  simp only [Bool.and_eq_true, decide_eq_true_eq] at hcond
  exact hcond.1 ▸ hs.held call hmem hcond.2

def oneCall : Locks where
  projectLocks := Function.update (fun _ => none) "p" (some ⟨"a", 0⟩)
  running := [⟨"p", "a", 0⟩]

theorem one_fresh_call_oneCall :
    (oneCall.fresh "p").length ≤ 1 ∧ ∀ call ∈ oneCall.fresh "p",
      oneCall.projectLocks "p" = some ⟨call.sessionId, call.startedAt⟩ :=
  @one_fresh_call oneCall [.execute "a" "p"] (.single ⟨rfl, List.forall_mem_nil _⟩) "p"

end

end OpenLander.AgentPool
