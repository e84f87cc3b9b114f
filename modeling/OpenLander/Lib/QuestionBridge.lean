import OpenLander.Theory.Run
import OpenLander.Theory.Keyed

/-! # QuestionBridge

`QuestionBridge` (`src/lib/question-bridge.ts`) keeps a map from the ids of requests to the last entry
asked with that id. Each entry is removed and settled by a reply, by a rejection or by its own timer.
A timer removes its entry only if it is still the one in the map. A reply emits an event between the
removal and the settlement, and listeners run there, so these are two steps. -/

namespace OpenLander.QuestionBridge
open Theory

variable {α : Type}

/-- How a promise has been settled. -/
inductive Outcome (α : Type)
  | answers (answers : List α)
  | timedOut
  | handlerError

/-- A call of `ask` with its `PendingEntry`. -/
structure Ask (α : Type) where
  requestId : String
  projectId : Option String
  /-- `entry.timeout`, until the timer has fired or is cleared. -/
  armed : Bool := true
  /-- The handler has not returned yet. -/
  handling : Bool := true
  threw : Bool := false
  outcome : Option (Outcome α) := none

/-- A call of `reply` that has removed its entry. -/
structure Reply (α : Type) where
  requestId : String
  answers : List α
  entry : Nat
  /-- How many asks came before the call. -/
  asked : Nat

/-- What settles or removes an entry. -/
inductive Cause (α : Type)
  | reply (requestId : String) (answers : List α)
  | reject (requestId : Option String)
  | timeout (entry : Nat)
  | handler (entry : Nat)

def Cause.outcome : Cause α → Outcome α
  | reply _ answers => .answers answers
  | reject _ => .answers []
  | timeout _ => .timedOut
  | handler _ => .handlerError

/-- An entry that is settled or removed, why, and how many asks came before. -/
structure Effect (α : Type) where
  entry : Nat
  cause : Cause α
  asked : Nat

inductive Emission
  | pending (projectId requestId : String)
  | answered (projectId requestId : String)
  deriving DecidableEq, Repr

/-- The entries are numbered in the order of the calls. The last three fields are history. -/
structure State (α : Type) where
  eventBus : Bool := false
  activeProjectId : Option String := none
  asks : List (Ask α) := []
  pending : List (String × Nat) := []
  replies : List (Reply α) := []
  emitted : List Emission := []
  settlements : List (Effect α) := []
  removals : List (Effect α) := []
  /-- Entries that were settled once more. -/
  repeated : List Nat := []

inductive Event (α : Type)
  | setEventBus
  | setActiveProject (projectId : Option String)
  | ask (requestId : String) (projectId : Option String)
  | handled (entry : Nat) (throws : Bool)
  | timeout (entry : Nat)
  | reply (requestId : String) (answers : List α)
  | resolve (entry : Nat)
  | reject (requestId : Option String)

namespace State

def get (s : State α) (requestId : String) : Option Nat :=
  (s.pending.find? (·.1 = requestId)).map (·.2)

def modifyAsk (s : State α) (n : Nat) (f : Ask α → Ask α) : State α :=
  { s with asks := s.asks.modify n f }

/-- `pending.delete(requestId)` -/
def delete (s : State α) (requestId : String) (cause : Cause α) : State α :=
  { s with pending := s.pending.filter (·.1 ≠ requestId),
           removals := (s.pending.filter (·.1 = requestId)).map (⟨·.2, cause, s.asks.length⟩) ++
             s.removals }

def clearPendingTimeout (s : State α) (n : Nat) : State α :=
  s.modifyAsk n ({ · with armed := false })

/-- A promise that is settled stays so. -/
def settle (s : State α) (n : Nat) (cause : Cause α) (asked : Nat) : State α :=
  match s.asks[n]? with
  | none => s
  | some ask =>
    match ask.outcome with
    | some _ => { s with repeated := n :: s.repeated }
    | none => { s.modifyAsk n ({ · with outcome := some cause.outcome }) with
        settlements := ⟨n, cause, asked⟩ :: s.settlements }

/-- An event goes out if there is a bus, and a project. -/
def emit (s : State α) (projectId : Option String) (emission : String → Emission) : State α :=
  match projectId with
  | some projectId =>
    if s.eventBus ∧ projectId ≠ "" then { s with emitted := s.emitted ++ [emission projectId] } else s
  | none => s

end State

open State

def ask (s : State α) (requestId : String) (projectId : Option String) : State α :=
  let projectId := projectId <|> s.activeProjectId
  emit { s with asks := s.asks ++ [{ requestId, projectId }],
                pending := put Prod.fst s.pending (requestId, s.asks.length) }
    projectId (.pending · requestId)

def handled (s : State α) (n : Nat) (throws : Bool) : Option (State α) :=
  match s.asks[n]? with
  | some ask =>
    if ask.handling then
      if throws then
        let s := s.modifyAsk n ({ · with handling := false, threw := true })
        some (s.settle n (.handler n) s.asks.length)
      else some (s.modifyAsk n ({ · with handling := false }))
    else none
  | none => none

def timeout (s : State α) (n : Nat) : Option (State α) :=
  match s.asks[n]? with
  | some ask =>
    if ask.armed then
      let s := if s.get ask.requestId = some n then s.delete ask.requestId (.timeout n) else s
      some ((s.clearPendingTimeout n).settle n (.timeout n) s.asks.length)
    else none
  | none => none

def reply (s : State α) (requestId : String) (answers : List α) : State α :=
  match s.get requestId with
  | none => s
  | some n =>
    let s := (s.delete requestId (.reply requestId answers)).clearPendingTimeout n
    let call := { requestId, answers, entry := n, asked := s.asks.length }
    emit { s with replies := s.replies ++ [call] } (s.asks[n]?.bind (·.projectId)) (.answered · requestId)

/-- The rest of the reply that has taken the entry. -/
def resolve (s : State α) (n : Nat) : Option (State α) :=
  match s.replies.find? (·.entry = n) with
  | some r =>
    some (settle { s with replies := s.replies.filter (·.entry ≠ n) } n (.reply r.requestId r.answers) r.asked)
  | none => none

/-- What a rejection does with an entry that is not in the map any more. -/
def dismiss (requestId : Option String) (s : State α) (n : Nat) : State α :=
  (s.clearPendingTimeout n).settle n (.reject requestId) s.asks.length

/-- No id, and also the empty one, stands for all entries. -/
def reject (s : State α) (requestId : Option String) : State α :=
  match requestId.filter (· ≠ "") with
  | some id =>
    match s.get id with
    | none => s
    | some n => dismiss requestId (s.delete id (.reject requestId)) n
  | none =>
    let entries := s.pending.map (·.2)
    entries.foldl (dismiss requestId)
      { s with pending := [],
               removals := entries.map (⟨·, .reject requestId, s.asks.length⟩) ++ s.removals }

def next (s : State α) : Event α → Option (State α)
  | .setEventBus => some { s with eventBus := true }
  | .setActiveProject projectId => some { s with activeProjectId := projectId }
  | .ask requestId projectId => some (ask s requestId projectId)
  | .handled n throws => handled s n throws
  | .timeout n => timeout s n
  | .reply requestId answers => some (reply s requestId answers)
  | .resolve n => resolve s n
  | .reject requestId => some (reject s requestId)

/-! ## The law -/

def State.requestIds (s : State α) : List String := s.asks.map (·.requestId)

/-- `n` is the last of the first `asked` entries with the id. -/
structure Latest (ids : List String) (requestId : String) (n asked : Nat) : Prop where
  lt : n < asked
  le : asked ≤ ids.length
  eq : ids[n]? = some requestId
  last : ∀ m < asked, ids[m]? = some requestId → m ≤ n

/-- An effect on the entry that its cause is about. -/
def Effect.Own (ids : List String) (r : Effect α) : Prop :=
  match r.cause with
  | .reply requestId _ | .reject (some requestId) => Latest ids requestId r.entry r.asked
  | .reject none => True
  | .timeout n | .handler n => r.entry = n

structure DeliversOnce (s : State α) : Prop where
  once : (s.settlements.map (·.entry)).Nodup
  /-- Settled as recorded, and not otherwise. -/
  outcome : ∀ n, (s.asks[n]?.bind (·.outcome)).isSome → ∃ r ∈ s.settlements, r.entry = n
  recorded : ∀ r ∈ s.settlements, ∃ ask, s.asks[r.entry]? = some ask ∧ ask.outcome = some r.cause.outcome
  /-- Only where the handler of an ask throws, which settles it, is there a second attempt. -/
  repeated : ∀ n ∈ s.repeated, ∃ ask, s.asks[n]? = some ask ∧ ask.threw
  settles : ∀ r ∈ s.settlements, r.Own s.requestIds
  removes : ∀ r ∈ s.removals, r.Own s.requestIds

/-! ## The invariant -/

section
variable {s : State α} {n m : Nat} {f : Ask α → Ask α} {ids : List String}

def State.Armed (s : State α) (n : Nat) : Prop := ∃ ask, s.asks[n]? = some ask ∧ ask.armed = true

structure Inv (s : State α) : Prop where
  nodup : (s.pending.map Prod.fst).Nodup
  pending : ∀ p ∈ s.pending, Latest s.requestIds p.1 p.2 s.asks.length ∧ s.Armed p.2
  /-- What may still be settled has not been, except by an error of its handler. -/
  live : ∀ n ask, s.asks[n]? = some ask → ask.armed = true ∨ n ∈ s.replies.map (·.entry) →
    ask.outcome = none ∨ ask.threw = true
  taken : ∀ r ∈ s.replies, Latest s.requestIds r.requestId r.entry r.asked ∧ ¬s.Armed r.entry
  replies : (s.replies.map (·.entry)).Nodup
  law : DeliversOnce s

theorem Latest.append (h : Latest ids requestId n asked) (ids' : List String) :
    Latest (ids ++ ids') requestId n asked where
  lt := h.lt
  le := Nat.le_trans h.le (by simp)
  eq := by rw [List.getElem?_append_left (Nat.lt_of_lt_of_le h.lt h.le), h.eq]
  last m hm hid := h.last m hm (by rwa [List.getElem?_append_left (Nat.lt_of_lt_of_le hm h.le)] at hid)

theorem Effect.Own.append {r : Effect α} (h : r.Own ids) (ids' : List String) : r.Own (ids ++ ids') := by
  rw [Effect.Own] at h ⊢
  split at h
  · exact Latest.append h ids'
  · exact Latest.append h ids'
  · trivial
  · exact h
  · exact h

theorem getElem?_modifyAsk {ask' : Ask α} : (s.modifyAsk n f).asks[m]? = some ask' ↔
    ∃ ask, s.asks[m]? = some ask ∧ ask' = if m = n then f ask else ask := by
  rw [State.modifyAsk, List.getElem?_modify, Option.map_eq_map, Option.map_eq_some_iff]
  refine exists_congr fun ask => and_congr_right fun _ => ?_
  by_cases h : m = n
  · rw [if_pos h, if_pos h.symm]
    exact eq_comm
  · rw [if_neg h, if_neg (Ne.symm h)]
    exact eq_comm

theorem requestIds_modifyAsk (hid : ∀ ask, (f ask).requestId = ask.requestId) :
    (s.modifyAsk n f).requestIds = s.requestIds := by
  rw [requestIds, requestIds, State.modifyAsk]
  refine List.ext_getElem? fun m => ?_
  rw [List.getElem?_map, List.getElem?_map, List.getElem?_modify,
    Option.map_eq_map, Option.map_map]
  refine congrArg (Option.map · _) (funext fun ask => ?_)
  rw [Function.comp_apply]
  split
  · exact hid ask
  · rfl

theorem armed_modifyAsk_of_ne (h : m ≠ n) : (s.modifyAsk n f).Armed m ↔ s.Armed m := by
  constructor
  · rintro ⟨ask', hask, harmed⟩
    obtain ⟨ask, hat, rfl⟩ := getElem?_modifyAsk.mp hask
    rw [if_neg h] at harmed
    exact ⟨ask, hat, harmed⟩
  · rintro ⟨ask, hask, harmed⟩
    exact ⟨ask, getElem?_modifyAsk.mpr ⟨ask, hask, (if_neg h).symm⟩, harmed⟩

/-- A change of an entry that does not settle it, nor take its timer while it is in the map. -/
theorem Inv.modifyAsk (h : Inv s) (hid : ∀ ask, (f ask).requestId = ask.requestId)
    (houtcome : ∀ ask, (f ask).outcome = ask.outcome) (hthrew : ∀ ask, ask.threw → (f ask).threw)
    (harmed : ∀ ask, (f ask).armed → ask.armed)
    (hkeep : n ∈ s.pending.map Prod.snd → ∀ ask, (f ask).armed = ask.armed) : Inv (s.modifyAsk n f) := by
  have hids := requestIds_modifyAsk (s := s) (n := n) hid
  have hlength : (s.modifyAsk n f).asks.length = s.asks.length := List.length_modify ..
  have hold {m : Nat} {ask' : Ask α} (hask : (s.modifyAsk n f).asks[m]? = some ask') :
      ∃ ask, s.asks[m]? = some ask ∧ ask'.outcome = ask.outcome ∧ (ask.threw → ask'.threw) ∧
        (ask'.armed → ask.armed) := by
    obtain ⟨ask, hat, rfl⟩ := getElem?_modifyAsk.mp hask
    refine ⟨ask, hat, ?_⟩
    split
    · exact ⟨houtcome ask, hthrew ask, harmed ask⟩
    · exact ⟨rfl, fun h => h, fun h => h⟩
  have hnew {m : Nat} {ask : Ask α} (hask : s.asks[m]? = some ask) :
      ∃ ask', (s.modifyAsk n f).asks[m]? = some ask' ∧ ask'.outcome = ask.outcome ∧
        (ask.threw → ask'.threw) := by
    refine ⟨_, getElem?_modifyAsk.mpr ⟨ask, hask, rfl⟩, ?_⟩
    split
    · exact ⟨houtcome ask, hthrew ask⟩
    · exact ⟨rfl, fun h => h⟩
  constructor
  case nodup => exact h.nodup
  case pending =>
    intro p hp
    obtain ⟨hlatest, ask, hask, hon⟩ := h.pending p hp
    refine ⟨by rw [hids, hlength]; exact hlatest, _, getElem?_modifyAsk.mpr ⟨ask, hask, rfl⟩, ?_⟩
    split
    next heq =>
      rw [hkeep (List.mem_map.mpr ⟨p, hp, heq⟩)]
      exact hon
    next => exact hon
  case live =>
    intro m ask' hask hlive
    obtain ⟨ask, hask, hout, hth, har⟩ := hold hask
    rw [hout]
    exact (h.live m ask hask (hlive.imp_left har)).imp_right hth
  case taken =>
    intro r hr
    obtain ⟨hlatest, hoff⟩ := h.taken r hr
    refine ⟨by rw [hids]; exact hlatest, fun ⟨ask', hask, hon⟩ => ?_⟩
    obtain ⟨ask, hask, -, -, har⟩ := hold hask
    exact hoff ⟨ask, hask, har hon⟩
  case replies => exact h.replies
  case law =>
    constructor
    case once => exact h.law.once
    case outcome =>
      intro m hm
      obtain ⟨o, ho⟩ := Option.isSome_iff_exists.mp hm
      obtain ⟨ask', hask, ho⟩ := Option.bind_eq_some_iff.mp ho
      obtain ⟨ask, hat, hout, -⟩ := hold hask
      refine h.law.outcome m ?_
      rw [hat, Option.bind_some, ← hout, ho]
      rfl
    case recorded =>
      intro r hr
      obtain ⟨ask, hask, ho⟩ := h.law.recorded r hr
      obtain ⟨ask', hask, hout, -⟩ := hnew hask
      exact ⟨ask', hask, hout.trans ho⟩
    case repeated =>
      intro m hm
      obtain ⟨ask, hask, hth⟩ := h.law.repeated m hm
      obtain ⟨ask', hask, -, hth'⟩ := hnew hask
      exact ⟨ask', hask, hth' hth⟩
    case settles =>
      rw [hids]
      exact h.law.settles
    case removes =>
      rw [hids]
      exact h.law.removes

variable {cause : Cause α} {asked : Nat}

theorem armed_settle_outcome {outcome : Outcome α} :
    (s.modifyAsk n ({ · with outcome := some outcome })).Armed m ↔ s.Armed m := by
  constructor
  · rintro ⟨ask', hask, harmed⟩
    obtain ⟨ask, hat, rfl⟩ := getElem?_modifyAsk.mp hask
    refine ⟨ask, hat, ?_⟩
    split at harmed <;> exact harmed
  · rintro ⟨ask, hask, harmed⟩
    refine ⟨_, getElem?_modifyAsk.mpr ⟨ask, hask, rfl⟩, ?_⟩
    split <;> exact harmed

/-- An entry that nothing else will settle, or whose handler threw. -/
theorem Inv.settle (h : Inv s)
    (hready : ∀ ask, s.asks[n]? = some ask → ask.threw = true ∨
      ask.outcome = none ∧ ask.armed = false ∧ n ∉ s.replies.map (·.entry))
    (hown : Effect.Own s.requestIds ⟨n, cause, asked⟩) : Inv (s.settle n cause asked) := by
  rw [State.settle]
  split
  · exact h
  next ask hask =>
  cases hout : ask.outcome with
  | some outcome =>
    have hthrew : ask.threw = true :=
      (hready ask hask).resolve_right fun hnone => nomatch hnone.1.symm.trans hout
    refine ⟨h.nodup, h.pending, h.live, h.taken, h.replies, ?_⟩
    refine ⟨h.law.once, h.law.outcome, h.law.recorded, fun m hm => ?_, h.law.settles, h.law.removes⟩
    rcases List.mem_cons.mp hm with rfl | hm
    · exact ⟨ask, hask, hthrew⟩
    · exact h.law.repeated m hm
  | none =>
    have hids : (s.modifyAsk n ({ · with outcome := some cause.outcome })).requestIds = s.requestIds :=
      requestIds_modifyAsk fun _ => rfl
    have hlength : (s.modifyAsk n ({ · with outcome := some cause.outcome })).asks.length =
        s.asks.length := List.length_modify ..
    have hfresh : ∀ r ∈ s.settlements, r.entry ≠ n := by
      intro r hr heq
      obtain ⟨ask', hat, ho⟩ := h.law.recorded r hr
      rw [heq, hask] at hat
      rw [← Option.some.inj hat, hout] at ho
      exact nomatch ho
    have hself : (s.modifyAsk n ({ · with outcome := some cause.outcome })).asks[n]? =
        some { ask with outcome := some cause.outcome } :=
      getElem?_modifyAsk.mpr ⟨ask, hask, (if_pos rfl).symm⟩
    have hold {m : Nat} (hm : m ≠ n) :
        (s.modifyAsk n ({ · with outcome := some cause.outcome })).asks[m]? = s.asks[m]? := by
      refine Option.ext fun ask' => getElem?_modifyAsk.trans ?_
      simp only [if_neg hm, exists_eq_right']
    constructor
    case nodup => exact h.nodup
    case pending =>
      intro p hp
      obtain ⟨hlatest, harmed⟩ := h.pending p hp
      rw [← hids, ← hlength] at hlatest
      exact ⟨hlatest, armed_settle_outcome.mpr harmed⟩
    case live =>
      intro m ask' hask' hlive
      by_cases hm : m = n
      · subst hm
        obtain rfl := Option.some.inj (hself.symm.trans hask')
        refine .inr ((hready ask hask).resolve_right fun ⟨_, hoff, hnot⟩ => ?_)
        rcases hlive with hon | hmem
        · exact nomatch hoff.symm.trans hon
        · exact hnot hmem
      · exact h.live m ask' ((hold hm).symm.trans hask') hlive
    case taken =>
      intro r hr
      obtain ⟨hlatest, hoff⟩ := h.taken r hr
      exact ⟨hids ▸ hlatest, fun harmed => hoff (armed_settle_outcome.mp harmed)⟩
    case replies => exact h.replies
    case law =>
      constructor
      case once =>
        refine List.nodup_cons.mpr ⟨fun hmem => ?_, h.law.once⟩
        obtain ⟨r, hr, heq⟩ := List.mem_map.mp hmem
        exact hfresh r hr heq
      case outcome =>
        intro m hm
        by_cases heq : m = n
        · exact ⟨_, .head _, heq.symm⟩
        · obtain ⟨r, hr, hentry⟩ := h.law.outcome m (hold heq ▸ hm)
          exact ⟨r, .tail _ hr, hentry⟩
      case recorded =>
        intro r hr
        rcases List.mem_cons.mp hr with rfl | hr
        · exact ⟨_, hself, rfl⟩
        · obtain ⟨ask', hat, ho⟩ := h.law.recorded r hr
          exact ⟨ask', (hold (hfresh r hr)).trans hat, ho⟩
      case repeated =>
        intro m hm
        obtain ⟨ask', hat, hthrew⟩ := h.law.repeated m hm
        by_cases heq : m = n
        · subst heq
          obtain rfl := Option.some.inj (hask.symm.trans hat)
          exact ⟨_, hself, hthrew⟩
        · exact ⟨ask', (hold heq).trans hat, hthrew⟩
      case settles =>
        intro r hr
        rcases List.mem_cons.mp hr with rfl | hr
        · exact hids ▸ hown
        · exact hids ▸ h.law.settles r hr
      case removes => exact fun r hr => hids ▸ h.law.removes r hr

theorem Inv.emit (h : Inv s) (projectId : Option String) (emission : String → Emission) :
    Inv (s.emit projectId emission) := by
  unfold State.emit
  split
  · split
    · refine ⟨h.nodup, h.pending, h.live, h.taken, h.replies, ?_⟩
      exact ⟨h.law.once, h.law.outcome, h.law.recorded, h.law.repeated, h.law.settles, h.law.removes⟩
    · exact h
  · exact h

theorem mem_of_get {requestId : String} (h : s.get requestId = some n) : (requestId, n) ∈ s.pending := by
  obtain ⟨p, hp, rfl⟩ := Option.map_eq_some_iff.mp h
  have hkey := List.find?_some hp
  rw [← of_decide_eq_true hkey]
  exact List.mem_of_find?_eq_some hp

/-- One id for each entry in the map. -/
theorem Inv.key_eq (h : Inv s) (hp : p ∈ s.pending) (hq : q ∈ s.pending) (heq : p.2 = q.2) : p.1 = q.1 := by
  have hq := (h.pending q hq).1.eq
  rw [← heq, (h.pending p hp).1.eq] at hq
  exact Option.some.inj hq

theorem Inv.entry_eq (h : Inv s) (hp : p ∈ s.pending) (hq : q ∈ s.pending) (heq : p.1 = q.1) : p = q :=
  List.inj_on_of_nodup_map h.nodup hp hq heq

theorem Inv.delete {requestId : String} (h : Inv s)
    (hown : ∀ p ∈ s.pending, p.1 = requestId → Effect.Own s.requestIds ⟨p.2, cause, s.asks.length⟩) :
    Inv (s.delete requestId cause) where
  nodup := h.nodup.sublist ((List.filter_sublist).map _)
  pending p hp := h.pending p (List.mem_of_mem_filter hp)
  live := h.live
  taken := h.taken
  replies := h.replies
  law := by
    refine ⟨h.law.once, h.law.outcome, h.law.recorded, h.law.repeated, h.law.settles, fun r hr => ?_⟩
    rcases List.mem_append.mp hr with hr | hr
    · obtain ⟨p, hp, rfl⟩ := List.mem_map.mp hr
      obtain ⟨hp, hkey⟩ := List.mem_filter.mp hp
      exact hown p hp (of_decide_eq_true hkey)
    · exact h.law.removes r hr

theorem Inv.not_mem_delete {requestId : String} (h : Inv s) (hget : s.get requestId = some n) :
    n ∉ (s.delete requestId cause).pending.map Prod.snd := by
  intro hmem
  obtain ⟨p, hp, rfl⟩ := List.mem_map.mp hmem
  obtain ⟨hp, hne⟩ := List.mem_filter.mp hp
  exact of_decide_eq_true hne (h.key_eq hp (mem_of_get hget) rfl)

theorem Inv.clearPendingTimeout (h : Inv s) (hn : n ∉ s.pending.map Prod.snd) :
    Inv (s.clearPendingTimeout n) :=
  h.modifyAsk (fun _ => rfl) (fun _ => rfl) (fun _ h => h) (fun _ h => nomatch h) fun hmem => absurd hmem hn

theorem not_armed_clearPendingTimeout : ¬(s.clearPendingTimeout n).Armed n := by
  rintro ⟨ask', hask, harmed⟩
  obtain ⟨ask, -, rfl⟩ := getElem?_modifyAsk.mp hask
  rw [if_pos rfl] at harmed
  exact nomatch harmed

theorem requestIds_clearPendingTimeout : (s.clearPendingTimeout n).requestIds = s.requestIds :=
  requestIds_modifyAsk fun _ => rfl

/-- An entry with its timer that is not in the map is not with a reply either. -/
theorem Inv.not_mem_replies (h : Inv s) (harmed : s.Armed n) : n ∉ s.replies.map (·.entry) := by
  intro hmem
  obtain ⟨r, hr, rfl⟩ := List.mem_map.mp hmem
  exact (h.taken r hr).2 harmed

/-- The timer is cleared, and the entry is settled. -/
theorem Inv.finish (h : Inv s) (harmed : s.Armed n) (hn : n ∉ s.pending.map Prod.snd)
    (hown : Effect.Own s.requestIds ⟨n, cause, asked⟩) :
    Inv ((s.clearPendingTimeout n).settle n cause asked) := by
  refine (h.clearPendingTimeout hn).settle (fun ask' hask => ?_)
    (by rw [requestIds_clearPendingTimeout]; exact hown)
  obtain ⟨ask, hat, rfl⟩ := getElem?_modifyAsk.mp hask
  rw [if_pos rfl]
  obtain ⟨ask', hat', hon⟩ := harmed
  obtain rfl := Option.some.inj (hat.symm.trans hat')
  rcases h.live n ask hat (.inl hon) with hnone | hthrew
  · exact .inr ⟨hnone, rfl, h.not_mem_replies ⟨ask, hat, hon⟩⟩
  · exact .inl hthrew

/-! ## Steps -/

theorem Inv.register {new : Ask α} (h : Inv s) (harmed : new.armed = true) (hnone : new.outcome = none) :
    Inv { s with asks := s.asks ++ [new],
                 pending := put Prod.fst s.pending (new.requestId, s.asks.length) } := by
  have hids : (s.asks ++ [new]).map (·.requestId) = s.requestIds ++ [new.requestId] := List.map_append
  have hcount : s.requestIds.length = s.asks.length := List.length_map ..
  have hlength : (s.asks ++ [new]).length = s.asks.length + 1 := List.length_append
  have hold {m : Nat} {ask : Ask α} (hask : s.asks[m]? = some ask) :
      (s.asks ++ [new])[m]? = some ask := by
    rw [List.getElem?_append_left (List.getElem?_eq_some_iff.mp hask).1, hask]
  have hself : (s.asks ++ [new])[s.asks.length]? = some new := List.getElem?_concat_length
  have hcases {m : Nat} {ask : Ask α} (hask : (s.asks ++ [new])[m]? = some ask) :
      s.asks[m]? = some ask ∨ m = s.asks.length ∧ ask = new := by
    rw [List.getElem?_append] at hask
    split at hask
    · exact .inl hask
    next hlt =>
      rw [List.getElem?_singleton] at hask
      split at hask
      · exact .inr ⟨by omega, (Option.some.inj hask).symm⟩
      · exact nomatch hask
  have hlast : (s.requestIds ++ [new.requestId])[s.asks.length]? = some new.requestId := by
    rw [← hcount]
    exact List.getElem?_concat_length
  constructor
  case nodup =>
    rw [map_keyOf_put]
    split
    next => exact h.nodup
    next hnot =>
      refine List.nodup_append.mpr ⟨h.nodup, List.nodup_singleton _, fun key hkey key' hkey' => ?_⟩
      rw [List.mem_singleton.mp hkey']
      exact fun heq => hnot (heq ▸ hkey)
  case pending =>
    intro p hp
    rw [requestIds, hids, hlength]
    rcases mem_put.mp hp with ⟨hp, hne⟩ | rfl
    · obtain ⟨hlatest, ask, hask, hon⟩ := h.pending p hp
      refine ⟨⟨Nat.lt_succ_of_lt hlatest.lt, by simp [hcount], (hlatest.append _).eq, fun m hm hid => ?_⟩,
        ask, hold hask, hon⟩
      -- The new entry has another id.
      rcases Nat.lt_succ_iff_lt_or_eq.mp hm with hm | rfl
      · refine hlatest.last m hm ?_
        rwa [List.getElem?_append_left (hcount ▸ hm)] at hid
      · exact absurd (Option.some.inj (hlast.symm.trans hid)).symm hne
    · exact ⟨⟨Nat.lt_succ_self _, by simp [hcount], hlast, fun m hm _ => Nat.le_of_lt_succ hm⟩,
        new, hself, harmed⟩
  case live =>
    intro m ask hask hlive
    rcases hcases hask with hask | ⟨rfl, rfl⟩
    · exact h.live m ask hask hlive
    · exact .inl hnone
  case taken =>
    intro r hr
    obtain ⟨hlatest, hoff⟩ := h.taken r hr
    refine ⟨by rw [requestIds, hids]; exact hlatest.append _, fun ⟨ask, hask, hon⟩ => ?_⟩
    rcases hcases hask with hask | ⟨heq, -⟩
    · exact hoff ⟨ask, hask, hon⟩
    · have hlt := Nat.lt_of_lt_of_le hlatest.lt hlatest.le
      rw [heq, hcount] at hlt
      exact Nat.lt_irrefl _ hlt
  case replies => exact h.replies
  case law =>
    refine ⟨h.law.once, fun m hm => ?_, fun r hr => ?_, fun m hm => ?_, fun r hr => ?_, fun r hr => ?_⟩
    · obtain ⟨outcome, ho⟩ := Option.isSome_iff_exists.mp hm
      obtain ⟨ask, hask, hout⟩ := Option.bind_eq_some_iff.mp ho
      rcases hcases hask with hask | ⟨-, rfl⟩
      · refine h.law.outcome m ?_
        rw [hask, Option.bind_some, hout]
        rfl
      · exact nomatch hnone.symm.trans hout
    · obtain ⟨ask, hask, ho⟩ := h.law.recorded r hr
      exact ⟨ask, hold hask, ho⟩
    · obtain ⟨ask, hask, hthrew⟩ := h.law.repeated m hm
      exact ⟨ask, hold hask, hthrew⟩
    · rw [requestIds, hids]
      exact (h.law.settles r hr).append _
    · rw [requestIds, hids]
      exact (h.law.removes r hr).append _

theorem Inv.ask (h : Inv s) (requestId : String) (projectId : Option String) :
    Inv (ask s requestId projectId) :=
  Inv.emit (h.register rfl rfl) _ _

theorem Inv.handled (h : Inv s) {throws : Bool} (hstep : handled s n throws = some t) : Inv t := by
  rw [QuestionBridge.handled] at hstep
  split at hstep
  next ask hask =>
    rw [Option.ite_none_right_eq_some] at hstep
    obtain ⟨-, hstep⟩ := hstep
    split at hstep
    · obtain rfl := Option.some.inj hstep
      have hthrew := h.modifyAsk (n := n) (f := ({ · with handling := false, threw := true })) (fun _ => rfl)
        (fun _ => rfl) (fun _ _ => rfl) (fun _ h => h) fun _ _ => rfl
      refine hthrew.settle (fun ask' hask' => .inl ?_) rfl
      obtain ⟨ask, -, rfl⟩ := getElem?_modifyAsk.mp hask'
      rw [if_pos rfl]
    · obtain rfl := Option.some.inj hstep
      exact h.modifyAsk (fun _ => rfl) (fun _ => rfl) (fun _ h => h) (fun _ h => h) fun _ _ => rfl
  next => exact nomatch hstep

theorem Inv.get_eq {requestId : String} (h : Inv s) (hmem : (requestId, n) ∈ s.pending) :
    s.get requestId = some n := by
  cases hget : s.get requestId with
  | none =>
    have hall := List.find?_eq_none.mp (Option.map_eq_none_iff.mp hget) _ hmem
    exact absurd (decide_eq_true rfl) hall
  | some m => exact congrArg (fun p => some p.2) (h.entry_eq (mem_of_get hget) hmem rfl)

/-- The timer removes its own entry, if it is still in the map. -/
theorem Inv.timeout (h : Inv s) (hstep : timeout s n = some t) : Inv t := by
  rw [QuestionBridge.timeout] at hstep
  split at hstep
  next ask hask =>
    rw [Option.ite_none_right_eq_some] at hstep
    obtain ⟨hon, hstep⟩ := hstep
    obtain rfl := Option.some.inj hstep
    by_cases hget : s.get ask.requestId = some n
    · rw [if_pos hget]
      have hdelete : Inv (s.delete ask.requestId (.timeout n)) := h.delete fun p hp hkey =>
        congrArg Prod.snd (h.entry_eq hp (mem_of_get hget) hkey)
      exact hdelete.finish ⟨ask, hask, hon⟩ (h.not_mem_delete hget) rfl
    · rw [if_neg hget]
      refine h.finish ⟨ask, hask, hon⟩ (fun hmem => hget ?_) rfl
      obtain ⟨p, hp, rfl⟩ := List.mem_map.mp hmem
      have hid := (h.pending p hp).1.eq
      rw [requestIds, List.getElem?_map, hask] at hid
      rw [show ask.requestId = p.1 from Option.some.inj hid]
      exact h.get_eq hp
  next => exact nomatch hstep

theorem length_clearPendingTimeout : (s.clearPendingTimeout n).asks.length = s.asks.length :=
  List.length_modify ..

theorem Inv.reply (h : Inv s) (requestId : String) (answers : List α) :
    Inv (reply s requestId answers) := by
  rw [QuestionBridge.reply]
  split
  next => exact h
  next n hget =>
    obtain ⟨hlatest, harmed⟩ := h.pending _ (mem_of_get hget)
    have hdelete : Inv (s.delete requestId (.reply requestId answers)) :=
      h.delete fun p hp hkey => hkey ▸ (h.pending p hp).1
    have hclear := hdelete.clearPendingTimeout (h.not_mem_delete hget)
    have hnew := h.not_mem_replies harmed
    refine Inv.emit ?_ _ _
    refine ⟨hclear.nodup, hclear.pending, ?_, ?_, ?_, ?_⟩
    · intro m ask' hask hlive
      rw [List.map_append, List.mem_append, ← or_assoc] at hlive
      rcases hlive with hlive | hlive
      · exact hclear.live m ask' hask hlive
      · obtain rfl := List.mem_singleton.mp hlive
        obtain ⟨ask, hat, rfl⟩ := getElem?_modifyAsk.mp hask
        rw [if_pos rfl]
        obtain ⟨ask', hat', hon⟩ := harmed
        obtain rfl := Option.some.inj (hat.symm.trans hat')
        exact h.live _ ask hat (.inl hon)
    · intro r hr
      rcases List.mem_append.mp hr with hr | hr
      · exact hclear.taken r hr
      · rw [List.mem_singleton.mp hr]
        refine ⟨?_, not_armed_clearPendingTimeout⟩
        have hids := requestIds_clearPendingTimeout (s := s.delete requestId (.reply requestId answers)) (n := n)
        have hlength := length_clearPendingTimeout (s := s.delete requestId (.reply requestId answers)) (n := n)
        exact hids.symm ▸ hlength.symm ▸ hlatest
    · rw [List.map_append]
      refine List.nodup_append.mpr ⟨hclear.replies, List.nodup_singleton _, fun m hm m' hm' heq => ?_⟩
      rw [heq, List.mem_singleton.mp hm'] at hm
      exact hnew hm
    · exact ⟨hclear.law.once, hclear.law.outcome, hclear.law.recorded, hclear.law.repeated,
        hclear.law.settles, hclear.law.removes⟩

theorem Inv.resolve (h : Inv s) (hstep : resolve s n = some t) : Inv t := by
  rw [QuestionBridge.resolve] at hstep
  split at hstep
  next r hfind =>
    obtain rfl := Option.some.inj hstep
    have hr := List.mem_of_find?_eq_some hfind
    have hentry : r.entry = n := by
      have hkey := List.find?_some hfind
      exact of_decide_eq_true hkey
    subst hentry
    have hrest {m : Nat} (hm : m ∈ (s.replies.filter (·.entry ≠ r.entry)).map (·.entry)) :
        m ∈ s.replies.map (·.entry) ∧ m ≠ r.entry := by
      obtain ⟨r', hr', rfl⟩ := List.mem_map.mp hm
      obtain ⟨hr', hne⟩ := List.mem_filter.mp hr'
      exact ⟨List.mem_map_of_mem hr', of_decide_eq_true hne⟩
    obtain ⟨hlatest, hoff⟩ := h.taken r hr
    refine Inv.settle ⟨h.nodup, h.pending, ?_, ?_, ?_, ?_⟩ (fun ask hask => ?_) hlatest
    · exact fun m ask hask hlive => h.live m ask hask (hlive.imp_right fun hm => (hrest hm).1)
    · exact fun r' hr' => h.taken r' (List.mem_of_mem_filter hr')
    · exact h.replies.sublist ((List.filter_sublist).map _)
    · exact ⟨h.law.once, h.law.outcome, h.law.recorded, h.law.repeated, h.law.settles, h.law.removes⟩
    · rcases h.live _ ask hask (.inr (List.mem_map_of_mem hr)) with hnone | hthrew
      · refine .inr ⟨hnone, Bool.eq_false_iff.mpr fun hon => hoff ⟨ask, hask, hon⟩, fun hm => ?_⟩
        exact (hrest hm).2 rfl
      · exact .inl hthrew
  next => exact nomatch hstep

/-! ## Rejections -/

theorem pending_settle : (s.settle n cause asked).pending = s.pending := by
  rw [State.settle]
  split
  · rfl
  · split <;> rfl

theorem requestIds_settle : (s.settle n cause asked).requestIds = s.requestIds := by
  rw [State.settle]
  split
  · rfl
  · split
    · rfl
    · exact requestIds_modifyAsk (s := s) fun _ => rfl

theorem armed_settle : (s.settle n cause asked).Armed m ↔ s.Armed m := by
  rw [State.settle]
  split
  · exact Iff.rfl
  · split
    · exact Iff.rfl
    · exact armed_settle_outcome

theorem length_requestIds (s : State α) : s.requestIds.length = s.asks.length := List.length_map ..

theorem requestIds_dismiss {requestId : Option String} :
    (dismiss requestId s n).requestIds = s.requestIds := by
  rw [dismiss, requestIds_settle, requestIds_clearPendingTimeout]

theorem length_asks_dismiss {requestId : Option String} :
    (dismiss requestId s n).asks.length = s.asks.length := by
  rw [← length_requestIds, requestIds_dismiss, length_requestIds]

theorem Inv.dismiss {requestId : Option String} (h : Inv s) (harmed : s.Armed n)
    (hn : n ∉ s.pending.map Prod.snd)
    (hown : Effect.Own s.requestIds (⟨n, .reject requestId, s.asks.length⟩ : Effect α)) :
    Inv (dismiss requestId s n) :=
  h.finish harmed hn hown

theorem Inv.foldl_dismiss {requestId : Option String} {entries : List Nat} (h : Inv s)
    (hnodup : entries.Nodup) (harmed : ∀ n ∈ entries, s.Armed n) (hpending : s.pending = [])
    (hown : ∀ n ∈ entries, Effect.Own s.requestIds (⟨n, .reject requestId, s.asks.length⟩ : Effect α)) :
    Inv (entries.foldl (QuestionBridge.dismiss requestId) s) := by
  induction entries generalizing s with
  | nil => exact h
  | cons n entries ih =>
    rw [List.nodup_cons] at hnodup
    obtain ⟨hn, hnodup⟩ := hnodup
    rw [List.forall_mem_cons] at harmed hown
    have hnot : n ∉ s.pending.map Prod.snd := by
      rw [hpending]
      exact List.not_mem_nil
    refine ih (h.dismiss harmed.1 hnot hown.1) hnodup (fun m hm => ?_) ?_ fun m hm => ?_
    · have hne : m ≠ n := fun heq => hn (heq ▸ hm)
      exact armed_settle.mpr ((armed_modifyAsk_of_ne hne).mpr (harmed.2 m hm))
    · rw [QuestionBridge.dismiss, pending_settle]
      exact hpending
    · rw [requestIds_dismiss, length_asks_dismiss]
      exact hown.2 m hm

theorem Inv.rejectAll {requestId : Option String} (h : Inv s)
    (hown : ∀ p ∈ s.pending,
      Effect.Own s.requestIds (⟨p.2, .reject requestId, s.asks.length⟩ : Effect α)) :
    Inv ((s.pending.map (·.2)).foldl (QuestionBridge.dismiss requestId)
      { s with pending := [],
               removals := (s.pending.map (·.2)).map (⟨·, .reject requestId, s.asks.length⟩) ++
                 s.removals }) := by
  have hown' : ∀ n ∈ s.pending.map (·.2),
      Effect.Own s.requestIds (⟨n, .reject requestId, s.asks.length⟩ : Effect α) := by
    intro n hn
    obtain ⟨p, hp, rfl⟩ := List.mem_map.mp hn
    exact hown p hp
  refine Inv.foldl_dismiss ⟨List.nodup_nil, nofun, h.live, h.taken, h.replies, ?_⟩ ?_ (fun n hn => ?_) rfl
    hown'
  · refine ⟨h.law.once, h.law.outcome, h.law.recorded, h.law.repeated, h.law.settles, fun r hr => ?_⟩
    rcases List.mem_append.mp hr with hr | hr
    · obtain ⟨n, hn, rfl⟩ := List.mem_map.mp hr
      exact hown' n hn
    · exact h.law.removes r hr
  · refine (List.Nodup.of_map Prod.fst h.nodup).map_on fun p hp q hq heq => ?_
    exact h.entry_eq hp hq (h.key_eq hp hq heq)
  · obtain ⟨p, hp, rfl⟩ := List.mem_map.mp hn
    exact (h.pending p hp).2

/-- The empty id stands for all entries, so it may only be given where all have the empty id. -/
def Named (s : State α) : Event α → Prop
  | .reject requestId => requestId = some "" → ∀ p ∈ s.pending, p.1 = ""
  | _ => True

instance : (s : State α) → (e : Event α) → Decidable (Named s e)
  | s, .reject requestId =>
    inferInstanceAs (Decidable (requestId = some "" → ∀ p ∈ s.pending, p.1 = ""))
  | _, .setEventBus | _, .setActiveProject _ | _, .ask .. | _, .handled .. | _, .timeout _
  | _, .reply .. | _, .resolve _ => .isTrue trivial

theorem Inv.reject {requestId : Option String} (h : Inv s) (hnamed : Named s (.reject requestId)) :
    Inv (reject s requestId) := by
  rw [QuestionBridge.reject]
  split
  next id hid =>
    obtain ⟨rfl, -⟩ := Option.filter_eq_some_iff.mp hid
    split
    next => exact h
    next n hget =>
      have hdelete : Inv (s.delete id (.reject (some id))) :=
        h.delete fun p hp hkey => hkey ▸ (h.pending p hp).1
      exact hdelete.dismiss (h.pending _ (mem_of_get hget)).2 (h.not_mem_delete hget)
        (h.pending _ (mem_of_get hget)).1
  next hid =>
    refine h.rejectAll fun p hp => ?_
    cases requestId with
    | none => trivial
    | some id =>
      have hempty : id = "" := by simpa [Option.filter] using hid
      subst hempty
      exact hnamed rfl p hp ▸ (h.pending p hp).1

theorem Inv.next {e : Event α} (h : Inv s) (hnamed : Named s e) (hstep : next s e = some t) : Inv t := by
  cases e with
  | setEventBus | setActiveProject =>
    obtain rfl := Option.some.inj hstep
    refine ⟨h.nodup, h.pending, h.live, h.taken, h.replies, ?_⟩
    exact ⟨h.law.once, h.law.outcome, h.law.recorded, h.law.repeated, h.law.settles, h.law.removes⟩
  | ask requestId projectId =>
    obtain rfl := Option.some.inj hstep
    exact h.ask requestId projectId
  | handled n throws => exact h.handled hstep
  | timeout n => exact h.timeout hstep
  | reply requestId answers =>
    obtain rfl := Option.some.inj hstep
    exact h.reply requestId answers
  | resolve n => exact h.resolve hstep
  | reject requestId =>
    obtain rfl := Option.some.inj hstep
    exact h.reject hnamed

theorem inv_start : Inv ({} : State α) := by
  refine ⟨List.nodup_nil, nofun, nofun, nofun, List.nodup_nil, ?_⟩
  constructor
  case once => exact List.nodup_nil
  case outcome => exact fun _ hsome => nomatch hsome
  all_goals exact nofun

/-- In every run in which no rejection with an empty id meets an entry with another id. -/
theorem deliversOnce_of_named {es : List (Event α)}
    (h : Run (Guarded (Fires next) Named) {} es s) : DeliversOnce s := by
  have hpreserves : Preserves (Guarded (Fires QuestionBridge.next) Named) (Inv (α := α)) :=
    fun _ _ _ hstep hinv => hinv.next hstep.2 hstep.1
  exact (h.invariant hpreserves inv_start).law

end

/-- The id is asked twice, the first timer fires, and the second question is answered. -/
def sampleRun : List (Event String) :=
  [.ask "q" none, .handled 0 false, .ask "q" (some "p"), .handled 1 false, .timeout 0, .reply "q" ["yes"],
    .resolve 1, .ask "" none, .reject (some "")]

theorem deliversOnce_sample : ∃ s, exec next {} sampleRun = some s ∧ DeliversOnce s :=
  ⟨_, rfl, @deliversOnce_of_named _ _ sampleRun (.of_exec_guardedNext rfl)⟩

/-- A rejection with the empty id settles a question with another one. -/
theorem not_forall_deliversOnce :
    ¬∀ (es : List (Event String)) s, Run (Fires next) {} es s → DeliversOnce s := by
  intro h
  have hlaw := h [.ask "q" none, .reject (some "")] _ (.of_exec rfl)
  have hown := hlaw.settles ⟨0, .reject (some ""), 1⟩ (.head _)
  exact absurd hown.eq (by decide)

end OpenLander.QuestionBridge
