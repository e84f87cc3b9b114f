import OpenLander.Compose.Interpolate
import OpenLander.Pipeline.ListBackups
import OpenLander.Theory.Json
import OpenLander.Theory.LineStream
import OpenLander.Theory.Run
import OpenLander.Theory.Utf8

/-! # Docker events

`DockerEventListener` (`src/monitor/docker-events.ts`) reads the event stream of Docker line by line and
reports crashes of containers. An event is handled up to its first query as soon as its line has arrived.
What follows waits for the database, and handlers of other events run in between.

The answers of the database are events of the system, with any content. A `Board` is what can be seen of
the listener: what it did with which event, who is waiting for the database, and the reports. -/

namespace OpenLander.DockerEvents
open Theory

abbrev Text := List Char

def DEBOUNCE_MS : Nat := 30000

/-- An OOM is always before the exit that it causes. -/
def OOM_DIE_DEDUP_MS : Nat := 5000

def TTL_PRUNE_INTERVAL_MS : Nat := 60000

def LABEL_PROJECT : Text := "openlander.project".toList

def LABEL_SERVICE : Text := "openlander.service".toList

/-! ## Events -/

structure DockerEvent where
  action : Text
  id : Text
  attributes : List (Text × Text)
  deriving DecidableEq, Repr

def textOf : Json → Option Text
  | .string text => some text
  | _ => none

def DockerEvent.ofJson (json : Json) : Option DockerEvent :=
  (json.get "Actor".toList).bind fun actor =>
    ((actor.get "ID".toList).bind textOf).bind fun id =>
      match actor.get "Attributes".toList with
      | some (.object members) => some {
          action := ((json.get "Action".toList).bind textOf).getD []
          id
          attributes := members.filterMap fun m => (textOf m.2).map (Prod.mk m.1) }
      | _ => none

/-- The event of a line, if it is one of Docker's. -/
def parseEvent (line : Text) : Option DockerEvent :=
  let trimmed := Compose.trim line
  if trimmed = [] then none else (Json.parse trimmed).bind DockerEvent.ofJson

namespace DockerEvent

/-- Of attributes with one name the last one counts. -/
def attr (event : DockerEvent) (key : Text) : Option Text :=
  (event.attributes.reverse.find? (·.1 = key)).map (·.2)

def containerName (event : DockerEvent) : Text :=
  let name := (event.attr "name".toList).getD []
  if name.head? = some '/' then name.tail else name

/-- `parseInt(attrs['exitCode'] ?? '0', 10)` -/
def exitCode (event : DockerEvent) : Option Int :=
  ServiceManager.parseInt ((event.attr "exitCode".toList).getD ['0'])

/-- The name that `resolveProjectId` looks up. Containers of services have none. -/
def projectName (event : DockerEvent) : Option Text :=
  ((event.attr LABEL_PROJECT).filter (· ≠ [])).filter fun _ =>
    ((event.attr LABEL_SERVICE).filter (· ≠ [])).isNone

end DockerEvent

/-! ## What can be seen -/

inductive Kind
  | oom
  /-- The code is `none` if it is no number. -/
  | die (exitCode : Option Int)
  deriving DecidableEq, Repr

/-- The query that a handler waits for. -/
inductive Stage
  | getProjectByName (name : Text)
  | getProject (projectId : Text)
  | loadServiceView (projectId : Text) (archived : Bool)
  deriving DecidableEq, Repr

structure Handler where
  /-- Which of the events handled it is about. -/
  event : Nat
  kind : Kind
  containerId : Text
  containerName : Text
  stage : Stage
  arrivedAt : Nat
  /-- How many reports there were when the event arrived. -/
  before : Nat
  deriving DecidableEq, Repr

structure Report where
  event : Nat
  kind : Kind
  projectId : Text
  containerId : Text
  containerName : Text
  arrivedAt : Nat
  before : Nat
  reportedAt : Nat
  deriving DecidableEq, Repr

inductive Outcome
  | oom
  | start
  /-- The exit code is zero. -/
  | exited
  /-- The exit that an OOM caused. -/
  | afterOom
  | debounced
  | crashed
  | unknown
  deriving DecidableEq, Repr

structure Handled where
  event : DockerEvent
  handledAt : Nat
  outcome : Outcome
  deriving DecidableEq, Repr

structure Board where
  now : Nat
  lineBuf : Text := []
  handled : List Handled := []
  inFlight : List Handler := []
  reports : List Report := []
  deriving DecidableEq, Repr

namespace Board

def note (b : Board) (event : DockerEvent) (outcome : Outcome) : Board :=
  { b with handled := b.handled ++ [⟨event, b.now, outcome⟩] }

/-- The handler goes on behind the first query, if there is a project to look up. -/
def resolveProjectId (b : Board) (event : DockerEvent) (kind : Kind) : Board :=
  match event.projectName with
  | none => b
  | some name => { b with inFlight := b.inFlight ++ [{
      event := b.handled.length
      kind
      containerId := event.id
      containerName := event.containerName
      stage := .getProjectByName name
      arrivedAt := b.now
      before := b.reports.length }] }

def finish (b : Board) (i : Nat) : Board := { b with inFlight := b.inFlight.eraseIdx i }

def await (b : Board) (i : Nat) (h : Handler) (stage : Stage) : Board :=
  { b with inFlight := b.inFlight.set i { h with stage } }

def emit (b : Board) (h : Handler) (projectId : Text) : Board :=
  { b with reports := b.reports ++ [{
      event := h.event
      kind := h.kind
      projectId
      containerId := h.containerId
      containerName := h.containerName
      arrivedAt := h.arrivedAt
      before := h.before
      reportedAt := b.now }] }

end Board

/-! ## The listener -/

structure State extends Board where
  recentCrashes : Text → Option Nat := fun _ => none
  recentOoms : Text → Option Nat := fun _ => none
  lastPruneAt : Nat

/-- A time is set and is less than `window` ago. The time 0 counts as none. -/
def recent (window now : Nat) (time : Option Nat) : Bool :=
  time.any fun t => t ≠ 0 && now - t < window

/-- `map.set(id, time)`, or `map.delete(id)` for `none`. -/
def assign (id : Text) (time : Option Nat) (map : Text → Option Nat) : Text → Option Nat :=
  fun id' => if id' = id then time else map id'

/-- The times that are at most `window` ago. -/
def prune (window now : Nat) (map : Text → Option Nat) : Text → Option Nat :=
  fun id => (map id).filter fun t => !decide (window < now - t)

namespace State

def handleOom (s : State) (event : DockerEvent) : State :=
  { s with
    toBoard := (s.toBoard.resolveProjectId event .oom).note event .oom
    recentOoms := assign event.id (some s.now) s.recentOoms }

def handleDie (s : State) (event : DockerEvent) : State :=
  if event.exitCode = some 0 then { s with toBoard := s.toBoard.note event .exited }
  else if recent OOM_DIE_DEDUP_MS s.now (s.recentOoms event.id) then
    { s with
      toBoard := s.toBoard.note event .afterOom
      recentOoms := assign event.id none s.recentOoms }
  else if recent DEBOUNCE_MS s.now (s.recentCrashes event.id) then
    { s with toBoard := s.toBoard.note event .debounced }
  else
    { s with toBoard := (s.toBoard.resolveProjectId event (.die event.exitCode)).note event .crashed }

def handleStart (s : State) (event : DockerEvent) : State :=
  { s with
    toBoard := s.toBoard.note event .start
    recentOoms := assign event.id none s.recentOoms }

def handleEvent (s : State) (event : DockerEvent) : State :=
  if event.action = "oom".toList then s.handleOom event
  else if event.action = "die".toList then s.handleDie event
  else if event.action = "start".toList then s.handleStart event
  else { s with toBoard := s.toBoard.note event .unknown }

def pruneStaleEntries (s : State) : State :=
  if s.now - s.lastPruneAt < TTL_PRUNE_INTERVAL_MS then s
  else { s with
    lastPruneAt := s.now
    recentCrashes := prune DEBOUNCE_MS s.now s.recentCrashes
    recentOoms := prune OOM_DIE_DEDUP_MS s.now s.recentOoms }

def processChunk (s : State) (chunk : List UInt8) : State :=
  let lines := LineStream.cut (s.lineBuf ++ Utf8.decode chunk)
  ((lines.1.filterMap parseEvent).foldl handleEvent { s with lineBuf := lines.2 }).pruneStaleEntries

end State

inductive Reply
  | failed
  | getProjectByName (projectId : Option Text)
  /-- Of the project only whether it is archived is read. -/
  | getProject (archived : Option Bool)
  | loadServiceView (status : Text) (containerId : Option Text)
  deriving DecidableEq, Repr

/-- The project of the report that the view calls for, if it calls for one. An exit counts only for the
active container, where there is one. -/
def Handler.report (h : Handler) (status : Text) (containerId : Option Text) : Option Text :=
  match h.stage with
  | .loadServiceView projectId archived =>
    let active := match h.kind with
      | .oom => true
      | .die _ => (containerId.filter (· ≠ [])).all (· = h.containerId)
    if active && status = "running".toList && !archived then some projectId else none
  | _ => none

def Board.reply (b : Board) (i : Nat) (h : Handler) : Reply → Option Board
  | .failed => some (b.finish i)
  | .getProjectByName projectId =>
    match h.stage with
    | .getProjectByName _ =>
      match projectId.filter (· ≠ []) with
      | none => some (b.finish i)
      | some projectId => some (b.await i h (.getProject projectId))
    | _ => none
  | .getProject archived =>
    match h.stage with
    | .getProject projectId =>
      match archived with
      | none => some (b.finish i)
      | some archived => some (b.await i h (.loadServiceView projectId archived))
    | _ => none
  | .loadServiceView status containerId =>
    match h.stage with
    | .loadServiceView _ _ =>
      match h.report status containerId with
      | none => some (b.finish i)
      | some projectId => some ((b.emit h projectId).finish i)
    | _ => none

/-- `recentCrashes.set(containerId, Date.now())` for a crash that is reported. -/
def State.remember (s : State) (h : Handler) : Reply → Text → Option Nat
  | .loadServiceView status containerId =>
    if h.kind ≠ .oom ∧ (h.report status containerId).isSome then
      assign h.containerId (some s.now) s.recentCrashes
    else s.recentCrashes
  | _ => s.recentCrashes

def State.reply (s : State) (i : Nat) (h : Handler) (r : Reply) : Option State :=
  (s.toBoard.reply i h r).map fun b => { s with toBoard := b, recentCrashes := s.remember h r }

inductive Event
  | tick (ms : Nat)
  /-- A new stream is connected. -/
  | connect
  | data (chunk : List UInt8)
  /-- The query of a handler in flight is answered. -/
  | reply (i : Nat) (r : Reply)

def next (s : State) : Event → Option State
  | .tick ms => some { s with now := s.now + ms }
  | .connect => some { s with lineBuf := [] }
  | .data chunk => some (s.processChunk chunk)
  | .reply i r => (s.inFlight[i]?).bind fun h => s.reply i h r

def State.start (now : Nat) : State := { now, lastPruneAt := now }

/-! ## The listener that forgets nothing -/

/-- What an event leaves behind of the last OOM of a container. -/
def markOom (id : Text) (time : Option Nat) (x : Handled) : Option Nat :=
  if x.event.id = id then
    match x.outcome with
    | .oom => some x.handledAt
    | .start | .afterOom => none
    | _ => time
  else time

/-- The time of the last OOM of a container that has neither started since nor exited after it. -/
def lastOom (handled : List Handled) (id : Text) : Option Nat := handled.foldl (markOom id) none

def markCrash (id : Text) (time : Option Nat) (r : Report) : Option Nat :=
  if r.containerId = id ∧ r.kind ≠ .oom then some r.reportedAt else time

/-- The time of the last report of a crash of a container. -/
def lastCrash (reports : List Report) (id : Text) : Option Nat := reports.foldl (markCrash id) none

namespace Board

/-- What becomes of an event, in view of all that the listener did before. -/
def outcome (b : Board) (event : DockerEvent) : Outcome :=
  if event.action = "oom".toList then .oom
  else if event.action = "die".toList then
    if event.exitCode = some 0 then .exited
    else if recent OOM_DIE_DEDUP_MS b.now (lastOom b.handled event.id) then .afterOom
    else if recent DEBOUNCE_MS b.now (lastCrash b.reports event.id) then .debounced
    else .crashed
  else if event.action = "start".toList then .start
  else .unknown

def follow (b : Board) (event : DockerEvent) : Outcome → Board
  | .oom => b.resolveProjectId event .oom
  | .crashed => b.resolveProjectId event (.die event.exitCode)
  | _ => b

def handleEvent (b : Board) (event : DockerEvent) : Board :=
  (b.follow event (b.outcome event)).note event (b.outcome event)

def processChunk (b : Board) (chunk : List UInt8) : Board :=
  let lines := LineStream.cut (b.lineBuf ++ Utf8.decode chunk)
  (lines.1.filterMap parseEvent).foldl handleEvent { b with lineBuf := lines.2 }

def next (b : Board) : Event → Option Board
  | .tick ms => some { b with now := b.now + ms }
  | .connect => some { b with lineBuf := [] }
  | .data chunk => some (b.processChunk chunk)
  | .reply i r => (b.inFlight[i]?).bind fun h => b.reply i h r

end Board

/-! ## Times that are forgotten -/

/-- What is kept of the last time: all of it, or nothing once it is longer ago than `window`. -/
structure Remembers (window now : Nat) (kept last : Option Nat) : Prop where
  valid : ∀ t ∈ last, t ≠ 0 ∧ t ≤ now
  kept : kept = last ∨ kept = none ∧ ∀ t ∈ last, window < now - t

namespace Remembers

variable {window now now' : Nat} {kept last : Option Nat}

/-- No question about recent times is answered in another way. -/
theorem recent_eq (h : Remembers window now kept last) : recent window now kept = recent window now last := by
  obtain rfl | ⟨rfl, hold⟩ := h.kept
  · rfl
  · cases last with
    | none => rfl
    | some t =>
      have hlt := hold t rfl
      have hrecent : ¬now - t < window := by omega
      simp [recent, hrecent]

theorem nothing : Remembers window now none none := ⟨by simp, .inl rfl⟩

theorem just (h : now ≠ 0) : Remembers window now (some now) (some now) := ⟨by simpa using h, .inl rfl⟩

theorem later (h : Remembers window now kept last) (hle : now ≤ now') :
    Remembers window now' kept last where
  valid t ht := ⟨(h.valid t ht).1, Nat.le_trans (h.valid t ht).2 hle⟩
  kept := h.kept.imp_right fun hold => ⟨hold.1, fun t ht => by
    have := hold.2 t ht
    omega⟩

theorem prune {map : Text → Option Nat} {id : Text} (h : Remembers window now (map id) last) :
    Remembers window now (prune window now map id) last := by
  refine ⟨h.valid, ?_⟩
  obtain hkept | ⟨hkept, hold⟩ := h.kept
  · cases last with
    | none => exact .inl (by simp [DockerEvents.prune, hkept])
    | some t =>
      by_cases ht : window < now - t
      · refine .inr ⟨?_, by rintro _ ⟨⟩; exact ht⟩
        simp only [DockerEvents.prune, hkept, Option.filter_some, decide_eq_true ht]
        rfl
      · exact .inl (by simp [DockerEvents.prune, hkept, ht])
  · exact .inr ⟨by simp [DockerEvents.prune, hkept], hold⟩

end Remembers

/-- The maps say of recent times what the board does. -/
structure Kept (s : State) : Prop where
  now_ne : s.now ≠ 0
  ooms (id : Text) : Remembers OOM_DIE_DEDUP_MS s.now (s.recentOoms id) (lastOom s.handled id)
  crashes (id : Text) : Remembers DEBOUNCE_MS s.now (s.recentCrashes id) (lastCrash s.reports id)

section
variable {s t : State} {b : Board} {event : DockerEvent} {o : Outcome} {id : Text}

@[simp] theorem resolveProjectId_now (kind : Kind) : (b.resolveProjectId event kind).now = b.now := by
  rw [Board.resolveProjectId]
  split <;> rfl

@[simp] theorem resolveProjectId_handled (kind : Kind) :
    (b.resolveProjectId event kind).handled = b.handled := by
  rw [Board.resolveProjectId]
  split <;> rfl

@[simp] theorem resolveProjectId_reports (kind : Kind) :
    (b.resolveProjectId event kind).reports = b.reports := by
  rw [Board.resolveProjectId]
  split <;> rfl

theorem lastOom_note : lastOom (b.note event o).handled id =
    markOom id (lastOom b.handled id) ⟨event, b.now, o⟩ := by
  rw [lastOom, Board.note, List.foldl_append]
  rfl

theorem markOom_of_ne {x : Handled} {time : Option Nat} (h : id ≠ x.event.id) : markOom id time x = time :=
  if_neg (Ne.symm h)

theorem Kept.note (h : Kept s) (hnow : b.now = s.now) (hhandled : b.handled = s.handled)
    (hreports : b.reports = s.reports) {ooms : Text → Option Nat}
    (hooms : ∀ id, Remembers OOM_DIE_DEDUP_MS s.now (ooms id)
      (markOom id (lastOom s.handled id) ⟨event, s.now, o⟩)) :
    Kept { s with toBoard := b.note event o, recentOoms := ooms } := by
  refine ⟨?_, fun id => ?_, fun id => ?_⟩
  · show b.now ≠ 0
    exact hnow ▸ h.now_ne
  · show Remembers _ b.now (ooms id) (lastOom (b.note event o).handled id)
    rw [lastOom_note, hnow, hhandled]
    exact hooms id
  · show Remembers _ b.now (s.recentCrashes id) (lastCrash b.reports id)
    rw [hnow, hreports]
    exact h.crashes id

/-- The event sets or deletes the last OOM of its container. -/
theorem Kept.assign (h : Kept s) {time : Option Nat}
    (htime : Remembers OOM_DIE_DEDUP_MS s.now time
      (markOom event.id (lastOom s.handled event.id) ⟨event, s.now, o⟩)) (id : Text) :
    Remembers OOM_DIE_DEDUP_MS s.now (assign event.id time s.recentOoms id)
      (markOom id (lastOom s.handled id) ⟨event, s.now, o⟩) := by
  by_cases hid : id = event.id
  · rw [DockerEvents.assign, if_pos hid, hid]
    exact htime
  · rw [DockerEvents.assign, if_neg hid, markOom_of_ne hid]
    exact h.ooms id

/-- The event does not change the last OOM. -/
theorem Kept.same (h : Kept s) (ho : ∀ time, markOom event.id time ⟨event, s.now, o⟩ = time)
    (id : Text) :
    Remembers OOM_DIE_DEDUP_MS s.now (s.recentOoms id)
      (markOom id (lastOom s.handled id) ⟨event, s.now, o⟩) := by
  have hsame : markOom id (lastOom s.handled id) ⟨event, s.now, o⟩ = lastOom s.handled id := by
    by_cases hid : id = event.id
    · rw [hid, ho]
    · exact markOom_of_ne hid
  rw [hsame]
  exact h.ooms id

/-- The maps decide as the board does. -/
theorem toBoard_handleEvent (h : Kept s) (event : DockerEvent) :
    (s.handleEvent event).toBoard = s.toBoard.handleEvent event := by
  unfold State.handleEvent State.handleOom State.handleDie State.handleStart Board.handleEvent Board.outcome
  rw [(h.ooms event.id).recent_eq, (h.crashes event.id).recent_eq]
  repeat' split
  all_goals rfl

theorem Kept.handleEvent (h : Kept s) (event : DockerEvent) : Kept (s.handleEvent event) := by
  have hmark (time : Option Nat) (o : Outcome) : markOom event.id time ⟨event, s.now, o⟩ =
      match o with
      | .oom => some s.now
      | .start | .afterOom => none
      | _ => time := if_pos rfl
  unfold State.handleEvent State.handleOom State.handleDie State.handleStart
  split
  · refine h.note (by simp) (by simp) (by simp) (h.assign ?_)
    rw [hmark]
    exact .just h.now_ne
  · split
    · split
      · exact h.note rfl rfl rfl (h.same fun time => hmark time _)
      · split
        · refine h.note rfl rfl rfl (h.assign ?_)
          rw [hmark]
          exact .nothing
        · split
          · exact h.note rfl rfl rfl (h.same fun time => hmark time _)
          · exact h.note (by simp) (by simp) (by simp) (h.same fun time => hmark time _)
    · split
      · refine h.note rfl rfl rfl (h.assign ?_)
        rw [hmark]
        exact .nothing
      · exact h.note rfl rfl rfl (h.same fun time => hmark time _)

theorem Kept.pruneStaleEntries (h : Kept s) : Kept s.pruneStaleEntries := by
  rw [State.pruneStaleEntries]
  split
  · exact h
  · exact ⟨h.now_ne, fun id => (h.ooms id).prune, fun id => (h.crashes id).prune⟩

theorem toBoard_pruneStaleEntries (s : State) : s.pruneStaleEntries.toBoard = s.toBoard := by
  rw [State.pruneStaleEntries]
  split <;> rfl

theorem Kept.foldl (h : Kept s) (events : List DockerEvent) :
    Kept (events.foldl State.handleEvent s) ∧
      (events.foldl State.handleEvent s).toBoard = events.foldl Board.handleEvent s.toBoard := by
  induction events generalizing s with
  | nil => exact ⟨h, rfl⟩
  | cons event events ih =>
    rw [List.foldl_cons, List.foldl_cons, ← toBoard_handleEvent h]
    exact ih (h.handleEvent event)

theorem Kept.processChunk (h : Kept s) (chunk : List UInt8) :
    Kept (s.processChunk chunk) ∧ (s.processChunk chunk).toBoard = s.toBoard.processChunk chunk := by
  have hbuffer (rest : Text) : Kept { s with lineBuf := rest } := ⟨h.now_ne, h.ooms, h.crashes⟩
  let lines := LineStream.cut (s.lineBuf ++ Utf8.decode chunk)
  have hfold := (hbuffer lines.2).foldl (lines.1.filterMap parseEvent)
  exact ⟨hfold.1.pruneStaleEntries, (toBoard_pruneStaleEntries _).trans hfold.2⟩

/-! ## Answers -/

/-- What an answer does. Only a report of a crash is remembered. -/
inductive Replied (b : Board) (i : Nat) (h : Handler) : Reply → Board → Prop
  | finished (hr : ∀ s : State, s.remember h r = s.recentCrashes) : Replied b i h r (b.finish i)
  | awaits (stage : Stage) (hr : ∀ s : State, s.remember h r = s.recentCrashes) :
    Replied b i h r (b.await i h stage)
  | reported (hreport : h.report status containerId = some projectId) :
    Replied b i h (.loadServiceView status containerId) ((b.emit h projectId).finish i)

theorem replied {i : Nat} {h : Handler} {r : Reply} {b' : Board} (hb : b.reply i h r = some b') :
    Replied b i h r b' := by
  cases r with
  | failed =>
    obtain rfl := Option.some.inj hb
    exact .finished fun _ => rfl
  | getProjectByName projectId =>
    rw [Board.reply] at hb
    split at hb
    · split at hb
      · obtain rfl := Option.some.inj hb
        exact .finished fun _ => rfl
      · obtain rfl := Option.some.inj hb
        exact .awaits _ fun _ => rfl
    · cases hb
  | getProject archived =>
    rw [Board.reply] at hb
    split at hb
    · split at hb
      · obtain rfl := Option.some.inj hb
        exact .finished fun _ => rfl
      · obtain rfl := Option.some.inj hb
        exact .awaits _ fun _ => rfl
    · cases hb
  | loadServiceView status containerId =>
    rw [Board.reply] at hb
    split at hb
    · split at hb
      next hnone =>
        obtain rfl := Option.some.inj hb
        refine .finished fun s => if_neg fun hr => ?_
        rw [hnone] at hr
        cases hr.2
      next projectId hsome =>
        obtain rfl := Option.some.inj hb
        exact .reported hsome
    · cases hb

theorem lastCrash_emit {h : Handler} {projectId : Text} : lastCrash (b.emit h projectId).reports id =
    if h.containerId = id ∧ h.kind ≠ .oom then some b.now else lastCrash b.reports id := by
  rw [lastCrash, Board.emit, List.foldl_append]
  rfl

theorem Kept.reply {i : Nat} {h : Handler} {r : Reply} (hs : Kept s) (ht : s.reply i h r = some t) :
    Kept t := by
  obtain ⟨b, hb, rfl⟩ := Option.map_eq_some_iff.mp ht
  cases replied hb with
  | finished hr =>
    rw [hr]
    exact ⟨hs.now_ne, hs.ooms, hs.crashes⟩
  | awaits stage hr =>
    rw [hr]
    exact ⟨hs.now_ne, hs.ooms, hs.crashes⟩
  | @reported status containerId projectId hreport =>
    refine ⟨hs.now_ne, hs.ooms, fun id => ?_⟩
    show Remembers DEBOUNCE_MS s.now (s.remember h (.loadServiceView status containerId) id)
      (lastCrash (s.toBoard.emit h projectId).reports id)
    rw [lastCrash_emit, State.remember, hreport]
    by_cases hkind : h.kind = .oom
    · simpa [hkind] using hs.crashes id
    · by_cases hid : h.containerId = id
      · simpa [hkind, hid, DockerEvents.assign] using Remembers.just hs.now_ne
      · simpa [hkind, hid, Ne.symm hid, DockerEvents.assign] using hs.crashes id

theorem Kept.start {now : Nat} (h : now ≠ 0) : Kept (.start now) :=
  ⟨h, fun _ => .nothing, fun _ => .nothing⟩

theorem kept_next : Preserves (Fires next) Kept := by
  intro s e t ht hs
  cases e with
  | tick ms =>
    obtain rfl := Option.some.inj ht
    have hle : s.now ≤ s.now + ms := Nat.le_add_right _ _
    refine ⟨?_, fun id => (hs.ooms id).later hle, fun id => (hs.crashes id).later hle⟩
    exact Nat.ne_of_gt (Nat.lt_of_lt_of_le (Nat.pos_of_ne_zero hs.now_ne) hle)
  | connect =>
    obtain rfl := Option.some.inj ht
    exact ⟨hs.now_ne, hs.ooms, hs.crashes⟩
  | data chunk =>
    obtain rfl := Option.some.inj ht
    exact (hs.processChunk chunk).1
  | reply i r =>
    obtain ⟨h, -, hreply⟩ := Option.bind_eq_some_iff.mp ht
    exact hs.reply hreply

theorem map_next (s : State) (e : Event) (hs : Kept s) :
    (next s e).map (·.toBoard) = s.toBoard.next e := by
  cases e with
  | tick ms => rfl
  | connect => rfl
  | data chunk => exact congrArg some (hs.processChunk chunk).2
  | reply i r =>
    rw [next, Board.next, Option.map_bind]
    refine congrArg _ (funext fun h => ?_)
    rw [Function.comp_apply, State.reply, Option.map_map]
    exact Option.map_id'

end

/-- Forgetting makes no difference: in every run, the listener with its maps does with each event what
one does that looks at all events and reports before. -/
theorem exec_board (now : Nat) (hnow : now ≠ 0) (es : List Event) :
    (exec next (.start now) es).map (·.toBoard) = exec Board.next (State.start now).toBoard es :=
  exec_map kept_next map_next (.start hnow) es

/-- The line of a container of the project that exits. -/
def exitLine (containerId exitCode : String) : List UInt8 :=
  (("\x7b\"Action\":\"die\",\"Actor\":\x7b\"ID\":\"" ++ containerId ++
    "\",\"Attributes\":\x7b\"exitCode\":\"" ++ exitCode ++
    "\",\"openlander.project\":\"web\"\x7d\x7d\x7d\n").toList).flatMap String.utf8EncodeChar

/-- The queries of the handler in front are answered. -/
def answers : List Event :=
  [.reply 0 (.getProjectByName (some ['p'])), .reply 0 (.getProject (some false)),
    .reply 0 (.loadServiceView "running".toList none)]

theorem exec_board_pruned :
    (exec next (.start 1) ([.data (exitLine "c" "1")] ++ answers ++ [.tick 70000, .data []])).map (·.toBoard) =
      exec Board.next (State.start 1).toBoard
        ([.data (exitLine "c" "1")] ++ answers ++ [.tick 70000, .data []]) :=
  exec_board 1 (by decide) _

end OpenLander.DockerEvents
