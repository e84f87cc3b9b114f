import OpenLander.Monitor.DockerEvents

/-! # Reports of crashes

What `DockerEventListener` reports in a run, and which events it handles. -/

namespace OpenLander.DockerEvents
open Theory

/-- The report is of a crash of the container. -/
def Crash (r : Report) (containerId : Text) : Prop := r.kind ≠ .oom ∧ r.containerId = containerId

/-- The report came after the event, or longer than `DEBOUNCE_MS` before it. -/
def Spaced (b : Board) (containerId : Text) (arrivedAt before : Nat) : Prop :=
  ∀ i r, b.reports[i]? = some r → Crash r containerId → i < before →
    r.reportedAt + DEBOUNCE_MS ≤ arrivedAt

/-- What a handler or a report says of its event. -/
def About (b : Board) (event : Nat) (kind : Kind) (containerId : Text) (arrivedAt : Nat) : Prop :=
  ∃ x, b.handled[event]? = some x ∧ x.event.id = containerId ∧ x.handledAt = arrivedAt ∧
    match kind with
    | .oom => x.outcome = .oom
    | .die exitCode => x.outcome = .crashed ∧ x.event.exitCode = exitCode ∧ exitCode ≠ some 0

structure Reported (b : Board) : Prop where
  sorted : b.reports.Pairwise fun r r' => r.reportedAt ≤ r'.reportedAt
  past : ∀ r ∈ b.reports, r.reportedAt ≤ b.now
  positive : ∀ r ∈ b.reports, r.reportedAt ≠ 0
  before : ∀ r ∈ b.reports, r.before ≤ b.reports.length
  spaced : ∀ r ∈ b.reports, r.kind ≠ .oom → Spaced b r.containerId r.arrivedAt r.before
  about : ∀ r ∈ b.reports, About b r.event r.kind r.containerId r.arrivedAt
  waiting_spaced : ∀ h ∈ b.inFlight, h.kind ≠ .oom → Spaced b h.containerId h.arrivedAt h.before
  waiting_before : ∀ h ∈ b.inFlight, h.before ≤ b.reports.length
  waiting_about : ∀ h ∈ b.inFlight, About b h.event h.kind h.containerId h.arrivedAt
  once : (b.reports.map (·.event) ++ b.inFlight.map (·.event)).Nodup

section
variable {b : Board} {event : DockerEvent} {o : Outcome} {kind : Kind} {r : Report} {reports : List Report}
variable {n i arrivedAt before : Nat} {id projectId : Text} {h : Handler}

theorem forall_mem_concat {α : Type} {p : α → Prop} {l : List α} {a : α} (hl : ∀ x ∈ l, p x)
    (ha : p a) : ∀ x ∈ l ++ [a], p x :=
  List.forall_mem_append.mpr ⟨hl, List.forall_mem_singleton.mpr ha⟩

theorem About.lt (ha : About b n kind id arrivedAt) : n < b.handled.length :=
  let ⟨_, hx, _⟩ := ha
  (List.getElem?_eq_some_iff.mp hx).1

theorem About.note (ha : About b n kind id arrivedAt) (event : DockerEvent) (o : Outcome) :
    About (b.note event o) n kind id arrivedAt := by
  obtain ⟨x, hx, hrest⟩ := ha
  refine ⟨x, ?_, hrest⟩
  rw [Board.note, List.getElem?_append_left (List.getElem?_eq_some_iff.mp hx).1]
  exact hx

theorem lastCrash_append (reports : List Report) (r : Report) (id : Text) :
    lastCrash (reports ++ [r]) id = markCrash id (lastCrash reports id) r := by
  rw [lastCrash, List.foldl_append]
  rfl

/-- The last crash is none of an earlier report. -/
theorem le_lastCrash (hsorted : reports.Pairwise fun r r' => r.reportedAt ≤ r'.reportedAt)
    (hr : r ∈ reports) (hcrash : Crash r id) :
    ∃ r' ∈ reports, lastCrash reports id = some r'.reportedAt ∧ r.reportedAt ≤ r'.reportedAt := by
  induction reports using List.reverseRecOn with
  | nil => cases hr
  | append_singleton reports last ih =>
    obtain ⟨hsorted, -, hlast⟩ := List.pairwise_append.mp hsorted
    rw [lastCrash_append, markCrash]
    by_cases hid : last.containerId = id ∧ last.kind ≠ .oom
    · rw [if_pos hid]
      refine ⟨last, by simp, rfl, ?_⟩
      rcases List.mem_append.mp hr with hr | hr
      · exact hlast r hr last (List.mem_singleton_self _)
      · rw [List.mem_singleton.mp hr]
    · rw [if_neg hid]
      rcases List.mem_append.mp hr with hr | hr
      · obtain ⟨r', hr', hlast', hle⟩ := ih hsorted hr
        exact ⟨r', List.mem_append_left _ hr', hlast', hle⟩
      · rw [List.mem_singleton.mp hr] at hcrash
        exact absurd ⟨hcrash.2, hcrash.1⟩ hid

/-- A crash that is not debounced is far enough from all reports. -/
theorem Reported.spaced_of_not_recent (hb : Reported b)
    (hrecent : recent DEBOUNCE_MS b.now (lastCrash b.reports id) = false) (before : Nat) :
    Spaced b id b.now before := by
  intro i r hr hcrash _
  obtain ⟨r', hr', hlast, hle⟩ := le_lastCrash hb.sorted (List.mem_of_getElem? hr) hcrash
  have hpast := hb.past r' hr'
  have hpositive := hb.positive r' hr'
  rw [hlast] at hrecent
  simp only [recent, Option.any_some, Bool.and_eq_false_iff, decide_eq_false_iff_not] at hrecent
  obtain hzero | hlong := hrecent
  · exact absurd hpositive hzero
  · omega

theorem Reported.note (hb : Reported b) (event : DockerEvent) (o : Outcome) : Reported (b.note event o) where
  sorted := hb.sorted
  past := hb.past
  positive := hb.positive
  before := hb.before
  spaced := hb.spaced
  about r hr := (hb.about r hr).note event o
  waiting_spaced := hb.waiting_spaced
  waiting_before := hb.waiting_before
  waiting_about h hh := (hb.waiting_about h hh).note event o
  once := hb.once

theorem outcome_crashed (ho : b.outcome event = .crashed) :
    event.exitCode ≠ some 0 ∧ recent DEBOUNCE_MS b.now (lastCrash b.reports event.id) = false := by
  rw [Board.outcome] at ho
  split at ho
  · cases ho
  · split at ho
    · split at ho
      · cases ho
      next hexit =>
        split at ho
        · cases ho
        · split at ho
          · cases ho
          next hrecent => exact ⟨hexit, Bool.not_eq_true _ ▸ hrecent⟩
    · split at ho <;> cases ho

/-- The handler that goes on waits with what the event says. -/
theorem Reported.resolveProjectId (hb : Reported b)
    (hspaced : kind ≠ .oom → Spaced b event.id b.now b.reports.length)
    (habout : About (b.note event o) b.handled.length kind event.id b.now) :
    Reported ((b.resolveProjectId event kind).note event o) := by
  rw [Board.resolveProjectId]
  cases hname : event.projectName with
  | none => exact hb.note event o
  | some name =>
    have hnote := hb.note event o
    refine ⟨hb.sorted, hb.past, hb.positive, hb.before, hb.spaced, hnote.about, ?_, ?_, ?_, ?_⟩
    · intro h hh hkind
      rcases List.mem_append.mp hh with hh | hh
      · exact hb.waiting_spaced h hh hkind
      · obtain rfl := List.mem_singleton.mp hh
        exact hspaced hkind
    · intro h hh
      rcases List.mem_append.mp hh with hh | hh
      · exact hb.waiting_before h hh
      · obtain rfl := List.mem_singleton.mp hh
        exact Nat.le_refl _
    · intro h hh
      rcases List.mem_append.mp hh with hh | hh
      · exact hnote.waiting_about h hh
      · obtain rfl := List.mem_singleton.mp hh
        exact habout
    · show (b.reports.map Report.event ++ List.map Handler.event (b.inFlight ++ [_])).Nodup
      rw [List.map_append, ← List.append_assoc]
      refine hb.once.append (List.nodup_singleton b.handled.length) ?_
      refine List.disjoint_singleton.mpr fun hmem => ?_
      rcases List.mem_append.mp hmem with hmem | hmem
      · obtain ⟨r, hr, hevent⟩ := List.mem_map.mp hmem
        exact Nat.lt_irrefl _ (hevent ▸ (hb.about r hr).lt)
      · obtain ⟨h, hh, hevent⟩ := List.mem_map.mp hmem
        exact Nat.lt_irrefl _ (hevent ▸ (hb.waiting_about h hh).lt)

theorem Reported.handleEvent (hb : Reported b) (event : DockerEvent) : Reported (b.handleEvent event) := by
  have hlast (o : Outcome) : (b.note event o).handled[b.handled.length]? = some ⟨event, b.now, o⟩ := by
    rw [Board.note, List.getElem?_concat_length]
  rw [Board.handleEvent]
  cases ho : b.outcome event with
  | oom => exact hb.resolveProjectId (fun h => absurd rfl h) ⟨_, hlast _, rfl, rfl, rfl⟩
  | crashed =>
    obtain ⟨hexit, hrecent⟩ := outcome_crashed ho
    refine hb.resolveProjectId (fun _ => hb.spaced_of_not_recent hrecent _) ?_
    exact ⟨_, hlast _, rfl, rfl, rfl, rfl, hexit⟩
  | start | exited | afterOom | debounced | unknown => exact hb.note event _

/-- The handler waits for another query. -/
theorem Reported.await (hb : Reported b) (hi : b.inFlight[i]? = some h) (stage : Stage) :
    Reported (b.await i h stage) := by
  have hmem := List.mem_of_getElem? hi
  refine ⟨hb.sorted, hb.past, hb.positive, hb.before, hb.spaced, hb.about, ?_, ?_, ?_, ?_⟩
  · intro h' hh' hkind
    rcases List.mem_or_eq_of_mem_set hh' with hh' | rfl
    · exact hb.waiting_spaced h' hh' hkind
    · exact hb.waiting_spaced h hmem hkind
  · intro h' hh'
    rcases List.mem_or_eq_of_mem_set hh' with hh' | rfl
    · exact hb.waiting_before h' hh'
    · exact hb.waiting_before h hmem
  · intro h' hh'
    rcases List.mem_or_eq_of_mem_set hh' with hh' | rfl
    · exact hb.waiting_about h' hh'
    · exact hb.waiting_about h hmem
  · show (b.reports.map Report.event ++ List.map Handler.event (b.inFlight.set i _)).Nodup
    have hsame : (b.inFlight.map Handler.event).set i h.event = b.inFlight.map Handler.event := by
      obtain ⟨hlt, rfl⟩ := List.getElem?_eq_some_iff.mp hi
      rw [← List.map_set, List.set_getElem_self]
    rw [List.map_set, hsame]
    exact hb.once

theorem Reported.finish (hb : Reported b) (i : Nat) : Reported (b.finish i) := by
  have hmem {h : Handler} (hh : h ∈ b.inFlight.eraseIdx i) : h ∈ b.inFlight :=
    (List.eraseIdx_sublist ..).subset hh
  refine ⟨hb.sorted, hb.past, hb.positive, hb.before, hb.spaced, hb.about,
    fun h hh => hb.waiting_spaced h (hmem hh),
    fun h hh => hb.waiting_before h (hmem hh), fun h hh => hb.waiting_about h (hmem hh), ?_⟩
  exact hb.once.sublist ((List.Sublist.refl _).append ((List.eraseIdx_sublist ..).map _))

/-- A report is about what the handler waited with. -/
theorem Reported.emit (hb : Reported b) (hnow : b.now ≠ 0) (hi : b.inFlight[i]? = some h)
    (projectId : Text) : Reported ((b.emit h projectId).finish i) := by
  have hmem := List.mem_of_getElem? hi
  have hspaced {id : Text} {arrivedAt before : Nat} (hbefore : before ≤ b.reports.length)
      (hs : Spaced b id arrivedAt before) : Spaced (b.emit h projectId) id arrivedAt before := by
    intro j r hr hcrash hj
    refine hs j r ?_ hcrash hj
    rwa [Board.emit, List.getElem?_append_left (Nat.lt_of_lt_of_le hj hbefore)] at hr
  have hlen : b.reports.length ≤ (b.emit h projectId).reports.length := by simp [Board.emit]
  refine ⟨?_, ?_, ?_, ?_, ?_, ?_, ?_, ?_, ?_, ?_⟩
  · refine List.pairwise_append.mpr ⟨hb.sorted, List.pairwise_singleton _ _, fun r hr r' hr' => ?_⟩
    rw [List.mem_singleton.mp hr']
    exact hb.past r hr
  · exact forall_mem_concat hb.past (Nat.le_refl _)
  · exact forall_mem_concat hb.positive hnow
  · exact forall_mem_concat (fun r hr => Nat.le_trans (hb.before r hr) hlen)
      (Nat.le_trans (hb.waiting_before h hmem) hlen)
  · exact forall_mem_concat (fun r hr hkind => hspaced (hb.before r hr) (hb.spaced r hr hkind))
      fun hkind => hspaced (hb.waiting_before h hmem) (hb.waiting_spaced h hmem hkind)
  · exact forall_mem_concat hb.about (hb.waiting_about h hmem)
  · intro h' hh' hkind
    have hh' := (List.eraseIdx_sublist ..).subset hh'
    exact hspaced (hb.waiting_before h' hh') (hb.waiting_spaced h' hh' hkind)
  · intro h' hh'
    exact Nat.le_trans (hb.waiting_before h' ((List.eraseIdx_sublist ..).subset hh')) hlen
  · exact fun h' hh' => hb.waiting_about h' ((List.eraseIdx_sublist ..).subset hh')
  · show (List.map Report.event (b.reports ++ [_]) ++ (b.inFlight.eraseIdx i).map Handler.event).Nodup
    obtain ⟨hlt, rfl⟩ := List.getElem?_eq_some_iff.mp hi
    rw [List.map_append, List.append_assoc]
    refine (((List.getElem_cons_eraseIdx_perm hlt).map Handler.event).append_left _).nodup_iff.mpr hb.once

theorem Reported.reply {r : Reply} {b' : Board} (hb : Reported b) (hnow : b.now ≠ 0)
    (hi : b.inFlight[i]? = some h) (hreply : b.reply i h r = some b') : Reported b' := by
  cases replied hreply with
  | finished _ => exact hb.finish i
  | awaits stage _ => exact hb.await hi stage
  | reported _ => exact hb.emit hnow hi _

theorem Reported.later (hb : Reported b) (ms : Nat) : Reported { b with now := b.now + ms } :=
  { hb with past := fun r hr => Nat.le_trans (hb.past r hr) (Nat.le_add_right _ _) }

theorem Reported.processChunk (hb : Reported b) (chunk : List UInt8) : Reported (b.processChunk chunk) := by
  rw [Board.processChunk]
  refine List.foldlRecOn _ Board.handleEvent (motive := Reported) ?_ fun b hb event _ => hb.handleEvent event
  exact { hb with }

end

theorem Reported.start (now : Nat) : Reported (State.start now).toBoard := by
  refine ⟨.nil, ?_, ?_, ?_, ?_, ?_, ?_, ?_, ?_, .nil⟩ <;> exact List.forall_mem_nil _

theorem reported_next : Preserves (Fires next) fun s => Kept s ∧ Reported s.toBoard := by
  refine kept_next.and fun s e t ht hs hb => ?_
  cases e with
  | tick ms =>
    obtain rfl := Option.some.inj ht
    exact hb.later ms
  | connect =>
    obtain rfl := Option.some.inj ht
    exact { hb with }
  | data chunk =>
    obtain rfl := Option.some.inj ht
    rw [(hs.processChunk chunk).2]
    exact hb.processChunk chunk
  | reply i r =>
    obtain ⟨h, hi, hreply⟩ := Option.bind_eq_some_iff.mp ht
    obtain ⟨b, hb', rfl⟩ := Option.map_eq_some_iff.mp hreply
    exact hb.reply hs.now_ne hi hb'

/-- Each report is about one event that was handled, and no two are about the same one. Of two reports
of crashes of one container, the second one's event arrived before the first report, or at least
`DEBOUNCE_MS` after it. -/
theorem reports_spaced {now : Nat} (hnow : now ≠ 0) (h : Run (Fires next) (.start now) es s) :
    (s.reports.map (·.event)).Nodup ∧
    (∀ r ∈ s.reports, About s.toBoard r.event r.kind r.containerId r.arrivedAt) ∧
    ∀ (i j : Nat) (r r' : Report), s.reports[i]? = some r → s.reports[j]? = some r' → i < j →
      r.kind ≠ .oom → r'.kind ≠ .oom → r.containerId = r'.containerId →
      r'.before ≤ i ∨ r.reportedAt + DEBOUNCE_MS ≤ r'.arrivedAt := by
  have hb := (h.invariant reported_next ⟨.start hnow, .start now⟩).2
  refine ⟨(List.nodup_append.mp hb.once).1, hb.about, fun i j r r' hi hj _ hr hr' hid => ?_⟩
  rcases Nat.lt_or_ge i r'.before with hlt | hle
  · exact .inr (hb.spaced r' (List.mem_of_getElem? hj) hr' i r hi ⟨hr, hid⟩ hlt)
  · exact .inl hle

/-- Two lines of one chunk: both events arrive before the first report. -/
theorem reports_spaced_twoLines : ∃ s, Run (Fires next) (.start 1)
      ([.data (exitLine "c" "1" ++ exitLine "c" "2")] ++ answers ++ answers) s ∧
    s.reports.map (·.before) = [0, 0] ∧ (s.reports.map (·.event)).Nodup := by
  obtain ⟨s, hs, hreports⟩ := Option.map_eq_some_iff.mp (by decide +kernel :
    (exec next (.start 1) ([.data (exitLine "c" "1" ++ exitLine "c" "2")] ++ answers ++ answers)).map
      (fun s => s.reports.map (·.before)) = some [0, 0])
  exact ⟨s, .of_exec hs, hreports, (reports_spaced (by decide) (.of_exec hs)).1⟩

/-! ## Lines -/

def isConnect : Event → Bool
  | .connect => true
  | _ => false

def chunk? : Event → Option (List UInt8)
  | .data chunk => some chunk
  | _ => none

/-- The chunks of each connection. -/
def connections (es : List Event) : List (List (List UInt8)) :=
  (es.splitOnP isConnect).map (·.filterMap chunk?)

/-- The events of the lines that end within a text. -/
def eventsOf (text : Text) : List DockerEvent := (LineStream.cut text).1.filterMap parseEvent

/-- The events of connections, where the first one goes on behind what is in the buffer. -/
def arriving (buffer : Text) : List (List (List UInt8)) → List DockerEvent
  | [] => []
  | chunks :: rest =>
    eventsOf (buffer ++ chunks.flatMap Utf8.decode) ++
      rest.flatMap fun chunks => eventsOf (chunks.flatMap Utf8.decode)

section
variable {s t : State} {es : List Event} {e : Event}

theorem connections_connect (es : List Event) : connections (.connect :: es) = [] :: connections es := by
  rw [connections, List.splitOnP_cons_eq_if_modifyHead]
  rfl

/-- The event belongs to the connection that is open. -/
theorem connections_cons (h : isConnect e = false) :
    ∃ chunks rest, connections es = chunks :: rest ∧
      connections (e :: es) = ((chunk? e).toList ++ chunks) :: rest := by
  rw [connections, connections, List.splitOnP_cons_eq_if_modifyHead, if_neg (Bool.eq_false_iff.mp h)]
  obtain ⟨segment, segments, hsplit⟩ := List.exists_cons_of_ne_nil (List.splitOnP_ne_nil isConnect es)
  rw [hsplit]
  refine ⟨_, _, rfl, ?_⟩
  cases hchunk : chunk? e with
  | none => simp [List.filterMap_cons_none hchunk]
  | some chunk => simp [List.filterMap_cons_some hchunk]

theorem eventsOf_of_not_mem {buffer : Text} (h : '\n' ∉ buffer) : eventsOf buffer = [] := by
  rw [eventsOf, LineStream.cut_of_not_mem h]
  rfl

theorem eventsOf_append (buffer text : Text) : eventsOf (buffer ++ text) =
    eventsOf buffer ++ eventsOf ((LineStream.cut buffer).2 ++ text) := by
  rw [eventsOf, LineStream.cut_append, List.filterMap_append]
  rfl

theorem handleEvent_handled (s : State) (event : DockerEvent) :
    (s.handleEvent event).handled.map (·.event) = s.handled.map (·.event) ++ [event] := by
  have hnote (b : Board) (o : Outcome) : (b.note event o).handled.map (·.event) =
      b.handled.map (·.event) ++ [event] := List.map_append
  unfold State.handleEvent State.handleOom State.handleDie State.handleStart
  repeat' split
  all_goals simp only [hnote, resolveProjectId_handled]

theorem handleEvent_lineBuf (s : State) (event : DockerEvent) : (s.handleEvent event).lineBuf = s.lineBuf := by
  have hresolve (kind : Kind) : (s.toBoard.resolveProjectId event kind).lineBuf = s.lineBuf := by
    rw [Board.resolveProjectId]
    split <;> rfl
  unfold State.handleEvent State.handleOom State.handleDie State.handleStart
  repeat' split
  all_goals first | rfl | exact hresolve _

theorem foldl_handleEvent (s : State) (events : List DockerEvent) :
    (events.foldl State.handleEvent s).handled.map (·.event) = s.handled.map (·.event) ++ events ∧
      (events.foldl State.handleEvent s).lineBuf = s.lineBuf := by
  induction events generalizing s with
  | nil => exact ⟨(List.append_nil _).symm, rfl⟩
  | cons event events ih =>
    rw [List.foldl_cons, (ih _).1, (ih _).2, handleEvent_handled, handleEvent_lineBuf, List.append_assoc]
    exact ⟨rfl, rfl⟩

/-- A chunk is the lines that end in it, and the beginning of the next one. -/
theorem processChunk_eq (s : State) (chunk : List UInt8) :
    (s.processChunk chunk).handled.map (·.event) =
        s.handled.map (·.event) ++ eventsOf (s.lineBuf ++ Utf8.decode chunk) ∧
      (s.processChunk chunk).lineBuf = (LineStream.cut (s.lineBuf ++ Utf8.decode chunk)).2 := by
  rw [State.processChunk, toBoard_pruneStaleEntries]
  exact foldl_handleEvent { s with lineBuf := (LineStream.cut (s.lineBuf ++ Utf8.decode chunk)).2 } _

theorem reply_handled {i : Nat} {h : Handler} {r : Reply} {b b' : Board} (hb : b.reply i h r = some b') :
    b'.handled = b.handled ∧ b'.lineBuf = b.lineBuf := by
  cases replied hb <;> exact ⟨rfl, rfl⟩

theorem arriving_nil (conns : List (List (List UInt8))) :
    arriving [] conns = conns.flatMap fun chunks => eventsOf (chunks.flatMap Utf8.decode) := by
  cases conns <;> rfl

/-- The events of a run, behind what is in the buffer at its start. -/
theorem handled_run (h : Run (Fires next) s es t) (hs : '\n' ∉ s.lineBuf) :
    t.handled.map (·.event) = s.handled.map (·.event) ++ arriving s.lineBuf (connections es) := by
  induction h with
  | nil =>
    show _ = _ ++ (eventsOf (_ ++ []) ++ [])
    rw [List.append_nil, List.append_nil, eventsOf_of_not_mem hs, List.append_nil]
  | @cons s e s' es t he _ ih =>
    cases e with
    | connect =>
      obtain rfl := Option.some.inj he
      rw [ih List.not_mem_nil, connections_connect, arriving_nil, arriving, List.flatMap_nil, List.append_nil,
        eventsOf_of_not_mem hs, List.nil_append]
    | data chunk =>
      obtain rfl := Option.some.inj he
      obtain ⟨hhandled, hbuffer⟩ := processChunk_eq s chunk
      obtain ⟨chunks, rest, hes, hcons⟩ := @connections_cons es (.data chunk) rfl
      rw [ih (hbuffer ▸ LineStream.not_mem_cut _), hhandled, hbuffer, hes, hcons, arriving, arriving, chunk?,
        Option.toList_some, List.singleton_append, List.flatMap_cons, ← List.append_assoc s.lineBuf,
        eventsOf_append (s.lineBuf ++ _), List.append_assoc, List.append_assoc]
    | tick ms =>
      obtain rfl := Option.some.inj he
      obtain ⟨chunks, rest, hes, hcons⟩ := @connections_cons es (.tick ms) rfl
      rw [ih hs, hes, hcons]
      rfl
    | reply i r =>
      obtain ⟨h, -, hreply⟩ := Option.bind_eq_some_iff.mp he
      obtain ⟨b, hb, rfl⟩ := Option.map_eq_some_iff.mp hreply
      obtain ⟨hhandled, hbuffer⟩ := reply_handled hb
      obtain ⟨chunks, rest, hes, hcons⟩ := @connections_cons es (.reply i r) rfl
      rw [ih (hbuffer ▸ hs), hes, hcons, hhandled, hbuffer]
      rfl

end

/-- In every run, the events of a connection's lines are handled one by one, however its bytes are cut into
chunks, as long as no character is split between two of them. -/
theorem handled_eq {now : Nat} (h : Run (Fires next) (.start now) es s)
    (hchunks : ∀ chunks ∈ connections es, Utf8.splitsCharacter chunks = false) :
    s.handled.map (·.event) = (connections es).flatMap fun chunks => eventsOf (Utf8.decode chunks.flatten) := by
  have hdecode : (connections es).flatMap (fun chunks => eventsOf (chunks.flatMap Utf8.decode)) =
      (connections es).flatMap fun chunks => eventsOf (Utf8.decode chunks.flatten) :=
    List.flatMap_congr fun chunks hmem =>
      congrArg eventsOf ((Utf8.decode_flatten_eq_iff chunks).mpr (hchunks chunks hmem))
  rw [handled_run h List.not_mem_nil, ← hdecode]
  exact arriving_nil _

/-- A line in two chunks. -/
theorem handled_eq_twoChunks : ∃ s, Run (Fires next) (.start 1)
      [.connect, .data ((exitLine "c" "0").take 40), .data ((exitLine "c" "0").drop 40)] s ∧
    s.handled.map (·.event) = [{
      action := "die".toList
      id := ['c']
      attributes := [("exitCode".toList, ['0']), (LABEL_PROJECT, "web".toList)] }] := by
  obtain ⟨s, hs⟩ : ∃ s, exec next (.start 1)
      [.connect, .data ((exitLine "c" "0").take 40), .data ((exitLine "c" "0").drop 40)] = some s :=
    ⟨_, rfl⟩
  exact ⟨s, .of_exec hs, (handled_eq (.of_exec hs) (by decide +kernel)).trans (by decide +kernel)⟩

end OpenLander.DockerEvents
