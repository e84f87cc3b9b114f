import OpenLander.Compose.Interpolate
import OpenLander.Pipeline.ListBackups
import OpenLander.Theory.EventStream
import OpenLander.Theory.Json

/-! # The log of a deploy, as a stream

`/deployments/:id/log/stream` (`src/web/api/deploy-log-stream-routes.ts`, with `deploy-log-source.ts`) and
the hook that reads it (`web/src/hooks/use-deploy-log-stream.ts`), over any number of connections.

The lines of a connection are numbered from one. A client that comes back with the number of its last line
is sent no line up to that number: for a finished deploy these are the lines that it has, for one in
flight they are the next lines of the deploy. -/

namespace OpenLander.DeployLogStream
open Theory
open Pipeline (isWhitespace)

abbrev Text := List Char

/-! ## Sources -/

inductive DeployLogPhase
  | clone
  | imagePull
  | build
  | containerCreate
  | containerStart
  | healthcheckWait
  deriving DecidableEq, Repr

def DeployLogPhase.text : DeployLogPhase → Text
  | clone => "clone".toList
  | imagePull => "image_pull".toList
  | build => "build".toList
  | containerCreate => "container_create".toList
  | containerStart => "container_start".toList
  | healthcheckWait => "healthcheck_wait".toList

structure DeployLogLineEvent where
  phase : DeployLogPhase
  linePrefix : Text
  payload : Text
  deriving DecidableEq, Repr

inductive Outcome
  | success
  | fail
  | cancelled
  deriving DecidableEq, Repr

def Outcome.text : Outcome → Text
  | success => "success".toList
  | fail => "fail".toList
  | cancelled => "cancelled".toList

structure DeployLogEndEvent where
  outcome : Outcome
  errorClass : Option Text := none
  deriving DecidableEq, Repr

inductive DeployStatus
  | success
  | failed
  | cancelled
  deriving DecidableEq, Repr

structure DeployLogRow where
  status : DeployStatus
  buildLog : Option Text
  deriving DecidableEq, Repr

/-- `replace(/[-\s]+/g, '_')`, behind a character that is replaced or not. -/
def underscores : Bool → Text → Text
  | _, [] => []
  | inRun, c :: text =>
    if c = '-' || isWhitespace c then
      if inRun then underscores true text else '_' :: underscores true text
    else c :: underscores false text

section
variable (toLowerCase : Text → Text)

def normalizeDeployLogPhase (phase : Option Text) : DeployLogPhase :=
  let key := String.ofList ((phase.map fun phase =>
    underscores false (toLowerCase (Compose.trim phase))).getD [])
  if key = "clone" then .clone
  else if key ∈ ["pull", "image", "image_pull"] then .imagePull
  else if key ∈ ["create", "container_create"] then .containerCreate
  else if key ∈ ["tag", "run", "start", "container_start"] then .containerStart
  else if key ∈ ["health", "connectivity", "healthcheck", "healthcheck_wait"] then .healthcheckWait
  else .build

/-- The groups of `/^\[([^\]]+)\]\s*(.*)$/`. -/
def bracketed : Text → Option (Text × Text)
  | '[' :: text =>
    let rest := (text.dropWhile (· ≠ ']')).tail.dropWhile isWhitespace
    if text.takeWhile (· ≠ ']') ≠ [] ∧ ']' ∈ text ∧
        rest.all (· ∉ ['\n', '\r', '\u2028', '\u2029']) then
      some (text.takeWhile (· ≠ ']'), rest)
    else none
  | _ => none

def parseBuildLogLine (line : Text) : DeployLogLineEvent :=
  match bracketed line with
  | none => { phase := .build, linePrefix := "info".toList, payload := line }
  | some groups =>
    let lower := toLowerCase (Compose.trim groups.1)
    { phase := normalizeDeployLogPhase toLowerCase groups.1
      linePrefix := if lower = [] then "info".toList else lower
      payload := groups.2 }

def buildLogLinesFromBlob (buildLog : Option Text) : List DeployLogLineEvent :=
  match buildLog with
  | none | some [] => []
  | some buildLog =>
    (((buildLog.splitOn '\n').map stripCr).filter (· ≠ [])).map (parseBuildLogLine toLowerCase)

def deployStatusToOutcome : DeployStatus → Outcome
  | .success => .success
  | .cancelled => .cancelled
  | .failed => .fail

/-- The events of the bus that the stream is for. -/
inductive BusEvent
  | buildOutput (projectId : Text) (phase scope logChunk : Option Text) (line : Text)
  | deployClone (projectId : Text) (message : Option Text) (commitSha : Text)
  | deployBuild (projectId : Text) (message : Option Text) (durationMs : Nat)
  | deployRun (projectId : Text) (message : Option Text) (port : Nat)
  | deploySuccess (projectId : Text)
  | deployFailed (projectId : Text) (isCancelled : Bool) (errorClass : Option Text)
  | composeUp (projectId : Text)
  | composeFailed (projectId : Text)
  deriving DecidableEq, Repr

def BusEvent.projectId : BusEvent → Text
  | buildOutput id .. | deployClone id .. | deployBuild id .. | deployRun id .. | deploySuccess id
  | deployFailed id .. | composeUp id | composeFailed id => id

/-- What a handler passes on. -/
inductive Emission
  | line (event : DeployLogLineEvent)
  | ended (event : DeployLogEndEvent)
  deriving DecidableEq, Repr

def BusEvent.emission : BusEvent → Emission
  | buildOutput _ phase scope logChunk line => .line {
      phase := normalizeDeployLogPhase toLowerCase phase
      linePrefix := scope.getD "build".toList
      payload := logChunk.getD line }
  | deployClone _ message commitSha => .line {
      phase := .clone
      linePrefix := "clone".toList
      payload := message.getD ("Cloning repository (".toList ++ commitSha.take 7 ++ [')']) }
  | deployBuild _ message durationMs => .line {
      phase := .build
      linePrefix := "build".toList
      payload := message.getD
        ("Built image (".toList ++ Nat.toDigits 10 ((durationMs + 500) / 1000) ++ "s)".toList) }
  | deployRun _ message port => .line {
      phase := .containerStart
      linePrefix := "run".toList
      payload := message.getD ("Started container on port ".toList ++ Nat.toDigits 10 port) }
  | deploySuccess _ | composeUp _ => .ended { outcome := .success }
  | deployFailed _ isCancelled errorClass => .ended {
      outcome := if isCancelled then .cancelled else .fail
      errorClass := errorClass.filter (· ≠ []) }
  | composeFailed _ => .ended { outcome := .fail }

/-- What happens while a stream is open. -/
inductive StreamEvent
  | bus (event : BusEvent)
  | timeout
  deriving DecidableEq, Repr

def StreamEvent.emission (projectId : Text) : StreamEvent → Option Emission
  | bus event => if event.projectId ≠ projectId then none else some (event.emission toLowerCase)
  | timeout => some (.ended { outcome := .cancelled })

/-! ## The server -/

def formatSseFrame (eventName : Text) (payload : List (Text × Json.Scalar)) (id : Option Nat := none) :
    Text :=
  let idLine := (id.map fun id => "id: ".toList ++ Nat.toDigits 10 id ++ ['\n']).getD []
  "event: ".toList ++ eventName ++ '\n' :: idLine ++ "data: ".toList ++ Json.stringify payload ++
    ['\n', '\n']

def DeployLogLineEvent.members (event : DeployLogLineEvent) : List (Text × Json.Scalar) :=
  [("phase".toList, .text event.phase.text), ("prefix".toList, .text event.linePrefix),
    ("payload".toList, .text event.payload)]

def DeployLogEndEvent.members (event : DeployLogEndEvent) : List (Text × Json.Scalar) :=
  [("type".toList, .text "end".toList), ("outcome".toList, .text event.outcome.text)] ++
    (event.errorClass.map fun errorClass => ("errorClass".toList, .text errorClass)).toList

def parseLastEventId (headerValue : Option Text) : Nat :=
  ((headerValue.filter (· ≠ [])).bind fun text =>
    (ServiceManager.parseInt text).filter (0 ≤ ·)).getD 0 |>.toNat

/-- A response, as far as it has come. -/
structure Stream where
  lastEventId : Nat
  lineCounter : Nat := 0
  terminated : Bool := false
  written : List Text := []
  deriving DecidableEq, Repr

namespace Stream

def emitLine (s : Stream) (event : DeployLogLineEvent) : Stream :=
  if s.terminated then s
  else
    let lineCounter := s.lineCounter + 1
    if lineCounter ≤ s.lastEventId then { s with lineCounter }
    else { s with
      lineCounter
      written := s.written ++ [formatSseFrame "line".toList event.members lineCounter] }

def emitEnd (s : Stream) (event : DeployLogEndEvent) : Stream :=
  if s.terminated then s
  else { s with terminated := true, written := s.written ++ [formatSseFrame "end".toList event.members] }

def emit (s : Stream) : Emission → Stream
  | .line event => s.emitLine event
  | .ended event => s.emitEnd event

def handle (projectId : Text) (s : Stream) (event : StreamEvent) : Stream :=
  match event.emission toLowerCase projectId with
  | none => s
  | some emission => s.emit emission

end Stream

/-- What the id of the route stands for. -/
inductive Deployment
  | finished (deployLog : DeployLogRow)
  | inFlight (projectId : Text)
  deriving DecidableEq, Repr

/-- The response to a client that comes with the header, after the events. -/
def respond (headerValue : Option Text) (events : List StreamEvent) : Deployment → Stream
  | .finished deployLog =>
    ((buildLogLinesFromBlob toLowerCase deployLog.buildLog).foldl Stream.emitLine
      { lastEventId := parseLastEventId headerValue }).emitEnd
        { outcome := deployStatusToOutcome deployLog.status }
  | .inFlight projectId =>
    events.foldl (Stream.handle toLowerCase projectId) { lastEventId := parseLastEventId headerValue }

/-! ## The client -/

inductive ConnState
  | connecting
  | live
  | reconnecting
  | ended
  | cancelled
  | errored
  deriving DecidableEq, Repr

def isTerminal (state : ConnState) : Bool := state = .ended || state = .cancelled || state = .errored

structure LogEntry where
  phase : Text
  linePrefix : Text
  payload : Text
  deriving DecidableEq, Repr

/-- The state of the hook and its `EventSource`. -/
structure Client where
  lines : List LogEntry := []
  connState : ConnState := .connecting
  buildOutcome : Option Outcome := none
  errorClass : Option Text := none
  lastEventId : Option Text := none
  /-- The id that the source comes back with. -/
  sourceId : Text := []
  closed : Bool := false
  deriving DecidableEq, Repr

/-- A text of the payload. -/
def textOf (payload : Json) (key : String) : Text :=
  match payload.get key.toList with
  | some (.string text) => text
  | _ => []

namespace Client

def handleLastEventId (c : Client) (m : EventStream.Message) : Client :=
  if m.lastEventId ≠ [] then { c with lastEventId := m.lastEventId } else c

def handleLinePayload (c : Client) (payload : Json) : Client :=
  { c with
    connState := if isTerminal c.connState then c.connState else .live
    lines := c.lines ++ [⟨textOf payload "phase", textOf payload "prefix", textOf payload "payload"⟩] }

def handleEndPayload (c : Client) (payload : Json) : Client :=
  if textOf payload "outcome" = "cancelled".toList then
    { c with connState := .cancelled, closed := true }
  else
    { c with
      connState := .ended
      buildOutcome := some (if textOf payload "outcome" = "fail".toList then .fail else .success)
      errorClass := if textOf payload "errorClass" ≠ [] then some (textOf payload "errorClass")
        else c.errorClass
      closed := true }

def onLineEvent (c : Client) (m : EventStream.Message) : Client :=
  let c := c.handleLastEventId m
  match Json.parse m.data with
  | none => c
  | some payload => c.handleLinePayload payload

def onEndEvent (c : Client) (m : EventStream.Message) : Client :=
  match Json.parse m.data with
  | none => c
  | some payload => c.handleEndPayload payload

def onMessage (c : Client) (m : EventStream.Message) : Client :=
  let c := c.handleLastEventId m
  match Json.parse m.data with
  | none => c
  | some payload =>
    if textOf payload "type" = "end".toList then c.handleEndPayload payload
    else c.handleLinePayload payload

/-- The source dispatches a message. -/
def deliver (c : Client) (m : EventStream.Message) : Client :=
  if c.closed then c
  else if m.event = "line".toList then c.onLineEvent m
  else if m.event = "end".toList then c.onEndEvent m
  else if m.event = "message".toList then c.onMessage m
  else c

def onError (c : Client) : Client :=
  if c.closed then { c with connState := if isTerminal c.connState then c.connState else .errored }
  else
    { c with
      connState := if isTerminal c.connState ∨ c.connState = .connecting then c.connState
        else .reconnecting }

def kill (c : Client) : Client := { c with connState := .cancelled, closed := true }

end Client

/-- What a client meets with, one attempt to connect after the other. -/
inductive ClientEvent
  /-- The connection ends after so many characters of the response, or after all of them. -/
  | served (events : List StreamEvent) (cut : Option Nat)
  | refused
  | unreachable
  | kill
  deriving DecidableEq, Repr

/-- The header that the source comes back with. -/
def Client.header (c : Client) : Option Text := if c.sourceId = [] then none else c.sourceId

/-- A connection from its first character to its end. -/
def Client.serve (deployment : Deployment) (c : Client) (events : List StreamEvent) (cut : Option Nat) :
    Client :=
  let written := (respond toLowerCase c.header events deployment).written.flatten
  let reader := EventStream.read c.sourceId (cut.elim written written.take)
  let c := reader.messages.foldl Client.deliver { c with sourceId := reader.lastEventId }
  if c.closed then c else c.onError

def Client.step (deployment : Deployment) (c : Client) : ClientEvent → Client
  | .kill => c.kill
  | .served events cut => if c.closed then c else c.serve toLowerCase deployment events cut
  | .refused => if c.closed then c else Client.onError { c with closed := true }
  | .unreachable => if c.closed then c else c.onError

def follow (deployment : Deployment) (es : List ClientEvent) : Client :=
  es.foldl (Client.step toLowerCase deployment) {}

end

/-! ## What is written -/

def DeployLogLineEvent.frame (event : DeployLogLineEvent) (id : Nat) : EventStream.Frame :=
  { event := "line".toList, id := Nat.toDigits 10 id, data := Json.stringify event.members }

def DeployLogEndEvent.frame (event : DeployLogEndEvent) : EventStream.Frame :=
  { event := "end".toList, data := Json.stringify event.members }

def DeployLogLineEvent.entry (event : DeployLogLineEvent) : LogEntry :=
  ⟨event.phase.text, event.linePrefix, event.payload⟩

/-- The lines before the end. -/
def linesOf : List Emission → List DeployLogLineEvent
  | .line event :: emissions => event :: linesOf emissions
  | _ => []

def endOf : List Emission → Option DeployLogEndEvent
  | [] => none
  | .line _ :: emissions => endOf emissions
  | .ended event :: _ => event

/-- The lines with their numbers, from the one behind `n` on. -/
def numbered (n : Nat) : List DeployLogLineEvent → List EventStream.Frame
  | [] => []
  | event :: lines => event.frame (n + 1) :: numbered (n + 1) lines

/-- What a deployment has to say in a connection. -/
def emissions (toLowerCase : Text → Text) (events : List StreamEvent) : Deployment → List Emission
  | .finished deployLog => (buildLogLinesFromBlob toLowerCase deployLog.buildLog).map .line ++
      [.ended { outcome := deployStatusToOutcome deployLog.status }]
  | .inFlight projectId => events.filterMap (·.emission toLowerCase projectId)

section
variable {toLowerCase : Text → Text} {s : Stream} {ems : List Emission} {n : Nat}

theorem text_frame (event : Text) (id : Option Nat) (ms : List (Text × Json.Scalar)) :
    formatSseFrame event ms id =
      EventStream.Frame.text ⟨event, id.map (Nat.toDigits 10), Json.stringify ms⟩ := by
  unfold formatSseFrame EventStream.Frame.text EventStream.Frame.lines EventStream.Frame.fields unlines
  generalize Json.stringify ms = data
  generalize "event: ".toList = event', "id: ".toList = id', "data: ".toList = data'
  cases id with
  | none => simp
  | some id =>
    generalize hdigits : Nat.toDigits 10 id = digits
    simp [hdigits]

theorem emit_terminated (h : s.terminated = true) (ems : List Emission) :
    ems.foldl Stream.emit s = s := by
  induction ems with
  | nil => rfl
  | cons em ems ih =>
    rw [List.foldl_cons]
    cases em with
    | line event => rwa [Stream.emit, Stream.emitLine, if_pos h]
    | ended event => rwa [Stream.emit, Stream.emitEnd, if_pos h]

/-- The lines that the client has not seen are written under their numbers, and the end once. -/
theorem written_emit (hs : s.terminated = false) (ems : List Emission) :
    (ems.foldl Stream.emit s).written.flatten = s.written.flatten ++
      (numbered (max s.lastEventId s.lineCounter) ((linesOf ems).drop (s.lastEventId - s.lineCounter)) ++
        ((endOf ems).map (·.frame)).toList).flatMap EventStream.Frame.text := by
  induction ems generalizing s with
  | nil => simp [linesOf, endOf, numbered]
  | cons em ems ih =>
    rw [List.foldl_cons]
    cases em with
    | line event =>
      have hopen : ¬s.terminated = true := by simp [hs]
      rw [Stream.emit, Stream.emitLine, if_neg hopen]
      dsimp only
      by_cases hseen : s.lineCounter + 1 ≤ s.lastEventId
      · rw [if_pos hseen, ih (by exact hs)]
        have hmax : max s.lastEventId (s.lineCounter + 1) = max s.lastEventId s.lineCounter := by omega
        have hdrop : s.lastEventId - s.lineCounter = s.lastEventId - (s.lineCounter + 1) + 1 := by omega
        dsimp only
        rw [hmax, linesOf, endOf, hdrop, List.drop_succ_cons]
      · rw [if_neg hseen, ih (by exact hs)]
        have hmax : max s.lastEventId (s.lineCounter + 1) = s.lineCounter + 1 := by omega
        have hmax' : max s.lastEventId s.lineCounter = s.lineCounter := by omega
        have hdrop : s.lastEventId - s.lineCounter = 0 := by omega
        have hdrop' : s.lastEventId - (s.lineCounter + 1) = 0 := by omega
        dsimp only
        rw [hmax, hmax', linesOf, endOf, hdrop, hdrop', List.drop_zero, List.drop_zero, numbered,
          text_frame, List.flatten_append, List.cons_append, List.flatMap_cons, List.append_assoc]
        simp [DeployLogLineEvent.frame]
    | ended event =>
      have hopen : ¬s.terminated = true := by simp [hs]
      rw [Stream.emit, Stream.emitEnd, if_neg hopen, emit_terminated rfl, text_frame]
      simp [linesOf, endOf, numbered, DeployLogEndEvent.frame]

theorem respond_eq (headerValue : Option Text) (events : List StreamEvent) (deployment : Deployment) :
    respond toLowerCase headerValue events deployment =
      (emissions toLowerCase events deployment).foldl Stream.emit
        { lastEventId := parseLastEventId headerValue } := by
  cases deployment with
  | finished deployLog =>
    rw [respond, emissions, List.foldl_append, List.foldl_map]
    rfl
  | inFlight projectId =>
    rw [respond, emissions]
    generalize ({ lastEventId := parseLastEventId headerValue } : Stream) = s
    induction events generalizing s with
    | nil => rfl
    | cons event events ih =>
      rw [List.foldl_cons, ih, Stream.handle, List.filterMap_cons]
      cases event.emission toLowerCase projectId <;> rfl

theorem written_respond (headerValue : Option Text) (events : List StreamEvent)
    (deployment : Deployment) :
    (respond toLowerCase headerValue events deployment).written.flatten =
      (numbered (parseLastEventId headerValue)
          ((linesOf (emissions toLowerCase events deployment)).drop (parseLastEventId headerValue)) ++
        ((endOf (emissions toLowerCase events deployment)).map (·.frame)).toList).flatMap
          EventStream.Frame.text := by
  rw [respond_eq, written_emit rfl]
  simp

theorem not_mem_stringify {c : Char} (hc : c.toNat < 32) (ms : List (Text × Json.Scalar)) :
    c ∉ Json.stringify ms := fun h =>
  absurd (Json.le_toNat_of_mem_stringify h) (Nat.not_le.mpr hc)

theorem not_mem_toDigits {c : Char} (hc : c.isDigit = false) (n : Nat) : c ∉ Nat.toDigits 10 n := by
  intro h
  rw [ServiceManager.isDigit_toDigits n c h] at hc
  cases hc

theorem valid_line (event : DeployLogLineEvent) (id : Nat) : (event.frame id).Valid := by
  refine ⟨by rintro ⟨⟩, ?_, ?_⟩
  · simp only [EventStream.Frame.fields, DeployLogLineEvent.frame, Option.map_some, Option.toList_some,
      List.cons_append, List.nil_append, List.forall_mem_cons, List.mem_append, not_or]
    exact ⟨by decide, ⟨⟨by decide, not_mem_toDigits rfl _⟩, by decide, not_mem_toDigits rfl _⟩,
      ⟨⟨by decide, not_mem_stringify (by decide) _⟩, by decide, not_mem_stringify (by decide) _⟩,
      List.forall_mem_nil _⟩
  · rintro _ ⟨⟩
    exact not_mem_toDigits rfl _

theorem valid_end (event : DeployLogEndEvent) : event.frame.Valid := by
  refine ⟨by rintro ⟨⟩, ?_, by rintro _ ⟨⟩⟩
  simp only [EventStream.Frame.fields, DeployLogEndEvent.frame, Option.map_none, Option.toList_none,
    List.cons_append, List.nil_append, List.forall_mem_cons, List.mem_append, not_or]
  exact ⟨by decide, ⟨⟨by decide, not_mem_stringify (by decide) _⟩, by decide,
    not_mem_stringify (by decide) _⟩, List.forall_mem_nil _⟩

theorem valid_numbered (n : Nat) (lines : List DeployLogLineEvent) :
    ∀ f ∈ numbered n lines, f.Valid := by
  induction lines generalizing n with
  | nil => exact List.forall_mem_nil _
  | cons event lines ih => exact List.forall_mem_cons.mpr ⟨valid_line event (n + 1), ih (n + 1)⟩

theorem length_numbered (n : Nat) (lines : List DeployLogLineEvent) :
    (numbered n lines).length = lines.length := by
  induction lines generalizing n with
  | nil => rfl
  | cons event lines ih => rw [numbered, List.length_cons, ih, List.length_cons]

theorem numbered_take (n : Nat) (lines : List DeployLogLineEvent) (k : Nat) :
    (numbered n lines).take k = numbered n (lines.take k) := by
  induction lines generalizing n k with
  | nil => rw [numbered, List.take_nil, List.take_nil, numbered]
  | cons event lines ih =>
    cases k with
    | zero => rfl
    | succ k => rw [numbered, List.take_succ_cons, List.take_succ_cons, numbered, ih]

/-! ## What is read -/

/-- The id of a source that has seen so many lines. -/
def idOf (n : Nat) : Text := if n = 0 then [] else Nat.toDigits 10 n

theorem idAfter_numbered (id : Text) (n : Nat) (lines : List DeployLogLineEvent) (h : id = idOf n) :
    EventStream.idAfter id (EventStream.messages [] (numbered n lines)) = idOf (n + lines.length) := by
  suffices ∀ id', EventStream.idAfter id (EventStream.messages id' (numbered n lines)) =
      idOf (n + lines.length) from this []
  induction lines generalizing id n with
  | nil => exact fun _ => h
  | cons event lines ih =>
    intro id'
    have hlength : n + (event :: lines).length = n + 1 + lines.length := by
      rw [List.length_cons]
      omega
    rw [numbered, EventStream.messages, EventStream.idAfter_cons, hlength]
    exact ih (Nat.toDigits 10 (n + 1)) (n + 1) rfl _

section
variable {c : Client} {lines : List DeployLogLineEvent} {e : DeployLogEndEvent}

theorem parse_line (event : DeployLogLineEvent) :
    ∃ payload, Json.parse (Json.stringify event.members) = some payload ∧
      textOf payload "phase" = event.phase.text ∧ textOf payload "prefix" = event.linePrefix ∧
      textOf payload "payload" = event.payload :=
  ⟨_, Json.parse_stringify _, rfl, rfl, rfl⟩

theorem parse_end (event : DeployLogEndEvent) :
    ∃ payload, Json.parse (Json.stringify event.members) = some payload ∧
      textOf payload "outcome" = event.outcome.text ∧
      textOf payload "errorClass" = event.errorClass.getD [] := by
  refine ⟨_, Json.parse_stringify _, ?_⟩
  cases h : event.errorClass with
  | none => simp only [DeployLogEndEvent.members, h]; exact ⟨rfl, rfl⟩
  | some errorClass => simp only [DeployLogEndEvent.members, h]; exact ⟨rfl, rfl⟩

/-- The state of a hook that waits for more. -/
structure Waiting (c : Client) : Prop where
  closed : c.closed = false
  terminal : isTerminal c.connState = false
  buildOutcome : c.buildOutcome = none
  errorClass : c.errorClass = none

theorem Waiting.deliver_line (hc : Waiting c) (event : DeployLogLineEvent) (id : Text) :
    Waiting (c.deliver ⟨"line".toList, Json.stringify event.members, id⟩) ∧
      (c.deliver ⟨"line".toList, Json.stringify event.members, id⟩).lines = c.lines ++ [event.entry] ∧
      (c.deliver ⟨"line".toList, Json.stringify event.members, id⟩).sourceId = c.sourceId := by
  obtain ⟨payload, hparse, hphase, hprefix, hpayload⟩ := parse_line event
  have hid : Waiting (c.handleLastEventId ⟨"line".toList, Json.stringify event.members, id⟩) ∧
      (c.handleLastEventId ⟨"line".toList, Json.stringify event.members, id⟩).lines = c.lines ∧
      (c.handleLastEventId ⟨"line".toList, Json.stringify event.members, id⟩).sourceId = c.sourceId := by
    rw [Client.handleLastEventId]
    split
    · exact ⟨⟨hc.closed, hc.terminal, hc.buildOutcome, hc.errorClass⟩, rfl, rfl⟩
    · exact ⟨hc, rfl, rfl⟩
  obtain ⟨hid, hlines, hsource⟩ := hid
  have hdeliver : c.deliver ⟨"line".toList, Json.stringify event.members, id⟩ =
      (c.handleLastEventId ⟨"line".toList, Json.stringify event.members, id⟩).handleLinePayload
        payload := by
    rw [Client.deliver, if_neg (by simp [hc.closed]), if_pos rfl, Client.onLineEvent]
    simp only [hparse]
  rw [hdeliver, Client.handleLinePayload, hphase, hprefix, hpayload, hlines]
  refine ⟨⟨hid.closed, ?_, hid.buildOutcome, hid.errorClass⟩, rfl, hsource⟩
  rw [if_neg (Bool.eq_false_iff.mp hid.terminal)]
  rfl

theorem text_cancelled {outcome : Outcome} :
    outcome.text = "cancelled".toList ↔ outcome = .cancelled := by
  cases outcome <;> decide

theorem ofText_text {outcome : Outcome} (h : outcome ≠ .cancelled) :
    (if outcome.text = "fail".toList then .fail else .success) = outcome := by
  cases outcome with
  | success => decide
  | fail => decide
  | cancelled => exact absurd rfl h

/-- The state of a hook that has got the end. -/
structure Ended (e : DeployLogEndEvent) (c : Client) : Prop where
  closed : c.closed = true
  connState : c.connState = if e.outcome = .cancelled then .cancelled else .ended
  buildOutcome : c.buildOutcome = if e.outcome = .cancelled then none else some e.outcome
  errorClass : c.errorClass = if e.outcome = .cancelled then none else e.errorClass.filter (· ≠ [])

theorem Waiting.deliver_end (hc : Waiting c) (e : DeployLogEndEvent) (id : Text) :
    Ended e (c.deliver ⟨"end".toList, Json.stringify e.members, id⟩) ∧
      (c.deliver ⟨"end".toList, Json.stringify e.members, id⟩).lines = c.lines := by
  obtain ⟨payload, hparse, houtcome, herror⟩ := parse_end e
  have hname : "end".toList ≠ "line".toList := by decide
  have hdeliver : c.deliver ⟨"end".toList, Json.stringify e.members, id⟩ =
      c.handleEndPayload payload := by
    rw [Client.deliver, if_neg (by simp [hc.closed]), if_neg hname, if_pos rfl, Client.onEndEvent]
    simp only [hparse]
  rw [hdeliver, Client.handleEndPayload, houtcome, herror, hc.errorClass]
  by_cases hcancelled : e.outcome = .cancelled
  · rw [if_pos (text_cancelled.mpr hcancelled)]
    exact ⟨⟨rfl, (if_pos hcancelled).symm, hc.buildOutcome.trans (if_pos hcancelled).symm,
      (if_pos hcancelled).symm⟩, rfl⟩
  · rw [if_neg fun h => hcancelled (text_cancelled.mp h)]
    refine ⟨⟨rfl, (if_neg hcancelled).symm, ?_, ?_⟩, rfl⟩
    · rw [if_neg hcancelled]
      exact congrArg some (ofText_text hcancelled)
    · rw [if_neg hcancelled]
      cases e.errorClass with
      | none => rfl
      | some text => cases text <;> rfl

theorem Waiting.deliver_lines (hc : Waiting c) (id : Text) (n : Nat) (lines : List DeployLogLineEvent) :
    Waiting ((EventStream.messages id (numbered n lines)).foldl Client.deliver c) ∧
      ((EventStream.messages id (numbered n lines)).foldl Client.deliver c).lines =
        c.lines ++ lines.map (·.entry) ∧
      ((EventStream.messages id (numbered n lines)).foldl Client.deliver c).sourceId = c.sourceId := by
  induction lines generalizing c id n with
  | nil => exact ⟨hc, (List.append_nil _).symm, rfl⟩
  | cons event lines ih =>
    obtain ⟨hline, hlines, hsource⟩ := hc.deliver_line event (Nat.toDigits 10 (n + 1))
    obtain ⟨hrest, hrestLines, hrestSource⟩ := ih hline (Nat.toDigits 10 (n + 1)) (n + 1)
    refine ⟨hrest, hrestLines.trans ?_, hrestSource.trans hsource⟩
    rw [hlines, List.append_assoc]
    rfl

/-- From a part of the frames a hook gets the first lines, and the end only behind all of them. -/
theorem Waiting.receive (hc : Waiting c) (n : Nat) (more : List DeployLogLineEvent)
    (last : Option DeployLogEndEvent) {text : Text}
    (h : text <+: (numbered n more ++ (last.map (·.frame)).toList).flatMap EventStream.Frame.text) :
    ∃ k, ((EventStream.read (idOf n) text).messages.foldl Client.deliver c).lines =
        c.lines ++ (more.take k).map (·.entry) ∧
      (Waiting ((EventStream.read (idOf n) text).messages.foldl Client.deliver c) ∧
          ((EventStream.read (idOf n) text).messages.foldl Client.deliver c).sourceId = c.sourceId ∧
          (EventStream.read (idOf n) text).lastEventId = idOf (n + (more.take k).length) ∧
          (text = (numbered n more ++ (last.map (·.frame)).toList).flatMap EventStream.Frame.text →
            more.take k = more ∧ last = none) ∨
        ∃ e, last = some e ∧ Ended e ((EventStream.read (idOf n) text).messages.foldl Client.deliver c) ∧
          more.take k = more) := by
  have hvalid : ∀ f ∈ numbered n more ++ (last.map (·.frame)).toList, f.Valid := by
    refine List.forall_mem_append.mpr ⟨valid_numbered n more, fun f hf => ?_⟩
    obtain ⟨e, -, rfl⟩ := Option.map_eq_some_iff.mp (Option.mem_toList.mp hf)
    exact valid_end e
  obtain ⟨k, hmessages, hid, hall⟩ := EventStream.read_frames hvalid h (idOf n)
  rw [EventStream.messages_take, List.take_append, numbered_take, length_numbered] at hmessages hid hall
  refine ⟨k, ?_⟩
  rw [hmessages, hid]
  by_cases hlast : ((last.map (·.frame)).toList.take (k - more.length)) = []
  · -- The end has not come.
    rw [hlast, List.append_nil] at hall ⊢
    obtain ⟨hwaiting, hlines, hsource⟩ := hc.deliver_lines [] n (more.take k)
    refine ⟨hlines, .inl ⟨hwaiting, hsource, idAfter_numbered _ n _ rfl, fun htext => ?_⟩⟩
    have hlength := congrArg List.length (hall htext)
    rw [EventStream.length_messages, EventStream.length_messages, length_numbered, List.length_append,
      length_numbered, List.length_take] at hlength
    have hnone : (last.map (·.frame)).toList.length = 0 := by omega
    refine ⟨List.take_of_length_le (by omega), ?_⟩
    cases last with
    | none => rfl
    | some e => cases hnone
  · cases last with
    | none => simp at hlast
    | some e =>
      have hmore : more.length < k := by
        by_contra hle
        rw [Nat.sub_eq_zero_of_le (Nat.not_lt.mp hle)] at hlast
        exact hlast rfl
      obtain ⟨i, hi⟩ : ∃ i, k - more.length = i + 1 := ⟨k - more.length - 1, by omega⟩
      have hend : ((some e).map (·.frame)).toList.take (k - more.length) = [e.frame] := by
        rw [hi]
        exact List.take_of_length_le (by simp)
      rw [List.take_of_length_le hmore.le, hend, EventStream.messages_append, List.foldl_append]
      obtain ⟨hwaiting, hlines, -⟩ := hc.deliver_lines [] n more
      obtain ⟨hended, hendLines⟩ := hwaiting.deliver_end e
        (EventStream.idAfter [] (EventStream.messages [] (numbered n more)))
      exact ⟨hendLines.trans hlines, .inr ⟨e, rfl, hended, rfl⟩⟩

/-- The source would come back with the number of the lines. -/
structure Synced (c : Client) : Prop extends Waiting c where
  sourceId : c.sourceId = idOf c.lines.length

theorem Synced.parse_header (hc : Synced c) : parseLastEventId c.header = c.lines.length := by
  rw [Client.header, hc.sourceId, idOf]
  by_cases hzero : c.lines.length = 0
  · rw [if_pos hzero, if_pos rfl, hzero]
    rfl
  · rw [if_neg hzero, if_neg Nat.toDigits_ne_nil, parseLastEventId, Option.filter_some,
      if_pos (by simp [Nat.toDigits_ne_nil]), Option.bind_some, ServiceManager.parseInt_toDigits,
      Option.filter_some, if_pos (by simp)]
    rfl

theorem Synced.onError (hc : Synced c) : Synced c.onError ∧ c.onError.lines = c.lines := by
  rw [Client.onError, if_neg (by simp [hc.closed])]
  refine ⟨⟨⟨hc.closed, ?_, hc.buildOutcome, hc.errorClass⟩, hc.sourceId⟩, rfl⟩
  dsimp only
  split
  · exact hc.terminal
  · rfl

variable {toLowerCase : Text → Text} {deployment : Deployment} {events : List StreamEvent}

/-- What a connection adds to the lines of a client. -/
theorem Synced.serve (hc : Synced c) (deployment : Deployment) (events : List StreamEvent)
    (cut : Option Nat) :
    ∃ k, (c.serve toLowerCase deployment events cut).lines = c.lines ++
        (((linesOf (emissions toLowerCase events deployment)).drop c.lines.length).take k).map (·.entry) ∧
      (Synced (c.serve toLowerCase deployment events cut) ∧ (cut = none →
          ((linesOf (emissions toLowerCase events deployment)).drop c.lines.length).take k =
            (linesOf (emissions toLowerCase events deployment)).drop c.lines.length ∧
          endOf (emissions toLowerCase events deployment) = none) ∨
        ∃ e, endOf (emissions toLowerCase events deployment) = some e ∧
          Ended e (c.serve toLowerCase deployment events cut) ∧
          ((linesOf (emissions toLowerCase events deployment)).drop c.lines.length).take k =
            (linesOf (emissions toLowerCase events deployment)).drop c.lines.length) := by
  have hwritten := @written_respond toLowerCase c.header events deployment
  rw [hc.parse_header] at hwritten
  rw [Client.serve, hwritten, hc.sourceId]
  generalize (linesOf (emissions toLowerCase events deployment)).drop c.lines.length = more
  generalize endOf (emissions toLowerCase events deployment) = last
  generalize hframes : (numbered c.lines.length more ++
    (last.map (·.frame)).toList).flatMap EventStream.Frame.text = frames
  have hpart : cut.elim frames frames.take <+: frames := by
    cases cut with
    | none => exact List.prefix_rfl
    | some count => exact List.take_prefix ..
  generalize htext : cut.elim frames frames.take = text at hpart ⊢
  have hc' : Waiting { c with sourceId := (EventStream.read (idOf c.lines.length) text).lastEventId } :=
    ⟨hc.closed, hc.terminal, hc.buildOutcome, hc.errorClass⟩
  obtain ⟨k, hlines, ⟨hwaiting, hsource, hid, hall⟩ | ⟨e, rfl, hended, hmore⟩⟩ :=
    hc'.receive c.lines.length more last (hframes ▸ hpart)
  · have hsynced : Synced ((EventStream.read (idOf c.lines.length) text).messages.foldl Client.deliver
        { c with sourceId := (EventStream.read (idOf c.lines.length) text).lastEventId }) := by
      refine ⟨hwaiting, hsource.trans (hid.trans ?_)⟩
      rw [hlines, List.length_append, List.length_map]
    rw [if_neg (by simp [hwaiting.closed])]
    refine ⟨k, hsynced.onError.2.trans hlines, .inl ⟨hsynced.onError.1, ?_⟩⟩
    rintro rfl
    exact hall (htext.symm.trans hframes.symm)
  · rw [if_pos hended.closed]
    exact ⟨k, hlines, .inr ⟨e, rfl, hended, hmore⟩⟩

end

end

/-! ## Finished deploys -/

def entries (toLowerCase : Text → Text) (deployLog : DeployLogRow) : List LogEntry :=
  (buildLogLinesFromBlob toLowerCase deployLog.buildLog).map (·.entry)

def endEvent (deployLog : DeployLogRow) : DeployLogEndEvent :=
  { outcome := deployStatusToOutcome deployLog.status }

/-- Where the client of a finished deploy may be. -/
inductive Phase (toLowerCase : Text → Text) (deployLog : DeployLogRow) (c : Client) : Prop
  | going (h : Synced c) (lines : c.lines <+: entries toLowerCase deployLog)
  | done (h : Ended (endEvent deployLog) c) (lines : c.lines = entries toLowerCase deployLog)
  | stopped (closed : c.closed = true) (connState : c.connState ≠ .ended)
    (lines : c.lines <+: entries toLowerCase deployLog)

section
variable {toLowerCase : Text → Text} {deployLog : DeployLogRow} {c : Client}

theorem linesOf_emissions (events : List StreamEvent) :
    linesOf (emissions toLowerCase events (.finished deployLog)) =
      buildLogLinesFromBlob toLowerCase deployLog.buildLog := by
  rw [emissions]
  induction buildLogLinesFromBlob toLowerCase deployLog.buildLog with
  | nil => rfl
  | cons event lines ih => rw [List.map_cons, List.cons_append, linesOf, ih]

theorem endOf_emissions (events : List StreamEvent) :
    endOf (emissions toLowerCase events (.finished deployLog)) = endEvent deployLog := by
  rw [emissions]
  induction buildLogLinesFromBlob toLowerCase deployLog.buildLog with
  | nil => rfl
  | cons event lines ih => rw [List.map_cons, List.cons_append, endOf, ih]

theorem serve_finished (hc : Synced c) (hlines : c.lines <+: entries toLowerCase deployLog)
    (events : List StreamEvent) (cut : Option Nat) :
    Synced (c.serve toLowerCase (.finished deployLog) events cut) ∧
        (c.serve toLowerCase (.finished deployLog) events cut).lines <+: entries toLowerCase deployLog ∧
        cut ≠ none ∨
      Ended (endEvent deployLog) (c.serve toLowerCase (.finished deployLog) events cut) ∧
        (c.serve toLowerCase (.finished deployLog) events cut).lines = entries toLowerCase deployLog := by
  obtain ⟨k, hmore, hrest⟩ := @Synced.serve _ toLowerCase hc (.finished deployLog) events cut
  rw [linesOf_emissions, endOf_emissions] at hrest
  rw [linesOf_emissions, List.map_take, List.map_drop] at hmore
  have hall : c.lines ++ (entries toLowerCase deployLog).drop c.lines.length =
      entries toLowerCase deployLog := (List.prefix_append_drop hlines).symm
  obtain ⟨hsynced, hcut⟩ | ⟨e, he, hended, htake⟩ := hrest
  · refine .inl ⟨hsynced, ?_, fun hnone => ?_⟩
    · rw [hmore]
      conv_rhs => rw [← hall]
      exact (List.prefix_append_right_inj _).mpr (List.take_prefix ..)
    · cases (hcut hnone).2
  · obtain rfl : endEvent deployLog = e := Option.some.inj he
    have hentries := congrArg (List.map (·.entry)) htake
    rw [List.map_take, List.map_drop] at hentries
    refine .inr ⟨hended, ?_⟩
    rw [hmore, hentries]
    exact hall

theorem Phase.lines (h : Phase toLowerCase deployLog c) : c.lines <+: entries toLowerCase deployLog := by
  cases h with
  | going _ lines => exact lines
  | done _ lines => exact lines ▸ List.prefix_rfl
  | stopped _ _ lines => exact lines

theorem step_of_closed (hclosed : c.closed = true) {e : ClientEvent} (hkill : e ≠ .kill)
    (deployment : Deployment) : c.step toLowerCase deployment e = c := by
  cases e with
  | served events cut => exact if_pos hclosed
  | refused => exact if_pos hclosed
  | unreachable => exact if_pos hclosed
  | kill => exact absurd rfl hkill

theorem step_refused (hc : Synced c) (deployment : Deployment) :
    c.step toLowerCase deployment .refused = { c with connState := .errored, closed := true } := by
  rw [Client.step, if_neg (by simp [hc.closed]), Client.onError, if_pos rfl]
  dsimp only
  rw [if_neg (Bool.eq_false_iff.mp hc.terminal)]

theorem Phase.step (h : Phase toLowerCase deployLog c) (e : ClientEvent) :
    Phase toLowerCase deployLog (c.step toLowerCase (.finished deployLog) e) := by
  by_cases hkill : e = .kill
  · rw [hkill]
    exact .stopped rfl (by rintro ⟨⟩) h.lines
  cases h with
  | going hsynced lines =>
    have hopen : ¬c.closed = true := by simp [hsynced.closed]
    cases e with
    | served events cut =>
      rw [Client.step, if_neg hopen]
      obtain ⟨hserved, hlines, -⟩ | ⟨hended, hlines⟩ := serve_finished hsynced lines events cut
      · exact .going hserved hlines
      · exact .done hended hlines
    | refused =>
      rw [step_refused hsynced]
      exact .stopped rfl (by rintro ⟨⟩) lines
    | unreachable =>
      rw [Client.step, if_neg hopen]
      exact .going hsynced.onError.1 (hsynced.onError.2 ▸ lines)
    | kill => exact absurd rfl hkill
  | done hended lines =>
    rw [step_of_closed hended.closed hkill]
    exact .done hended lines
  | stopped closed connState lines =>
    rw [step_of_closed closed hkill]
    exact .stopped closed connState lines

theorem synced_init : Synced {} := ⟨⟨rfl, rfl, rfl, rfl⟩, rfl⟩

theorem Phase.foldl (h : Phase toLowerCase deployLog c) (es : List ClientEvent) :
    Phase toLowerCase deployLog (es.foldl (Client.step toLowerCase (.finished deployLog)) c) :=
  List.foldlRecOn es _ h fun _ hc e _ => hc.step e

/-- Neither the user nor the server makes an end of it. -/
def Undisturbed (es : List ClientEvent) : Prop := ∀ e ∈ es, e ≠ .kill ∧ e ≠ .refused

theorem Ended.foldl {e : DeployLogEndEvent} (h : Ended e c) {es : List ClientEvent} (hes : Undisturbed es)
    (deployment : Deployment) : es.foldl (Client.step toLowerCase deployment) c = c := by
  induction es with
  | nil => rfl
  | cons event es ih =>
    obtain ⟨⟨hkill, -⟩, hes⟩ := List.forall_mem_cons.mp hes
    rw [List.foldl_cons, step_of_closed h.closed hkill]
    exact ih hes

/-- A connection that is not cut gets the client to the end. -/
theorem ended_of_served (hc : Synced c) (hlines : c.lines <+: entries toLowerCase deployLog)
    {es : List ClientEvent} (hes : Undisturbed es) {events : List StreamEvent}
    (hserved : .served events none ∈ es) :
    Ended (endEvent deployLog) (es.foldl (Client.step toLowerCase (.finished deployLog)) c) ∧
      (es.foldl (Client.step toLowerCase (.finished deployLog)) c).lines =
        entries toLowerCase deployLog := by
  induction es generalizing c with
  | nil => cases hserved
  | cons event es ih =>
    obtain ⟨⟨hkill, hrefused⟩, hrest⟩ := List.forall_mem_cons.mp hes
    have hopen : ¬c.closed = true := by simp [hc.closed]
    rw [List.foldl_cons]
    cases event with
    | kill => exact absurd rfl hkill
    | refused => exact absurd rfl hrefused
    | unreachable =>
      obtain ⟨hsynced, herror⟩ := hc.onError
      rw [Client.step, if_neg hopen]
      exact ih hsynced (herror ▸ hlines) hrest ((List.mem_cons.mp hserved).resolve_left (by rintro ⟨⟩))
    | served events' cut =>
      rw [Client.step, if_neg hopen]
      obtain ⟨hsynced, hlines, hcut⟩ | ⟨hended, hlines⟩ := serve_finished hc hlines events' cut
      · refine ih hsynced hlines hrest ((List.mem_cons.mp hserved).resolve_left ?_)
        rintro ⟨⟩
        exact hcut rfl
      · rw [hended.foldl hrest]
        exact ⟨hended, hlines⟩

end

/-- However often the connection to a finished deploy is cut, its lines come in order, none twice. A
client that shows the end shows all of them, and one connection that is not cut gets it there. -/
theorem lines_finished (toLowerCase : Text → Text) (deployLog : DeployLogRow) (es : List ClientEvent) :
    (follow toLowerCase (.finished deployLog) es).lines <+: entries toLowerCase deployLog ∧
      ((follow toLowerCase (.finished deployLog) es).connState = .ended →
        (follow toLowerCase (.finished deployLog) es).lines = entries toLowerCase deployLog) ∧
      (Undisturbed es → (∃ events, .served events none ∈ es) →
        Ended (endEvent deployLog) (follow toLowerCase (.finished deployLog) es) ∧
          (follow toLowerCase (.finished deployLog) es).lines = entries toLowerCase deployLog) := by
  have hphase : Phase toLowerCase deployLog (follow toLowerCase (.finished deployLog) es) :=
    (Phase.going synced_init List.nil_prefix).foldl es
  refine ⟨hphase.lines, fun hended => ?_, fun hes hserved => ?_⟩
  · cases hphase with
    | going h _ =>
      have hterminal := h.terminal
      rw [hended] at hterminal
      cases hterminal
    | done _ lines => exact lines
    | stopped _ connState _ => exact absurd hended connState
  · obtain ⟨events, hserved⟩ := hserved
    exact ended_of_served synced_init List.nil_prefix hes hserved

/-! ## Deploys in flight -/

/-- The lines that a deploy in flight has while a connection is open. -/
def sent (toLowerCase : Text → Text) (projectId : Text) (events : List StreamEvent) : List LogEntry :=
  (linesOf (emissions toLowerCase events (.inFlight projectId))).map (·.entry)

/-- What a client shows that drops from each connection as many lines as it has. -/
def resumed (shown : List LogEntry) (connections : List (List LogEntry)) : List LogEntry :=
  connections.foldl (fun shown lines => shown ++ lines.drop shown.length) shown

theorem length_resumed (shown : List LogEntry) (connections : List (List LogEntry)) :
    (resumed shown connections).length = (connections.map (·.length)).foldl max shown.length := by
  induction connections generalizing shown with
  | nil => rfl
  | cons lines connections ih =>
    have hlength : (shown ++ lines.drop shown.length).length = max shown.length lines.length := by
      rw [List.length_append, List.length_drop]
      omega
    rw [resumed, List.foldl_cons, ← resumed, ih, hlength]
    rfl

section
variable {toLowerCase : Text → Text} {projectId : Text} {c : Client}
variable {connections : List (List StreamEvent)}

theorem foldl_inFlight (hc : Synced c)
    (h : ∀ events ∈ connections, endOf (emissions toLowerCase events (.inFlight projectId)) = none) :
    ((connections.map (ClientEvent.served · none)).foldl
      (Client.step toLowerCase (.inFlight projectId)) c).lines =
        resumed c.lines (connections.map (sent toLowerCase projectId)) := by
  induction connections generalizing c with
  | nil => rfl
  | cons events connections ih =>
    obtain ⟨hnone, h⟩ := List.forall_mem_cons.mp h
    obtain ⟨k, hmore, ⟨hsynced, hcut⟩ | ⟨e, he, -⟩⟩ :=
      @Synced.serve _ toLowerCase hc (.inFlight projectId) events none
    · rw [(hcut rfl).1, List.map_drop] at hmore
      rw [List.map_cons, List.foldl_cons, Client.step, if_neg (by simp [hc.closed]), ih hsynced h, hmore]
      rfl
    · cases hnone.symm.trans he

end

/-- Of a deploy in flight the client shows from each connection only the lines behind the number of those
that it has, so in all as many as the longest connection had: the others are lost, also when all that was
written comes through. -/
theorem lines_inFlight {toLowerCase : Text → Text} {projectId : Text}
    {connections : List (List StreamEvent)}
    (h : ∀ events ∈ connections, endOf (emissions toLowerCase events (.inFlight projectId)) = none) :
    (follow toLowerCase (.inFlight projectId) (connections.map (.served · none))).lines =
        (connections.map (sent toLowerCase projectId)).foldl
          (fun shown lines => shown ++ lines.drop shown.length) [] ∧
      (follow toLowerCase (.inFlight projectId) (connections.map (.served · none))).lines.length =
        (connections.map fun events => (sent toLowerCase projectId events).length).foldl max 0 := by
  have hlines := foldl_inFlight (c := {}) synced_init h
  refine ⟨hlines, ?_⟩
  rw [follow, hlines, length_resumed, List.map_map]
  rfl

def twoLines : DeployLogRow := { status := .success, buildLog := some "[clone] a\nb\n".toList }

def output (line : String) : StreamEvent := .bus (.buildOutput [] none none none line.toList)

/-- The first connection is cut within the second line. -/
theorem lines_finished_cut :
    (follow id (.finished twoLines) [.served [] (some 110), .served [] none]).lines = [
      ⟨"clone".toList, "clone".toList, "a".toList⟩, ⟨"build".toList, "info".toList, "b".toList⟩] := by
  rw [((lines_finished id twoLines [.served [] (some 110), .served [] none]).2.2
    (by simp [Undisturbed]) ⟨[], .tail _ (.head _)⟩).2]
  decide +kernel

/-- The third line is not shown, nor the second one of the other connection. -/
theorem lines_inFlight_lost : (follow id (.inFlight [])
    ([[output "1", output "2"], [output "3"], [output "4", output "5", output "6"]].map
      (.served · none))).lines.map (·.payload) = [['1'], ['2'], ['6']] := by
  rw [(lines_inFlight (by decide +kernel)).1]
  decide +kernel

end OpenLander.DeployLogStream
