import Mathlib.Logic.Function.Basic
import OpenLander.Theory.Run

/-! # Sessions of the MCP server

`createMcpHttpRoutes` (`src/mcp/server.ts`) authenticates each request by its bearer token, and hands a
tool call to the server of the session that the request names. `registerCompositeMcpTools`
(`src/tools/adapters/mcp.ts`) has given that server the identity of the request that opened the session.
What the transports of the SDK accept is left open. -/

namespace OpenLander.Mcp
open Theory

/-! ## Authentication -/

inductive ScopeKind
  | org
  | project
  | service
  deriving DecidableEq, Repr

inductive TokenType
  | legacyDefault
  | pat
  | service
  deriving DecidableEq, Repr

structure PatTokenRow where
  id : String
  tokenType : TokenType := .pat
  scopeKind : ScopeKind
  scopeProjectId : Option String := none
  scopeServiceId : Option String := none
  name : String
  revokedAt : Option Int := none
  expiresAt : Option Int := none

structure McpTokenIdentity where
  tokenId : Option String
  tokenType : TokenType
  scopeKind : ScopeKind
  scopeProjectId : Option String
  scopeServiceId : Option String
  name : String

structure RequestIdentity where
  initiatedBy : String
  mcpTokenId : Option String
  mcpTokenType : TokenType
  mcpScopeKind : ScopeKind
  mcpScopeProjectId : Option String
  mcpScopeServiceId : Option String
  deriving DecidableEq, Repr

/-- What a token is authenticated against. A row is found through the hash of its token. -/
structure Auth where
  isPasswordSet : Bool
  findPatToken : String → Option PatTokenRow := fun _ => none
  apiToken : Option String := none
  now : Int := 0

def isTokenUsable (now : Int) (row : PatTokenRow) : Bool :=
  row.revokedAt.isNone && row.expiresAt.all (now < ·)

def validateMcpBearerToken (auth : Auth) (token : String) : Option McpTokenIdentity :=
  match (auth.findPatToken token).filter (isTokenUsable auth.now) with
  | some row => some {
      tokenId := some row.id
      tokenType := row.tokenType
      scopeKind := row.scopeKind
      scopeProjectId := row.scopeProjectId
      scopeServiceId := row.scopeServiceId
      name := row.name }
  | none =>
    if auth.apiToken = some token then some {
      tokenId := none
      tokenType := .legacyDefault
      scopeKind := .org
      scopeProjectId := none
      scopeServiceId := none
      name := "legacy-default" }
    else none

def toRequestIdentity (token : McpTokenIdentity) : RequestIdentity where
  initiatedBy := token.name
  mcpTokenId := token.tokenId
  mcpTokenType := token.tokenType
  mcpScopeKind := token.scopeKind
  mcpScopeProjectId := token.scopeProjectId
  mcpScopeServiceId := token.scopeServiceId

/-- There is no identity before a password is set. -/
def authenticateMcpRequest (auth : Auth) (authHeader : Option String) :
    Except String (Option RequestIdentity) :=
  if !auth.isPasswordSet then .ok none
  else match authHeader.filter fun header => "Bearer ".toList.isPrefixOf header.toList with
    | none => .error "Unauthorized"
    | some header =>
      match validateMcpBearerToken auth (String.ofList (header.toList.drop "Bearer ".length)) with
      | none => .error "Invalid token"
      | some identity => .ok (some (toRequestIdentity identity))

/-! ## Sessions -/

structure Session where
  /-- What `createMcpServerInstance` was given. -/
  identity : Option RequestIdentity
  closed : Bool := false
  deriving DecidableEq

/-- A tool call that has been executed. -/
structure Execution (Call : Type*) where
  call : Call
  /-- It runs under this identity, -/
  identity : Option RequestIdentity
  /-- and has come with a request of this one. -/
  sender : Option RequestIdentity

structure State (ι Call : Type*) where
  auth : Auth
  sessions : ι → Option Session := fun _ => none
  sseSessions : ι → Option Session := fun _ => none
  executed : List (Execution Call) := []

/-- What a request to the HTTP transport carries. -/
inductive Message (ι Call : Type*)
  /-- It begins a session, for which the transport draws the id. -/
  | initializeRequest (sessionId : ι)
  | toolCalls (calls : List Call)
  | delete
  | other

inductive Tool
  | composite
  | platform

/-- Requests carry whether the transport accepts them. -/
inductive Event (ι Call : Type*)
  /-- A request to `/`. -/
  | http (authHeader : Option String) (sessionId : Option ι) (message : Message ι Call)
      (accepted : Bool)
  /-- A request to `/sse`, for which the transport draws the id. -/
  | sse (authHeader : Option String) (sessionId : ι)
  /-- A request to `/messages`. -/
  | messages (authHeader : Option String) (sessionId : Option ι) (call : Option Call) (accepted : Bool)
  /-- A session ends, by its time to live, with its stream or by an administrator. -/
  | ended (sessionId : ι)
  | sseEnded (sessionId : ι)
  /-- Tokens are issued, revoked or expire, or the password is set. -/
  | auth (auth : Auth)

variable {ι Call : Type*} (tools : Call → Option Tool)

/-- The server of a session executes the call: its tool is there and its arguments parse. Platform tools
are refused to the tokens of a project and of a service. -/
def executes (identity : Option RequestIdentity) (call : Call) : Bool :=
  match tools call with
  | some .composite => true
  | some .platform => !identity.any fun identity => identity.mcpScopeKind ≠ .org
  | none => false

def execute (s : State ι Call) (session : Session) (sender : Option RequestIdentity)
    (calls : List Call) : State ι Call :=
  { s with executed := s.executed ++ (calls.filter (executes tools session.identity)).map fun call =>
      { call, identity := session.identity, sender } }

variable [DecidableEq ι]

def httpRequest (s : State ι Call) (authHeader : Option String) (sessionId : Option ι)
    (message : Message ι Call) (accepted : Bool) : Except String (State ι Call) :=
  match authenticateMcpRequest s.auth authHeader, sessionId with
  | .error e, _ => .error e
  | .ok sender, some sessionId =>
    match (s.sessions sessionId).filter (!·.closed) with
    | none => .error "Session not found"
    | some session =>
      match message, accepted with
      | .toolCalls calls, true => .ok (execute tools s session sender calls)
      | .delete, true => .ok { s with
          sessions := Function.update s.sessions sessionId (some { session with closed := true }) }
      | _, _ => .ok s
  | .ok sender, none =>
    match message, accepted with
    | .initializeRequest sessionId, true => .ok { s with
        sessions := Function.update s.sessions sessionId (some { identity := sender }) }
    | _, _ => .ok s

def sseRequest (s : State ι Call) (authHeader : Option String) (sessionId : ι) :
    Except String (State ι Call) :=
  match authenticateMcpRequest s.auth authHeader with
  | .error e => .error e
  | .ok sender => .ok { s with
      sseSessions := Function.update s.sseSessions sessionId (some { identity := sender }) }

omit [DecidableEq ι] in
def messagesRequest (s : State ι Call) (authHeader : Option String) (sessionId : Option ι)
    (call : Option Call) (accepted : Bool) : Except String (State ι Call) :=
  match authenticateMcpRequest s.auth authHeader, sessionId with
  | .error e, _ => .error e
  | .ok _, none => .error "Missing sessionId query parameter"
  | .ok sender, some sessionId =>
    match s.sseSessions sessionId with
    | none => .error "SSE session not found"
    | some session => .ok (if accepted then execute tools s session sender call.toList else s)

/-- A request that fails leaves everything as it was. -/
def next (s : State ι Call) : Event ι Call → Option (State ι Call)
  | .http authHeader sessionId message accepted =>
    some ((httpRequest tools s authHeader sessionId message accepted).toOption.getD s)
  | .sse authHeader sessionId => some ((sseRequest s authHeader sessionId).toOption.getD s)
  | .messages authHeader sessionId call accepted =>
    some ((messagesRequest tools s authHeader sessionId call accepted).toOption.getD s)
  | .ended sessionId => some { s with sessions := Function.update s.sessions sessionId none }
  | .sseEnded sessionId => some { s with sseSessions := Function.update s.sseSessions sessionId none }
  | .auth auth => some { s with auth }

/-! ## The claim -/

/-- Whom a call acts for. -/
def RequestIdentity.principal (identity : RequestIdentity) :
    Option String × ScopeKind × Option String × Option String :=
  (identity.mcpTokenId, identity.mcpScopeKind, identity.mcpScopeProjectId,
    identity.mcpScopeServiceId)

/-- A call that has come with a token has run under the identity of that token. -/
def ActsAsSender (s : State ι Call) : Prop :=
  ∀ execution ∈ s.executed, ∀ sender, execution.sender = some sender →
    execution.identity.map RequestIdentity.principal = some sender.principal

/-- A sender whose calls a session executes is the one that has opened the session. -/
def Opened (session : Session) (sender : Option RequestIdentity) (calls : List Call) : Prop :=
  (∃ call ∈ calls, executes tools session.identity call) → ∀ identity, sender = some identity →
    session.identity.map RequestIdentity.principal = some identity.principal

/-- The calls of a request to a live session, with a token that is valid, come from whom the session was
opened by. -/
def SentByOpener (s : State ι Call) : Event ι Call → Prop
  | .http authHeader (some sessionId) (.toolCalls calls) true =>
    ∀ sender, authenticateMcpRequest s.auth authHeader = .ok sender →
      ∀ session, (s.sessions sessionId).filter (!·.closed) = some session →
        Opened tools session sender calls
  | .messages authHeader (some sessionId) (some call) true =>
    ∀ sender, authenticateMcpRequest s.auth authHeader = .ok sender →
      ∀ session, s.sseSessions sessionId = some session → Opened tools session sender [call]
  | _ => True

/-! ## Steps -/

section
variable {tools} {s t : State ι Call} {e : Event ι Call}

omit [DecidableEq ι] in
theorem actsAsSender_execute {session : Session} :
    ActsAsSender (execute tools s session sender calls) ↔
      ActsAsSender s ∧ Opened tools session sender calls := by
  constructor
  · intro h
    refine ⟨fun execution hmem => h execution (List.mem_append_left _ hmem), ?_⟩
    rintro ⟨call, hcall, hexecutes⟩ identity hsender
    refine h { call, identity := session.identity, sender } (List.mem_append_right _ ?_) identity hsender
    exact List.mem_map_of_mem (List.mem_filter.mpr ⟨hcall, hexecutes⟩)
  · rintro ⟨hs, hopened⟩ execution hmem identity hsender
    obtain hmem | hmem := List.mem_append.mp hmem
    · exact hs execution hmem identity hsender
    · obtain ⟨call, hcall, rfl⟩ := List.mem_map.mp hmem
      obtain ⟨hcall, hexecutes⟩ := List.mem_filter.mp hcall
      exact hopened ⟨call, hcall, hexecutes⟩ identity hsender

omit [DecidableEq ι] in
theorem actsAsSender_of_executed_eq (hexecuted : t.executed = s.executed)
    (hsent : SentByOpener tools s e) : ActsAsSender t ↔ ActsAsSender s ∧ SentByOpener tools s e := by
  rw [ActsAsSender, hexecuted]
  exact (and_iff_left hsent).symm

/-- Nothing is executed unless the transport of a session accepts tool calls. -/
theorem httpRequest_executed {authHeader : Option String} {sessionId : Option ι}
    {message : Message ι Call} {accepted : Bool}
    (h : ∀ sid calls, ¬(sessionId = some sid ∧ message = .toolCalls calls ∧ accepted = true)) :
    ((httpRequest tools s authHeader sessionId message accepted).toOption.getD s).executed =
      s.executed := by
  unfold httpRequest
  split
  · rfl
  next sender sid _ =>
    split
    · rfl
    split
    next calls => exact absurd ⟨rfl, rfl, rfl⟩ (h sid calls)
    · rfl
    · rfl
  · split <;> rfl

theorem httpRequest_actsAsSender_iff {authHeader : Option String} {sessionId : ι} {calls : List Call} :
    ActsAsSender
        ((httpRequest tools s authHeader (some sessionId) (.toolCalls calls) true).toOption.getD s) ↔
      ActsAsSender s ∧
        SentByOpener tools s (.http authHeader (some sessionId) (.toolCalls calls) true) := by
  unfold httpRequest
  split
  next hauth =>
    refine actsAsSender_of_executed_eq rfl ?_
    intro sender hsender
    exact nomatch hauth.symm.trans hsender
  next sender sid hauth hsession =>
    obtain rfl := Option.some.inj hsession
    split
    next hnone =>
      refine actsAsSender_of_executed_eq rfl ?_
      intro _ _ session hsession
      exact nomatch hnone.symm.trans hsession
    next session hsession =>
      refine actsAsSender_execute.trans (and_congr_right fun _ => ?_)
      constructor
      · intro hopened sender' hsender' session' hsession'
        obtain rfl := Except.ok.inj (hauth.symm.trans hsender')
        obtain rfl := Option.some.inj (hsession.symm.trans hsession')
        exact hopened
      · intro hsent
        exact hsent sender hauth session hsession
  next hnone => exact nomatch hnone

omit [DecidableEq ι] in
theorem messagesRequest_actsAsSender_iff {authHeader : Option String} {sessionId : Option ι}
    {call : Option Call} {accepted : Bool} :
    ActsAsSender
        ((messagesRequest tools s authHeader sessionId call accepted).toOption.getD s) ↔
      ActsAsSender s ∧ SentByOpener tools s (.messages authHeader sessionId call accepted) := by
  unfold messagesRequest
  split
  next hauth =>
    refine actsAsSender_of_executed_eq rfl ?_
    unfold SentByOpener
    split
    · trivial
    next heq =>
      obtain ⟨rfl, -⟩ := Event.messages.inj heq
      intro sender hsender
      exact nomatch hauth.symm.trans hsender
    · trivial
  next => exact actsAsSender_of_executed_eq rfl trivial
  next sender sid hauth =>
    split
    next hnone =>
      refine actsAsSender_of_executed_eq rfl ?_
      unfold SentByOpener
      split
      · trivial
      next heq =>
        obtain ⟨-, hsid, -⟩ := Event.messages.inj heq
        obtain rfl := Option.some.inj hsid
        intro _ _ session hsession
        exact nomatch hnone.symm.trans hsession
      · trivial
    next session hsession =>
      cases accepted with
      | false =>
        refine actsAsSender_of_executed_eq rfl ?_
        cases call with
        | none | some => trivial
      | true =>
        cases call with
        | none =>
          refine actsAsSender_of_executed_eq ?_ trivial
          exact List.append_nil _
        | some call =>
          refine actsAsSender_execute.trans (and_congr_right fun _ => ?_)
          constructor
          · intro hopened sender' hsender' session' hsession'
            obtain rfl := Except.ok.inj (hauth.symm.trans hsender')
            obtain rfl := Option.some.inj (hsession.symm.trans hsession')
            exact hopened
          · intro hsent
            exact hsent sender hauth session hsession

/-- One case for each kind of event. -/
theorem next_actsAsSender_iff (h : Fires (next tools) s e t) :
    ActsAsSender t ↔ ActsAsSender s ∧ SentByOpener tools s e := by
  cases e with
  | http authHeader sessionId message accepted =>
    obtain rfl := Option.some.inj h
    by_cases hcalls :
        ∃ sid calls, sessionId = some sid ∧ message = .toolCalls calls ∧ accepted = true
    · obtain ⟨sid, calls, rfl, rfl, rfl⟩ := hcalls
      exact httpRequest_actsAsSender_iff
    · refine actsAsSender_of_executed_eq (httpRequest_executed ?_) ?_
      · intro sid calls hall
        exact hcalls ⟨sid, calls, hall⟩
      · unfold SentByOpener
        split
        next sid calls heq =>
          obtain ⟨-, hsid, hmessage, haccepted⟩ := Event.http.inj heq
          exact absurd ⟨sid, calls, hsid, hmessage, haccepted⟩ hcalls
        next heq => exact nomatch heq
        · trivial
  | sse authHeader sessionId =>
    obtain rfl := Option.some.inj h
    refine actsAsSender_of_executed_eq ?_ trivial
    unfold sseRequest
    split <;> rfl
  | messages authHeader sessionId call accepted =>
    obtain rfl := Option.some.inj h
    exact messagesRequest_actsAsSender_iff
  | ended | sseEnded | auth =>
    obtain rfl := Option.some.inj h
    exact actsAsSender_of_executed_eq rfl trivial

/-- All that a run executes acts for its sender exactly if each of its requests keeps to the sessions
that its sender has opened. -/
theorem actsAsSender_iff {auth : Auth} {es : List (Event ι Call)}
    (h : Run (Fires (next tools)) { auth } es s) :
    ActsAsSender s ↔ Run (Guarded (Fires (next tools)) (SentByOpener tools)) { auth } es s := by
  have hstart : ActsAsSender ({ auth } : State ι Call) :=
    fun _ hmem => absurd hmem List.not_mem_nil
  have htrue : Preserves (Fires (next tools)) fun _ : State ι Call => True :=
    fun _ _ _ _ _ => trivial
  rw [Run.iff_guarded Fires.det h trivial htrue fun s e t hstep _ => next_actsAsSender_iff hstep]
  exact and_iff_right hstart

end

/-! ## A token of a service in the session of another one -/

section

/-- An instance token and a token of a service. -/
def twoTokens : Auth where
  isPasswordSet := true
  findPatToken token :=
    if token = "olp_all" then some { id := "t1", scopeKind := .org, name := "all" }
    else if token = "olp_web" then some
      { id := "t2", scopeKind := .service, scopeProjectId := some "p1", scopeServiceId := some "web",
        name := "web" }
    else none

def deleteApp : String → Option Tool := fun _ => some .composite

def borrowed : List (Event Nat String) :=
  [.http (some "Bearer olp_all") none (.initializeRequest 0) true,
    .http (some "Bearer olp_web") (some 0) (.toolCalls ["openlander_service.delete_app"]) true]

theorem not_actsAsSender : ¬∀ (tools : String → Option Tool) (auth : Auth)
    (es : List (Event Nat String)) (s : State Nat String),
    Run (Fires (next tools)) { auth } es s → ActsAsSender s := by
  intro h
  obtain ⟨s, hs⟩ := Option.isSome_iff_exists.mp
    (by decide : (exec (next deleteApp) { auth := twoTokens } borrowed).isSome)
  have hacts := h deleteApp twoTokens borrowed s (.of_exec hs)
  have hrecord : ∀ s ∈ exec (next deleteApp) { auth := twoTokens } borrowed,
      ∃ execution ∈ s.executed, execution.sender.map (·.mcpTokenId) = some (some "t2") ∧
        execution.identity.map (·.mcpTokenId) = some (some "t1") := by
    decide
  obtain ⟨execution, hmem, hsender, hidentity⟩ := hrecord s hs
  obtain ⟨sender, hsome, hid⟩ := Option.map_eq_some_iff.mp hsender
  obtain ⟨identity, hsome', hid'⟩ := Option.map_eq_some_iff.mp hidentity
  have hprincipal := hacts execution hmem sender hsome
  rw [hsome', Option.map_some, Option.some.injEq] at hprincipal
  have hids := congrArg Prod.fst hprincipal
  dsimp only [RequestIdentity.principal] at hids
  rw [hid, hid'] at hids
  exact absurd hids (by decide)

/-- The service opens a session of its own. -/
def own : List (Event Nat String) :=
  [.http (some "Bearer olp_web") none (.initializeRequest 0) true,
    .http (some "Bearer olp_web") (some 0) (.toolCalls ["openlander_service.delete_app"]) true]

def ownEnd : State Nat String :=
  (exec (next deleteApp) { auth := twoTokens } own).get (by decide)

theorem actsAsSender_own :
    ownEnd.executed.length = 1 ∧ ActsAsSender ownEnd ∧
      Run (Guarded (Fires (next deleteApp)) (SentByOpener deleteApp)) { auth := twoTokens } own
        ownEnd := by
  have hrun : Run (Fires (next deleteApp)) { auth := twoTokens } own ownEnd :=
    .of_exec (Option.some_get _).symm
  have hacts : ActsAsSender ownEnd := by
    have hsame : ∀ execution ∈ ownEnd.executed, execution.identity = execution.sender := by
      decide
    intro execution hmem sender hsender
    rw [hsame execution hmem, hsender, Option.map_some]
  exact ⟨by decide, hacts, (actsAsSender_iff hrun).mp hacts⟩

end

end OpenLander.Mcp
