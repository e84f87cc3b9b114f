import OpenLander.Pipeline.World

/-! # The authentication gate

`createAuthMiddleware` (`src/web/middleware/auth.ts`) runs ahead of every route. It looks at the
credentials of a request first, and then lets it through by its path, by its method, or by its
credentials. Paths that end like a file pass whatever they start with, so the gate is complete for
exactly the other ones (`gate_iff`). -/

namespace OpenLander.Web
open Pipeline (isWhitespace)

def EXEMPT_PREFIXES : List String :=
  ["/api/webhooks/", "/webhooks/", "/assets/", "/mcp", "/api/traefik/", "/__openlander/share/"]

def EXEMPT_AUTH_PATHS : List String :=
  ["/auth/login", "/api/auth/login", "/auth/logout", "/api/auth/logout", "/auth/verify",
    "/api/auth/verify", "/auth/setup-password", "/api/auth/setup-password"]

def EXEMPT_EXTENSIONS : List String :=
  [".js", ".css", ".svg", ".ico", ".png", ".woff2", ".woff", ".ttf", ".map"]

def startsWith (s start : String) : Bool := start.toList.isPrefixOf s.toList

def endsWith (s ending : String) : Bool := ending.toList.isSuffixOf s.toList

/-! ## Cookies (`src/web/middleware/cookies.ts`) -/

/-- The value, up to the next semicolon, if the text starts with the cookie. -/
def cookieAt (name : String) (text : List Char) : Option String :=
  if (name.toList ++ ['=']).isPrefixOf text then
    some (String.ofList ((text.drop (name.length + 1)).takeWhile (· ≠ ';')))
  else none

/-- The first cookie of the name after a semicolon. -/
def cookieAfter (name : String) : List Char → Option String
  | [] => none
  | c :: rest =>
    if c = ';' then (cookieAt name (rest.dropWhile isWhitespace)).or (cookieAfter name rest)
    else cookieAfter name rest

def parseCookie (cookieHeader name : String) : Option String :=
  (cookieAt name cookieHeader.toList).or (cookieAfter name cookieHeader.toList)

/-! ## The middleware -/

structure Request where
  method : String
  path : String
  cookie : Option String := none
  authorization : Option String := none
  /-- `new URL(c.req.url).origin`. -/
  origin : String
deriving DecidableEq

/-- What the middleware asks of the service. A call may fail. -/
structure AuthService where
  validateSession : String → Except String Bool
  validateApiToken : String → Except String Bool
  isPasswordSet : Except String Bool

inductive AuthKind
  | session | apiToken
deriving DecidableEq

inductive Refusal
  | setupRequired
  | unauthorized
  | mcpTokenUsedOnRestApi (mcpEndpoint : String)
deriving DecidableEq

namespace Refusal

def status : Refusal → Nat
  | setupRequired => 403
  | unauthorized | mcpTokenUsedOnRestApi _ => 401

def body : Refusal → List (String × String)
  | setupRequired => [("error", "SETUP_REQUIRED")]
  | unauthorized => [("error", "Unauthorized")]
  | mcpTokenUsedOnRestApi mcpEndpoint =>
    [("error", "MCP_TOKEN_USED_ON_REST_API"), ("code", "MCP_TOKEN_USED_ON_REST_API"),
      ("message", "This bearer token is an MCP Agent Token. It only works with the /mcp endpoint; " ++
        "do not use it for direct /api requests."),
      ("mcp_endpoint", mcpEndpoint),
      ("suggested_next_step", "Register OpenLander as an MCP server, then verify " ++
        "openlander_project(\x7b action: \"help\" \x7d) works."),
      ("example", "claude mcp add --transport http openlander " ++ mcpEndpoint ++
        " --header \"Authorization: Bearer <MCP_TOKEN>\"")]

end Refusal

inductive Outcome
  /-- `next()`, with what handlers are told of the request. -/
  | next (authKind : Option AuthKind)
  | refused (refusal : Refusal)
deriving DecidableEq

def Request.sessionToken (req : Request) : Option String :=
  (parseCookie (req.cookie.getD "") "ol_session").filter (· ≠ "")

def Request.bearerToken (req : Request) : Option String :=
  req.authorization.bind fun header =>
    if startsWith header "Bearer " then some (String.ofList (header.toList.drop 7)) else none

/-- What is not there is not valid. -/
def isValid (validate : String → Except String Bool) : Option String → Except String Bool
  | some token => validate token
  | none => .ok false

/-- The kind of the credentials that the request carries. The API token is only looked at if there
is no session. -/
def authKind (authService : AuthService) (req : Request) : Except String (Option AuthKind) := do
  if ← isValid authService.validateSession req.sessionToken then return some .session
  if ← isValid authService.validateApiToken req.bearerToken then return some .apiToken
  return none

/-- The request passes whoever sends it. -/
def isExempt (req : Request) : Bool :=
  req.path = "/health" || EXEMPT_PREFIXES.any (startsWith req.path) ||
    EXEMPT_AUTH_PATHS.contains req.path || EXEMPT_EXTENSIONS.any (endsWith req.path) ||
    req.method = "GET" && req.path = "/api/setup/status" ||
    req.method = "GET" && req.path = "/api/info"

/-- The answer to a request without credentials. -/
def refusal (req : Request) : Refusal :=
  match req.bearerToken with
  | some token =>
    if startsWith token "olp_" then .mcpTokenUsedOnRestApi (req.origin ++ "/mcp")
    else .unauthorized
  | none => .unauthorized

/-- What becomes of a request that does not pass by its path and method alone. -/
def gate (isPasswordSet : Bool) (authKind : Option AuthKind) (req : Request) : Outcome :=
  if !isPasswordSet then
    if startsWith req.path "/api/setup/" || startsWith req.path "/setup" then .next authKind
    else if !startsWith req.path "/api/" then .next authKind
    else .refused .setupRequired
  else if authKind.isSome then .next authKind
  else if !startsWith req.path "/api/" then .next authKind
  else .refused (refusal req)

def createAuthMiddleware (authService : AuthService) (req : Request) : Except String Outcome := do
  let authKind ← authKind authService req
  if isExempt req then return .next authKind
  else return gate (← authService.isPasswordSet) authKind req

/-! ## The gate -/

/-- The request is handed on to the routes. -/
def Passes (authService : AuthService) (req : Request) : Prop :=
  ∃ authKind, createAuthMiddleware authService req = .ok (.next authKind)

/-- The service knows neither the session nor the API token, if the request has them. -/
structure NoCredentials (authService : AuthService) (req : Request) : Prop where
  session : ∀ token, req.sessionToken = some token → authService.validateSession token = .ok false
  apiToken : ∀ token, req.bearerToken = some token → authService.validateApiToken token = .ok false

/-- The endpoints that anybody is meant to reach. -/
def IsPublic (req : Request) : Prop :=
  req.path ∈ EXEMPT_AUTH_PATHS ∨
    req.method = "GET" ∧ (req.path = "/api/setup/status" ∨ req.path = "/api/info") ∨
    startsWith req.path "/api/webhooks/" ∨ startsWith req.path "/api/traefik/"

instance (req : Request) : Decidable (IsPublic req) :=
  inferInstanceAs (Decidable (_ ∨ _ ∧ (_ ∨ _) ∨ _ ∨ _))

variable {authService : AuthService} {req : Request}

theorem isValid_eq_false {validate : String → Except String Bool} {token : Option String}
    (h : ∀ t, token = some t → validate t = .ok false) : isValid validate token = .ok false := by
  cases token with
  | none => rfl
  | some t => exact h t rfl

theorem NoCredentials.authKind_eq (h : NoCredentials authService req) :
    authKind authService req = .ok none := by
  rw [authKind, isValid_eq_false h.session, isValid_eq_false h.apiToken]
  rfl

/-- Two starts of one text agree as far as the shorter one goes. -/
theorem startsWith_or_startsWith {start start' : String} (h : startsWith s start)
    (h' : startsWith s start') : startsWith start start' ∨ startsWith start' start := by
  rw [startsWith, List.isPrefixOf_iff_prefix] at h h'
  simp only [startsWith, List.isPrefixOf_iff_prefix]
  exact (List.prefix_or_prefix_of_prefix h h').symm

/-- Of the paths of the interface that are not public, those that end like a file are exempt. -/
theorem isExempt_iff (hapi : startsWith req.path "/api/") (hpublic : ¬ IsPublic req) :
    isExempt req ↔ ∃ ending ∈ EXEMPT_EXTENSIONS, endsWith req.path ending := by
  obtain ⟨hauth, hget, hwebhooks, htraefik⟩ : req.path ∉ EXEMPT_AUTH_PATHS ∧
      ¬ (req.method = "GET" ∧ (req.path = "/api/setup/status" ∨ req.path = "/api/info")) ∧
      ¬ startsWith req.path "/api/webhooks/" ∧ ¬ startsWith req.path "/api/traefik/" := by
    simpa only [IsPublic, not_or] using hpublic
  have hhealth : req.path ≠ "/health" := by
    intro heq
    rw [heq] at hapi
    revert hapi
    decide
  have hprefixes : ¬ EXEMPT_PREFIXES.any (startsWith req.path) := by
    intro h
    obtain ⟨start, hmem, hstart⟩ := List.any_eq_true.mp h
    have hcompare := startsWith_or_startsWith hapi hstart
    have honly : ∀ start ∈ EXEMPT_PREFIXES, startsWith "/api/" start ∨ startsWith start "/api/" →
        start = "/api/webhooks/" ∨ start = "/api/traefik/" := by decide
    obtain rfl | rfl := honly start hmem hcompare
    · exact hwebhooks hstart
    · exact htraefik hstart
  have hstatus : ¬ (req.method = "GET" ∧ req.path = "/api/setup/status") := fun h =>
    hget (h.imp_right .inl)
  have hinfo : ¬ (req.method = "GET" ∧ req.path = "/api/info") := fun h => hget (h.imp_right .inr)
  rw [← List.any_eq_true]
  simp only [isExempt, Bool.or_eq_true, Bool.and_eq_true, decide_eq_true_eq, List.contains_iff_mem]
  simp only [hhealth, hprefixes, hauth, hstatus, hinfo, false_or, or_false,
    Bool.false_eq_true]

/-- **The gate is complete for the paths that do not end like a file.** -/
theorem gate_iff (hapi : startsWith req.path "/api/") (hpublic : ¬ IsPublic req)
    (hcredentials : NoCredentials authService req) (hset : authService.isPasswordSet = .ok true) :
    ¬ Passes authService req ↔ ∀ ending ∈ EXEMPT_EXTENSIONS, ¬ endsWith req.path ending := by
  have hexempt := isExempt_iff hapi hpublic
  have hgate : gate true none req = .refused (refusal req) := by
    rw [gate, hapi]
    rfl
  rw [Passes, createAuthMiddleware, hcredentials.authKind_eq, hset]
  constructor
  · intro hrefused ending hmem hends
    refine hrefused ⟨none, ?_⟩
    exact if_pos (hexempt.mpr ⟨ending, hmem, hends⟩)
  · intro hending ⟨kind, hpass⟩
    have hnot : ¬ isExempt req := fun h =>
      let ⟨ending, hmem, hends⟩ := hexempt.mp h
      hending ending hmem hends
    have hrefused : Except.ok (gate true none req) = Except.ok (Outcome.next kind) :=
      (if_neg hnot).symm.trans hpass
    rw [hgate] at hrefused
    nomatch Except.ok.inj hrefused

/-- Knows nobody. -/
def strangers : AuthService where
  validateSession _ := .ok false
  validateApiToken _ := .ok false
  isPasswordSet := .ok true

/-- To delete a secret. -/
def deleteSecret (key : String) : Request where
  method := "DELETE"
  path := "/api/secrets/" ++ key
  origin := "http://localhost:4000"

theorem noCredentials_strangers : NoCredentials strangers req where
  session _ _ := rfl
  apiToken _ _ := rfl

theorem gate_iff_deleteSecret : ¬ Passes strangers (deleteSecret "DB_URL") ↔
    ∀ ending ∈ EXEMPT_EXTENSIONS, ¬ endsWith (deleteSecret "DB_URL").path ending :=
  gate_iff (by decide) (by decide) noCredentials_strangers rfl

/-- A key that ends like a source map lets anybody delete the secret. -/
theorem not_gate_complete : ¬ ∀ (authService : AuthService) (req : Request),
    startsWith req.path "/api/" → ¬ IsPublic req → NoCredentials authService req →
      authService.isPasswordSet = .ok true → ¬ Passes authService req := by
  intro h
  refine h strangers (deleteSecret "db.map") (by decide) (by decide)
    noCredentials_strangers rfl ⟨none, ?_⟩
  decide

end OpenLander.Web
