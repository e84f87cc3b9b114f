import OpenLander.Auth.PatTokens

/-! # Tokens of the auth service

What `AuthService` (`src/auth/auth-service.ts`) does with bearer tokens: validation, revocation and
the two operations that keep one organisation token for MCP. The bodies of the last two are given
here; see `PromiseLock` for the lock that they take. -/

namespace OpenLander.Auth
open Theory

abbrev TokenClient := Client TokenCall TokenCall.Response AuthError

/-! ## `AuthDatabase` -/

namespace TokenDb

def findPatTokenByHash (tokenHash : String) : TokenClient (Option PatTokenRow × Nat) :=
  .perform (TokenCall.findPatTokenByHash tokenHash)

def findPatTokenById (id : String) : TokenClient (Option PatTokenRow) :=
  .perform (TokenCall.findPatTokenById id)

def touchPatToken (id : String) : TokenClient Unit := .perform (TokenCall.touchPatToken id)

def listPatTokens (options : ListPatTokensOptions) : TokenClient (List PatTokenRow × Nat) :=
  .perform (TokenCall.listPatTokens options)

def revokePatToken (id : String) : TokenClient Bool := .perform (TokenCall.revokePatToken id)

def createPatToken (input : CreatePatTokenInput) : TokenClient (String × PatTokenRow) :=
  .perform (TokenCall.createPatToken input)

/-- `PatTokenRepo.upsertLegacyDefault` -/
def upsertLegacyDefaultPatToken (tokenHash : String) : TokenClient PatTokenRow :=
  .call .findLegacyDefault fun
    | some existing => .perform (TokenCall.updateLegacyDefault existing.id tokenHash)
    | none => .perform (TokenCall.insertLegacyDefault tokenHash)

def getApiToken : TokenClient (Option (Option String)) := .perform TokenCall.getApiToken

def setApiToken : TokenClient String := .perform TokenCall.setApiToken

end TokenDb

/-! ## Validation -/

/-- `McpTokenIdentity` -/
structure TokenIdentity where
  tokenId : Option String
  tokenType : TokenType
  scopeKind : ScopeKind
  scopeProjectId : Option String
  scopeServiceId : Option String
  name : String
  deriving DecidableEq, Repr

def PatTokenRow.identity (row : PatTokenRow) : TokenIdentity where
  tokenId := some row.id
  tokenType := row.tokenType
  scopeKind := row.scopeKind
  scopeProjectId := row.scopeProjectId
  scopeServiceId := row.scopeServiceId
  name := row.name

def legacyIdentity : TokenIdentity where
  tokenId := none
  tokenType := .legacyDefault
  scopeKind := .org
  scopeProjectId := none
  scopeServiceId := none
  name := "legacy-default"

def shouldTouchPatToken (row : PatTokenRow) (now : Nat) : Bool :=
  match row.lastUsedAt with
  | none => true
  | some lastUsed => 60000 < now - lastUsed

/-- For a token that was presented. -/
def ensureLegacyDefaultPatToken (crypto : TokenCrypto) (token : String) :
    TokenClient PatTokenRow :=
  TokenDb.upsertLegacyDefaultPatToken (crypto.hashMcpToken token)

def validateApiToken (token : String) : TokenClient Bool := do
  let stored ← TokenDb.getApiToken
  return stored = some (some token)

/-- The rest of `validateMcpBearerToken`, for a token that no usable row has. -/
def validateLegacyToken (crypto : TokenCrypto) (token : String) :
    TokenClient (Option TokenIdentity) := do
  let valid ← validateApiToken token
  if valid then
    let _ ← ensureLegacyDefaultPatToken crypto token
    return some legacyIdentity
  else return none

def touchIfDue (row : PatTokenRow) (now : Nat) : TokenClient Unit :=
  if shouldTouchPatToken row now then TokenDb.touchPatToken row.id else pure ()

def validateMcpBearerToken (crypto : TokenCrypto) (token : String) :
    TokenClient (Option TokenIdentity) := do
  let found ← TokenDb.findPatTokenByHash (crypto.hashMcpToken token)
  match found.1.filter (isTokenUsable · found.2) with
  | some row =>
    touchIfDue row found.2
    return some row.identity
  | none => validateLegacyToken crypto token

/-! ## Issue and revocation -/

def regenerateToken : TokenClient String := TokenDb.setApiToken

structure IssuePatTokenInput where
  name : String
  scopeKind : ScopeKind
  scopeProjectId : Option String := none
  scopeServiceId : Option String := none
  tokenType : Option TokenType := none
  expiresAt : Option Expiry := none
  deriving DecidableEq, Repr

/-- What `issuePatToken` refuses. -/
def IssuePatTokenInput.refused (input : IssuePatTokenInput) : Option AuthError :=
  if input.scopeKind = .project && (input.scopeProjectId.filter (· ≠ "")).isNone then
    some .projectRequired
  else if input.scopeKind = .service && (input.scopeServiceId.filter (· ≠ "")).isNone then
    some .serviceRequired
  else if input.expiresAt = some .invalid then some .invalidField
  else none

def issuePatToken (input : IssuePatTokenInput) : TokenClient (String × PatTokenRow) :=
  match input.refused with
  | some error => .throw error
  | none => TokenDb.createPatToken {
      name := input.name
      scopeKind := input.scopeKind
      scopeProjectId := input.scopeProjectId
      scopeServiceId := input.scopeServiceId
      tokenType := input.tokenType.getD .pat
      expiresAt := input.expiresAt }

structure OrgMcpPatTokenInput where
  name : String
  expiresAt : Option Expiry
  deriving DecidableEq, Repr

structure OrgMcpPatTokenResult where
  token : Option String
  row : PatTokenRow
  created : Bool
  revokedTokenIds : List String
  legacyTokenRotated : Bool
  deriving DecidableEq, Repr

/-- Revoke the rows one after the other. The ids that were there are returned. -/
def revokeRows : List PatTokenRow → TokenClient (List String)
  | [] => pure []
  | row :: rows => do
    let revoked ← TokenDb.revokePatToken row.id
    let ids ← revokeRows rows
    return if revoked then row.id :: ids else ids

def isActiveOrg (row : PatTokenRow) (now : Nat) : Bool :=
  row.scopeKind = .org && row.scopeProjectId.isNone && isTokenUsable row now

def activeOrgPats (rows : List PatTokenRow) (now : Nat) : List PatTokenRow :=
  rows.filter fun row => row.tokenType = .pat && isActiveOrg row now

def activeLegacyDefaults (rows : List PatTokenRow) (now : Nat) : List PatTokenRow :=
  rows.filter fun row => row.tokenType = .legacyDefault && isActiveOrg row now

/-- The end of both operations: a new API token and a new organisation token. -/
def issueOrgMcpPatToken (input : OrgMcpPatTokenInput) (revokedTokenIds : List String) :
    TokenClient OrgMcpPatTokenResult := do
  let _ ← regenerateToken
  let issued ← issuePatToken
    { name := input.name, scopeKind := .org, expiresAt := input.expiresAt }
  return { token := some issued.1, row := issued.2, created := true, revokedTokenIds
           legacyTokenRotated := true }

/-- The first part of `ensureOrgMcpPatToken`. -/
def rotateLegacyDefaults (legacy : List PatTokenRow) : TokenClient (List String) :=
  match legacy with
  | [] => pure []
  | _ => do
    let _ ← regenerateToken
    revokeRows legacy

def ensureOrgMcpPatToken (input : OrgMcpPatTokenInput) : TokenClient OrgMcpPatTokenResult := do
  let listed ← TokenDb.listPatTokens { scopeKind := some .org }
  let legacy := activeLegacyDefaults listed.1 listed.2
  let revoked ← rotateLegacyDefaults legacy
  match activeOrgPats listed.1 listed.2 with
  | keeper :: duplicates =>
    let revokedDuplicates ← revokeRows duplicates
    return { token := none, row := keeper, created := false
             revokedTokenIds := revoked ++ revokedDuplicates
             legacyTokenRotated := !legacy.isEmpty }
  | [] => issueOrgMcpPatToken input revoked

def rotateOrgMcpPatToken (input : OrgMcpPatTokenInput) : TokenClient OrgMcpPatTokenResult := do
  let listed ← TokenDb.listPatTokens { scopeKind := some .org }
  let revoked ← revokeRows (listed.1.filter (isActiveOrg · listed.2))
  issueOrgMcpPatToken input revoked

/-- `assertPatTokenRevokeAllowed` -/
def assertPatTokenRevokeAllowed (id : String) : Option TokenIdentity → TokenClient (Option PatTokenRow)
  | none => pure none
  | some caller =>
    if caller.tokenType = .legacyDefault ∨ caller.scopeKind = .org then pure none
    else do
      match ← TokenDb.findPatTokenById id with
      | none => return none
      | some target =>
        if some target.id = caller.tokenId ∨
            (caller.scopeKind = .service ∧ target.scopeKind = .service ∧
              target.scopeServiceId = caller.scopeServiceId) ∨
            (caller.scopeKind = .project ∧ target.scopeKind = .project ∧
              target.scopeProjectId = caller.scopeProjectId) then
          return some target
        else Client.throw .scopeMismatch

def revokePatToken (id : String) (caller : Option TokenIdentity) : TokenClient Bool := do
  let target ← assertPatTokenRevokeAllowed id caller
  -- the row for the log
  if target.isNone then
    let _ ← TokenDb.findPatTokenById id
    TokenDb.revokePatToken id
  else TokenDb.revokePatToken id

end OpenLander.Auth
