import Mathlib.Data.List.Pairwise
import OpenLander.Theory.Client

/-! # The token tables

The rows of `pat_tokens` and the API token of the auth store, with the calls that
`PatTokenRepo` (`src/db/repos/pat-token.repo.ts`) and `AuthRepo` answer. Each call is one statement,
which the constraints of the table may refuse.

A token is generated in the call that stores it: `generated` counts the tokens so far, and what
`TokenCrypto.randomHex` gives for the next number is the next one. -/

namespace OpenLander.Auth

inductive ScopeKind
  | org
  | project
  | service
  deriving DecidableEq, Repr

inductive TokenType
  | pat
  | service
  | legacyDefault
  deriving DecidableEq, Repr

/-- A timestamp that was given: a time, or a text that is none. -/
inductive Expiry
  | at (time : Nat)
  | invalid
  deriving DecidableEq, Repr

structure PatTokenRow where
  id : String
  name : String
  tokenHash : String
  scopeKind : ScopeKind := .org
  scopeProjectId : Option String := none
  scopeServiceId : Option String := none
  tokenType : TokenType := .pat
  lastUsedAt : Option Nat := none
  expiresAt : Option Expiry := none
  revokedAt : Option Nat := none
  deriving DecidableEq, Repr

/-- The key of the table and the unique index on the hashes. -/
def PatTokenRow.Distinct (row other : PatTokenRow) : Prop :=
  row.id ≠ other.id ∧ row.tokenHash ≠ other.tokenHash

instance : Std.Symm PatTokenRow.Distinct := ⟨fun _ _ h => ⟨h.1.symm, h.2.symm⟩⟩

structure TokenStore where
  /-- The newest first. -/
  rows : List PatTokenRow
  /-- What is stored as the API token, and the token if it can be decrypted. -/
  apiToken : Option (Option String)
  now : Nat := 0
  generated : Nat := 0
  deriving DecidableEq, Repr

inductive AuthError
  | projectRequired
  | serviceRequired
  | invalidField
  | scopeMismatch
  | patTokenCreateFailed
  | patTokenUpdateFailed
  /-- A statement fails. -/
  | database
  deriving DecidableEq, Repr

/-- `crypto.randomBytes`, `crypto.randomUUID` and SHA-256. -/
structure TokenCrypto where
  randomHex : Nat → String
  randomUUID : Nat → String
  hashMcpToken : String → String

namespace TokenCrypto
variable (crypto : TokenCrypto)

def generateApiToken (n : Nat) : String := "ol_" ++ crypto.randomHex n

def generatePatTokenPlaintext (n : Nat) : String := "olp_" ++ crypto.randomHex n

/-- The hash is that of the token with this number, whichever kind it is of. -/
def Generates (n : Nat) (tokenHash : String) : Prop :=
  crypto.hashMcpToken (crypto.generateApiToken n) = tokenHash ∨
    crypto.hashMcpToken (crypto.generatePatTokenPlaintext n) = tokenHash

/-- No two tokens that are generated have one hash. -/
def Fresh : Prop := ∀ m n tokenHash, crypto.Generates m tokenHash → crypto.Generates n tokenHash → m = n

end TokenCrypto

def isTokenUsable (row : PatTokenRow) (now : Nat) : Bool :=
  row.revokedAt.isNone &&
    match row.expiresAt with
    | none => true
    | some (.at time) => now < time
    | some .invalid => false

structure ListPatTokensOptions where
  scopeKind : Option ScopeKind := none
  scopeProjectId : Option String := none
  scopeServiceId : Option String := none
  includeRevoked : Bool := false
  deriving DecidableEq, Repr

def ListPatTokensOptions.selects (options : ListPatTokensOptions) (row : PatTokenRow) : Bool :=
  (options.includeRevoked || row.revokedAt.isNone) &&
  (match options.scopeKind with
  | none => true
  | some .org => row.scopeKind = .org && row.scopeProjectId.isNone && row.scopeServiceId.isNone
  | some .project => row.scopeKind = .project &&
      (options.scopeProjectId.filter (· ≠ "")).all (row.scopeProjectId = some ·)
  | some .service => row.scopeKind = .service &&
      (options.scopeServiceId.filter (· ≠ "")).all (row.scopeServiceId = some ·))

structure CreatePatTokenInput where
  name : String
  scopeKind : ScopeKind
  scopeProjectId : Option String
  scopeServiceId : Option String
  tokenType : TokenType
  expiresAt : Option Expiry
  deriving DecidableEq, Repr

inductive TokenCall
  | findPatTokenByHash (tokenHash : String)
  | findPatTokenById (id : String)
  | touchPatToken (id : String)
  | listPatTokens (options : ListPatTokensOptions)
  | revokePatToken (id : String)
  /-- With a token of its own. -/
  | createPatToken (input : CreatePatTokenInput)
  | findLegacyDefault
  /-- `upsertLegacyDefault` where it has found a row. -/
  | updateLegacyDefault (id : String) (tokenHash : String)
  /-- `upsertLegacyDefault` where it has found none. -/
  | insertLegacyDefault (tokenHash : String)
  | getApiToken
  /-- With a token of its own. -/
  | setApiToken
  deriving DecidableEq, Repr

/-- Rows that are checked for their expiry come with the time of the check. -/
def TokenCall.Response : TokenCall → Type
  | findPatTokenByHash _ => Option PatTokenRow × Nat
  | findPatTokenById _ => Option PatTokenRow
  | touchPatToken _ => Unit
  | listPatTokens _ => List PatTokenRow × Nat
  | revokePatToken _ => Bool
  | createPatToken _ => String × PatTokenRow
  | findLegacyDefault => Option PatTokenRow
  | updateLegacyDefault _ _ => PatTokenRow
  | insertLegacyDefault _ => PatTokenRow
  | getApiToken => Option (Option String)
  | setApiToken => String

namespace TokenStore

def modifyRow (store : TokenStore) (id : String) (f : PatTokenRow → PatTokenRow) : TokenStore :=
  { store with rows := store.rows.map fun row => if row.id = id then f row else row }

def Unique (store : TokenStore) : Prop := store.rows.Pairwise PatTokenRow.Distinct

/-- The row at `id` gets the hash, unless another row has it. -/
def setLegacyHash (store : TokenStore) (row : PatTokenRow) (tokenHash : String) :
    Except AuthError (PatTokenRow × TokenStore) :=
  if store.rows.any fun other => other.id ≠ row.id && other.tokenHash = tokenHash then
    .error .database
  else
    .ok ({ row with tokenHash, revokedAt := none },
      store.modifyRow row.id fun row => { row with tokenHash, revokedAt := none })

end TokenStore

/-- The checks on the scope and on the expiry. -/
def PatTokenRow.meetsChecks (row : PatTokenRow) : Bool :=
  (match row.scopeKind with
  | .org => row.scopeProjectId.isNone && row.scopeServiceId.isNone
  | .project => row.scopeProjectId.isSome && row.scopeServiceId.isNone
  | .service => row.scopeProjectId.isNone && row.scopeServiceId.isSome) &&
  (row.tokenType = .legacyDefault || row.expiresAt.isSome)

namespace CreatePatTokenInput

/-- The row that `PatTokenRepo.create` inserts. -/
def row (input : CreatePatTokenInput) (id tokenHash : String) : PatTokenRow where
  id := id
  name := input.name
  tokenHash := tokenHash
  scopeKind := input.scopeKind
  scopeProjectId := if input.scopeKind = .project then input.scopeProjectId else none
  scopeServiceId := if input.scopeKind = .service then input.scopeServiceId else none
  tokenType := input.tokenType
  expiresAt := input.expiresAt

end CreatePatTokenInput

def legacyDefaultRow (tokenHash : String) : PatTokenRow where
  id := "legacy-default"
  name := "Legacy default token"
  tokenHash := tokenHash
  tokenType := .legacyDefault

/-- Insert the row unless its id or its hash is taken. -/
def TokenStore.insert (store : TokenStore) (row : PatTokenRow) : Except AuthError TokenStore :=
  if row.meetsChecks && store.rows.all fun other =>
      other.id ≠ row.id && other.tokenHash ≠ row.tokenHash then
    .ok { store with rows := row :: store.rows }
  else .error .database

def serve (crypto : TokenCrypto) : (c : TokenCall) → TokenStore →
    Except AuthError (c.Response × TokenStore)
  | .findPatTokenByHash tokenHash, store =>
    .ok ((store.rows.find? (·.tokenHash = tokenHash), store.now), store)
  | .findPatTokenById id, store => .ok (store.rows.find? (·.id = id), store)
  | .touchPatToken id, store =>
    .ok ((), store.modifyRow id fun row => { row with lastUsedAt := some store.now })
  | .listPatTokens options, store => .ok ((store.rows.filter options.selects, store.now), store)
  | .revokePatToken id, store =>
    .ok (store.rows.any (·.id = id),
      store.modifyRow id fun row => { row with revokedAt := some store.now })
  | .createPatToken input, store => do
    let token := crypto.generatePatTokenPlaintext store.generated
    let row := input.row (crypto.randomUUID store.generated) (crypto.hashMcpToken token)
    let inserted ← { store with generated := store.generated + 1 : TokenStore }.insert row
    return ((token, row), inserted)
  | .findLegacyDefault, store => .ok (store.rows.find? (·.tokenType = .legacyDefault), store)
  | .updateLegacyDefault id tokenHash, store =>
    match store.rows.find? (·.id = id) with
    | some row => store.setLegacyHash row tokenHash
    | none => .error .patTokenUpdateFailed
  | .insertLegacyDefault tokenHash, store =>
    match store.rows.find? (·.id = "legacy-default") with
    | some row => store.setLegacyHash row tokenHash
    | none => do
      let inserted ← store.insert (legacyDefaultRow tokenHash)
      return (legacyDefaultRow tokenHash, inserted)
  | .getApiToken, store => .ok (store.apiToken, store)
  | .setApiToken, store =>
    let token := crypto.generateApiToken store.generated
    .ok (token, { store with apiToken := some (some token), generated := store.generated + 1 })

end OpenLander.Auth
