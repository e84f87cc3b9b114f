import OpenLander.Auth.TokenStore

/-! # Is a revocation permanent?

Validations, revocations and rotations side by side, a call to the database at a time. A token may
be accepted for a row of `pat_tokens` that has its hash, and for being the API token; a validation
that finds the API token writes the legacy-default row, and sets `revoked_at` to null.

So a token comes back to life whose row is revoked while it is the API token, or that stops being
the API token while a row has its hash: see `not_revocationPermanent`. `Permits` keeps these steps
out, and without them a revocation is permanent (`revocationPermanent`). -/

namespace OpenLander.Auth
open Theory

inductive TokenJob
  | validate (token : String)
  | revoke (id : String) (caller : Option TokenIdentity)
  | regenerate
  | ensure (input : OrgMcpPatTokenInput)
  | rotate (input : OrgMcpPatTokenInput)
  deriving DecidableEq, Repr

inductive TokenResult
  | identity (identity : Option TokenIdentity)
  | revoked (revoked : Bool)
  | apiToken (token : String)
  | orgToken (result : OrgMcpPatTokenResult)
  deriving DecidableEq, Repr

def TokenJob.program (crypto : TokenCrypto) : TokenJob → TokenClient TokenResult
  | validate token => do return .identity (← validateMcpBearerToken crypto token)
  | revoke id caller => do return .revoked (← revokePatToken id caller)
  | regenerate => do return .apiToken (← regenerateToken)
  | ensure input => do return .orgToken (← ensureOrgMcpPatToken input)
  | rotate input => do return .orgToken (← rotateOrgMcpPatToken input)

/-- What is known of a job: the legacy-default rows that it has listed to revoke them, and the
hashes of the tokens that it has revoked or replaced. -/
structure TokenMemory where
  listed : List String := []
  covered : List String := []
  deriving DecidableEq, Repr

def TokenMemory.record (crypto : TokenCrypto) (memory : TokenMemory) :
    TokenCall → TokenStore → TokenMemory
  | .listPatTokens options, store =>
    let rows := activeLegacyDefaults (store.rows.filter options.selects) store.now
    { memory with listed := memory.listed ++ rows.map (·.id) }
  | .revokePatToken id, store =>
    let rows := store.rows.filter (·.id = id)
    { memory with covered := memory.covered ++ rows.map (·.tokenHash) }
  | .setApiToken, store =>
    { memory with covered := memory.covered ++ (store.apiTokenHash crypto).toList }
  | _, _ => memory

/-- Any number of jobs, one for each number. -/
abbrev TokenJobs :=
  Clients Nat TokenJob TokenCall TokenCall.Response AuthError TokenResult TokenStore TokenMemory

abbrev TokenEvent := Clients.Event Nat TokenJob AuthError Nat

def TokenJobs.next (crypto : TokenCrypto) : TokenJobs → TokenEvent → Option TokenJobs :=
  Clients.next (serve crypto) (TokenMemory.record crypto) {} (TokenJob.program crypto)
    TokenStore.elapse

/-- The job has completed, and has revoked or replaced a token with this hash. -/
def TokenJobs.Covered (P : TokenJobs) (i : Nat) (tokenHash : String) : Prop :=
  ∃ job result memory, P.jobs i = some ⟨job, .ret (.ok result), memory⟩ ∧
    tokenHash ∈ memory.covered

/-- The job is a validation that has accepted the token. -/
def TokenJobs.Accepted (P : TokenJobs) (i : Nat) (token : String) : Prop :=
  ∃ identity memory,
    P.jobs i = some ⟨.validate token, .ret (.ok (.identity (some identity))), memory⟩

/-- Of the runs of `step` from `start`. -/
structure RevocationPermanent (crypto : TokenCrypto)
    (step : TokenJobs → TokenEvent → TokenJobs → Prop) (start : TokenJobs) : Prop where
  /-- A validation that starts after its token was revoked or replaced does not accept it. -/
  refused : ∀ es es' P P', Run step start es P → Run step P es' P' → ∀ i token,
    P.Covered i (crypto.hashMcpToken token) → ∀ j, P.jobs j = none → ¬P'.Accepted j token
  /-- A validation takes back no revocation. -/
  revoked : ∀ es P P' i token rest memory, Run step start es P → step P (.step i) P' →
    P.jobs i = some ⟨.validate token, rest, memory⟩ → ∀ row ∈ P.store.rows,
    row.revokedAt.isSome → ∀ row' ∈ P'.store.rows, row'.id = row.id → row'.revokedAt.isSome

/-! ## The condition -/

/-- The calls of `upsertLegacyDefault`. -/
def TokenCall.Upserts : TokenCall → Prop
  | findLegacyDefault | updateLegacyDefault _ _ | insertLegacyDefault _ => True
  | _ => False

/-- A validation has found the API token and not yet written the legacy-default row. -/
def Matched (rest : TokenClient TokenResult) : Prop := rest.Makes TokenCall.Upserts

/-- What a call has to meet. A validation finds its token as the API token only while no
legacy-default row is revoked. While it is on its way from there to its write, no legacy-default row
is revoked and the API token is not replaced. Where the API token is replaced, a usable row has its
hash only if it is one that the same job has listed to revoke it. -/
def TokenJobs.Admits (crypto : TokenCrypto) (P : TokenJobs) (job : TokenJob) (memory : TokenMemory) :
    TokenCall → Prop
  | .getApiToken => ∀ token, job = .validate token → P.store.apiToken = some (some token) →
      ∀ row ∈ P.store.rows, row.LegacyDefault → row.revokedAt = none
  | .revokePatToken id => (∃ row ∈ P.store.rows, row.id = id ∧ row.LegacyDefault) →
      ∀ j other, P.jobs j = some other → ¬Matched other.rest
  | .setApiToken => (∀ j other, P.jobs j = some other → ¬Matched other.rest) ∧
      ∀ row ∈ P.store.rows, isTokenUsable row P.store.now →
        P.store.apiTokenHash crypto = some row.tokenHash → row.id ∈ memory.listed
  | _ => True

def TokenJobs.Permits (crypto : TokenCrypto) (P : TokenJobs) (e : TokenEvent) : Prop :=
  ∀ i job c k memory, e = .step i → P.jobs i = some ⟨job, .call c k, memory⟩ →
    P.Admits crypto job memory c

/-! ## Tokens that are revoked -/

namespace TokenStore
variable {crypto : TokenCrypto} {store store' : TokenStore} {tokenHash id : String}
variable {listed listed' : List String}

/-- No validation that starts accepts a token with this hash. -/
structure Dead (crypto : TokenCrypto) (store : TokenStore) (tokenHash : String) : Prop where
  old : store.Old crypto tokenHash
  row : ∀ row ∈ store.rows, row.tokenHash = tokenHash → ¬isTokenUsable row store.now
  /-- The legacy-default row cannot get the hash while another row has it. -/
  api : store.apiTokenHash crypto = some tokenHash →
    ∃ row ∈ store.rows, row.tokenHash = tokenHash ∧ row.revokedAt.isSome

/-- The API token with this hash was replaced. Rows that have the hash are to be revoked. -/
structure Pending (crypto : TokenCrypto) (store : TokenStore) (listed : List String)
    (tokenHash : String) : Prop where
  old : store.Old crypto tokenHash
  row : ∀ row ∈ store.rows, isTokenUsable row store.now → row.tokenHash = tokenHash →
    row.id ∈ listed
  api : store.apiTokenHash crypto ≠ some tokenHash

theorem Dead.evolves (h : store.Dead crypto tokenHash) (hknown : store'.Known crypto)
    (he : store.Evolves crypto store') : store'.Dead crypto tokenHash where
  old := h.old.mono he.generated
  row row' hrow' hhash husable := by
    subst hhash
    obtain ⟨row, hrow, -, hhash, hu⟩ | hapi := he.usable row' hrow' husable h.old
    · exact h.row row hrow hhash hu
    · obtain ⟨other, hother, hhash, hrevoked⟩ := h.api hapi
      obtain ⟨other', hother', -, -, hstays⟩ := he.row other hother
      have ⟨hhash', hrevoked'⟩ := hstays hrevoked
      obtain rfl := hknown.unique.eq_of_hash hother' hrow' (hhash'.trans hhash)
      exact not_isTokenUsable hrevoked' husable
  api hapi' := by
    obtain hapi | hapi := he.api
    · obtain ⟨row, hrow, hhash, hrevoked⟩ := h.api (apiTokenHash_congr hapi ▸ hapi')
      obtain ⟨row', hrow', -, -, hstays⟩ := he.row row hrow
      have ⟨hhash', hrevoked'⟩ := hstays hrevoked
      exact ⟨row', hrow', hhash'.trans hhash, hrevoked'⟩
    · exact absurd hapi' (hapi tokenHash h.old)

theorem Pending.evolves (h : store.Pending crypto listed tokenHash)
    (he : store.Evolves crypto store') : store'.Pending crypto listed tokenHash where
  old := h.old.mono he.generated
  row row' hrow' husable hhash := by
    subst hhash
    obtain ⟨row, hrow, hid, hhash, hu⟩ | hapi := he.usable row' hrow' husable h.old
    · exact hid ▸ h.row row hrow hu hhash
    · exact absurd hapi h.api
  api hapi' := by
    obtain hapi | hapi := he.api
    · exact h.api (apiTokenHash_congr hapi ▸ hapi')
    · exact hapi tokenHash h.old hapi'

theorem Pending.mono (h : store.Pending crypto listed tokenHash) (hsub : listed ⊆ listed') :
    store.Pending crypto listed' tokenHash :=
  { h with row := fun row hrow husable hhash => hsub (h.row row hrow husable hhash) }

theorem Pending.dead (h : store.Pending crypto listed tokenHash) (hknown : store.Known crypto)
    (hrevoked : ∀ id ∈ listed, store.RevokedAt id) : store.Dead crypto tokenHash where
  old := h.old
  row row hrow hhash husable :=
    not_usable_of_revokedAt hknown.unique (hrevoked _ (h.row row hrow husable hhash)) hrow husable
  api hapi := absurd hapi h.api

theorem dead_of_revoke (hknown : store.Known crypto) {row : PatTokenRow} (hrow : row ∈ store.rows) :
    (store.modifyRow row.id fun row => { row with revokedAt := some store.now }).Dead crypto
      row.tokenHash where
  old := hknown.row_old row hrow
  row other' hother' hhash husable := by
    obtain ⟨other, hother, rfl⟩ := mem_modifyRow.mp hother'
    by_cases hid : other.id = row.id
    · rw [if_pos hid] at husable
      exact not_isTokenUsable rfl husable
    · rw [if_neg hid] at hhash
      exact hid (congrArg _ (hknown.unique.eq_of_hash hother hrow hhash))
  api _ := ⟨_, mem_modifyRow.mpr ⟨row, hrow, rfl⟩, by rw [if_pos rfl], by rw [if_pos rfl]; rfl⟩

/-- What a job has revoked or replaced is dead, or is to be revoked by the same job. -/
def Accounts (crypto : TokenCrypto) (store : TokenStore) (memory : TokenMemory) : Prop :=
  ∀ tokenHash ∈ memory.covered,
    store.Dead crypto tokenHash ∨ store.Pending crypto memory.listed tokenHash

theorem Accounts.evolves {memory : TokenMemory} (h : store.Accounts crypto memory)
    (hknown : store'.Known crypto) (he : store.Evolves crypto store') :
    store'.Accounts crypto memory := by
  intro tokenHash hmem
  obtain h | h := h tokenHash hmem
  · exact .inl (h.evolves hknown he)
  · exact .inr (h.evolves he)

/-- A call that is admitted keeps account of what it revokes or replaces. -/
theorem Accounts.record {memory : TokenMemory} (h : store.Accounts crypto memory)
    (hfresh : crypto.Fresh) (hknown : store.Known crypto) {c : TokenCall} {r : c.Response}
    (hsound : store.Sound crypto c) (hserve : serve crypto c store = .ok (r, store'))
    (hset : c = .setApiToken → ∀ row ∈ store.rows, isTokenUsable row store.now →
      store.apiTokenHash crypto = some row.tokenHash → row.id ∈ memory.listed) :
    store'.Accounts crypto (memory.record crypto c store) := by
  obtain ⟨hknown', hevolves⟩ := leads_of_serve hfresh hsound hserve hknown
  have h' := h.evolves hknown' hevolves
  cases c with
  | findPatTokenByHash | findPatTokenById | touchPatToken | createPatToken | findLegacyDefault
  | updateLegacyDefault | insertLegacyDefault | getApiToken => exact h'
  | listPatTokens =>
    intro tokenHash hmem
    exact (h' tokenHash hmem).imp_right fun h => h.mono (List.subset_append_left _ _)
  | revokePatToken id =>
    obtain ⟨-, rfl⟩ := Prod.mk.inj (Except.ok.inj hserve)
    intro tokenHash hmem
    obtain hmem | hmem := List.mem_append.mp hmem
    · exact h' tokenHash hmem
    · obtain ⟨row, hrow, rfl⟩ := List.mem_map.mp hmem
      obtain ⟨hmem', hid⟩ := List.mem_filter.mp hrow
      obtain rfl : row.id = id := by simpa using hid
      exact .inl (dead_of_revoke hknown hmem')
  | setApiToken =>
    intro tokenHash hmem
    obtain hmem | hmem := List.mem_append.mp hmem
    · exact h' tokenHash hmem
    · have hapi : store.apiTokenHash crypto = some tokenHash := Option.mem_toList.mp hmem
      have hold := hknown.api_old tokenHash hapi
      refine .inr ⟨hold.mono hevolves.generated, ?_, ?_⟩
      · obtain ⟨-, rfl⟩ := Prod.mk.inj (Except.ok.inj hserve)
        intro row hrow husable hhash
        exact hset rfl row hrow husable (hhash ▸ hapi)
      · obtain ⟨-, rfl⟩ := Prod.mk.inj (Except.ok.inj hserve)
        intro hnew
        exact not_old_of_generates (.inl (Option.some.inj hnew)) hold

end TokenStore

/-! ## The stages of a validation -/

section
variable {crypto : TokenCrypto} {token tokenHash : String} {rest : TokenClient TokenResult}

def acceptLegacy : TokenClient TokenResult := .ret (.ok (.identity (some legacyIdentity)))

/-- The token is the API token. -/
def matched (tokenHash : String) : TokenClient TokenResult :=
  .call .findLegacyDefault fun
    | some existing => .call (.updateLegacyDefault existing.id tokenHash) fun _ => acceptLegacy
    | none => .call (.insertLegacyDefault tokenHash) fun _ => acceptLegacy

def compared (crypto : TokenCrypto) (token : String) (stored : Option (Option String)) :
    TokenClient TokenResult :=
  if stored = some (some token) then matched (crypto.hashMcpToken token)
  else .ret (.ok (.identity none))

/-- No usable row has the token. -/
def unmatched (crypto : TokenCrypto) (token : String) : TokenClient TokenResult :=
  .call .getApiToken (compared crypto token)

def validated (crypto : TokenCrypto) (token : String) (found : Option PatTokenRow × Nat) :
    TokenClient TokenResult :=
  match found.1.filter (isTokenUsable · found.2) with
  | some row =>
    if shouldTouchPatToken row found.2 then
      .call (.touchPatToken row.id) fun _ => .ret (.ok (.identity (some row.identity)))
    else .ret (.ok (.identity (some row.identity)))
  | none => unmatched crypto token

/-- What may be left of a validation. -/
inductive Validating (crypto : TokenCrypto) (token : String) : TokenClient TokenResult → Prop
  | start : Validating crypto token
      (.call (.findPatTokenByHash (crypto.hashMcpToken token)) (validated crypto token))
  | touch {id : String} : Validating crypto token
      (.call (.touchPatToken id) fun _ => .ret (.ok (.identity (some identity))))
  | unmatched : Validating crypto token (unmatched crypto token)
  | matched : Validating crypto token (matched (crypto.hashMcpToken token))
  | update {id : String} : Validating crypto token
      (.call (.updateLegacyDefault id (crypto.hashMcpToken token)) fun _ => acceptLegacy)
  | insert : Validating crypto token
      (.call (.insertLegacyDefault (crypto.hashMcpToken token)) fun _ => acceptLegacy)
  | ended : Validating crypto token (.ret r)

theorem unmatched_eq :
    (do return .identity (← validateLegacyToken crypto token)) = unmatched crypto token := by
  refine congrArg (Client.call TokenCall.getApiToken)
    (funext fun stored : Option (Option String) => ?_)
  change Client.bind (if decide (stored = some (some token)) = true then
      Client.bind (ensureLegacyDefaultPatToken crypto token) fun _ => pure (some legacyIdentity)
    else pure none) _ = compared crypto token stored
  rw [compared]
  by_cases h : stored = some (some token)
  · rw [if_pos (decide_eq_true h), if_pos h]
    refine congrArg (Client.call TokenCall.findLegacyDefault)
      (funext fun found : Option PatTokenRow => ?_)
    cases found with
    | none => rfl
    | some existing => rfl
  · rw [if_neg (fun h' => h (of_decide_eq_true h')), if_neg h]
    rfl

theorem program_validate : (TokenJob.validate token).program crypto =
    .call (.findPatTokenByHash (crypto.hashMcpToken token)) (validated crypto token) := by
  refine congrArg (Client.call _) (funext fun found : Option PatTokenRow × Nat => ?_)
  change Client.bind (match found.1.filter (isTokenUsable · found.2) with
    | some row => Client.bind (touchIfDue row found.2) fun _ => pure (some row.identity)
    | none => validateLegacyToken crypto token) _ = _
  rw [validated]
  cases found.1.filter (isTokenUsable · found.2) with
  | none => exact unmatched_eq
  | some row =>
    by_cases hdue : shouldTouchPatToken row found.2
    · simp only [touchIfDue, if_pos hdue]
      rfl
    · simp only [touchIfDue, if_neg hdue]
      rfl

theorem validating_program :
    Validating crypto token ((TokenJob.validate token).program crypto) := by
  rw [program_validate]
  exact .start

theorem validating_validated (found : Option PatTokenRow × Nat) :
    Validating crypto token (validated crypto token found) := by
  rw [validated]
  split
  · split
    · exact .touch
    · exact .ended
  · exact .unmatched

theorem validating_compared (stored : Option (Option String)) :
    Validating crypto token (compared crypto token stored) := by
  rw [compared]
  split
  · exact .matched
  · exact .ended

theorem Validating.next {c : TokenCall} {k : c.Response → TokenClient TokenResult}
    (h : Validating crypto token (.call c k)) (r : c.Response) : Validating crypto token (k r) := by
  cases h with
  | start => exact validating_validated r
  | touch | update | insert => exact .ended
  | unmatched => exact validating_compared r
  | matched =>
    cases r with
    | none => exact .insert
    | some => exact .update

end

/-! ## What validations rely on -/

section
variable {crypto : TokenCrypto} {token : String} {rest : TokenClient TokenResult}
variable {store store' : TokenStore} {c : TokenCall} {r : c.Response}

/-- The token is the API token, and no legacy-default row is revoked. -/
def TokenStore.Current (store : TokenStore) (token : String) : Prop :=
  store.apiToken = some (some token) ∧
    ∀ row ∈ store.rows, row.LegacyDefault → row.revokedAt = none

/-- What a validation relies on in its next call. -/
def TokenStore.Ready (store : TokenStore) (token : String) (c : TokenCall) : Prop :=
  (c.Upserts → store.Current token) ∧ ∀ id tokenHash, c = .updateLegacyDefault id tokenHash →
    ∃ row ∈ store.rows, row.id = id ∧ row.LegacyDefault

theorem TokenStore.Current.writable (h : store.Current token) :
    store.Writable crypto (crypto.hashMcpToken token) := by
  refine ⟨?_, h.2⟩
  rw [apiTokenHash, h.1]
  rfl

theorem unrevoked_setLegacyHash {row written : PatTokenRow} {tokenHash : String}
    (h : ∀ row ∈ store.rows, row.LegacyDefault → row.revokedAt = none)
    (hserve : store.setLegacyHash row tokenHash = .ok (written, store')) :
    store'.apiToken = store.apiToken ∧
      ∀ row ∈ store'.rows, row.LegacyDefault → row.revokedAt = none := by
  rw [TokenStore.setLegacyHash] at hserve
  split at hserve
  · cases hserve
  · obtain ⟨-, rfl⟩ := Prod.mk.inj (Except.ok.inj hserve)
    refine ⟨rfl, fun other' hother' hlegacy => ?_⟩
    obtain ⟨other, hother, rfl⟩ := TokenStore.mem_modifyRow.mp hother'
    split
    · rfl
    · next hid =>
      rw [if_neg hid] at hlegacy
      exact h other hother hlegacy

theorem unrevoked_insert {row : PatTokenRow}
    (h : ∀ row ∈ store.rows, row.LegacyDefault → row.revokedAt = none)
    (hinsert : store.insert row = .ok store') (hrow : row.revokedAt = none) :
    store'.apiToken = store.apiToken ∧
      ∀ row ∈ store'.rows, row.LegacyDefault → row.revokedAt = none := by
  obtain ⟨rfl, -, -⟩ := TokenStore.insert_eq_ok hinsert
  refine ⟨rfl, fun other hother hlegacy => ?_⟩
  obtain rfl | hother := List.mem_cons.mp hother
  · exact hrow
  · exact h other hother hlegacy

/-- Only a replacement and a revocation take it away. -/
theorem TokenStore.Current.serve (h : store.Current token) (hset : c ≠ .setApiToken)
    (hrevoke : ∀ id, c = .revokePatToken id → ¬∃ row ∈ store.rows, row.id = id ∧ row.LegacyDefault)
    (hserve : Auth.serve crypto c store = .ok (r, store')) : store'.Current token := by
  cases c with
  | findPatTokenByHash | findPatTokenById | listPatTokens | findLegacyDefault | getApiToken =>
    obtain ⟨-, rfl⟩ := Prod.mk.inj (Except.ok.inj hserve)
    exact h
  | touchPatToken id =>
    obtain ⟨-, rfl⟩ := Prod.mk.inj (Except.ok.inj hserve)
    refine ⟨h.1, fun row' hrow' hlegacy => ?_⟩
    obtain ⟨row, hrow, rfl⟩ := mem_modifyRow.mp hrow'
    by_cases hid : row.id = id
    · rw [if_pos hid] at hlegacy ⊢
      exact h.2 row hrow hlegacy
    · rw [if_neg hid] at hlegacy ⊢
      exact h.2 row hrow hlegacy
  | revokePatToken id =>
    obtain ⟨-, rfl⟩ := Prod.mk.inj (Except.ok.inj hserve)
    refine ⟨h.1, fun row' hrow' hlegacy => ?_⟩
    obtain ⟨row, hrow, rfl⟩ := mem_modifyRow.mp hrow'
    by_cases hid : row.id = id
    · rw [if_pos hid] at hlegacy
      exact absurd ⟨row, hrow, hid, hlegacy⟩ (hrevoke id rfl)
    · rw [if_neg hid] at hlegacy ⊢
      exact h.2 row hrow hlegacy
  | setApiToken => exact absurd rfl hset
  | createPatToken input =>
    obtain ⟨inserted, hinsert, hret⟩ := bind_eq_ok.mp hserve
    obtain ⟨-, rfl⟩ := Prod.mk.inj (Except.ok.inj hret)
    have hrows : ∀ row ∈ store.generate.rows, row.LegacyDefault → row.revokedAt = none := h.2
    obtain ⟨hapi, hrows⟩ := unrevoked_insert hrows hinsert rfl
    exact ⟨hapi.trans h.1, hrows⟩
  | updateLegacyDefault id tokenHash =>
    rw [Auth.serve] at hserve
    split at hserve
    · obtain ⟨hapi, hrows⟩ := unrevoked_setLegacyHash h.2 hserve
      exact ⟨hapi.trans h.1, hrows⟩
    · cases hserve
  | insertLegacyDefault tokenHash =>
    rw [Auth.serve] at hserve
    split at hserve
    · obtain ⟨hapi, hrows⟩ := unrevoked_setLegacyHash h.2 hserve
      exact ⟨hapi.trans h.1, hrows⟩
    · obtain ⟨inserted, hinsert, hret⟩ := bind_eq_ok.mp hserve
      obtain ⟨-, rfl⟩ := Prod.mk.inj (Except.ok.inj hret)
      obtain ⟨hapi, hrows⟩ := unrevoked_insert h.2 hinsert rfl
      exact ⟨hapi.trans h.1, hrows⟩

theorem TokenStore.ready_of_not_upserts (h : ¬c.Upserts) : store.Ready token c := by
  refine ⟨fun hupserts => absurd hupserts h, fun id tokenHash hc => ?_⟩
  subst hc
  exact absurd trivial h

theorem not_upserts_of_validated {found : Option PatTokenRow × Nat}
    {k : c.Response → TokenClient TokenResult} (h : validated crypto token found = .call c k) :
    ¬c.Upserts := by
  rw [validated] at h
  split at h
  · split at h
    · cases h
      exact not_false
    · exact nomatch h
  · cases h
    exact not_false

/-- A step of a validation brings it to where it is ready again. -/
theorem Validating.ready {k : c.Response → TokenClient TokenResult}
    (h : Validating crypto token (.call c k)) (hready : store.Ready token c)
    (hapi : c = .getApiToken → store.apiToken = some (some token) →
      ∀ row ∈ store.rows, row.LegacyDefault → row.revokedAt = none)
    (hserve : serve crypto c store = .ok (r, store')) {c' : TokenCall}
    {k' : c'.Response → TokenClient TokenResult} (hk : k r = .call c' k') :
    store'.Ready token c' := by
  cases h with
  | start => exact TokenStore.ready_of_not_upserts (not_upserts_of_validated hk)
  | touch | update | insert => exact nomatch hk
  | unmatched =>
    obtain ⟨rfl, rfl⟩ := Prod.mk.inj (Except.ok.inj hserve)
    by_cases hstored : store.apiToken = some (some token)
    · have hcompared : compared crypto token store.apiToken = Auth.matched _ := if_pos hstored
      cases hcompared.symm.trans hk
      exact ⟨fun _ => ⟨hstored, hapi rfl hstored⟩, nofun⟩
    · have hcompared : compared crypto token store.apiToken = _ := if_neg hstored
      exact nomatch hcompared.symm.trans hk
  | matched =>
    obtain ⟨rfl, rfl⟩ := Prod.mk.inj (Except.ok.inj hserve)
    have hcurrent := hready.1 trivial
    cases hfound : store.rows.find? (·.tokenType = .legacyDefault) with
    | none =>
      rw [hfound] at hk
      cases hk
      exact ⟨fun _ => hcurrent, nofun⟩
    | some existing =>
      rw [hfound] at hk
      cases hk
      refine ⟨fun _ => hcurrent, fun id tokenHash hc => ?_⟩
      obtain ⟨rfl, -⟩ := TokenCall.updateLegacyDefault.inj hc
      have htype := List.find?_some hfound
      exact ⟨existing, List.mem_of_find?_eq_some hfound, rfl, .inl (by simpa using htype)⟩

end
/-! ## What operations end with -/

section
variable {crypto : TokenCrypto} {store store' : TokenStore} {memory memory' : TokenMemory}

theorem calls_revokeRows {Φ : TokenCall → Prop} (h : ∀ id, Φ (.revokePatToken id))
    (rows : List PatTokenRow) : (revokeRows rows).Calls Φ := by
  induction rows with
  | nil => trivial
  | cons row rows ih => exact ⟨h row.id, fun revoked => ih.bind fun _ => trivial⟩

theorem calls_issueOrgMcpPatToken {Φ : TokenCall → Prop} (hset : Φ .setApiToken)
    (hcreate : ∀ input, Φ (.createPatToken input)) (input : OrgMcpPatTokenInput)
    (revoked : List String) : (issueOrgMcpPatToken input revoked).Calls Φ := by
  refine Client.Calls.bind (.perform hset) fun _ => Client.Calls.bind ?_ fun _ => trivial
  rw [issuePatToken]
  split
  · trivial
  · exact .perform (hcreate _)

theorem calls_rotateLegacyDefaults {Φ : TokenCall → Prop} (hset : Φ .setApiToken)
    (hrevoke : ∀ id, Φ (.revokePatToken id)) (legacy : List PatTokenRow) :
    (rotateLegacyDefaults legacy).Calls Φ := by
  cases legacy with
  | nil => trivial
  | cons row legacy => exact .bind (.perform hset) fun _ => calls_revokeRows hrevoke _

theorem calls_revokePatToken {Φ : TokenCall → Prop} (hfind : ∀ id, Φ (.findPatTokenById id))
    (hrevoke : ∀ id, Φ (.revokePatToken id)) (id : String) (caller : Option TokenIdentity) :
    (revokePatToken id caller).Calls Φ := by
  refine Client.Calls.bind ?_ fun target => ?_
  · rw [assertPatTokenRevokeAllowed.eq_def]
    split
    · trivial
    · split
      · trivial
      · refine Client.Calls.bind (.perform (hfind _)) fun target => ?_
        split
        · trivial
        · split
          · trivial
          · trivial
  · split
    · exact .bind (.perform (hfind id)) fun _ => .perform (hrevoke id)
    · exact .perform (hrevoke id)

/-- What may be left of a job. -/
def TokenJob.Leaves (crypto : TokenCrypto) (rest : TokenClient TokenResult) : TokenJob → Prop
  | validate token => Validating crypto token rest
  | _ => rest.Calls (¬·.Upserts)

theorem TokenJob.leaves_program (job : TokenJob) : job.Leaves crypto (job.program crypto) := by
  cases job with
  | validate token => exact validating_program
  | revoke id caller =>
    exact (calls_revokePatToken (fun _ => not_false) (fun _ => not_false) id caller).bind
      fun _ => trivial
  | regenerate => exact ⟨not_false, fun _ => trivial⟩
  | ensure input =>
    refine Client.Calls.bind (.bind (.perform not_false) fun listed => ?_) fun _ => trivial
    refine (calls_rotateLegacyDefaults not_false (fun _ => not_false) _).bind fun _ => ?_
    split
    · exact (calls_revokeRows (fun _ => not_false) _).bind fun _ => trivial
    · exact calls_issueOrgMcpPatToken not_false (fun _ => not_false) input _
  | rotate input =>
    refine Client.Calls.bind (.bind (.perform not_false) fun listed => ?_) fun _ => trivial
    refine (calls_revokeRows (fun _ => not_false) _).bind fun _ => ?_
    exact calls_issueOrgMcpPatToken not_false (fun _ => not_false) input _

theorem TokenJob.Leaves.next {job : TokenJob} {c : TokenCall}
    {k : c.Response → TokenClient TokenResult} (h : job.Leaves crypto (.call c k))
    (r : c.Response) : job.Leaves crypto (k r) := by
  cases job with
  | validate token => exact Validating.next h r
  | revoke | regenerate | ensure | rotate => exact h.2 r

/-- The calls of a job that is ready are sound. -/
theorem TokenJob.Leaves.sound {job : TokenJob} {c : TokenCall}
    {k : c.Response → TokenClient TokenResult} (h : job.Leaves crypto (.call c k))
    (hready : ∀ token, job = .validate token → store.Ready token c) : store.Sound crypto c := by
  cases job with
  | validate token =>
    have hready := hready token rfl
    cases h with
    | start | touch | unmatched | matched => trivial
    | update => exact ⟨(hready.1 trivial).writable, hready.2 _ _ rfl⟩
    | insert => exact (hready.1 trivial).writable
  | revoke | regenerate | ensure | rotate =>
    have hnot := h.1
    cases c with
    | updateLegacyDefault | insertLegacyDefault => exact absurd trivial hnot
    | _ => trivial

/-! ### What they have revoked -/

/-- Where a part of an operation has come from `memory` and `store`. -/
structure Reached (crypto : TokenCrypto) (memory : TokenMemory) (store : TokenStore)
    (memory' : TokenMemory) (store' : TokenStore) : Prop where
  listed : memory'.listed = memory.listed
  known : store'.Known crypto
  evolves : store.Evolves crypto store'

theorem Reached.trans {memory'' : TokenMemory} {store'' : TokenStore}
    (h : Reached crypto memory store memory' store')
    (h' : Reached crypto memory' store' memory'' store'') :
    Reached crypto memory store memory'' store'' :=
  ⟨h'.listed.trans h.listed, h'.known, h.evolves.trans h'.evolves⟩

/-- With others that leave the tables known. -/
abbrev SecuresTables (crypto : TokenCrypto) (p : TokenClient α)
    (Q : Except AuthError α → TokenMemory → TokenStore → Prop) : TokenMemory → TokenStore → Prop :=
  p.Secures (serve crypto) (TokenMemory.record crypto) (TokenStore.Leads crypto)
    (fun _ c store => store.Sound crypto c) Q

theorem record_listed {c : TokenCall} (h : ∀ options, c ≠ .listPatTokens options) :
    (memory.record crypto c store).listed = memory.listed := by
  cases c with
  | listPatTokens options => exact absurd rfl (h options)
  | _ => rfl

theorem reached_of_serve (hfresh : crypto.Fresh) (hknown : store.Known crypto)
    {before : TokenStore} {c : TokenCall} {r : c.Response} (hbefore : store.Leads crypto before)
    (hsound : before.Sound crypto c) (h : serve crypto c before = .ok (r, store'))
    (hc : ∀ options, c ≠ .listPatTokens options) :
    Reached crypto memory store (memory.record crypto c before) store' := by
  obtain ⟨hknown, hevolves⟩ := hbefore hknown
  obtain ⟨hknown', hevolves'⟩ := TokenStore.leads_of_serve hfresh hsound h hknown
  exact ⟨record_listed hc, hknown', hevolves.trans hevolves'⟩

theorem secures_of_calls (hfresh : crypto.Fresh) (hknown : store.Known crypto) {p : TokenClient α}
    (h : p.Calls fun c => ∀ options, c ≠ .listPatTokens options) :
    SecuresTables crypto p (fun _ => Reached crypto memory store) memory store := by
  induction p generalizing memory store with
  | ret r => exact ⟨rfl, hknown, .refl⟩
  | call c k ih =>
    intro before hbefore hsound r store' hserve
    have hreached : Reached crypto memory store (memory.record crypto c before) store' :=
      reached_of_serve hfresh hknown hbefore hsound hserve h.1
    exact (ih r hreached.known (h.2 r)).mono fun _ _ _ h => hreached.trans h

/-- The rows are there. -/
def Present (store : TokenStore) (rows : List PatTokenRow) : Prop :=
  ∀ row ∈ rows, ∃ row' ∈ store.rows, row'.id = row.id

theorem Present.evolves {rows : List PatTokenRow} (h : Present store rows)
    (he : store.Evolves crypto store') : Present store' rows := by
  intro row hrow
  obtain ⟨row', hrow', hid⟩ := h row hrow
  obtain ⟨row'', hrow'', hid', -⟩ := he.row row' hrow'
  exact ⟨row'', hrow'', hid'.trans hid⟩

/-- Each of the rows is revoked if the operation returns. -/
def RevokedAll (rows : List PatTokenRow) (r : Except AuthError α) (store : TokenStore) : Prop :=
  ∀ a, r = .ok a → ∀ row ∈ rows, store.RevokedAt row.id

theorem secures_revokeRows (hfresh : crypto.Fresh) (hknown : store.Known crypto)
    {rows : List PatTokenRow} (hrows : Present store rows) :
    SecuresTables crypto (revokeRows rows) (fun r memory' store' =>
      Reached crypto memory store memory' store' ∧ RevokedAll rows r store') memory store := by
  induction rows generalizing memory store with
  | nil => exact ⟨⟨rfl, hknown, .refl⟩, fun _ _ row hrow => absurd hrow List.not_mem_nil⟩
  | cons row rows ih =>
    intro before hbefore hsound revoked store' hserve
    have hreached : Reached crypto memory store _ store' :=
      reached_of_serve hfresh hknown hbefore hsound hserve nofun
    have hrow : store'.RevokedAt row.id := by
      obtain ⟨row', hrow', hid⟩ := (hrows.evolves (hbefore hknown).2) row (.head _)
      obtain ⟨-, rfl⟩ := Prod.mk.inj (Except.ok.inj hserve)
      refine ⟨_, TokenStore.mem_modifyRow.mpr ⟨row', hrow', rfl⟩, ?_⟩
      rw [if_pos hid]
      exact ⟨hid, rfl⟩
    have hrest : Present store' rows := fun row hrow =>
      (hrows.evolves hreached.evolves) row (.tail _ hrow)
    refine (ih hreached.known hrest).bind ?_ ?_
    · intro ids memory'' store'' ⟨hreached', hall⟩
      refine ⟨hreached.trans hreached', fun _ _ other hother => ?_⟩
      obtain rfl | hother := List.mem_cons.mp hother
      · exact hrow.evolves hreached'.evolves
      · exact hall ids rfl other hother
    · exact fun _ _ _ ⟨hreached', _⟩ => ⟨hreached.trans hreached', fun _ h => nomatch h⟩

theorem secures_rotateLegacyDefaults (hfresh : crypto.Fresh) (hknown : store.Known crypto)
    {legacy : List PatTokenRow} (hrows : Present store legacy) :
    SecuresTables crypto (rotateLegacyDefaults legacy) (fun r memory' store' =>
      Reached crypto memory store memory' store' ∧ RevokedAll legacy r store') memory store := by
  cases legacy with
  | nil => exact ⟨⟨rfl, hknown, .refl⟩, fun _ _ row hrow => absurd hrow List.not_mem_nil⟩
  | cons row legacy =>
    intro before hbefore hsound token store' hserve
    have hreached : Reached crypto memory store _ store' :=
      reached_of_serve hfresh hknown hbefore hsound hserve nofun
    refine (secures_revokeRows hfresh hreached.known (hrows.evolves hreached.evolves)).mono ?_
    exact fun _ _ _ ⟨hreached', hall⟩ => ⟨hreached.trans hreached', hall⟩

/-- A job that returns has revoked what it has listed. -/
def Complete (crypto : TokenCrypto) (r : Except AuthError α) (memory : TokenMemory)
    (store : TokenStore) : Prop :=
  store.Known crypto ∧ ∀ a, r = .ok a → ∀ id ∈ memory.listed, store.RevokedAt id

theorem Complete.leads {r : Except AuthError α} (h : Complete crypto r memory store)
    (hleads : store.Leads crypto store') : Complete crypto r memory store' :=
  ⟨(hleads h.1).1, fun a hr id hid => (h.2 a hr id hid).evolves (hleads h.1).2⟩

/-- The rest of an operation that has revoked what it has listed. -/
theorem Reached.complete {r : Except AuthError α}
    (hlisted : ∀ id ∈ memory.listed, store.RevokedAt id)
    (h : Reached crypto memory store memory' store') : Complete crypto r memory' store' := by
  refine ⟨h.known, fun _ _ id hid => ?_⟩
  rw [h.listed] at hid
  exact (hlisted id hid).evolves h.evolves

theorem present_filter (p : PatTokenRow → Bool) {rows : List PatTokenRow} (h : Present store rows) :
    Present store (rows.filter p) :=
  fun row hrow => h row (List.mem_filter.mp hrow).1

theorem secures_ensure (hfresh : crypto.Fresh) (hknown : store.Known crypto)
    (input : OrgMcpPatTokenInput) :
    SecuresTables crypto (ensureOrgMcpPatToken input) (Complete crypto) {} store := by
  intro before hbefore _ listed store' hserve
  obtain ⟨hlisted, rfl⟩ := Prod.mk.inj (Except.ok.inj hserve)
  obtain ⟨hknown, -⟩ := hbefore hknown
  have hpresent : Present before listed.1 := hlisted ▸ present_filter _ fun row hrow => ⟨row, hrow, rfl⟩
  refine (secures_rotateLegacyDefaults hfresh hknown (present_filter _ hpresent)).bind ?_ ?_
  · intro revoked memory' store' ⟨hreached, hall⟩
    have hrevoked : ∀ id ∈ memory'.listed, store'.RevokedAt id := by
      intro id hid
      rw [hreached.listed] at hid
      obtain ⟨row, hrow, rfl⟩ := List.mem_map.mp ((List.mem_append.mp hid).resolve_left List.not_mem_nil)
      exact hall revoked rfl row (hlisted ▸ hrow)
    have hpats := (present_filter (fun row => row.tokenType = .pat && isActiveOrg row listed.2)
      hpresent).evolves hreached.evolves
    change Present _ (activeOrgPats listed.1 listed.2) at hpats
    cases hkeeper : activeOrgPats listed.1 listed.2 with
    | nil =>
      refine (secures_of_calls hfresh hreached.known ?_).mono fun _ _ _ h => h.complete hrevoked
      exact calls_issueOrgMcpPatToken nofun (fun _ => nofun) input _
    | cons keeper duplicates =>
      have hduplicates : Present store' duplicates := fun row hrow =>
        hpats row (hkeeper ▸ .tail _ hrow)
      refine (secures_revokeRows hfresh hreached.known hduplicates).bind ?_ ?_
      · exact fun _ _ _ ⟨h, _⟩ => h.complete hrevoked
      · exact fun _ _ _ ⟨h, _⟩ => ⟨h.known, fun _ h => nomatch h⟩
  · exact fun _ _ _ ⟨h, _⟩ => ⟨h.known, fun _ h => nomatch h⟩

theorem secures_rotate (hfresh : crypto.Fresh) (hknown : store.Known crypto)
    (input : OrgMcpPatTokenInput) :
    SecuresTables crypto (rotateOrgMcpPatToken input) (Complete crypto) {} store := by
  intro before hbefore _ listed store' hserve
  obtain ⟨hlisted, rfl⟩ := Prod.mk.inj (Except.ok.inj hserve)
  obtain ⟨hknown, -⟩ := hbefore hknown
  have hpresent : Present before listed.1 := hlisted ▸ present_filter _ fun row hrow => ⟨row, hrow, rfl⟩
  refine (secures_revokeRows hfresh hknown (present_filter _ hpresent)).bind ?_ ?_
  · intro revoked memory' store' ⟨hreached, hall⟩
    refine (secures_of_calls hfresh hreached.known ?_).mono fun _ _ _ h => h.complete ?_
    · exact calls_issueOrgMcpPatToken nofun (fun _ => nofun) input _
    · intro id hid
      rw [hreached.listed] at hid
      obtain ⟨row, hrow, rfl⟩ := List.mem_map.mp ((List.mem_append.mp hid).resolve_left List.not_mem_nil)
      obtain ⟨hrow, hactive⟩ := List.mem_filter.mp hrow
      refine hall revoked rfl row (List.mem_filter.mpr ⟨hlisted ▸ hrow, ?_⟩)
      exact hlisted ▸ (Bool.and_eq_true_iff.mp hactive).2
  · exact fun _ _ _ ⟨h, _⟩ => ⟨h.known, fun _ h => nomatch h⟩

theorem Validating.calls {token : String} {rest : TokenClient TokenResult}
    (h : Validating crypto token rest) : rest.Calls fun c => ∀ options, c ≠ .listPatTokens options := by
  induction rest with
  | ret r => trivial
  | call c k ih =>
    refine ⟨?_, fun r => ih r (h.next r)⟩
    cases h with
    | start | touch | unmatched | matched | update | insert => exact nofun

/-- Whatever the job, it has revoked what it has listed when it returns. -/
theorem TokenJob.secures (hfresh : crypto.Fresh) (hknown : store.Known crypto) (job : TokenJob) :
    SecuresTables crypto (job.program crypto) (Complete crypto) {} store := by
  have unlisted {p : TokenClient TokenResult}
      (h : p.Calls fun c => ∀ options, c ≠ .listPatTokens options) :
      SecuresTables crypto p (Complete crypto) {} store :=
    (secures_of_calls hfresh hknown h).mono fun _ _ _ h =>
      h.complete fun id hid => absurd hid List.not_mem_nil
  have mapped {p : TokenClient OrgMcpPatTokenResult}
      (h : SecuresTables crypto p (Complete crypto) {} store) :
      SecuresTables crypto (p >>= fun result => pure (TokenResult.orgToken result)) (Complete crypto) {}
        store :=
    h.bind (fun a _ _ h => ⟨h.1, fun _ _ => h.2 a rfl⟩) fun _ _ _ h => ⟨h.1, fun _ h => nomatch h⟩
  cases job with
  | validate token => exact unlisted validating_program.calls
  | revoke id caller =>
    exact unlisted ((calls_revokePatToken (fun _ => nofun) (fun _ => nofun) id caller).bind
      fun _ => trivial)
  | regenerate => exact unlisted ⟨nofun, fun _ => trivial⟩
  | ensure input => exact mapped (secures_ensure hfresh hknown input)
  | rotate input => exact mapped (secures_rotate hfresh hknown input)

end
/-! ## Runs -/

section
variable {crypto : TokenCrypto} {P P' : TokenJobs} {e : TokenEvent}

abbrev RunningJob :=
  Client.Job TokenCall TokenCall.Response AuthError TokenResult TokenJob TokenMemory

/-- A validation is ready for its next call. -/
def RunningJob.Ready (store : TokenStore) (job : RunningJob) : Prop :=
  ∀ token c k, job.job = .validate token → job.rest = .call c k → store.Ready token c

/-- What holds in every state of a run whose steps are permitted. -/
structure TokenJobs.Sane (crypto : TokenCrypto) (P : TokenJobs) : Prop where
  known : P.store.Known crypto
  leaves : ∀ i job, P.jobs i = some job → job.job.Leaves crypto job.rest
  ready : ∀ i job, P.jobs i = some job → RunningJob.Ready P.store job
  accounts : ∀ i job, P.jobs i = some job → P.store.Accounts crypto job.memory
  secured : P.Secured (serve crypto) (TokenMemory.record crypto) (TokenStore.Leads crypto)
    (fun _ c store => store.Sound crypto c) fun _ => Complete crypto

theorem TokenJobs.Sane.sound (h : P.Sane crypto) (hi : P.jobs i = some ⟨job, .call c k, memory⟩) :
    P.store.Sound crypto c :=
  (h.leaves i _ hi).sound fun token htoken => h.ready i _ hi token c k htoken rfl

theorem TokenJobs.Sane.init {store : TokenStore} (h : store.Known crypto) :
    TokenJobs.Sane crypto (.init store) where
  known := h
  leaves _ _ hj := nomatch hj
  ready _ _ hj := nomatch hj
  accounts _ _ hj := nomatch hj
  secured := .init

/-- A step leaves the tables known. -/
theorem TokenJobs.Sane.leads (h : P.Sane crypto) (hfresh : crypto.Fresh)
    (hstep : P.next crypto e = some P') : P.store.Leads crypto P'.store := by
  obtain ⟨i, job, -, -, rfl⟩ | ⟨i, job, c, k, memory, r, store, -, hi, hserve, rfl⟩ |
    ⟨i, job, c, k, memory, e', -, rfl⟩ | ⟨time, -, rfl⟩ := Clients.next_cases hstep
  · exact .refl
  · exact TokenStore.leads_of_serve hfresh (h.sound hi) hserve
  · exact .refl
  · exact TokenStore.leads_elapse

/-- A job that is about to write the legacy-default row keeps what it relies on. -/
theorem RunningJob.Ready.serve {store store' : TokenStore} {job : RunningJob} {c : TokenCall}
    {r : c.Response} (h : RunningJob.Ready store job) (he : store.Evolves crypto store')
    (hset : Matched job.rest → c ≠ .setApiToken)
    (hrevoke : Matched job.rest → ∀ id, c = .revokePatToken id →
      ¬∃ row ∈ store.rows, row.id = id ∧ row.LegacyDefault)
    (hserve : serve crypto c store = .ok (r, store')) : RunningJob.Ready store' job := by
  intro token c' k' hjob hrest
  obtain ⟨hcurrent, hrow⟩ := h token c' k' hjob hrest
  refine ⟨fun hupserts => ?_, fun id tokenHash hc' => ?_⟩
  · have hmatched : Matched job.rest := hrest ▸ hupserts
    exact (hcurrent hupserts).serve (hset hmatched) (hrevoke hmatched) hserve
  · obtain ⟨row, hrow, hid, hlegacy⟩ := hrow id tokenHash hc'
    obtain ⟨row', hrow', hid', htype, -⟩ := he.row row hrow
    refine ⟨row', hrow', hid'.trans hid, ?_⟩
    rw [PatTokenRow.LegacyDefault, htype, hid']
    exact hlegacy

theorem TokenJobs.Sane.next (h : P.Sane crypto) (hfresh : crypto.Fresh)
    (hstep : Guarded (Fires (TokenJobs.next crypto)) (TokenJobs.Permits crypto) P e P') :
    P'.Sane crypto := by
  obtain ⟨hstep, hpermits⟩ := hstep
  obtain ⟨hknown', hevolves⟩ := h.leads hfresh hstep h.known
  have hsecured := h.secured.next hstep (h.leads hfresh hstep) .refl
    (fun i job c k memory _ hi => h.sound hi) (fun _ _ _ h h' => h.trans h')
    (fun _ _ _ _ _ h hleads => h.leads hleads) (TokenJob.secures hfresh h.known)
    fun _ _ _ => ⟨h.known, fun _ h => nomatch h⟩
  obtain ⟨i, job, -, -, rfl⟩ | ⟨i, job, c, k, memory, r, store, rfl, hi, hserve, rfl⟩ |
    ⟨i, job, c, k, memory, e', hi, rfl⟩ | ⟨time, -, rfl⟩ := Clients.next_cases hstep
  · refine ⟨hknown', ?_, ?_, ?_, hsecured⟩
    · exact Clients.put_cases job.leaves_program fun j job' _ hj => h.leaves j job' hj
    · refine Clients.put_cases (fun token c k hjob hrest => ?_) fun j job' _ hj => h.ready j job' hj
      obtain rfl : job = .validate token := hjob
      cases program_validate.symm.trans hrest
      exact TokenStore.ready_of_not_upserts not_false
    · exact Clients.put_cases (fun _ hmem => absurd hmem List.not_mem_nil)
        fun j job' _ hj => h.accounts j job' hj
  · have hadmits := hpermits i job c k memory rfl hi
    refine ⟨hknown', ?_, ?_, ?_, hsecured⟩
    · exact Clients.put_cases ((h.leaves i _ hi).next r) fun j job' _ hj => h.leaves j job' hj
    · refine Clients.put_cases (fun token c' k' hjob hrest => ?_) fun j job' hji hj => ?_
      · obtain rfl : job = .validate token := hjob
        refine Validating.ready (h.leaves i _ hi) (h.ready i _ hi token c k rfl rfl) ?_ hserve hrest
        intro hc
        subst hc
        exact hadmits token rfl
      · refine (h.ready j job' hj).serve hevolves (fun hmatched hc => ?_) ?_ hserve
        · subst hc
          exact hadmits.1 j job' hj hmatched
        · intro hmatched id hc hrow
          subst hc
          exact hadmits hrow j job' hj hmatched
    · refine Clients.put_cases ?_ fun j job' _ hj =>
        (h.accounts j job' hj).evolves hknown' hevolves
      refine (h.accounts i _ hi).record hfresh h.known (h.sound hi) hserve fun hc => ?_
      subst hc
      exact hadmits.2
  · refine ⟨hknown', ?_, ?_, ?_, hsecured⟩
    · refine Clients.put_cases ?_ fun j job' _ hj => h.leaves j job' hj
      cases job with
      | validate token => exact Validating.ended
      | revoke | regenerate | ensure | rotate => trivial
    · exact Clients.put_cases nofun fun j job' _ hj => h.ready j job' hj
    · have haccounts : P.store.Accounts crypto memory := h.accounts i _ hi
      exact Clients.put_cases haccounts fun j job' _ hj => h.accounts j job' hj
  · exact ⟨hknown', h.leaves, h.ready, fun j job' hj =>
      (h.accounts j job' hj).evolves hknown' hevolves, hsecured⟩

/-- What a job has revoked or replaced when it has completed is dead. -/
theorem TokenJobs.Sane.dead {tokenHash : String} (h : P.Sane crypto) (hi : P.Covered i tokenHash) :
    P.store.Dead crypto tokenHash := by
  obtain ⟨job, result, memory, hi, hmem⟩ := hi
  obtain hdead | hpending := h.accounts i _ hi tokenHash hmem
  · exact hdead
  · obtain ⟨hknown, hrevoked⟩ := h.secured i _ hi
    exact hpending.dead hknown (hrevoked result rfl)

/-! ### Validations that start afterwards -/

/-- What is left of a validation has not accepted the token, nor does it for a row that it has
found. -/
def Hopeless (rest : TokenClient TokenResult) : Prop :=
  ¬rest.Makes (fun c => ∃ id, c = .touchPatToken id) ∧
    ∀ identity, rest ≠ .ret (.ok (.identity (some identity)))

variable {token : String} {store store' : TokenStore}

theorem hopeless_call {c : TokenCall} {k : c.Response → TokenClient TokenResult}
    (h : ∀ id, c ≠ .touchPatToken id) : Hopeless (.call c k) :=
  ⟨fun ⟨id, hc⟩ => h id hc, nofun⟩

theorem hopeless_compared (stored : Option (Option String)) :
    Hopeless (compared crypto token stored) := by
  rw [compared]
  split
  · exact hopeless_call nofun
  · exact ⟨not_false, nofun⟩

/-- The hash of a dead token cannot be written, since another row has it. -/
theorem setLegacyHash_ne_ok {row written : PatTokenRow} (hknown : store.Known crypto)
    (hdead : store.Dead crypto (crypto.hashMcpToken token)) (hcurrent : store.Current token)
    (hrow : row ∈ store.rows) (hlegacy : row.LegacyDefault) :
    store.setLegacyHash row (crypto.hashMcpToken token) ≠ .ok (written, store') := by
  obtain ⟨other, hother, hhash, hrevoked⟩ := hdead.api hcurrent.writable.1
  have hne : other.id ≠ row.id := by
    intro hid
    obtain rfl := hknown.unique.eq_of_id hother hrow hid
    rw [hcurrent.2 other hother hlegacy] at hrevoked
    cases hrevoked
  intro h
  rw [TokenStore.setLegacyHash, if_pos] at h
  · cases h
  · exact List.any_eq_true.mpr ⟨other, hother, by simp [hne, hhash]⟩

theorem Validating.hopeless {c : TokenCall} {k : c.Response → TokenClient TokenResult}
    {r : c.Response} (h : Validating crypto token (.call c k)) (hhopeless : Hopeless (.call c k))
    (hknown : store.Known crypto) (hdead : store.Dead crypto (crypto.hashMcpToken token))
    (hready : store.Ready token c) (hserve : serve crypto c store = .ok (r, store')) :
    Hopeless (k r) := by
  cases h with
  | start =>
    obtain ⟨rfl, -⟩ := Prod.mk.inj (Except.ok.inj hserve)
    change Hopeless (validated crypto token
      (store.rows.find? (·.tokenHash = crypto.hashMcpToken token), store.now))
    rw [validated]
    split
    · next row hrow =>
      obtain ⟨hfound, husable⟩ := Option.filter_eq_some_iff.mp hrow
      have hhash := List.find?_some hfound
      exact absurd husable
        (hdead.row row (List.mem_of_find?_eq_some hfound) (by simpa using hhash))
    · exact hopeless_call (by rintro _ ⟨⟩)
  | touch => exact absurd ⟨_, rfl⟩ hhopeless.1
  | unmatched => exact hopeless_compared r
  | matched =>
    cases r with
    | none => exact hopeless_call (by rintro _ ⟨⟩)
    | some => exact hopeless_call (by rintro _ ⟨⟩)
  | update =>
    obtain ⟨row, hrow, hid, hlegacy⟩ := hready.2 _ _ rfl
    rw [serve] at hserve
    split at hserve
    · next found hfound =>
      have hmem := List.mem_of_find?_eq_some hfound
      have hfoundid := List.find?_some hfound
      obtain rfl := hknown.unique.eq_of_id hrow hmem
        (hid.trans (of_decide_eq_true hfoundid).symm)
      exact absurd hserve (setLegacyHash_ne_ok hknown hdead (hready.1 trivial) hrow hlegacy)
    · cases hserve
  | insert =>
    have hcurrent := hready.1 trivial
    rw [serve] at hserve
    split at hserve
    · next found hfound =>
      have hfoundid := List.find?_some hfound
      exact absurd hserve (setLegacyHash_ne_ok hknown hdead hcurrent
        (List.mem_of_find?_eq_some hfound) (.inr (by simpa using hfoundid)))
    · obtain ⟨inserted, hinsert, -⟩ := bind_eq_ok.mp hserve
      obtain ⟨other, hother, hhash, -⟩ := hdead.api hcurrent.writable.1
      obtain ⟨-, -, hfree⟩ := TokenStore.insert_eq_ok hinsert
      exact absurd hhash (hfree other hother).2

/-- A validation of a dead token that has not accepted it does not accept it. -/
structure TokenJobs.Refuses (crypto : TokenCrypto) (j : Nat) (token : String) (P : TokenJobs) :
    Prop where
  sane : P.Sane crypto
  dead : P.store.Dead crypto (crypto.hashMcpToken token)
  hopeless : ∀ i job, P.jobs i = some job → i = j → job.job = .validate token → Hopeless job.rest

theorem TokenJobs.Refuses.next (h : P.Refuses crypto j token) (hfresh : crypto.Fresh)
    (hstep : Guarded (Fires (TokenJobs.next crypto)) (TokenJobs.Permits crypto) P e P') :
    P'.Refuses crypto j token := by
  have hsane := h.sane.next hfresh hstep
  have ⟨_, hevolves⟩ := h.sane.leads hfresh hstep.1 h.sane.known
  refine ⟨hsane, h.dead.evolves hsane.known hevolves, ?_⟩
  obtain ⟨i, job, -, hnone, rfl⟩ | ⟨i, job, c, k, memory, r, store, -, hi, hserve, rfl⟩ |
    ⟨i, job, c, k, memory, e', hi, rfl⟩ | ⟨time, -, rfl⟩ := Clients.next_cases hstep.1
  · refine Clients.put_cases (fun _ hjob => ?_) fun i job' _ hj => h.hopeless i job' hj
    obtain rfl : job = .validate token := hjob
    rw [program_validate]
    exact hopeless_call nofun
  · refine Clients.put_cases (fun hij hjob => ?_) fun i job' _ hj => h.hopeless i job' hj
    obtain rfl : job = .validate token := hjob
    exact (h.sane.leaves i _ hi).hopeless (h.hopeless i _ hi hij rfl) h.sane.known h.dead
      (h.sane.ready i _ hi token c k rfl rfl) hserve
  · refine Clients.put_cases (fun _ _ => ?_) fun i job' _ hj => h.hopeless i job' hj
    exact ⟨not_false, nofun⟩
  · exact h.hopeless

theorem TokenJobs.sane_of_run (hfresh : crypto.Fresh) (hP : P.Sane crypto)
    (h : Run (Guarded (Fires (TokenJobs.next crypto)) (TokenJobs.Permits crypto)) P es P') :
    P'.Sane crypto :=
  h.invariant (fun _ _ _ hstep hsane => TokenJobs.Sane.next hsane hfresh hstep) hP

/-- While the steps are permitted, a revocation is permanent. -/
theorem revocationPermanent (hfresh : crypto.Fresh) (hknown : store.Known crypto) :
    RevocationPermanent crypto
      (Guarded (Fires (TokenJobs.next crypto)) (TokenJobs.Permits crypto)) (.init store) where
  refused es es' P P' h h' i token hcovered j hnone := by
    have hsane := TokenJobs.sane_of_run hfresh (.init hknown) h
    have hstart : P.Refuses crypto j token := by
      refine ⟨hsane, hsane.dead hcovered, fun i job hi hij => ?_⟩
      subst hij
      exact nomatch hnone.symm.trans hi
    have hend := h'.invariant (I := TokenJobs.Refuses crypto j token)
      (fun _ _ _ hstep hrefuses => TokenJobs.Refuses.next hrefuses hfresh hstep) hstart
    intro ⟨identity, memory, hj⟩
    exact (hend.hopeless j _ hj rfl rfl).2 identity rfl
  revoked es P P' i token rest memory h hstep _ row hrow hrevoked row' hrow' hid := by
    have hsane := TokenJobs.sane_of_run hfresh (.init hknown) h
    have hsane' := hsane.next hfresh hstep
    have ⟨_, hevolves⟩ := hsane.leads hfresh hstep.1 hsane.known
    obtain ⟨other, hother, hotherid, -, hstays⟩ := hevolves.row row hrow
    obtain rfl := hsane'.known.unique.eq_of_id hother hrow' (hotherid.trans hid.symm)
    exact (hstays hrevoked).2

theorem known_empty : TokenStore.Known unaryCrypto { rows := [], apiToken := none } where
  unique := .nil
  row_old _ hrow := absurd hrow List.not_mem_nil
  api_old _ hapi := nomatch hapi

theorem revocationPermanent_unary : RevocationPermanent unaryCrypto
    (Guarded (Fires (TokenJobs.next unaryCrypto)) (TokenJobs.Permits unaryCrypto))
    (.init { rows := [], apiToken := none }) :=
  revocationPermanent fresh_unaryCrypto known_empty

/-- The API token is regenerated after a validation of it: the row that the validation has inserted
still has its hash. -/
theorem not_revocationPermanent :
    ¬∀ (crypto : TokenCrypto) (store : TokenStore), crypto.Fresh → store.Known crypto →
      RevocationPermanent crypto (Fires (TokenJobs.next crypto)) (.init store) := by
  intro h
  have hrefused := (h unaryCrypto _ fresh_unaryCrypto known_empty).refused
    [.start 0 .regenerate, .step 0, .start 1 (.validate "ol_"), .step 1, .step 1, .step 1, .step 1,
      .start 2 .regenerate, .step 2]
    [.start 3 (.validate "ol_"), .step 3, .step 3] _ _ (.of_exec rfl) (.of_exec rfl) 2 "ol_"
    ⟨_, _, _, rfl, by decide⟩ 3 rfl
  exact hrefused ⟨_, _, rfl⟩

end
end OpenLander.Auth
