import OpenLander.Theory.PromiseLock
import OpenLander.Auth.TokenStore

/-! # One organisation token for MCP

`ensureOrgMcpPatToken` and `rotateOrgMcpPatToken` under the lock of their `AuthService`. Their
sections come one after the other, in the order of the calls, whatever the earlier ones end with, and
each that returns leaves one active organisation token, from whatever table it has started. -/

namespace OpenLander.Auth
open Theory

inductive OrgMcpOperation
  | ensure (input : OrgMcpPatTokenInput)
  | rotate (input : OrgMcpPatTokenInput)
  deriving DecidableEq, Repr

def OrgMcpOperation.section : OrgMcpOperation → TokenClient OrgMcpPatTokenResult
  | ensure input => ensureOrgMcpPatToken input
  | rotate input => rotateOrgMcpPatToken input

namespace AuthService

abbrev State :=
  PromiseLock.State OrgMcpOperation TokenCall TokenCall.Response AuthError OrgMcpPatTokenResult
    TokenStore

abbrev Event := PromiseLock.Event OrgMcpOperation AuthError Nat

/-- `withOrgMcpPatTokenLock` -/
def next (crypto : TokenCrypto) : State → Event → Option State :=
  PromiseLock.next (serve crypto) OrgMcpOperation.section TokenStore.elapse

def start (store : TokenStore) : State := { store }

/-- The operation has returned, and no later one has begun. -/
def Completed (s : State) (i : Nat) (result : OrgMcpPatTokenResult) : Prop :=
  s.phase i = some (.inside (.ret (.ok result))) ∨
    s.phase i = some (.ended (.ok result)) ∧ ∀ j, i < j → ¬s.Entered j

end AuthService

/-- What the constraints of the table give. -/
structure TokenStore.Valid (store : TokenStore) : Prop where
  unique : store.Unique
  checks : ∀ row ∈ store.rows, row.meetsChecks

def PatTokenRow.OrgPat (row : PatTokenRow) : Prop := row.tokenType = .pat ∧ row.scopeKind = .org

/-- The row with the id is the one active organisation token. It may have expired. -/
def TokenStore.OneActive (store : TokenStore) (id : String) : Prop :=
  ∃ row ∈ store.rows, row.id = id ∧ row.OrgPat ∧ row.revokedAt = none ∧
    ∀ other ∈ store.rows, other.OrgPat → isTokenUsable other store.now → other = row

/-- Operations on one service in whatever order. -/
structure OneOrgMcpToken (crypto : TokenCrypto) (s : AuthService.State) : Prop where
  overlap : ∀ i j, s.Inside i → s.Inside j → i = j
  order : ∀ i, s.Entered i → ∀ j < i, s.ended j
  /-- An operation begins as soon as all before it have ended, also with an error. -/
  unblocked : ∀ i, s.phase i = some .waiting →
    ((∃ t, AuthService.next crypto s (.enter i) = some t) ↔ ∀ j < i, s.ended j)
  active : ∀ i result, AuthService.Completed s i result → s.store.OneActive result.row.id

/-! ## The constraints of the table -/

namespace TokenStore
variable {crypto : TokenCrypto} {store store' start : TokenStore} {id : String}

theorem Valid.modifyRow {f : PatTokenRow → PatTokenRow} (h : store.Valid)
    (hid : ∀ row, (f row).id = row.id)
    (hhash : ∀ row ∈ store.rows, row.id = id → ∀ other ∈ store.rows, other.id ≠ id →
      other.tokenHash ≠ (f row).tokenHash)
    (hchecks : ∀ row, (f row).meetsChecks = row.meetsChecks) : (store.modifyRow id f).Valid where
  unique := h.unique.modifyRow hid hhash
  checks row' hrow' := by
    obtain ⟨row, hrow, rfl⟩ := mem_modifyRow.mp hrow'
    split
    · rw [hchecks]
      exact h.checks row hrow
    · exact h.checks row hrow

theorem Valid.modifyRow_of_hash {f : PatTokenRow → PatTokenRow} (h : store.Valid)
    (hid : ∀ row, (f row).id = row.id) (hhash : ∀ row, (f row).tokenHash = row.tokenHash)
    (hchecks : ∀ row, (f row).meetsChecks = row.meetsChecks) : (store.modifyRow id f).Valid := by
  refine h.modifyRow hid (fun row hrow hrowid other hother hotherid heq => ?_) hchecks
  rw [hhash] at heq
  exact hotherid (h.unique.eq_of_hash hother hrow heq ▸ hrowid)

theorem Valid.insert {row : PatTokenRow} (h : store.Valid)
    (hinsert : store.insert row = .ok store') : store'.Valid := by
  obtain ⟨rfl, hchecks, hfree⟩ := insert_eq_ok hinsert
  refine ⟨List.Pairwise.cons (fun other hother => ?_) h.unique, fun other hother => ?_⟩
  · exact ⟨(hfree other hother).1.symm, (hfree other hother).2.symm⟩
  · obtain rfl | hother := List.mem_cons.mp hother
    · exact hchecks
    · exact h.checks other hother

theorem Valid.setLegacyHash {row written : PatTokenRow} {tokenHash : String} (h : store.Valid)
    (hset : store.setLegacyHash row tokenHash = .ok (written, store')) : store'.Valid := by
  rw [TokenStore.setLegacyHash] at hset
  split at hset
  · cases hset
  · next hfree =>
    obtain ⟨-, rfl⟩ := Prod.mk.inj (Except.ok.inj hset)
    refine h.modifyRow (fun _ => rfl) (fun _ _ _ other hother hid hhash => ?_) fun _ => rfl
    exact hfree (List.any_eq_true.mpr ⟨other, hother, by simp [hid, hhash]⟩)

theorem Valid.serve (h : store.Valid) {c : TokenCall} {r : c.Response}
    (hserve : Auth.serve crypto c store = .ok (r, store')) : store'.Valid := by
  cases c with
  | findPatTokenByHash | findPatTokenById | listPatTokens | findLegacyDefault | getApiToken =>
    obtain ⟨-, rfl⟩ := Prod.mk.inj (Except.ok.inj hserve)
    exact h
  | touchPatToken | revokePatToken =>
    obtain ⟨-, rfl⟩ := Prod.mk.inj (Except.ok.inj hserve)
    exact h.modifyRow_of_hash (fun _ => rfl) (fun _ => rfl) fun _ => rfl
  | setApiToken =>
    obtain ⟨-, rfl⟩ := Prod.mk.inj (Except.ok.inj hserve)
    exact ⟨h.unique, h.checks⟩
  | createPatToken =>
    obtain ⟨inserted, hinsert, hret⟩ := bind_eq_ok.mp hserve
    obtain ⟨-, rfl⟩ := Prod.mk.inj (Except.ok.inj hret)
    have h : store.generate.Valid := ⟨h.unique, h.checks⟩
    exact h.insert hinsert
  | updateLegacyDefault id tokenHash =>
    rw [Auth.serve] at hserve
    split at hserve
    · exact h.setLegacyHash hserve
    · cases hserve
  | insertLegacyDefault tokenHash =>
    rw [Auth.serve] at hserve
    split at hserve
    · exact h.setLegacyHash hserve
    · obtain ⟨inserted, hinsert, hret⟩ := bind_eq_ok.mp hserve
      obtain ⟨-, rfl⟩ := Prod.mk.inj (Except.ok.inj hret)
      exact h.insert hinsert

/-! ## What a section does to the rows -/

/-- The rows with the ids of `p` have been revoked since `start`, and the others are as they were. -/
structure Revoked (start : TokenStore) (p : String → Prop) (store : TokenStore) : Prop where
  now : start.now ≤ store.now
  row : ∀ row' ∈ store.rows, ∃ row ∈ start.rows, row'.id = row.id ∧
    (p row.id → row'.revokedAt.isSome) ∧ (¬p row.id → row' = row)
  kept : ∀ row ∈ start.rows, ¬p row.id → row ∈ store.rows

variable {p q : String → Prop}

theorem Revoked.refl : store.Revoked (fun _ => False) store where
  now := Nat.le_refl _
  row row hrow := ⟨row, hrow, rfl, False.elim, fun _ => rfl⟩
  kept _ hrow _ := hrow

theorem Revoked.congr (h : start.Revoked p store) (hpq : ∀ id, p id ↔ q id) :
    start.Revoked q store := by
  obtain rfl : p = q := funext fun id => propext (hpq id)
  exact h

theorem Revoked.elapse (h : start.Revoked p store) (time : Nat) :
    start.Revoked p (store.elapse time) :=
  ⟨Nat.le_trans h.now (Nat.le_add_right _ _), h.row, h.kept⟩

theorem Revoked.revoke (h : start.Revoked p store) (id : String) (time : Nat) :
    start.Revoked (fun other => p other ∨ other = id)
      (store.modifyRow id fun row => { row with revokedAt := some time }) where
  now := h.now
  row row'' hrow'' := by
    obtain ⟨row', hrow', rfl⟩ := mem_modifyRow.mp hrow''
    obtain ⟨row, hrow, hid, hrevoked, hsame⟩ := h.row row' hrow'
    by_cases hat : row'.id = id
    · rw [if_pos hat]
      exact ⟨row, hrow, hid, fun _ => rfl, fun hnot => absurd (.inr (hid ▸ hat)) hnot⟩
    · rw [if_neg hat]
      refine ⟨row, hrow, hid, fun hor => ?_, fun hnot => hsame fun hp => hnot (.inl hp)⟩
      exact hrevoked (hor.resolve_right fun h => hat (hid.trans h))
  kept row hrow hnot := by
    have hmem := h.kept row hrow fun hp => hnot (.inl hp)
    exact mem_modifyRow.mpr ⟨row, hmem, if_neg fun h => hnot (.inr h)⟩

/-- A row that is usable in the end was so in the beginning, and was not revoked. -/
theorem Revoked.usable (h : start.Revoked p store) {row : PatTokenRow} (hrow : row ∈ store.rows)
    (husable : isTokenUsable row store.now) :
    row ∈ start.rows ∧ ¬p row.id ∧ isTokenUsable row start.now := by
  obtain ⟨old, hold, hid, hrevoked, hsame⟩ := h.row row hrow
  have hnot : ¬p old.id := fun hp => not_isTokenUsable (hrevoked hp) husable
  obtain rfl := hsame hnot
  exact ⟨hold, hnot, isTokenUsable_of_le h.now husable⟩

end TokenStore

/-! ## Sections -/

section
variable {crypto : TokenCrypto} {start store store' : TokenStore} {p : String → Prop}

def Elapses (store store' : TokenStore) : Prop := ∃ time, store' = store.elapse time

/-- In a section of its own. -/
abbrev SecuresAlone (crypto : TokenCrypto) (client : TokenClient α)
    (Q : Except AuthError α → TokenStore → Prop) (store : TokenStore) : Prop :=
  client.Secures (serve crypto) (fun g _ _ => g) Elapses (fun _ _ _ => True)
    (fun r (_ : Unit) => Q r) () store

/-- If the operation returns, the rows with the ids of `p` have been revoked. -/
def HasRevoked (start : TokenStore) (p : String → Prop) (r : Except AuthError α)
    (store : TokenStore) : Prop :=
  ∀ a, r = .ok a → start.Revoked p store

theorem securesAlone_revokeRows {rows : List PatTokenRow} (h : start.Revoked p store) :
    SecuresAlone crypto (revokeRows rows)
      (HasRevoked start fun id => p id ∨ ∃ row ∈ rows, id = row.id) store := by
  induction rows generalizing p store with
  | nil =>
    refine fun _ _ => h.congr fun id => ⟨.inl, fun hor => hor.resolve_right ?_⟩
    exact fun ⟨_, hmem, _⟩ => List.not_mem_nil hmem
  | cons row rows ih =>
    rintro _ ⟨time, rfl⟩ _ revoked store' hserve
    obtain ⟨-, rfl⟩ := Prod.mk.inj (Except.ok.inj hserve)
    refine (ih ((h.elapse time).revoke row.id _)).bind (fun ids _ store' hrest a _ => ?_)
      fun _ _ _ _ => nofun
    refine (hrest ids rfl).congr fun id => ?_
    simp only [List.mem_cons, or_assoc, exists_eq_or_imp]

theorem securesAlone_rotateLegacyDefaults {legacy : List PatTokenRow} (h : start.Revoked p store) :
    SecuresAlone crypto (rotateLegacyDefaults legacy)
      (HasRevoked start fun id => p id ∨ ∃ row ∈ legacy, id = row.id) store := by
  cases legacy with
  | nil => exact securesAlone_revokeRows h
  | cons row legacy =>
    rintro _ ⟨time, rfl⟩ _ token store' hserve
    obtain ⟨-, rfl⟩ := Prod.mk.inj (Except.ok.inj hserve)
    have h' := h.elapse time
    exact securesAlone_revokeRows ⟨h'.now, h'.row, h'.kept⟩

/-- A section that returns leaves one active organisation token. -/
def LeavesOne (r : Except AuthError OrgMcpPatTokenResult) (store : TokenStore) : Prop :=
  ∀ result, r = .ok result → store.OneActive result.row.id

theorem LeavesOne.error (e : AuthError) (store : TokenStore) : LeavesOne (.error e) store :=
  fun _ h => nomatch h

/-- A new token is the one active one if all that were usable have been revoked. -/
theorem securesAlone_issueOrgMcpPatToken {input : OrgMcpPatTokenInput} {revoked : List String}
    (h : start.Revoked p store)
    (hall : ∀ row ∈ start.rows, row.OrgPat → isTokenUsable row start.now → p row.id) :
    SecuresAlone crypto (issueOrgMcpPatToken input revoked) LeavesOne store := by
  rintro _ ⟨time, rfl⟩ _ token store' hserve
  obtain ⟨-, rfl⟩ := Prod.mk.inj (Except.ok.inj hserve)
  have h := h.elapse time
  change Client.Secures _ _ _ _ _ (issuePatToken _ >>= _) _ _
  rw [issuePatToken]
  split
  · exact .error _ _
  · rintro _ ⟨time', rfl⟩ _ issued store' hserve
    obtain ⟨inserted, hinsert, hret⟩ := bind_eq_ok.mp hserve
    obtain ⟨rfl, rfl⟩ := Prod.mk.inj (Except.ok.inj hret)
    obtain ⟨rfl, -, -⟩ := TokenStore.insert_eq_ok hinsert
    intro result hresult
    obtain rfl := Except.ok.inj hresult
    refine ⟨_, .head _, rfl, ⟨rfl, rfl⟩, rfl, fun other hother hpat husable => ?_⟩
    obtain rfl | hother := List.mem_cons.mp hother
    · rfl
    · obtain ⟨hstart, hnot, husable⟩ := (h.elapse time').usable hother husable
      exact absurd (hall other hstart hpat husable) hnot

theorem isActiveOrg_of_orgPat {row : PatTokenRow} {now : Nat} (hvalid : store.Valid)
    (hrow : row ∈ store.rows) (hpat : row.OrgPat) (husable : isTokenUsable row now) :
    isActiveOrg row now ∧ ({ scopeKind := some .org } : ListPatTokensOptions).selects row := by
  have hchecks := hvalid.checks row hrow
  rw [PatTokenRow.meetsChecks, hpat.2] at hchecks
  obtain ⟨hproject, hservice⟩ :=
    Bool.and_eq_true_iff.mp (Bool.and_eq_true_iff.mp hchecks).1
  have hrevoked := (Bool.and_eq_true_iff.mp husable).1
  constructor
  · rw [isActiveOrg, hpat.2, hproject, husable]
    rfl
  · rw [ListPatTokensOptions.selects, hpat.2, hproject, hservice, hrevoked]
    rfl

theorem mem_activeOrgPats {row : PatTokenRow} {now : Nat} (hvalid : store.Valid)
    (hrow : row ∈ store.rows) (hpat : row.OrgPat) (husable : isTokenUsable row now) :
    row ∈ activeOrgPats
      (store.rows.filter ({ scopeKind := some .org } : ListPatTokensOptions).selects) now := by
  have ⟨hactive, hselects⟩ := isActiveOrg_of_orgPat hvalid hrow hpat husable
  refine List.mem_filter.mpr ⟨List.mem_filter.mpr ⟨hrow, hselects⟩, ?_⟩
  rw [hpat.1, hactive]
  rfl

/-- The first row that is listed is kept, and no other is usable when the others are revoked. -/
theorem oneActive_of_keeper {keeper : PatTokenRow} {duplicates : List PatTokenRow}
    (hvalid : start.Valid) (hpats : activeOrgPats
      (start.rows.filter ({ scopeKind := some .org } : ListPatTokensOptions).selects) start.now =
        keeper :: duplicates)
    (h : start.Revoked p store) (hp : ∀ id, p id → ∃ row ∈ start.rows, id = row.id ∧
      (row.tokenType = .legacyDefault ∨ row ∈ duplicates))
    (hduplicates : ∀ row ∈ duplicates, p row.id) : store.OneActive keeper.id := by
  have hkeeper : keeper ∈ keeper :: duplicates := .head _
  rw [← hpats] at hkeeper
  obtain ⟨hmem, hactive⟩ := List.mem_filter.mp hkeeper
  have hrow := (List.mem_filter.mp hmem).1
  simp only [isActiveOrg, Bool.and_eq_true, decide_eq_true_eq] at hactive
  obtain ⟨htype, ⟨horg, -⟩, husable⟩ := hactive
  have hdistinct : (keeper :: duplicates).Pairwise PatTokenRow.Distinct :=
    hpats ▸ (hvalid.unique.filter _).filter _
  have hkept : ¬p keeper.id := by
    intro hkeeper
    obtain ⟨row, hrow', hid, hor⟩ := hp _ hkeeper
    obtain rfl := hvalid.unique.eq_of_id hrow hrow' hid
    obtain hlegacy | hduplicate := hor
    · exact nomatch hlegacy.symm.trans htype
    · exact ((List.pairwise_cons.mp hdistinct).1 keeper hduplicate).1 rfl
  refine ⟨keeper, h.kept keeper hrow hkept, rfl, ⟨htype, horg⟩, ?_, ?_⟩
  · exact Option.isNone_iff_eq_none.mp (Bool.and_eq_true_iff.mp husable).1
  · intro other hother hpat hu
    obtain ⟨hstart, hnot, hu⟩ := h.usable hother hu
    have hlisted := mem_activeOrgPats hvalid hstart hpat hu
    rw [hpats] at hlisted
    exact (List.mem_cons.mp hlisted).resolve_right fun hmem => hnot (hduplicates other hmem)

theorem securesAlone_ensure {input : OrgMcpPatTokenInput} (hvalid : store.Valid) :
    SecuresAlone crypto (ensureOrgMcpPatToken input) LeavesOne store := by
  rintro _ ⟨time, rfl⟩ _ listed store' hserve
  obtain ⟨hlisted, rfl⟩ := Prod.mk.inj (Except.ok.inj hserve)
  have hvalid : (store.elapse time).Valid := ⟨hvalid.unique, hvalid.checks⟩
  generalize store.elapse time = start at hvalid hlisted
  subst hlisted
  refine (securesAlone_rotateLegacyDefaults .refl).bind (fun revoked _ store' hrevoked => ?_)
    fun _ _ _ _ => .error _ _
  have hrevoked := hrevoked revoked rfl
  cases hpats : activeOrgPats
      (start.rows.filter ({ scopeKind := some .org } : ListPatTokensOptions).selects) start.now with
  | nil =>
    refine securesAlone_issueOrgMcpPatToken hrevoked fun row hrow hpat husable => ?_
    have hmem := mem_activeOrgPats hvalid hrow hpat husable
    rw [hpats] at hmem
    exact absurd hmem List.not_mem_nil
  | cons keeper duplicates =>
    refine (securesAlone_revokeRows hrevoked).bind (fun ids _ store'' h => ?_)
      fun _ _ _ _ => .error _ _
    intro result hresult
    obtain rfl := Except.ok.inj hresult
    refine oneActive_of_keeper hvalid hpats (h ids rfl) ?_ fun row hrow => .inr ⟨row, hrow, rfl⟩
    rintro id ((hfalse | ⟨row, hrow, rfl⟩) | ⟨row, hrow, rfl⟩)
    · exact hfalse.elim
    · obtain ⟨hmem, hlegacy⟩ := List.mem_filter.mp hrow
      have htype := (Bool.and_eq_true_iff.mp hlegacy).1
      exact ⟨row, (List.mem_filter.mp hmem).1, rfl, .inl (of_decide_eq_true htype)⟩
    · have hmem : row ∈ keeper :: duplicates := .tail _ hrow
      rw [← hpats] at hmem
      exact ⟨row, (List.mem_filter.mp (List.mem_filter.mp hmem).1).1, rfl, .inr hrow⟩

theorem securesAlone_rotate {input : OrgMcpPatTokenInput} (hvalid : store.Valid) :
    SecuresAlone crypto (rotateOrgMcpPatToken input) LeavesOne store := by
  rintro _ ⟨time, rfl⟩ _ listed store' hserve
  obtain ⟨hlisted, rfl⟩ := Prod.mk.inj (Except.ok.inj hserve)
  have hvalid : (store.elapse time).Valid := ⟨hvalid.unique, hvalid.checks⟩
  generalize store.elapse time = start at hvalid hlisted
  refine (securesAlone_revokeRows .refl).bind (fun revoked _ store' hrevoked => ?_)
    fun _ _ _ _ => .error _ _
  refine securesAlone_issueOrgMcpPatToken (hrevoked revoked rfl) fun row hrow hpat husable => ?_
  have ⟨hactive, hselects⟩ := isActiveOrg_of_orgPat hvalid hrow hpat husable
  refine .inr ⟨row, List.mem_filter.mpr ⟨hlisted ▸ ?_, hlisted ▸ hactive⟩, rfl⟩
  exact List.mem_filter.mpr ⟨hrow, hselects⟩

theorem TokenStore.OneActive.elapse {id : String} (h : store.OneActive id) (time : Nat) :
    (store.elapse time).OneActive id := by
  obtain ⟨row, hrow, hid, hpat, hrevoked, honly⟩ := h
  refine ⟨row, hrow, hid, hpat, hrevoked, fun other hother hpat husable => ?_⟩
  exact honly other hother hpat (TokenStore.isTokenUsable_of_le (Nat.le_add_right _ _) husable)

theorem Elapses.trans {s₁ s₂ s₃ : TokenStore} (h : Elapses s₁ s₂) (h' : Elapses s₂ s₃) :
    Elapses s₁ s₃ := by
  obtain ⟨time, rfl⟩ := h
  obtain ⟨time', rfl⟩ := h'
  refine ⟨time + time', ?_⟩
  simp only [TokenStore.elapse, Nat.add_assoc]

abbrev AuthService.Sections (crypto : TokenCrypto) : AuthService.State → Prop :=
  PromiseLock.Sections (serve crypto) Elapses TokenStore.Valid fun _ => LeavesOne

theorem AuthService.Sections.next {s t : AuthService.State} {e : AuthService.Event}
    (h : AuthService.Sections crypto s) (hstep : AuthService.next crypto s e = some t) :
    AuthService.Sections crypto t := by
  refine PromiseLock.Sections.next h hstep (fun _ _ _ _ hvalid => hvalid.serve) ?_ ?_
    (fun _ _ _ => Elapses.trans) ?_ (fun _ _ _ => .error _ _) ?_
  · exact fun time store hvalid => ⟨⟨hvalid.unique, hvalid.checks⟩, time, rfl⟩
  · exact fun store => ⟨0, rfl⟩
  · rintro _ r store _ hone ⟨time, rfl⟩ result hresult
    exact (hone result hresult).elapse time
  · intro operation store hvalid
    cases operation with
    | ensure input => exact securesAlone_ensure hvalid
    | rotate input => exact securesAlone_rotate hvalid

theorem AuthService.Sections.init (hvalid : store.Valid) :
    AuthService.Sections crypto (AuthService.start store) where
  chained := .init
  valid := hvalid
  inside _ _ _ h := nomatch h
  last _ _ _ h := nomatch h

/-- In every state that operations on one service lead to. -/
theorem oneOrgMcpToken {s : AuthService.State} (hvalid : store.Valid)
    (h : Run (Fires (AuthService.next crypto)) (AuthService.start store) es s) :
    OneOrgMcpToken crypto s := by
  have hsections : AuthService.Sections crypto s := h.invariant
    (I := AuthService.Sections crypto)
    (fun _ _ _ hstep hs => AuthService.Sections.next hs hstep) (.init hvalid)
  refine ⟨fun i j => hsections.chained.inside_unique, hsections.chained.order,
    fun i => hsections.chained.enter_iff, fun i result hcompleted => ?_⟩
  obtain hi | ⟨hi, hlast⟩ := hcompleted
  · obtain ⟨call, hcall, hphase⟩ := Option.map_eq_some_iff.mp hi
    exact hsections.inside i call _ hcall hphase result rfl
  · obtain ⟨call, hcall, hphase⟩ := Option.map_eq_some_iff.mp hi
    exact hsections.last i call _ hcall hphase hlast result rfl

/-- Two tokens are active, and the first operation fails when it has listed them. -/
theorem oneOrgMcpToken_rotated :
    ∃ s, OneOrgMcpToken unaryCrypto s ∧ ∃ result, AuthService.Completed s 1 result := by
  let row (id : String) : PatTokenRow :=
    { id, name := "MCP", tokenHash := id, expiresAt := some (.at 10) }
  have hrun := (.of_exec rfl :
    Run (Fires (AuthService.next unaryCrypto))
      (AuthService.start { rows := [row "a", row "b"], apiToken := none })
      [.call (.ensure ⟨"MCP", some (.at 20)⟩), .call (.rotate ⟨"MCP", some (.at 20)⟩),
        .enter 0, .step 0, .fail 0 .database, .release 0, .enter 1, .step 1, .step 1, .step 1,
        .step 1, .step 1] _)
  refine ⟨_, oneOrgMcpToken ⟨?_, ?_⟩ hrun, _, .inl rfl⟩
  · refine .cons (fun other hother => ?_) (.cons (fun _ h => absurd h List.not_mem_nil) .nil)
    obtain rfl := List.mem_singleton.mp hother
    exact ⟨by decide, by decide⟩
  · decide

end
end OpenLander.Auth
