import OpenLander.Theory.Collections
import OpenLander.Auth.AuthService

/-! # What the calls do to the token tables

A call that is answered leaves the tables `Known`: the ids and the hashes are unique, and the tokens
that are still to be generated have hashes of their own. And the tables only `Evolves`: a revoked
row stays revoked, and what becomes usable has either a hash that was not seen before or that of the
API token, where a validation writes the legacy-default row. -/

namespace OpenLander.Auth
open Theory

/-- The hash of the API token. -/
def TokenStore.apiTokenHash (crypto : TokenCrypto) (store : TokenStore) : Option String :=
  store.apiToken.join.map crypto.hashMcpToken

/-- A row that validations may write. -/
def PatTokenRow.LegacyDefault (row : PatTokenRow) : Prop :=
  row.tokenType = .legacyDefault ∨ row.id = "legacy-default"

namespace TokenStore
variable {crypto : TokenCrypto} {store store' store'' : TokenStore} {id tokenHash : String}

/-- No token that is still to be generated has the hash. -/
def Old (crypto : TokenCrypto) (store : TokenStore) (tokenHash : String) : Prop :=
  ∀ n, store.generated ≤ n → ¬crypto.Generates n tokenHash

structure Known (crypto : TokenCrypto) (store : TokenStore) : Prop where
  unique : store.Unique
  row_old : ∀ row ∈ store.rows, store.Old crypto row.tokenHash
  api_old : ∀ tokenHash, store.apiTokenHash crypto = some tokenHash → store.Old crypto tokenHash

def RevokedAt (store : TokenStore) (id : String) : Prop :=
  ∃ row ∈ store.rows, row.id = id ∧ row.revokedAt.isSome

/-- Time passes. -/
def elapse (time : Nat) (store : TokenStore) : TokenStore := { store with now := store.now + time }

/-- What a token table may become. -/
structure Evolves (crypto : TokenCrypto) (store store' : TokenStore) : Prop where
  generated : store.generated ≤ store'.generated
  api : store'.apiToken = store.apiToken ∨
    ∀ tokenHash, store.Old crypto tokenHash → store'.apiTokenHash crypto ≠ some tokenHash
  /-- Rows stay what they are, and revoked rows stay so. -/
  row : ∀ row ∈ store.rows, ∃ row' ∈ store'.rows, row'.id = row.id ∧
    row'.tokenType = row.tokenType ∧
    (row.revokedAt.isSome → row'.tokenHash = row.tokenHash ∧ row'.revokedAt.isSome)
  /-- Usable rows were usable, or have a hash that is new or that of the API token. -/
  usable : ∀ row' ∈ store'.rows, isTokenUsable row' store'.now →
    store.Old crypto row'.tokenHash →
    (∃ row ∈ store.rows, row.id = row'.id ∧ row.tokenHash = row'.tokenHash ∧
      isTokenUsable row store.now) ∨ store.apiTokenHash crypto = some row'.tokenHash

theorem Unique.eq_of_id {row other : PatTokenRow} (h : store.Unique) (hrow : row ∈ store.rows)
    (hother : other ∈ store.rows) (hid : row.id = other.id) : row = other := by
  by_contra hne
  exact (h.forall hrow hother hne).1 hid

theorem Unique.eq_of_hash {row other : PatTokenRow} (h : store.Unique) (hrow : row ∈ store.rows)
    (hother : other ∈ store.rows) (hhash : row.tokenHash = other.tokenHash) : row = other := by
  by_contra hne
  exact (h.forall hrow hother hne).2 hhash

theorem Old.mono (h : store.Old crypto tokenHash) (hle : store.generated ≤ store'.generated) :
    store'.Old crypto tokenHash :=
  fun n hn => h n (Nat.le_trans hle hn)

theorem Evolves.refl : store.Evolves crypto store where
  generated := Nat.le_refl _
  api := .inl rfl
  row row hrow := ⟨row, hrow, rfl, rfl, fun h => ⟨rfl, h⟩⟩
  usable row hrow husable _ := .inl ⟨row, hrow, rfl, rfl, husable⟩

theorem apiTokenHash_congr (h : store'.apiToken = store.apiToken) :
    store'.apiTokenHash crypto = store.apiTokenHash crypto := by
  rw [apiTokenHash, apiTokenHash, h]

theorem Evolves.trans (h : store.Evolves crypto store') (h' : store'.Evolves crypto store'') :
    store.Evolves crypto store'' where
  generated := Nat.le_trans h.generated h'.generated
  api := by
    obtain hapi' | hapi' := h'.api
    · obtain hapi | hapi := h.api
      · exact .inl (hapi'.trans hapi)
      · exact .inr fun tokenHash hold => apiTokenHash_congr hapi' ▸ hapi tokenHash hold
    · exact .inr fun tokenHash hold => hapi' tokenHash (hold.mono h.generated)
  row row hrow := by
    obtain ⟨row', hrow', hid, htype, hrevoked⟩ := h.row row hrow
    obtain ⟨row'', hrow'', hid', htype', hrevoked'⟩ := h'.row row' hrow'
    refine ⟨row'', hrow'', hid'.trans hid, htype'.trans htype, fun hr => ?_⟩
    have ⟨hhash, hr'⟩ := hrevoked hr
    have ⟨hhash', hr''⟩ := hrevoked' hr'
    exact ⟨hhash'.trans hhash, hr''⟩
  usable row'' hrow'' husable hold := by
    obtain ⟨row', hrow', hid', hhash', husable'⟩ | hapi' :=
      h'.usable row'' hrow'' husable (hold.mono h.generated)
    · obtain ⟨row, hrow, hid, hhash, husable⟩ | hapi :=
        h.usable row' hrow' husable' (hhash' ▸ hold)
      · exact .inl ⟨row, hrow, hid.trans hid', hhash.trans hhash', husable⟩
      · exact .inr (hhash' ▸ hapi)
    · obtain hapi | hapi := h.api
      · exact .inr (apiTokenHash_congr hapi ▸ hapi')
      · exact absurd hapi' (hapi _ hold)

theorem RevokedAt.evolves (h : store.RevokedAt id) (he : store.Evolves crypto store') :
    store'.RevokedAt id := by
  obtain ⟨row, hrow, hid, hrevoked⟩ := h
  obtain ⟨row', hrow', hid', -, hrevoked'⟩ := he.row row hrow
  exact ⟨row', hrow', hid'.trans hid, (hrevoked' hrevoked).2⟩

theorem not_isTokenUsable {row : PatTokenRow} {now : Nat} (h : row.revokedAt.isSome) :
    ¬isTokenUsable row now := by
  rw [isTokenUsable, Option.isNone_eq_false_iff.mpr h, Bool.false_and]
  exact Bool.false_ne_true

theorem isTokenUsable_of_le {row : PatTokenRow} {now now' : Nat} (hle : now ≤ now')
    (h : isTokenUsable row now') : isTokenUsable row now := by
  rw [isTokenUsable, Bool.and_eq_true_iff] at h ⊢
  refine ⟨h.1, ?_⟩
  split
  · rfl
  · next time htime =>
    have htime : now' < time := by simpa [htime] using h.2
    exact decide_eq_true (Nat.lt_of_le_of_lt hle htime)
  · next hinvalid => simpa [hinvalid] using h.2

theorem not_usable_of_revokedAt {row : PatTokenRow} (hunique : store.Unique)
    (h : store.RevokedAt row.id) (hrow : row ∈ store.rows) : ¬isTokenUsable row store.now := by
  obtain ⟨other, hother, hid, hrevoked⟩ := h
  obtain rfl := hunique.eq_of_id hother hrow hid
  exact not_isTokenUsable hrevoked

/-! ## The calls -/

section
variable {f : PatTokenRow → PatTokenRow}

theorem mem_modifyRow {row' : PatTokenRow} : row' ∈ (store.modifyRow id f).rows ↔
    ∃ row ∈ store.rows, (if row.id = id then f row else row) = row' :=
  List.mem_map

theorem Unique.modifyRow (h : store.Unique) (hid : ∀ row, (f row).id = row.id)
    (hhash : ∀ row ∈ store.rows, row.id = id → ∀ other ∈ store.rows, other.id ≠ id →
      other.tokenHash ≠ (f row).tokenHash) : (store.modifyRow id f).Unique := by
  refine List.pairwise_map.mpr (List.Pairwise.imp_of_mem ?_ h)
  intro row other hrow hother ⟨hne, hne'⟩
  by_cases hrowid : row.id = id
  · have hotherid : other.id ≠ id := fun h => hne (hrowid.trans h.symm)
    rw [if_pos hrowid, if_neg hotherid]
    exact ⟨(hid row).symm ▸ hne, (hhash row hrow hrowid other hother hotherid).symm⟩
  · rw [if_neg hrowid]
    by_cases hotherid : other.id = id
    · rw [if_pos hotherid]
      exact ⟨(hid other).symm ▸ hne, hhash other hother hotherid row hrow hrowid⟩
    · rw [if_neg hotherid]
      exact ⟨hne, hne'⟩

theorem Evolves.modifyRow (hid : ∀ row, (f row).id = row.id)
    (htype : ∀ row, (f row).tokenType = row.tokenType)
    (hrevoked : ∀ row ∈ store.rows, row.id = id → row.revokedAt.isSome →
      (f row).tokenHash = row.tokenHash ∧ (f row).revokedAt.isSome)
    (husable : ∀ row ∈ store.rows, row.id = id → isTokenUsable (f row) store.now →
      row.tokenHash = (f row).tokenHash ∧ isTokenUsable row store.now ∨
        store.apiTokenHash crypto = some (f row).tokenHash) :
    store.Evolves crypto (store.modifyRow id f) where
  generated := Nat.le_refl _
  api := .inl rfl
  row row hrow := by
    refine ⟨_, mem_modifyRow.mpr ⟨row, hrow, rfl⟩, ?_⟩
    by_cases h : row.id = id
    · rw [if_pos h]
      exact ⟨hid row, htype row, hrevoked row hrow h⟩
    · rw [if_neg h]
      exact ⟨rfl, rfl, fun hr => ⟨rfl, hr⟩⟩
  usable row' hrow' hu _ := by
    obtain ⟨row, hrow, rfl⟩ := mem_modifyRow.mp hrow'
    by_cases h : row.id = id
    · rw [if_pos h] at hu ⊢
      refine (husable row hrow h hu).imp_left fun ⟨hhash, hu⟩ => ?_
      exact ⟨row, hrow, (hid row).symm, hhash, hu⟩
    · rw [if_neg h] at hu ⊢
      exact .inl ⟨row, hrow, rfl, rfl, hu⟩

theorem Known.modifyRow (h : store.Known crypto) (hid : ∀ row, (f row).id = row.id)
    (hhash : ∀ row ∈ store.rows, row.id = id → ∀ other ∈ store.rows, other.id ≠ id →
      other.tokenHash ≠ (f row).tokenHash)
    (hold : ∀ row ∈ store.rows, row.id = id → store.Old crypto (f row).tokenHash) :
    (store.modifyRow id f).Known crypto where
  unique := h.unique.modifyRow hid hhash
  row_old row' hrow' := by
    obtain ⟨row, hrow, rfl⟩ := mem_modifyRow.mp hrow'
    by_cases hrowid : row.id = id
    · rw [if_pos hrowid]
      exact hold row hrow hrowid
    · rw [if_neg hrowid]
      exact h.row_old row hrow
  api_old := h.api_old

/-- An update that keeps the hash. -/
theorem Known.modifyRow_of_hash (h : store.Known crypto) (hid : ∀ row, (f row).id = row.id)
    (hhash : ∀ row, (f row).tokenHash = row.tokenHash) : (store.modifyRow id f).Known crypto := by
  refine h.modifyRow hid (fun row hrow hrowid other hother hotherid => ?_) fun row hrow _ => ?_
  · rw [hhash]
    intro heq
    exact hotherid (h.unique.eq_of_hash hother hrow heq ▸ hrowid)
  · rw [hhash]
    exact h.row_old row hrow

end

theorem insert_eq_ok {row : PatTokenRow} (h : store.insert row = .ok store') :
    store' = { store with rows := row :: store.rows } ∧ row.meetsChecks ∧
      ∀ other ∈ store.rows, other.id ≠ row.id ∧ other.tokenHash ≠ row.tokenHash := by
  rw [insert] at h
  split at h
  · next hcheck =>
    obtain ⟨hmeets, hfree⟩ := Bool.and_eq_true_iff.mp hcheck
    refine ⟨(Except.ok.inj h).symm, hmeets, fun other hother => ?_⟩
    simpa using List.all_eq_true.mp hfree other hother
  · exact nomatch h

theorem Known.insert {row : PatTokenRow} (h : store.Known crypto)
    (hinsert : store.insert row = .ok store') (hold : store.Old crypto row.tokenHash) :
    store'.Known crypto := by
  obtain ⟨rfl, -, hfree⟩ := insert_eq_ok hinsert
  refine ⟨?_, ?_, h.api_old⟩
  · refine List.Pairwise.cons (fun other hother => ?_) h.unique
    exact ⟨(hfree other hother).1.symm, (hfree other hother).2.symm⟩
  · intro other hother
    obtain rfl | hother := List.mem_cons.mp hother
    · exact hold
    · exact h.row_old other hother

/-- The hash of the new row is that of the API token, or none that was seen before. -/
theorem Evolves.insert {row : PatTokenRow} (h : store.Evolves crypto store')
    (hinsert : store'.insert row = .ok store'')
    (hhash : store.apiTokenHash crypto = some row.tokenHash ∨ ¬store.Old crypto row.tokenHash) :
    store.Evolves crypto store'' := by
  obtain ⟨rfl, -, -⟩ := insert_eq_ok hinsert
  refine ⟨h.generated, h.api, ?_, ?_⟩
  · intro other hother
    obtain ⟨other', hother', hstays⟩ := h.row other hother
    exact ⟨other', .tail _ hother', hstays⟩
  · intro other hother husable hold
    obtain rfl | hother := List.mem_cons.mp hother
    · exact .inr (hhash.resolve_right (not_not_intro hold))
    · exact h.usable other hother husable hold

/-! ### New tokens -/

/-- The next token has been generated. -/
def generate (store : TokenStore) : TokenStore := { store with generated := store.generated + 1 }

theorem not_old_of_generates (h : crypto.Generates store.generated tokenHash) :
    ¬store.Old crypto tokenHash :=
  fun hold => hold _ (Nat.le_refl _) h

theorem old_of_generates (hfresh : crypto.Fresh)
    (h : crypto.Generates store.generated tokenHash) : store.generate.Old crypto tokenHash := by
  intro n hn hgenerates
  exact Nat.ne_of_lt hn (hfresh _ n tokenHash h hgenerates)

theorem Known.generate (h : store.Known crypto) : store.generate.Known crypto where
  unique := h.unique
  row_old row hrow := (h.row_old row hrow).mono (Nat.le_succ _)
  api_old tokenHash hapi := (h.api_old tokenHash hapi).mono (Nat.le_succ _)

theorem Evolves.generate : store.Evolves crypto store.generate where
  generated := Nat.le_succ _
  api := .inl rfl
  row row hrow := ⟨row, hrow, rfl, rfl, fun h => ⟨rfl, h⟩⟩
  usable row hrow husable _ := .inl ⟨row, hrow, rfl, rfl, husable⟩

/-- Known tables, and those that they have evolved from. -/
def Leads (crypto : TokenCrypto) (store store' : TokenStore) : Prop :=
  store.Known crypto → store'.Known crypto ∧ store.Evolves crypto store'

theorem Leads.refl : store.Leads crypto store := fun h => ⟨h, .refl⟩

theorem Leads.trans (h : store.Leads crypto store') (h' : store'.Leads crypto store'') :
    store.Leads crypto store'' := by
  intro hknown
  obtain ⟨hknown', hevolves⟩ := h hknown
  obtain ⟨hknown'', hevolves'⟩ := h' hknown'
  exact ⟨hknown'', hevolves.trans hevolves'⟩

theorem leads_elapse {time : Nat} : store.Leads crypto (store.elapse time) := by
  intro h
  refine ⟨⟨h.unique, h.row_old, h.api_old⟩, Nat.le_refl _, .inl rfl, ?_, ?_⟩
  · exact fun row hrow => ⟨row, hrow, rfl, rfl, fun hr => ⟨rfl, hr⟩⟩
  · refine fun row hrow husable _ => .inl ⟨row, hrow, rfl, rfl, ?_⟩
    exact isTokenUsable_of_le (Nat.le_add_right _ _) husable

theorem leads_setApiToken (hfresh : crypto.Fresh) :
    store.Leads crypto { store.generate with
      apiToken := some (some (crypto.generateApiToken store.generated)) } := by
  intro h
  have hgenerates : crypto.Generates store.generated
      (crypto.hashMcpToken (crypto.generateApiToken store.generated)) := .inl rfl
  refine ⟨⟨h.unique, h.generate.row_old, fun tokenHash hapi => ?_⟩, ?_, .inr ?_, ?_, ?_⟩
  · obtain rfl := Option.some.inj hapi
    exact old_of_generates hfresh hgenerates
  · exact Nat.le_succ _
  · intro tokenHash hold hapi
    obtain rfl := Option.some.inj hapi
    exact not_old_of_generates hgenerates hold
  · exact fun row hrow => ⟨row, hrow, rfl, rfl, fun hr => ⟨rfl, hr⟩⟩
  · exact fun row hrow husable _ => .inl ⟨row, hrow, rfl, rfl, husable⟩

theorem leads_touch {id : String} : store.Leads crypto
    (store.modifyRow id fun row => { row with lastUsedAt := some store.now }) := by
  intro h
  refine ⟨h.modifyRow_of_hash (fun _ => rfl) fun _ => rfl, ?_⟩
  exact .modifyRow (fun _ => rfl) (fun _ => rfl) (fun _ _ _ hr => ⟨rfl, hr⟩)
    fun _ _ _ hu => .inl ⟨rfl, hu⟩

theorem leads_revoke {id : String} : store.Leads crypto
    (store.modifyRow id fun row => { row with revokedAt := some store.now }) := by
  intro h
  refine ⟨h.modifyRow_of_hash (fun _ => rfl) fun _ => rfl, ?_⟩
  exact .modifyRow (fun _ => rfl) (fun _ => rfl) (fun _ _ _ _ => ⟨rfl, rfl⟩)
    fun _ _ _ hu => absurd hu (not_isTokenUsable rfl)

/-- The writes of a validation while its token is the API token and no legacy-default row is
revoked. -/
def Writable (crypto : TokenCrypto) (store : TokenStore) (tokenHash : String) : Prop :=
  store.apiTokenHash crypto = some tokenHash ∧
    ∀ row ∈ store.rows, row.LegacyDefault → row.revokedAt = none

theorem leads_setLegacyHash {row written : PatTokenRow} (hw : store.Writable crypto tokenHash)
    (hrow : row ∈ store.rows) (hlegacy : row.LegacyDefault)
    (h : store.setLegacyHash row tokenHash = .ok (written, store')) :
    store.Leads crypto store' := by
  intro hknown
  rw [setLegacyHash] at h
  split at h
  · exact nomatch h
  · next hfree =>
    obtain ⟨-, rfl⟩ := Prod.mk.inj (Except.ok.inj h)
    have hat other (hother : other ∈ store.rows) (hid : other.id = row.id) : other = row :=
      hknown.unique.eq_of_id hother hrow hid
    refine ⟨hknown.modifyRow (fun _ => rfl) ?_ fun _ _ _ => hknown.api_old _ hw.1, ?_⟩
    · intro _ _ _ other hother hid hhash
      exact hfree (List.any_eq_true.mpr ⟨other, hother, by simp [hid, hhash]⟩)
    · refine .modifyRow (fun _ => rfl) (fun _ => rfl) ?_ fun _ _ _ _ => .inr hw.1
      intro other hother hid hrevoked
      obtain rfl := hat other hother hid
      rw [hw.2 other hother hlegacy] at hrevoked
      exact nomatch hrevoked

/-- What a call needs for the tables to evolve. -/
def Sound (crypto : TokenCrypto) (store : TokenStore) : TokenCall → Prop
  | .updateLegacyDefault id tokenHash => store.Writable crypto tokenHash ∧
      ∃ row ∈ store.rows, row.id = id ∧ row.LegacyDefault
  | .insertLegacyDefault tokenHash => store.Writable crypto tokenHash
  | _ => True

theorem leads_of_serve (hfresh : crypto.Fresh) {c : TokenCall} {r : c.Response}
    (hsound : store.Sound crypto c)
    (h : serve crypto c store = .ok (r, store')) : store.Leads crypto store' := by
  cases c with
  | findPatTokenByHash | findPatTokenById | listPatTokens | findLegacyDefault | getApiToken =>
    obtain ⟨-, rfl⟩ := Prod.mk.inj (Except.ok.inj h)
    exact .refl
  | touchPatToken =>
    obtain ⟨-, rfl⟩ := Prod.mk.inj (Except.ok.inj h)
    exact leads_touch
  | revokePatToken =>
    obtain ⟨-, rfl⟩ := Prod.mk.inj (Except.ok.inj h)
    exact leads_revoke
  | setApiToken =>
    obtain ⟨-, rfl⟩ := Prod.mk.inj (Except.ok.inj h)
    exact leads_setApiToken hfresh
  | createPatToken input =>
    obtain ⟨inserted, hinsert, hret⟩ := bind_eq_ok.mp h
    obtain ⟨-, rfl⟩ := Prod.mk.inj (Except.ok.inj hret)
    have hgenerates : crypto.Generates store.generated
        (crypto.hashMcpToken (crypto.generatePatTokenPlaintext store.generated)) := .inr rfl
    intro hknown
    refine ⟨hknown.generate.insert hinsert (old_of_generates hfresh hgenerates), ?_⟩
    exact Evolves.generate.insert hinsert (.inr (not_old_of_generates hgenerates))
  | updateLegacyDefault id tokenHash =>
    obtain ⟨hw, row, hrow, hid, hlegacy⟩ := hsound
    rw [serve] at h
    split at h
    · next found hfound =>
      intro hknown
      have hmem := List.mem_of_find?_eq_some hfound
      have hfoundid : found.id = id := by simpa using List.find?_some hfound
      obtain rfl := hknown.unique.eq_of_id hmem hrow (hfoundid.trans hid.symm)
      exact leads_setLegacyHash hw hmem hlegacy h hknown
    · exact nomatch h
  | insertLegacyDefault tokenHash =>
    rw [serve] at h
    split at h
    · next found hfound =>
      have hfoundid : found.id = "legacy-default" := by simpa using List.find?_some hfound
      exact leads_setLegacyHash hsound (List.mem_of_find?_eq_some hfound) (.inr hfoundid) h
    · obtain ⟨inserted, hinsert, hret⟩ := bind_eq_ok.mp h
      obtain ⟨-, rfl⟩ := Prod.mk.inj (Except.ok.inj hret)
      intro hknown
      refine ⟨hknown.insert hinsert (hknown.api_old _ hsound.1), ?_⟩
      exact Evolves.refl.insert hinsert (.inl hsound.1)

end TokenStore
/-- The tokens are counted in unary. -/
def unaryCrypto : TokenCrypto where
  randomHex n := .ofList (.replicate n '1')
  randomUUID n := .ofList (.replicate n '1')
  hashMcpToken token := "#" ++ token

theorem fresh_unaryCrypto : unaryCrypto.Fresh := by
  have length {pre pre' : String} {m n : Nat} (h : "#" ++ (pre ++ .ofList (.replicate m '1')) =
      "#" ++ (pre' ++ .ofList (.replicate n '1'))) :
      pre.toList ++ .replicate m '1' = pre'.toList ++ .replicate n '1' := by
    simpa using congrArg String.toList h
  rintro m n tokenHash (rfl | rfl) (h | h)
  · simpa using (congrArg List.length (length h)).symm
  · exact nomatch length h
  · exact nomatch length h
  · simpa using (congrArg List.length (length h)).symm

end OpenLander.Auth
