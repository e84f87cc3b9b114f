import OpenLander.Theory.Base64Url
import OpenLander.Theory.Json
import OpenLander.Theory.Run
import OpenLander.Theory.Url
import OpenLander.Compose.Interpolate

/-! # Sessions of protected shares

`ProtectedPublicShareManager` (`src/pipeline/protected-public-share.ts`) gives out session tokens that it
signs with the secret in the row of the service. `expose` and `unexpose` read the row, wait for other
things, and write it. The steps of the system are the reads, the writes, the ends of these requests, the
tokens that are created and the passing of time.

The signature is symbolic: `Signature.hmac` is free in the secret and in the text that is signed, and the
secrets are numbered in the order in which they are drawn. -/

namespace OpenLander.ProtectedShare
open Theory
open Compose (trim)

/-- What the language does with characters beyond ASCII. -/
structure Unicode where
  toLowerCase : List Char → List Char
  domainToAscii : List Char → Option (List Char)

/-- Seven days, in seconds. -/
def PROTECTED_SHARE_SESSION_TTL_SECONDS : Nat := 7 * 24 * 60 * 60

def includesScheme (text : List Char) : Bool := text.tails.any ("://".toList.isPrefixOf ·)

def normalizeHost (u : Unicode) (value : List Char) : List Char :=
  let trimmed := u.toLowerCase (trim value)
  if trimmed = [] then []
  else
    match Url.newURL u.domainToAscii
      (if includesScheme trimmed then trimmed else "https://".toList ++ trimmed) with
    | some url => url.hostname
    | none => []

/-! ## Tokens -/

/-- The text of a signature, by the bytes it stands for. -/
inductive Signature
  | hmac (secret : Nat) (payload : List Char)
  | other (bytes : List UInt8)
  deriving DecidableEq

/-- A token, split at its dot. -/
@[ext] structure Token where
  payload : List Char
  signature : Signature
  deriving DecidableEq

inductive Visibility
  | internal
  | quickShare
  | shared
  | production
  deriving DecidableEq, Repr

/-- The columns of a service. A hash of an access code stands for the code, by its number. -/
structure ServiceRow where
  visibility : Visibility := .internal
  accessCode : Option Nat := none
  accessCodeIv : Option Nat := none
  deriving DecidableEq, Repr

section
variable (u : Unicode)

def payload (serviceId : String) (hostname : List Char) (expiresAt : Nat) : List Char :=
  Base64Url.encode (String.ofList (Json.stringify
    [("serviceId".toList, .text serviceId.toList), ("hostname".toList, .text hostname),
      ("expiresAt".toList, .natural expiresAt)]))

/-- The token of a service for a normalised hostname, signed at a time in milliseconds. -/
def sign (secret : Nat) (serviceId : String) (hostname : List Char) (now : Nat) : Token :=
  let payload := payload serviceId hostname (now / 1000 + PROTECTED_SHARE_SESSION_TTL_SECONDS)
  { payload, signature := .hmac secret payload }

/-- Without a secret it throws. -/
def createSessionToken (serviceId : String) (service : ServiceRow) (hostname : List Char)
    (now : Nat) : Option Token :=
  service.accessCodeIv.map fun secret => sign secret serviceId (normalizeHost u hostname) now

/-- What a decoded payload has to say. -/
def accepts (serviceId : String) (hostname : List Char) (nowSeconds : Nat) (decoded : Json) : Bool :=
  (decoded.get "serviceId".toList).any (·.isString serviceId.toList) &&
    (decoded.get "hostname".toList).any (·.isString (normalizeHost u hostname)) &&
    (decoded.get "expiresAt".toList).any (·.exceeds nowSeconds) &&
    (decoded.get "expiresAt".toList).any
      (·.atMost (nowSeconds + PROTECTED_SHARE_SESSION_TTL_SECONDS))

def validateSessionToken (serviceId : String) (service : ServiceRow) (hostname : List Char)
    (token : Token) (now : Nat) : Bool :=
  match service.accessCodeIv with
  | none => false
  | some secret =>
    token.payload ≠ [] && token.signature = .hmac secret token.payload &&
      ((Base64Url.decode token.payload).bind (Json.parse ·.toList)).any
        (accepts u serviceId hostname (now / 1000))

end

/-! ## Requests -/

inductive Op
  | expose (rotateAccessCode : Bool)
  | unexpose
  deriving DecidableEq, Repr

/-- The request is to end the sessions. -/
def Op.revokes : Op → Bool
  | expose rotateAccessCode => rotateAccessCode
  | unexpose => true

/-- Where a request is. `began` is how many tokens there were when it read the row. -/
inductive Phase
  | idle
  | read (op : Op) (service : String) (row : ServiceRow) (began : Nat)
  | written (op : Op) (service : String) (began : Nat)
  | returned (op : Op) (service : String) (began : Nat)
  | failed
  deriving DecidableEq, Repr

/-- A token with the circumstances in which it was created. -/
structure Issued where
  token : Token
  service : String
  hostname : List Char
  time : Nat
  secret : Nat

structure State where
  rows : String → ServiceRow := fun _ => {}
  phase : Nat → Phase := fun _ => .idle
  /-- In the order of their creation. -/
  issued : List Issued := []
  /-- How many secrets, and access codes, have been drawn. -/
  drawn : Nat := 0
  /-- In milliseconds. -/
  now : Nat := 0

def init : State := {}

/-- An exposition goes on with the secret that it has read. -/
def keeps (rotateAccessCode : Bool) (row : ServiceRow) : Bool :=
  !(rotateAccessCode || row.accessCode.isNone || row.accessCodeIv.isNone)

/-- The `updateService` of a request. -/
def State.write (s : State) (op : Op) (service : String) (row : ServiceRow) : State :=
  match op with
  | .expose rotateAccessCode =>
    if keeps rotateAccessCode row then
      { s with rows := Function.update s.rows service { row with visibility := .shared } }
    else
      { s with
        rows := Function.update s.rows service
          { visibility := .shared, accessCode := some s.drawn, accessCodeIv := some s.drawn }
        drawn := s.drawn + 1 }
  | .unexpose => { s with rows := Function.update s.rows service {} }

def State.setPhase (s : State) (r : Nat) (phase : Phase) : State :=
  { s with phase := Function.update s.phase r phase }

inductive Event
  /-- A request reads the row. -/
  | read (r : Nat) (op : Op) (service : String)
  | write (r : Nat)
  | return (r : Nat)
  | fail (r : Nat)
  | createSessionToken (service : String) (hostname : List Char)
  | tick (ms : Nat)

def next (u : Unicode) (s : State) : Event → Option State
  | .read r op service =>
    match s.phase r with
    | .idle => some (s.setPhase r (.read op service (s.rows service) s.issued.length))
    | _ => none
  | .write r =>
    match s.phase r with
    | .read op service row began => some ((s.write op service row).setPhase r (.written op service began))
    | _ => none
  | .return r =>
    match s.phase r with
    | .written op service began => some (s.setPhase r (.returned op service began))
    | _ => none
  | .fail r =>
    match s.phase r with
    | .read .. | .written .. => some (s.setPhase r .failed)
    | _ => none
  | .createSessionToken service hostname =>
    match (s.rows service).accessCodeIv, createSessionToken u service (s.rows service) hostname s.now with
    | some secret, some token =>
      some { s with issued := s.issued ++
        [{ token, service, hostname := normalizeHost u hostname, time := s.now, secret }] }
    | _, _ => none
  | .tick ms => some { s with now := s.now + ms }

/-- A client can put the signature of a token that it has under any payload, and make up texts that are
no signatures. -/
def Presentable (s : State) (token : Token) : Prop :=
  (∃ bytes, token.signature = .other bytes) ∨ ∃ t ∈ s.issued, t.token.signature = token.signature

/-- What validates was created for the service and the hostname, with the secret of now and at most the
lifetime of a session ago. -/
def TokenLaw (u : Unicode) (s : State) : Prop :=
  ∀ service hostname token, Presentable s token →
    validateSessionToken u service (s.rows service) hostname token s.now = true →
    ∃ t ∈ s.issued, t.token = token ∧ t.service = service ∧
      t.hostname = normalizeHost u hostname ∧ t.time ≤ s.now ∧
      s.now < t.time + PROTECTED_SHARE_SESSION_TTL_SECONDS * 1000 ∧
      (s.rows service).accessCodeIv = some t.secret

/-- Where a request to end the sessions has returned, none of the tokens from before it validates. -/
def RevocationLaw (u : Unicode) (s : State) : Prop :=
  ∀ r op service began, s.phase r = .returned op service began → op.revokes = true →
    ∀ t ∈ s.issued.take began, t.service = service → ∀ service' hostname,
      validateSessionToken u service' (s.rows service') hostname t.token s.now = false

/-- A request that goes on with the secret it has read finds the same secret in the row. -/
def Phase.Current (rows : String → ServiceRow) : Phase → Prop
  | read (.expose rotateAccessCode) service row _ =>
    keeps rotateAccessCode row = true → (rows service).accessCodeIv = row.accessCodeIv
  | _ => True

instance (rows : String → ServiceRow) : ∀ phase : Phase, Decidable (phase.Current rows)
  | .read (.expose _) .. => inferInstanceAs (Decidable (_ → _))
  | .read .unexpose .. | .idle | .written .. | .returned .. | .failed => .isTrue trivial

/-- An exposition that keeps the secret it has read writes it only over the same secret. -/
def Current (s : State) : Event → Prop
  | .write r => (s.phase r).Current s.rows
  | _ => True

instance (s : State) : ∀ e : Event, Decidable (Current s e)
  | .write r => inferInstanceAs (Decidable ((s.phase r).Current s.rows))
  | .read .. | .return _ | .fail _ | .createSessionToken .. | .tick _ => .isTrue trivial

/-! ## What validates -/

section
variable {u : Unicode} {secret : Nat} {service service' : String} {hostname : List Char}

theorem decode_payload (service : String) (hostname : List Char) (expiresAt : Nat) :
    (Base64Url.decode (payload service hostname expiresAt)).bind (Json.parse ·.toList) =
      some (.object [("serviceId".toList, .string service.toList),
        ("hostname".toList, .string hostname), ("expiresAt".toList, .number expiresAt 0)]) := by
  rw [payload, Base64Url.decode_encode, Option.bind_some, String.toList_ofList, Json.parse_stringify]
  rfl

theorem payload_ne_nil : payload service hostname expiresAt ≠ [] := by
  intro hnil
  have hdecode := decode_payload service hostname expiresAt
  have hempty : Base64Url.decode [] = some "" := Base64Url.decode_encode ""
  rw [hnil, hempty] at hdecode
  exact nomatch hdecode

theorem exists_signature {row : ServiceRow}
    (h : validateSessionToken u service row hostname token now = true) :
    ∃ secret, token.signature = .hmac secret token.payload := by
  rw [validateSessionToken] at h
  cases hiv : row.accessCodeIv with
  | none =>
    rw [hiv] at h
    exact nomatch h
  | some secret =>
    simp only [hiv, Bool.and_eq_true, decide_eq_true_eq] at h
    exact ⟨secret, h.1.2⟩

theorem accepts_payload {expiresAt nowSeconds : Nat} {host : List Char} :
    accepts u service' host nowSeconds (.object [("serviceId".toList, .string service.toList),
        ("hostname".toList, .string hostname), ("expiresAt".toList, .number expiresAt 0)]) = true ↔
      service = service' ∧ hostname = normalizeHost u host ∧ nowSeconds < expiresAt ∧
        expiresAt ≤ nowSeconds + PROTECTED_SHARE_SESSION_TTL_SECONDS := by
  rw [accepts]
  set decoded := Json.object _ with hdecoded
  have hservice : decoded.get "serviceId".toList = some (.string service.toList) := rfl
  have hhostname : decoded.get "hostname".toList = some (.string hostname) := rfl
  have hexpiresAt : decoded.get "expiresAt".toList = some (.number expiresAt 0) := rfl
  rw [hservice, hhostname, hexpiresAt]
  simp only [Option.any_some, Json.isString, Json.exceeds_natural, Json.atMost_natural,
    Bool.and_eq_true, decide_eq_true_eq, String.toList_inj, and_assoc]

/-- When a token that was created validates. -/
theorem validate_sign {row : ServiceRow} {time now : Nat} {host : List Char} :
    validateSessionToken u service' row host (sign secret service hostname time) now = true ↔
      row.accessCodeIv = some secret ∧ service = service' ∧ hostname = normalizeHost u host ∧
        now / 1000 < time / 1000 + PROTECTED_SHARE_SESSION_TTL_SECONDS ∧ time / 1000 ≤ now / 1000 := by
  rw [validateSessionToken]
  cases hiv : row.accessCodeIv with
  | none => exact iff_of_false nofun nofun
  | some secret' =>
    simp only [sign, payload_ne_nil, decode_payload, accepts_payload, Option.any_some, ne_eq,
      not_false_eq_true, decide_true, Bool.true_and, Bool.and_eq_true, decide_eq_true_eq,
      Signature.hmac.injEq, and_true, Option.some.injEq]
    rw [Nat.add_le_add_iff_right]
    exact and_congr_left' eq_comm

end

/-! ## What the steps do -/

section
variable {u : Unicode} {s t : State} {e : Event} {r r' : Nat} {op : Op} {service service' : String}
  {row : ServiceRow}

@[simp] theorem setPhase_phase (phase : Phase) :
    (s.setPhase r phase).phase r' = if r' = r then phase else s.phase r' := Function.update_apply ..

@[simp] theorem write_issued : (s.write op service row).issued = s.issued := by
  cases op with
  | unexpose => rfl
  | expose rotateAccessCode => rw [State.write]; split <;> rfl

@[simp] theorem write_phase : (s.write op service row).phase = s.phase := by
  cases op with
  | unexpose => rfl
  | expose rotateAccessCode => rw [State.write]; split <;> rfl

@[simp] theorem write_now : (s.write op service row).now = s.now := by
  cases op with
  | unexpose => rfl
  | expose rotateAccessCode => rw [State.write]; split <;> rfl

theorem write_rows_of_ne (h : service' ≠ service) :
    (s.write op service row).rows service' = s.rows service' := by
  cases op with
  | unexpose => exact Function.update_of_ne h ..
  | expose rotateAccessCode =>
    rw [State.write]
    split
    · exact Function.update_of_ne h ..
    · exact Function.update_of_ne h ..

/-- The secret that a request writes: the one it has read, a new one, or none. -/
theorem write_cases (s : State) (op : Op) (service : String) (row : ServiceRow) :
    ((∃ rotateAccessCode, op = .expose rotateAccessCode ∧ keeps rotateAccessCode row = true) ∧
      ((s.write op service row).rows service).accessCodeIv = row.accessCodeIv ∧
      (s.write op service row).drawn = s.drawn) ∨
    (((s.write op service row).rows service).accessCodeIv = some s.drawn ∧
      (s.write op service row).drawn = s.drawn + 1) ∨
    (((s.write op service row).rows service).accessCodeIv = none ∧
      (s.write op service row).drawn = s.drawn) := by
  cases op with
  | unexpose => exact .inr (.inr ⟨by simp [State.write], rfl⟩)
  | expose rotateAccessCode =>
    rw [State.write]
    by_cases hkeeps : keeps rotateAccessCode row = true
    · rw [if_pos hkeeps]
      exact .inl ⟨⟨rotateAccessCode, rfl, hkeeps⟩, by simp, rfl⟩
    · rw [if_neg hkeeps]
      exact .inr (.inl ⟨by simp, rfl⟩)

/-- A request that is to end the sessions does not write the secret it has read. -/
theorem not_keeps (h : op.revokes = true) :
    ¬∃ rotateAccessCode, op = .expose rotateAccessCode ∧ keeps rotateAccessCode row = true := by
  intro ⟨rotateAccessCode, hop, hkeeps⟩
  rw [hop] at h
  rw [show rotateAccessCode = true from h] at hkeeps
  exact nomatch hkeeps

/-- What a step may be. -/
theorem next_cases (h : Fires (next u) s e t) :
    (∃ r op service, e = .read r op service ∧ s.phase r = .idle ∧
      t = s.setPhase r (.read op service (s.rows service) s.issued.length)) ∨
    (∃ r op service row began, e = .write r ∧ s.phase r = .read op service row began ∧
      t = (s.write op service row).setPhase r (.written op service began)) ∨
    (∃ r op service began, e = .return r ∧ s.phase r = .written op service began ∧
      t = s.setPhase r (.returned op service began)) ∨
    (∃ r, e = .fail r ∧ t = s.setPhase r .failed) ∨
    (∃ service hostname secret, e = .createSessionToken service hostname ∧
      (s.rows service).accessCodeIv = some secret ∧
      t = { s with issued := s.issued ++
        [{ token := sign secret service (normalizeHost u hostname) s.now, service,
           hostname := normalizeHost u hostname, time := s.now, secret }] }) ∨
    ∃ ms, e = .tick ms ∧ t = { s with now := s.now + ms } := by
  cases e with
  | read r op service =>
    cases hphase : s.phase r with
    | idle =>
      simp only [Fires, next, hphase, Option.some.injEq] at h
      exact .inl ⟨r, op, service, rfl, hphase, h.symm⟩
    | _ => simp [Fires, next, hphase] at h
  | write r =>
    cases hphase : s.phase r with
    | read op service row began =>
      simp only [Fires, next, hphase, Option.some.injEq] at h
      exact .inr (.inl ⟨r, op, service, row, began, rfl, hphase, h.symm⟩)
    | _ => simp [Fires, next, hphase] at h
  | «return» r =>
    cases hphase : s.phase r with
    | written op service began =>
      simp only [Fires, next, hphase, Option.some.injEq] at h
      exact .inr (.inr (.inl ⟨r, op, service, began, rfl, hphase, h.symm⟩))
    | _ => simp [Fires, next, hphase] at h
  | fail r =>
    refine .inr (.inr (.inr (.inl ⟨r, rfl, ?_⟩)))
    cases hphase : s.phase r with
    | read | written =>
      simp only [Fires, next, hphase, Option.some.injEq] at h
      exact h.symm
    | _ => simp [Fires, next, hphase] at h
  | createSessionToken service hostname =>
    cases hiv : (s.rows service).accessCodeIv with
    | none => simp [Fires, next, hiv] at h
    | some secret =>
      simp only [Fires, next, createSessionToken, hiv, Option.map_some, Option.some.injEq] at h
      exact .inr (.inr (.inr (.inr (.inl ⟨service, hostname, secret, rfl, hiv, h.symm⟩))))
  | tick ms =>
    simp only [Fires, next, Option.some.injEq] at h
    exact .inr (.inr (.inr (.inr (.inr ⟨ms, rfl, h.symm⟩))))

end

/-! ## What runs keep -/

/-- How many tokens there were when the request read the row. -/
def Phase.began : Phase → Nat
  | read _ _ _ began | written _ _ began | returned _ _ began => began
  | idle | failed => 0

/-- The secret of the row that the request has read. -/
def Phase.secret : Phase → Option Nat
  | read _ _ row _ => row.accessCodeIv
  | _ => none

/-- Every token that was created is as it was signed, in the past, and all secrets were drawn. -/
structure Inv (s : State) : Prop where
  sound : ∀ t ∈ s.issued, t.token = sign t.secret t.service t.hostname t.time ∧ t.time ≤ s.now ∧
    t.secret < s.drawn
  rows : ∀ service secret, (s.rows service).accessCodeIv = some secret → secret < s.drawn
  secret : ∀ r secret, (s.phase r).secret = some secret → secret < s.drawn
  began : ∀ r, (s.phase r).began ≤ s.issued.length

/-- After the write of a request that is to end the sessions of a service, its secret is none of those
from before. -/
def Ended (s : State) : Prop :=
  ∀ r op service began, s.phase r = .written op service began ∨ s.phase r = .returned op service began →
    op.revokes = true → ∀ t ∈ s.issued.take began, t.service = service →
      (s.rows service).accessCodeIv ≠ some t.secret

theorem Inv.start : Inv init :=
  ⟨fun _ h => (nomatch h), fun _ _ h => (nomatch h), fun _ _ h => (nomatch h), fun _ => Nat.le_refl 0⟩

theorem Ended.start : Ended init := by
  intro r op service began hphase
  obtain hphase | hphase := hphase
  · exact nomatch hphase
  · exact nomatch hphase

section
variable {u : Unicode} {s t : State} {e : Event} {r : Nat}

/-- A change of a phase keeps what is known of the rest. -/
theorem Inv.setPhase {phase : Phase} (H : Inv s) (hsecret : ∀ k, phase.secret = some k → k < s.drawn)
    (hbegan : phase.began ≤ s.issued.length) : Inv (s.setPhase r phase) := by
  refine ⟨H.sound, H.rows, fun r' k hk => ?_, fun r' => ?_⟩
  · rw [setPhase_phase] at hk
    split at hk
    next => exact hsecret k hk
    next => exact H.secret r' k hk
  · rw [setPhase_phase]
    split
    next => exact hbegan
    next => exact H.began r'

theorem Inv.write {row : ServiceRow} (H : Inv s) (hrow : ∀ k, row.accessCodeIv = some k → k < s.drawn) :
    Inv (s.write op service row) := by
  have hdrawn : s.drawn ≤ (s.write op service row).drawn := by
    obtain ⟨-, -, h⟩ | ⟨-, h⟩ | ⟨-, h⟩ := write_cases s op service row
    · exact h.ge
    · omega
    · exact h.ge
  refine ⟨fun t ht => ?_, fun service' k hk => ?_, fun r k hk => ?_, fun r => ?_⟩
  · rw [write_issued] at ht
    obtain ⟨htoken, htime, hsecret⟩ := H.sound t ht
    exact ⟨htoken, htime.trans_eq write_now.symm, hsecret.trans_le hdrawn⟩
  · by_cases hservice : service' = service
    · subst hservice
      obtain ⟨-, hiv, -⟩ | ⟨hiv, hdrawn⟩ | ⟨hiv, -⟩ := write_cases s op service' row
      · exact (hrow k (hiv ▸ hk)).trans_le hdrawn
      · rw [hiv] at hk
        obtain rfl := Option.some.inj hk
        omega
      · rw [hiv] at hk
        exact nomatch hk
    · rw [write_rows_of_ne hservice] at hk
      exact (H.rows service' k hk).trans_le hdrawn
  · rw [write_phase] at hk
    exact (H.secret r k hk).trans_le hdrawn
  · rw [write_phase, write_issued]
    exact H.began r

theorem Inv.step : Preserves (Fires (next u)) Inv := by
  intro s e t h H
  obtain ⟨r, op, service, rfl, -, rfl⟩ | ⟨r, op, service, row, began, rfl, hphase, rfl⟩ |
    ⟨r, op, service, began, rfl, hphase, rfl⟩ | ⟨r, rfl, rfl⟩ |
    ⟨service, hostname, secret, rfl, hiv, rfl⟩ | ⟨ms, rfl, rfl⟩ := next_cases h
  · exact H.setPhase (fun k hk => H.rows service k hk) (Nat.le_refl _)
  · have hread := H.secret r
    have hbegan := H.began r
    rw [hphase] at hread hbegan
    exact (H.write hread).setPhase nofun (hbegan.trans_eq (congrArg List.length write_issued.symm))
  · have hbegan := H.began r
    rw [hphase] at hbegan
    exact H.setPhase nofun hbegan
  · exact H.setPhase nofun (Nat.zero_le _)
  · refine ⟨fun t ht => ?_, H.rows, H.secret, fun r => ?_⟩
    · obtain ht | ht := List.mem_append.mp ht
      · exact H.sound t ht
      · rw [List.mem_singleton.mp ht]
        exact ⟨rfl, Nat.le_refl _, H.rows service secret hiv⟩
    · rw [List.length_append]
      exact (H.began r).trans (Nat.le_add_right ..)
  · refine ⟨fun t ht => ?_, H.rows, H.secret, H.began⟩
    obtain ⟨htoken, htime, hsecret⟩ := H.sound t ht
    exact ⟨htoken, htime.trans (Nat.le_add_right ..), hsecret⟩

/-- A change of a phase that makes no request written. -/
theorem Ended.setPhase {phase : Phase} (H : Ended s)
    (hphase : ∀ op service began, phase = .written op service began ∨ phase = .returned op service began →
      s.phase r = .written op service began) : Ended (s.setPhase r phase) := by
  intro r' op service began hr'
  simp only [setPhase_phase] at hr'
  by_cases heq : r' = r
  · simp only [heq, if_pos] at hr'
    exact H r op service began (.inl (hphase op service began hr'))
  · simp only [if_neg heq] at hr'
    exact H r' op service began hr'

theorem Ended.write {row : ServiceRow} (H : Ended s) (I : Inv s)
    (hphase : s.phase r = .read op service row began) (hcurrent : Current s (.write r)) :
    Ended ((s.write op service row).setPhase r (.written op service began)) := by
  have hnew : ∀ t ∈ s.issued, some s.drawn ≠ some t.secret := fun t ht heq =>
    Nat.lt_irrefl _ (Option.some.inj heq ▸ (I.sound t ht).2.2)
  intro r' op' service' began' hr' hrevokes t ht hservice
  simp only [setPhase_phase, write_phase] at hr'
  change t ∈ (s.write op service row).issued.take began' at ht
  rw [write_issued] at ht
  have hissued : t ∈ s.issued := List.mem_of_mem_take ht
  change ((s.write op service row).rows service').accessCodeIv ≠ some t.secret
  by_cases heq : r' = r
  · -- The request itself writes a new secret, or none.
    simp only [heq, if_pos, Phase.written.injEq, reduceCtorEq, or_false] at hr'
    obtain ⟨rfl, rfl, rfl⟩ := hr'
    obtain ⟨hkeeps, -⟩ | ⟨hiv, -⟩ | ⟨hiv, -⟩ := write_cases s op service row
    · exact absurd hkeeps (not_keeps hrevokes)
    · exact hiv ▸ hnew t hissued
    · exact hiv ▸ nofun
  · simp only [if_neg heq] at hr'
    have hbefore := H r' op' service' began' hr' hrevokes t ht hservice
    by_cases hsame : service' = service
    · subst hsame
      obtain ⟨⟨rotateAccessCode, rfl, hkeeps⟩, hiv, -⟩ | ⟨hiv, -⟩ | ⟨hiv, -⟩ :=
        write_cases s op service' row
      · rw [Current, hphase] at hcurrent
        rw [hiv, ← hcurrent hkeeps]
        exact hbefore
      · exact hiv ▸ hnew t hissued
      · exact hiv ▸ nofun
    · rw [write_rows_of_ne hsame]
      exact hbefore

theorem Ended.step : Preserves (Guarded (Fires (next u)) Current) fun s => Inv s ∧ Ended s := by
  intro s e t ⟨h, hcurrent⟩ ⟨I, H⟩
  refine ⟨Inv.step h I, ?_⟩
  obtain ⟨r, op, service, rfl, -, rfl⟩ | ⟨r, op, service, row, began, rfl, hphase, rfl⟩ |
    ⟨r, op, service, began, rfl, hphase, rfl⟩ | ⟨r, rfl, rfl⟩ |
    ⟨service, hostname, secret, rfl, hiv, rfl⟩ | ⟨ms, rfl, rfl⟩ := next_cases h
  · exact H.setPhase (by simp)
  · exact H.write I hphase hcurrent
  · refine H.setPhase fun op' service' began' heq => ?_
    simp only [reduceCtorEq, Phase.returned.injEq, false_or] at heq
    obtain ⟨rfl, rfl, rfl⟩ := heq
    exact hphase
  · exact H.setPhase (by simp)
  · intro r op service' began hphase
    have hbegan : began ≤ s.issued.length := by
      have hbegan := I.began r
      obtain hphase | hphase := hphase
      · rwa [show s.phase r = _ from hphase] at hbegan
      · rwa [show s.phase r = _ from hphase] at hbegan
    rw [List.take_append_of_le_length hbegan]
    exact H r op service' began hphase
  · exact H

/-! ## The laws -/

theorem Inv.tokenLaw (H : Inv s) : TokenLaw u s := by
  intro service hostname token hpresentable hvalid
  -- The signature is that of a token, and so is the payload.
  obtain ⟨t, ht, rfl⟩ : ∃ t ∈ s.issued, t.token = token := by
    obtain ⟨secret, hsignature⟩ := exists_signature hvalid
    obtain ⟨bytes, hother⟩ | ⟨t, ht, hsame⟩ := hpresentable
    · exact nomatch hother.symm.trans hsignature
    · obtain ⟨htoken, -⟩ := H.sound t ht
      rw [hsignature, htoken, sign] at hsame
      obtain ⟨rfl, hpayload⟩ := Signature.hmac.inj hsame
      refine ⟨t, ht, ?_⟩
      rw [htoken, sign]
      exact Token.ext hpayload (hsame.trans hsignature.symm)
  obtain ⟨htoken, htime, -⟩ := H.sound t ht
  rw [htoken, validate_sign] at hvalid
  obtain ⟨hiv, hservice, hhostname, hlate, -⟩ := hvalid
  refine ⟨t, ht, rfl, hservice, hhostname, htime, ?_, hiv⟩
  omega

theorem revocationLaw (I : Inv s) (H : Ended s) : RevocationLaw u s := by
  intro r op service began hphase hrevokes t ht hservice service' hostname
  by_contra hvalid
  obtain ⟨htoken, -, -⟩ := I.sound t (List.mem_of_mem_take ht)
  rw [Bool.not_eq_false, htoken, validate_sign] at hvalid
  obtain ⟨hiv, heq, -⟩ := hvalid
  rw [← heq, hservice] at hiv
  exact H r op service began (.inr hphase) hrevokes t ht hservice hiv

/-- Where every exposition that keeps its secret writes it over the same secret, what validates was
created as it says, and the end of a session is final. -/
theorem revoked_of_current {es : List Event} (h : Run (Guarded (Fires (next u)) Current) init es s) :
    TokenLaw u s ∧ RevocationLaw u s := by
  obtain ⟨I, H⟩ := h.invariant Ended.step ⟨.start, .start⟩
  exact ⟨I.tokenLaw, revocationLaw I H⟩

end

def ascii : Unicode := { toLowerCase := (·.map Char.toLower), domainToAscii := some }

/-- The share is opened, a session begins, and the code is rotated. -/
theorem revoked_rotation :
    ∃ s, RevocationLaw ascii s ∧ s.phase 1 = .returned (.expose true) "web" 1 ∧
      (s.rows "web").accessCodeIv = some 1 := by
  have hrun : Run (Guarded (Fires (next ascii)) Current) init
      [.read 0 (.expose false) "web", .write 0, .return 0, .createSessionToken "web" "a.io".toList,
        .read 1 (.expose true) "web", .write 1, .return 1] _ :=
    .of_exec_guardedNext rfl
  exact ⟨_, (revoked_of_current hrun).2, rfl, rfl⟩

/-- An exposition that has read the row before a rotation writes the old secret after it. -/
theorem not_revoked : ¬∀ (u : Unicode) (es : List Event) (s : State),
    Run (Fires (next u)) init es s → TokenLaw u s ∧ RevocationLaw u s := by
  intro h
  have hrun : Run (Fires (next ascii)) init
      [.read 0 (.expose false) "web", .write 0, .return 0, .createSessionToken "web" "a.io".toList,
        .read 1 (.expose false) "web", .read 2 (.expose true) "web", .write 2, .return 2, .write 1] _ :=
    .of_exec rfl
  have hrevoked := (h ascii _ _ hrun).2 2 (.expose true) "web" 1 rfl rfl _ List.mem_cons_self rfl "web"
    "a.io".toList
  rw [← Bool.not_eq_true] at hrevoked
  exact hrevoked (validate_sign.mpr ⟨rfl, rfl, rfl, by decide, by decide⟩)

end OpenLander.ProtectedShare
