import OpenLander.Compose.Interpolate
import OpenLander.Theory.FixedWindow
import OpenLander.Theory.Keyed

/-! # The rate limiter

`checkRateLimit` (`src/web/middleware/rate-limit.ts`) lets a client try a password or an access code only
so many times. It has one window for each key, in a map of the process, and deletes windows that are over
when the map is large. The key is made from the route and from `clientIp`.

`Limiter` is the limiter of one key, that nothing is deleted from. -/

namespace OpenLander.RateLimit
open Theory

abbrev Text := List Char

structure RateLimitOptions where
  windowMs : Nat
  max : Nat
  deriving DecidableEq, Repr

structure RateLimitResult where
  limited : Bool
  firstLimited : Bool
  retryAfterSec : Nat
  deriving DecidableEq, Repr

structure Bucket where
  key : Text
  count : Nat
  resetAt : Nat
  deriving DecidableEq, Repr

def MAX_TRACKED_KEYS : Nat := 5000

def notLimited : RateLimitResult := { limited := false, firstLimited := false, retryAfterSec := 0 }

def pruneIfLarge (now : Nat) (buckets : List Bucket) : List Bucket :=
  if buckets.length ≤ MAX_TRACKED_KEYS then buckets else buckets.filter (now < ·.resetAt)

/-- The window of a request that is in none. -/
def openBucket (buckets : List Bucket) (now : Nat) (key : Text) (opts : RateLimitOptions) :
    RateLimitResult × List Bucket :=
  (notLimited, pruneIfLarge now (put (·.key) buckets ⟨key, 1, now + opts.windowMs⟩))

def checkRateLimit (buckets : List Bucket) (now : Nat) (key : Text) (opts : RateLimitOptions) :
    RateLimitResult × List Bucket :=
  match buckets.find? (·.key = key) with
  | none => openBucket buckets now key opts
  | some bucket =>
    if bucket.resetAt ≤ now then openBucket buckets now key opts
    else
      let count := bucket.count + 1
      let buckets := put (·.key) buckets ⟨key, count, bucket.resetAt⟩
      if opts.max < count then
        ({ limited := true
           firstLimited := count = opts.max + 1
           retryAfterSec := max 1 ((bucket.resetAt - now + 999) / 1000) }, buckets)
      else (notLimited, buckets)

/-! ## Clients -/

/-- What is read of a connection and its headers. The address is empty if there is none. -/
structure Client where
  socketIp : Text
  xForwardedFor : Option Text := none
  xRealIp : Option Text := none
  deriving DecidableEq, Repr

def forwardedClient (c : Client) : Option Text :=
  let first := c.xForwardedFor.map fun xff => Compose.trim ((xff.splitOn ',').headD [])
  (first.filter (· ≠ [])).or ((c.xRealIp.map Compose.trim).filter (· ≠ []))

def startsWith (text : Text) (start : String) : Bool := start.toList.isPrefixOf text

/-- `/^172\.(1[6-9]|2\d|3[01])\./` -/
def isPrivate172 : Text → Bool
  | '1' :: '7' :: '2' :: '.' :: a :: b :: '.' :: _ =>
    a = '1' && b ∈ ['6', '7', '8', '9'] || a = '2' && b.isDigit || a = '3' && b ∈ ['0', '1']
  | _ => false

/-- Loopback, RFC1918, link-local and IPv6 ULA: the hop of a local proxy. -/
def isTrustedProxyAddress (ip : Text) : Bool :=
  let lower := ip.map Char.toLower
  let addr := if startsWith lower "::ffff:" then lower.drop 7 else lower
  addr = "::1".toList || addr = "localhost".toList || startsWith addr "127." || startsWith addr "10." ||
    startsWith addr "192.168." || startsWith addr "169.254." || isPrivate172 addr ||
    startsWith addr "fc" || startsWith addr "fd"

def clientIp (c : Client) : Text :=
  let forwarded := if c.socketIp ≠ [] ∧ isTrustedProxyAddress c.socketIp then forwardedClient c else none
  forwarded.getD (if c.socketIp ≠ [] then c.socketIp else (forwardedClient c).getD "unknown".toList)

/-- The routes that are limited. -/
inductive Route
  | setupPassword
  | login
  | protectedShare (serviceId : Text)
  deriving DecidableEq, Repr

def AUTH_RATE_LIMIT : RateLimitOptions := { windowMs := 60000, max := 10 }

def PROTECTED_SHARE_VERIFY_WINDOW_SECONDS : Nat := 10 * 60

def PROTECTED_SHARE_VERIFY_MAX_ATTEMPTS : Nat := 8

namespace Route

def key (route : Route) (ip : Text) : Text :=
  match route with
  | setupPassword => "setup-password:".toList ++ ip
  | login => "login:".toList ++ ip
  | protectedShare serviceId => "protected-share:".toList ++ (serviceId ++ ':' :: ip)

def opts : Route → RateLimitOptions
  | setupPassword | login => AUTH_RATE_LIMIT
  | protectedShare _ => {
      windowMs := PROTECTED_SHARE_VERIFY_WINDOW_SECONDS * 1000
      max := PROTECTED_SHARE_VERIFY_MAX_ATTEMPTS }

end Route

structure Request where
  receivedAt : Nat
  route : Route
  client : Client
  deriving DecidableEq, Repr

namespace Request

def key (r : Request) : Text := r.route.key (clientIp r.client)

def opts (r : Request) : RateLimitOptions := r.route.opts

end Request

/-! ## Runs -/

/-- The requests with their results, one after the other. -/
def serve (buckets : List Bucket) : List Request → List (Request × RateLimitResult)
  | [] => []
  | r :: requests =>
    let served := checkRateLimit buckets r.receivedAt r.key r.opts
    (r, served.1) :: serve served.2 requests

/-- The buckets after the requests. -/
def after (buckets : List Bucket) (requests : List Request) : List Bucket :=
  requests.foldl (fun buckets r => (checkRateLimit buckets r.receivedAt r.key r.opts).2) buckets

namespace Limiter

open FixedWindow

/-- The result for a request in the window, or in none. -/
def answer (w : Option Window) (now : Nat) (opts : RateLimitOptions) : RateLimitResult :=
  match w with
  | none => notLimited
  | some w =>
    if w.resetAt ≤ now ∨ w.count + 1 ≤ opts.max then notLimited
    else {
      limited := true
      firstLimited := w.count + 1 = opts.max + 1
      retryAfterSec := max 1 ((w.resetAt - now + 999) / 1000) }

def serve (w : Option Window) : List Request → List (Request × RateLimitResult)
  | [] => []
  | r :: requests =>
    (r, answer w r.receivedAt r.opts) :: serve (some (visit r.opts.windowMs w r.receivedAt)) requests

end Limiter

open FixedWindow

def Bucket.window (bucket : Bucket) : Window := ⟨bucket.count, bucket.resetAt⟩

/-- The map has the window of the key, or none if the window is over. -/
structure Tracks (buckets : List Bucket) (key : Text) (now : Nat) (w : Option Window) : Prop where
  nodup : (buckets.map (·.key)).Nodup
  kept : (buckets.find? (·.key = key)).map Bucket.window = w ∨
    buckets.find? (·.key = key) = none ∧ ∀ w' ∈ w, w'.resetAt ≤ now

section
variable {buckets : List Bucket} {key key' : Text} {now now' : Nat} {w : Option Window}
variable {opts : RateLimitOptions} {requests : List Request} {r : Request} {b : Bucket}

theorem Tracks.nil (key : Text) (now : Nat) : Tracks [] key now none := ⟨.nil, .inl rfl⟩

theorem Tracks.later (h : Tracks buckets key now w) (hle : now ≤ now') : Tracks buckets key now' w :=
  ⟨h.nodup, h.kept.imp_right fun hover => ⟨hover.1, fun w' hw' => Nat.le_trans (hover.2 w' hw') hle⟩⟩

/-- Windows that are over may be deleted. -/
theorem Tracks.prune (h : Tracks buckets key now w) : Tracks (pruneIfLarge now buckets) key now w := by
  rw [pruneIfLarge]
  split
  · exact h
  · refine ⟨h.nodup.sublist (List.filter_sublist.map _), ?_⟩
    rw [find?_filter_key h.nodup]
    obtain hkept | ⟨hnone, hover⟩ := h.kept
    · cases hfind : buckets.find? (·.key = key) with
      | none =>
        rw [hfind] at hkept
        exact .inl hkept
      | some b =>
        rw [hfind] at hkept
        by_cases hopen : now < b.resetAt
        · exact .inl (by simpa [Option.filter_some, hopen] using hkept)
        · refine .inr ⟨by simp [Option.filter_some, hopen], ?_⟩
          rintro w' hw'
          obtain rfl : b.window = w' := Option.some.inj (hkept.trans hw')
          exact Nat.le_of_not_lt hopen
    · exact .inr ⟨by rw [hnone]; rfl, hover⟩

theorem Tracks.put_self (h : Tracks buckets key now w) (hkey : b.key = key) :
    Tracks (put (·.key) buckets b) key now (some b.window) := by
  refine ⟨nodup_put h.nodup, .inl ?_⟩
  rw [find?_put, if_pos hkey]
  rfl

theorem Tracks.put_other (h : Tracks buckets key now w) (hkey : b.key ≠ key) :
    Tracks (put (·.key) buckets b) key now w := by
  refine ⟨nodup_put h.nodup, ?_⟩
  rw [find?_put, if_neg hkey]
  exact h.kept

/-- The requests of other keys make no difference. -/
theorem Tracks.other (h : Tracks buckets key now w) (hkey : key' ≠ key) :
    Tracks (checkRateLimit buckets now key' opts).2 key now w := by
  rw [checkRateLimit]
  split
  · exact (h.put_other hkey).prune
  · split
    · exact (h.put_other hkey).prune
    · dsimp only
      split <;> exact h.put_other hkey

theorem Tracks.opened (h : Tracks buckets key now w) (hw : ∀ w' ∈ w, w'.resetAt ≤ now) :
    (openBucket buckets now key opts).1 = Limiter.answer w now opts ∧
      Tracks (openBucket buckets now key opts).2 key now (some (visit opts.windowMs w now)) := by
  have hopened := (h.put_self (b := ⟨key, 1, now + opts.windowMs⟩) rfl).prune
  cases w with
  | none => exact ⟨rfl, hopened⟩
  | some w =>
    have hover := hw w rfl
    have hvisit : visit opts.windowMs (some w) now = ⟨1, now + opts.windowMs⟩ := if_pos hover
    rw [Limiter.answer, if_pos (.inl hover), hvisit]
    exact ⟨rfl, hopened⟩

/-- A request of the key is served as by its limiter. -/
theorem Tracks.self (h : Tracks buckets key now w) :
    (checkRateLimit buckets now key opts).1 = Limiter.answer w now opts ∧
      Tracks (checkRateLimit buckets now key opts).2 key now (some (visit opts.windowMs w now)) := by
  rw [checkRateLimit]
  cases hfind : buckets.find? (·.key = key) with
  | none =>
    refine h.opened ?_
    obtain hkept | ⟨-, hover⟩ := h.kept
    · rw [hfind] at hkept
      obtain rfl : none = w := hkept
      rintro _ ⟨⟩
    · exact hover
  | some b =>
    obtain rfl : some b.window = w := by
      obtain hkept | ⟨hnone, -⟩ := h.kept
      · rwa [hfind] at hkept
      · cases hfind.symm.trans hnone
    dsimp only
    by_cases hover : b.resetAt ≤ now
    · rw [if_pos hover]
      refine h.opened ?_
      rintro _ ⟨⟩
      exact hover
    · have hself := h.put_self (b := ⟨key, b.count + 1, b.resetAt⟩) rfl
      have hvisit : visit opts.windowMs (some b.window) now = ⟨b.count + 1, b.resetAt⟩ := if_neg hover
      rw [if_neg hover, hvisit, Limiter.answer]
      by_cases hlimit : opts.max < b.count + 1
      · have hanswer : ¬(b.window.resetAt ≤ now ∨ b.window.count + 1 ≤ opts.max) :=
          not_or.mpr ⟨hover, Nat.not_le.mpr hlimit⟩
        rw [if_pos hlimit, if_neg hanswer]
        exact ⟨rfl, hself⟩
      · rw [if_neg hlimit, if_pos (.inr (Nat.not_lt.mp hlimit))]
        exact ⟨rfl, hself⟩

theorem Tracks.serve (h : Tracks buckets key now w)
    (hsorted : requests.Pairwise (·.receivedAt ≤ ·.receivedAt))
    (hnow : ∀ r ∈ requests, now ≤ r.receivedAt) :
    (serve buckets requests).filter (·.1.key = key) =
      Limiter.serve w (requests.filter (·.key = key)) := by
  induction requests generalizing buckets now w with
  | nil => rfl
  | cons r requests ih =>
    obtain ⟨hle, hsorted⟩ := List.pairwise_cons.mp hsorted
    have hlater := h.later (hnow r (.head _))
    rw [RateLimit.serve]
    by_cases hkey : r.key = key
    · obtain ⟨hanswer, hself⟩ := @Tracks.self _ _ _ _ r.opts hlater
      rw [List.filter_cons_of_pos (by simpa using hkey), List.filter_cons_of_pos (by simpa using hkey),
        Limiter.serve, ← hanswer, ← ih hself hsorted hle, hkey]
    · rw [List.filter_cons_of_neg (by simpa using hkey), List.filter_cons_of_neg (by simpa using hkey)]
      exact ih (hlater.other hkey) hsorted hle

/-- The windows of the key after the requests. -/
theorem Tracks.after (h : Tracks buckets key now w)
    (hsorted : requests.Pairwise (·.receivedAt ≤ ·.receivedAt))
    (hnow : ∀ r ∈ requests, now ≤ r.receivedAt) (hend : ∀ r ∈ requests, r.receivedAt ≤ now')
    (hle : now ≤ now') (hopts : ∀ r ∈ requests, r.key = key → r.opts = opts) :
    Tracks (after buckets requests) key now' (FixedWindow.after opts.windowMs w
      ((requests.filter (·.key = key)).map (·.receivedAt))) := by
  induction requests generalizing buckets now w with
  | nil => exact h.later hle
  | cons r requests ih =>
    obtain ⟨hler, hsorted⟩ := List.pairwise_cons.mp hsorted
    have hlater := h.later (hnow r (.head _))
    have hrest := fun w
        (h : Tracks (checkRateLimit buckets r.receivedAt r.key r.opts).2 key r.receivedAt w) =>
      ih h hsorted hler (fun r' hr' => hend r' (.tail _ hr')) (hend r (.head _))
        fun r' hr' => hopts r' (.tail _ hr')
    by_cases hkey : r.key = key
    · obtain rfl := hkey
      rw [List.filter_cons_of_pos (by simp), ← hopts r (.head _) rfl]
      rw [← hopts r (.head _) rfl] at hrest
      exact hrest _ hlater.self.2
    · rw [List.filter_cons_of_neg (by simpa using hkey)]
      exact hrest _ (hlater.other hkey)

theorem answer_limited (w : Option Window) (now : Nat) (opts : RateLimitOptions) :
    (Limiter.answer w now opts).limited = !passes opts.max w now := by
  cases w with
  | none => rfl
  | some w =>
    have hpasses : passes opts.max (some w) now = decide (w.resetAt ≤ now ∨ w.count + 1 ≤ opts.max) :=
      (Bool.decide_or ..).symm
    rw [Limiter.answer, hpasses]
    split
    next h => rw [decide_eq_true h]; rfl
    next h => rw [decide_eq_false h]; rfl

/-- What the limiter of a key lets through. -/
theorem Limiter.passed_serve (w : Option Window) (hopts : ∀ r ∈ requests, r.opts = opts) :
    ((Limiter.serve w requests).filter (!·.2.limited)).map (·.1.receivedAt) =
      passed opts.windowMs opts.max w (requests.map (·.receivedAt)) := by
  induction requests generalizing w with
  | nil => rfl
  | cons r requests ih =>
    have hrest := ih (some (FixedWindow.visit opts.windowMs w r.receivedAt)) fun r' hr' =>
      hopts r' (.tail _ hr')
    rw [Limiter.serve, hopts r (.head _), List.filter_cons, answer_limited, Bool.not_not, List.map_cons,
      passed, ← hrest]
    split <;> rfl

/-- The routes have different keys for all addresses. -/
theorem opts_eq_of_key {route route' : Route} {ip ip' : Text} (h : route.key ip = route'.key ip') :
    route.opts = route'.opts := by
  cases route <;> cases route' <;> first | rfl | exact absurd (List.cons.inj h).1 (by decide)

/-- Headers make no difference on a direct connection. -/
theorem clientIp_of_direct {c : Client} (hip : c.socketIp ≠ [])
    (hdirect : isTrustedProxyAddress c.socketIp = false) : clientIp c = c.socketIp := by
  rw [clientIp, if_neg (by simp [hdirect]), if_pos hip]
  rfl

end

/-- Each key is limited on its own: its requests get what they get from a limiter that sees no others and
deletes nothing. -/
theorem serve_key {requests : List Request} (hsorted : requests.Pairwise (·.receivedAt ≤ ·.receivedAt))
    (key : Text) :
    (serve [] requests).filter (·.1.key = key) = Limiter.serve none (requests.filter (·.key = key)) :=
  (Tracks.nil key 0).serve hsorted fun _ _ => Nat.zero_le _

/-- From a direct connection no more than `2 * max` attempts come through in any stretch of time as long
as the window, whatever headers they have and whatever all other clients do. -/
theorem attempts_le {requests : List Request} (hsorted : requests.Pairwise (·.receivedAt ≤ ·.receivedAt))
    (route : Route) (ip : Text) (hip : ip ≠ []) (hdirect : isTrustedProxyAddress ip = false)
    (start : Nat) :
    (serve [] requests).countP (fun x => x.1.route = route ∧ x.1.client.socketIp = ip ∧
      start ≤ x.1.receivedAt ∧ x.1.receivedAt < start + route.opts.windowMs ∧ x.2.limited = false) ≤
    2 * route.opts.max := by
  let key := route.key ip
  let requestsOf := requests.filter (·.key = key)
  have hopts : ∀ r ∈ requestsOf, r.opts = route.opts := fun r hr =>
    opts_eq_of_key (of_decide_eq_true (List.mem_filter.mp hr).2)
  have hsorted' : (requestsOf.map (·.receivedAt)).Pairwise (· ≤ ·) :=
    List.pairwise_map.mpr (hsorted.sublist List.filter_sublist)
  have hpos : max 1 route.opts.max = route.opts.max := by cases route <;> rfl
  have hbound := @countP_passed_le route.opts.windowMs route.opts.max _ hsorted' start
  rw [← Limiter.passed_serve none hopts, hpos, ← serve_key hsorted, List.countP_map, List.countP_filter,
    List.countP_filter] at hbound
  refine Nat.le_trans (List.countP_mono_left fun x _ hx => ?_) hbound
  simp only [decide_eq_true_eq] at hx
  obtain ⟨hroute, hsocket, hstart, hend, hlimited⟩ := hx
  have hkey : x.1.key = key := by
    rw [Request.key, hroute, clientIp_of_direct (hsocket ▸ hip) (hsocket ▸ hdirect), hsocket]
  simp [hkey, hstart, hend, hlimited]

/-- The result for a request that comes after others. -/
def result (requests : List Request) (r : Request) : RateLimitResult :=
  (checkRateLimit (after [] requests) r.receivedAt r.key r.opts).1

/-- The receipt times of the requests of a key. -/
def timesOf (key : Text) (requests : List Request) : List Nat :=
  (requests.filter (·.key = key)).map (·.receivedAt)

section
variable {requests others : List Request} {r r' : Request} {w : Option Window} {now : Nat}
variable {opts : RateLimitOptions}

theorem result_eq (hsorted : (requests ++ [r]).Pairwise (·.receivedAt ≤ ·.receivedAt)) :
    result requests r =
      Limiter.answer (FixedWindow.after r.opts.windowMs none (timesOf r.key requests))
        r.receivedAt r.opts := by
  obtain ⟨hsorted, -, hend⟩ := List.pairwise_append.mp hsorted
  have htracks := (Tracks.nil r.key 0).after hsorted (fun _ _ => Nat.zero_le _)
    (fun q hq => hend q hq r (List.mem_singleton_self r)) (Nat.zero_le _)
    fun q _ hkey => opts_eq_of_key hkey
  exact htracks.self.1

theorem answer_retryAfter (h : (Limiter.answer w now opts).limited = true) :
    ∃ w', w = some w' ∧ now < w'.resetAt ∧
      w'.resetAt ≤ now + 1000 * (Limiter.answer w now opts).retryAfterSec := by
  cases w with
  | none => cases h
  | some w =>
    rw [Limiter.answer] at h ⊢
    by_cases hpass : w.resetAt ≤ now ∨ w.count + 1 ≤ opts.max
    · rw [if_pos hpass] at h
      cases h
    · rw [if_neg hpass]
      have hopen := (not_or.mp hpass).1
      refine ⟨w, rfl, by omega, ?_⟩
      dsimp only
      omega

/-- Only a key with more than `max` requests within the window is limited. Whoever waits as long as it is
told comes through, if nobody else comes with the key. -/
theorem limited_only_if (hsorted : (requests ++ [r]).Pairwise (·.receivedAt ≤ ·.receivedAt))
    (h : (result requests r).limited = true) :
    r.opts.max < (requests ++ [r]).countP
        (fun q => q.key = r.key ∧ r.receivedAt < q.receivedAt + r.opts.windowMs) ∧
      ∀ others r', (requests ++ r :: others ++ [r']).Pairwise (·.receivedAt ≤ ·.receivedAt) →
        (∀ q ∈ others, q.key ≠ r.key) → r'.key = r.key →
        r.receivedAt + 1000 * (result requests r).retryAfterSec ≤ r'.receivedAt →
        (result (requests ++ r :: others) r').limited = false := by
  rw [result_eq hsorted] at h
  have htimes : timesOf r.key (requests ++ [r]) = timesOf r.key requests ++ [r.receivedAt] := by
    simp [timesOf]
  constructor
  · have hsortedTimes : (timesOf r.key requests ++ [r.receivedAt]).Pairwise (· ≤ ·) :=
      htimes ▸ List.pairwise_map.mpr (hsorted.sublist List.filter_sublist)
    rw [answer_limited, Bool.not_eq_true'] at h
    have hlt := lt_countP_of_not_passes hsortedTimes h
    rw [← htimes, timesOf, List.countP_map, List.countP_filter] at hlt
    refine Nat.lt_of_lt_of_le hlt (Nat.le_of_eq (List.countP_congr fun q _ => ?_))
    simp [and_comm]
  · intro others r' hsorted' hothers hkey hwait
    obtain ⟨w, hw, hopen, hreset⟩ := answer_retryAfter h
    have hvisit : FixedWindow.visit r.opts.windowMs (some w) r.receivedAt = ⟨w.count + 1, w.resetAt⟩ :=
      if_neg (Nat.not_le.mpr hopen)
    have hnone : timesOf r.key others = [] := by simpa [timesOf] using hothers
    have hafter : timesOf r.key (requests ++ r :: others) = timesOf r.key requests ++ [r.receivedAt] := by
      rw [← htimes, ← List.append_nil (timesOf r.key (requests ++ [r])), ← hnone]
      simp [timesOf]
    have hopts : r'.opts = r.opts := opts_eq_of_key hkey
    have hover : w.resetAt ≤ r'.receivedAt := by
      rw [result_eq hsorted] at hwait
      exact Nat.le_trans hreset hwait
    rw [result_eq hsorted', hkey, hopts, hafter, after_concat, hw, hvisit]
    exact congrArg RateLimitResult.limited (if_pos (Or.inl hover))

end

/-- A login from a public address, with a header that it may choose. -/
def loginFrom (receivedAt : Nat) (xForwardedFor : Text) : Request :=
  { receivedAt, route := .login, client := { socketIp := "8.8.8.8".toList, xForwardedFor } }

theorem serve_key_twoKeys :
    ((serve [] [loginFrom 0 [], { loginFrom 1 [] with route := .setupPassword }, loginFrom 2 []]).filter
        (·.1.key = "login:8.8.8.8".toList)).map (·.1.receivedAt) = [0, 2] := by
  rw [serve_key (by simp [loginFrom])]
  decide +kernel

theorem attempts_le_login :
    (serve [] ((List.range 30).map fun i => loginFrom i (Nat.toDigits 10 i))).countP
      (fun x => x.1.route = .login ∧ x.1.client.socketIp = "8.8.8.8".toList ∧ 0 ≤ x.1.receivedAt ∧
        x.1.receivedAt < 0 + 60000 ∧ x.2.limited = false) ≤ 20 :=
  attempts_le (by decide +kernel) .login "8.8.8.8".toList (by decide) (by decide) 0

theorem limited_only_if_eleven :
    10 < ((List.replicate 10 (loginFrom 0 [])) ++ [loginFrom 0 []]).countP
        (fun q => q.key = (loginFrom 0 []).key ∧ 0 < q.receivedAt + 60000) ∧
      (result (List.replicate 10 (loginFrom 0 []) ++ loginFrom 0 [] :: []) (loginFrom 60000 [])).limited =
        false := by
  obtain ⟨hcount, hretry⟩ := @limited_only_if (List.replicate 10 (loginFrom 0 [])) (loginFrom 0 [])
    (by decide +kernel) (by decide +kernel)
  exact ⟨hcount, hretry [] (loginFrom 60000 []) (by decide +kernel) (List.forall_mem_nil _)
    (by decide +kernel) (by decide +kernel)⟩

end OpenLander.RateLimit
