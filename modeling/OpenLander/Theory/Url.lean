import OpenLander.Theory.InetAddress

/-! # Reading URLs

The part of the URL standard's parser that comes before the path: the scheme, the credentials, the host
and the port. The hosts of special schemes are domains or addresses, and are written in one way. The
hosts of other schemes stay as they are, except for IPv6 addresses. -/

namespace OpenLander.Theory.Url
open Inet
open scoped Members Texts

/-- An URL in its parts, with its host as it is written. -/
structure UrlParts where
  scheme : List Char
  username : List Char := []
  password : List Char := []
  /-- There is none where no authority follows the scheme. -/
  host : Option (List Char) := none
  deriving DecidableEq, Repr

/-- What is read of an object of the class `URL`. The credentials are as they are written. -/
structure URL where
  protocol : List Char
  username : List Char
  password : List Char
  hostname : List Char
  deriving DecidableEq, Repr

def isSpecial (scheme : List Char) : Bool :=
  scheme ∈ ["http", "https", "ftp", "ws", "wss", "file"].map String.toList

/-! ## Splitting -/

/-- Without the control characters and spaces around it, and without all tabs and newlines. -/
def cleaned (url : List Char) : List Char :=
  let strip (text : List Char) := text.dropWhile (· ≤ ' ')
  (strip (strip url).reverse).reverse.filter fun c => c ≠ '\t' && c ≠ '\n' && c ≠ '\r'

def splitScheme (url : List Char) : Option (List Char × List Char) :=
  let scheme := url.takeWhile fun c => c.isAlphanum || c = '+' || c = '-' || c = '.'
  match scheme, url.drop scheme.length with
  | first :: _, ':' :: rest => if first.isAlpha then some (scheme.map Char.toLower, rest) else none
  | _, _ => none

/-- The host, which ends at a colon outside of brackets, and what follows this colon. -/
def splitHost : Bool → List Char → List Char × Option (List Char)
  | _, [] => ([], none)
  | insideBrackets, c :: rest =>
    if c = ':' ∧ ¬insideBrackets then ([], some rest)
    else
      let (host, port) :=
        splitHost (if c = '[' then true else if c = ']' then false else insideBrackets) rest
      (c :: host, port)

def isPort (port : List Char) : Bool :=
  port.all (digitValue · < 10) && ((number 10 port).getD 0) < 65536

/-- The credentials end at the last `@`. -/
def splitAuthority (scheme text : List Char) : Option UrlParts :=
  let segments := text.splitOn '@'
  let credentials := "%40".toList.intercalate segments.dropLast
  let hostAndPort := segments.getLastD []
  if 1 < segments.length ∧ hostAndPort = [] then none
  else
    let (host, port) := splitHost false hostAndPort
    if host = [] ∧ (port.isSome ∨ isSpecial scheme) then none
    else if port.all isPort then some {
      scheme
      username := credentials.takeWhile (· ≠ ':')
      password := (credentials.dropWhile (· ≠ ':')).drop 1
      host := some host }
    else none

/-- An URL of a file has a syntax of its own, of which no host is read here. -/
def splitUrl (url : List Char) : Option UrlParts :=
  match splitScheme (cleaned url) with
  | none => none
  | some (scheme, rest) =>
    if scheme = "file".toList then some { scheme }
    else if isSpecial scheme then
      splitAuthority scheme ((rest.dropWhile fun c => c = '/' || c = '\\').takeWhile
        fun c => c ≠ '/' && c ≠ '\\' && c ≠ '?' && c ≠ '#')
    else
      match rest with
      | '/' :: '/' :: rest =>
        splitAuthority scheme (rest.takeWhile fun c => c ≠ '/' && c ≠ '?' && c ≠ '#')
      | _ => some { scheme }

/-! ## Hosts -/

def isForbiddenHostChar (c : Char) : Bool := c ∈ "\x00\t\n\r #/:<>?@[\\]^|".toList

def isForbiddenDomainChar (c : Char) : Bool :=
  isForbiddenHostChar c || c.toNat < 0x20 || c = '%' || c.toNat = 0x7f

/-- The domain stays as it is but for its letters in upper case. -/
def isPlainDomain (text : List Char) : Bool :=
  (text.all fun c => c.toNat < 0x80 && c ≠ '%') &&
    (text.splitOn '.').all fun label => !"xn--".toList.isPrefixOf (label.map Char.toLower)

section
-- what percent decoding and the mapping of Unicode domains make of all other domains
variable (domainToAscii : List Char → Option (List Char))

def parseDomain (text : List Char) : Option (List Char) :=
  match if isPlainDomain text then some (text.map Char.toLower) else domainToAscii text with
  | none => none
  | some domain =>
    if domain = [] ∨ domain.any isForbiddenDomainChar then none
    else if endsInNumber domain then (urlIpv4 domain).map (·.text)
    else some domain

def hexDigit (n : Nat) : Char := n.digitChar.toUpper

/-- Control characters and what is not ASCII are encoded. -/
def percentEncode (c : Char) : List Char :=
  if c.toNat < 0x20 ∨ 0x7e < c.toNat then
    (String.utf8EncodeChar c).flatMap fun byte =>
      ['%', hexDigit (byte.toNat / 16), hexDigit (byte.toNat % 16)]
  else [c]

def parseHost (scheme text : List Char) : Option (List Char) :=
  match text with
  | '[' :: rest =>
    if rest.getLast? = some ']' then
      (parseIpv6 rest.dropLast).map fun address => '[' :: address.text ++ [']']
    else none
  | text =>
    if isSpecial scheme then parseDomain domainToAscii text
    else if text.any isForbiddenHostChar then none
    else some (text.flatMap percentEncode)

/-- `new URL(url)` -/
def newURL (url : List Char) : Option URL :=
  match splitUrl url with
  | none => none
  | some parts =>
    (match parts.host with
      | some host => parseHost domainToAscii parts.scheme host
      | none => some []).map fun hostname => {
        protocol := parts.scheme ++ [':']
        username := parts.username
        password := parts.password
        hostname }

end

/-- The address that a host stands for by its text alone. -/
def denotes (host : List Char) : Option Address :=
  match host with
  | '[' :: rest =>
    if rest.getLast? = some ']' then (parseIpv6 rest.dropLast).map .v6 else none
  | host => (inetAton host).map .v4

/-! ## Hosts that denote addresses -/

theorem denotes_v6 (h : denotes host = some (.v6 address)) :
    ∃ rest, host = '[' :: rest ∧ rest.getLast? = some ']' ∧ parseIpv6 rest.dropLast = some address := by
  unfold denotes at h
  split at h
  next rest =>
    obtain ⟨hlast, h⟩ := Option.ite_none_right_eq_some.mp h
    obtain ⟨address', haddress, heq⟩ := Option.map_eq_some_iff.mp h
    obtain rfl := Address.v6.inj heq
    exact ⟨rest, rfl, hlast, haddress⟩
  · obtain ⟨address', -, heq⟩ := Option.map_eq_some_iff.mp h
    exact nomatch heq

theorem denotes_v4 (h : denotes host = some (.v4 address)) :
    inetAton host = some address ∧ ∀ rest, host ≠ '[' :: rest := by
  unfold denotes at h
  split at h
  · obtain ⟨-, h⟩ := Option.ite_none_right_eq_some.mp h
    obtain ⟨address', -, heq⟩ := Option.map_eq_some_iff.mp h
    exact nomatch heq
  next hnot =>
    obtain ⟨address', haddress, heq⟩ := Option.map_eq_some_iff.mp h
    obtain rfl := Address.v4.inj heq
    exact ⟨haddress, hnot⟩

section
variable {domainToAscii : List Char → Option (List Char)}

/-- An IPv6 address is written in one way, whatever the scheme. -/
theorem parseHost_v6 (h : denotes host = some (.v6 address)) :
    parseHost domainToAscii scheme host = some ('[' :: address.text ++ [']']) := by
  obtain ⟨rest, rfl, hlast, haddress⟩ := denotes_v6 h
  show (if rest.getLast? = some ']' then
    (parseIpv6 rest.dropLast).map fun address => '[' :: address.text ++ [']'] else none) = _
  rw [if_pos hlast, haddress]
  rfl

theorem ne_nil_of_inetAton (h : inetAton host = some address) : host ≠ [] := by
  rintro rfl
  exact nomatch h

theorem isPlainDomain_of_inetAton (h : inetAton host = some address) : isPlainDomain host = true := by
  rw [isPlainDomain, Bool.and_eq_true, List.all_eq_true, List.all_eq_true]
  constructor
  · intro c hc
    exact (by decide : ∀ c ∈ inetChars, (decide (c.toNat < 0x80) && decide (c ≠ '%')) = true) c
      (mem_inetChars h hc)
  · intro label hlabel
    obtain ⟨numbers, hnumbers, -⟩ := inetAton_parts h
    obtain ⟨n, hn⟩ := exists_of_mem_mapM hnumbers hlabel
    rw [Bool.not_eq_true', Bool.eq_false_iff, Ne, List.isPrefixOf_iff_prefix]
    intro hxn
    obtain ⟨c, hc, hlower⟩ := List.mem_map.mp (hxn.subset (by decide : 'n' ∈ "xn--".toList))
    have hmem : c ∈ inetChars := by
      obtain hdigit | rfl | rfl := (atonNumber_chars hn).2 c hc
      · exact .tail _ (.tail _ (.tail _ (mem_hexDigits hdigit)))
      all_goals decide
    exact (by decide : ∀ c ∈ inetChars, c.toLower ≠ 'n') c hmem hlower

/-- The host of a special scheme is written as its address. -/
theorem parseHost_special (h : denotes host = some (.v4 address)) (hspecial : isSpecial scheme = true) :
    parseHost domainToAscii scheme host = some address.text := by
  obtain ⟨haddress, hnot⟩ := denotes_v4 h
  have hdomain : parseDomain domainToAscii host = some address.text := by
    have hforbidden : ¬(host.map Char.toLower = [] ∨
        (host.map Char.toLower).any isForbiddenDomainChar = true) := by
      rw [not_or, Bool.not_eq_true, List.any_eq_false]
      refine ⟨fun hnil => ne_nil_of_inetAton haddress (List.map_eq_nil_iff.mp hnil), fun c hc => ?_⟩
      obtain ⟨c', hc', rfl⟩ := List.mem_map.mp hc
      exact (by decide : ∀ c ∈ inetChars, ¬isForbiddenDomainChar c.toLower = true) c'
        (mem_inetChars haddress hc')
    unfold parseDomain
    rw [if_pos (isPlainDomain_of_inetAton haddress)]
    dsimp only
    rw [if_neg hforbidden, if_pos (endsInNumber_toLower haddress), urlIpv4_toLower haddress]
    rfl
  unfold parseHost
  split
  next rest => exact absurd rfl (hnot rest)
  · rw [if_pos hspecial, hdomain]

/-- The host of another scheme stays as it is. -/
theorem parseHost_opaque (h : denotes host = some (.v4 address)) (hspecial : isSpecial scheme = false) :
    parseHost domainToAscii scheme host = some host := by
  obtain ⟨haddress, hnot⟩ := denotes_v4 h
  have hforbidden : ¬host.any isForbiddenHostChar = true := by
    rw [Bool.not_eq_true, List.any_eq_false]
    intro c hc
    exact (by decide : ∀ c ∈ inetChars, ¬isForbiddenHostChar c = true) c (mem_inetChars haddress hc)
  have hencode : host.flatMap percentEncode = host := by
    have hencode (c : Char) (hc : c ∈ host) : percentEncode c = [c] :=
      (by decide : ∀ c ∈ inetChars, percentEncode c = [c]) c (mem_inetChars haddress hc)
    exact (List.flatMap_congr hencode).trans (List.flatMap_singleton' host)
  unfold parseHost
  split
  next rest => exact absurd rfl (hnot rest)
  · rw [if_neg (by rw [hspecial]; decide), if_neg hforbidden, hencode]

end

end OpenLander.Theory.Url
