import OpenLander.Theory.Url

/-! # The guard of repository URLs

`checkUrlSafety` (`src/lib/url-safety.ts`) refuses URLs whose host is internal. It looks at the text of
the host only, as `new URL` gives it. -/

namespace OpenLander.Lib.UrlSafety
open Theory Inet Url
open scoped Members Texts

def blockedLiteralHosts : List (List Char) :=
  ["localhost", "127.0.0.1", "0.0.0.0", "::", "::1", "0:0:0:0:0:0:0:0", "0:0:0:0:0:0:0:1",
    "169.254.169.254", "metadata.google.internal", "metadata.goog"].map String.toList

/-- `1[6-9]|2\d|3[01]` -/
def isPrivateSecond (x y : Char) : Bool :=
  x = '1' && '6' ≤ y && y ≤ '9' || x = '2' && '0' ≤ y && y ≤ '9' || x = '3' && (y = '0' || y = '1')

/-- `/^172\.(1[6-9]|2\d|3[01])\./` -/
def isPrivate172 : List Char → Bool
  | '1' :: '7' :: '2' :: '.' :: x :: y :: '.' :: _ => isPrivateSecond x y
  | _ => false

/-- `PRIVATE_IPV4_PATTERNS` -/
def privateIpv4Patterns : List (List Char → Bool) :=
  ["10.".toList.isPrefixOf, "192.168.".toList.isPrefixOf, isPrivate172, "127.".toList.isPrefixOf,
    "169.254.".toList.isPrefixOf, "0.".toList.isPrefixOf]

/-- `/^(22[4-9]|23\d)\./` -/
def isMulticast : List Char → Bool
  | '2' :: '2' :: y :: '.' :: _ => '4' ≤ y && y ≤ '9'
  | '2' :: '3' :: y :: '.' :: _ => '0' ≤ y && y ≤ '9'
  | _ => false

structure UrlSafetyOptions where
  allowedSchemes : List String
  allowUserInfo : Bool := false

structure UrlSafetyResult where
  ok : Bool
  reason : Option String := none
  deriving DecidableEq, Repr

def refused (reason : String) : UrlSafetyResult := { ok := false, reason }

def isDottedText (text : List Char) : Bool :=
  let parts := text.splitOn '.'
  parts.length = 4 && parts.all fun part =>
    1 ≤ part.length && part.length ≤ 3 && part.all fun c => '0' ≤ c && c ≤ '9'

def isHexGroup (part : List Char) : Bool :=
  1 ≤ part.length && part.length ≤ 4 && part.all (digitValue · < 16)

/-- The IPv4 address of an IPv4-mapped IPv6 address, as a text. -/
def extractIpv4Mapped (host : List Char) : Option (List Char) :=
  let rest := host.drop 7
  if (host.take 7).map Char.toLower ≠ "::ffff:".toList then none
  else if isDottedText rest then some rest
  else
    match rest.splitOn ':' with
    | [high, low] =>
      if isHexGroup high && isHexGroup low then
        let high := (number 16 high).getD 0
        let low := (number 16 low).getD 0
        some (['.'].intercalate [decimal (high / 256 % 256), decimal (high % 256),
          decimal (low / 256 % 256), decimal (low % 256)])
      else none
    | _ => none

/-- What is refused of the hosts with a colon. -/
def checkIpv6Host (host : List Char) : UrlSafetyResult :=
  let text := String.ofList host
  if text = "::1" ∨ text = "0:0:0:0:0:0:0:1" then refused ("host " ++ text ++ " is loopback")
  else if ["fc", "fd", "fe8", "fe9", "fea", "feb"].any (·.toList.isPrefixOf host) then
    refused ("host " ++ text ++ " is in a private IPv6 range")
  else
    match extractIpv4Mapped host with
    | some mapped =>
      let mappedText := String.ofList mapped
      if mapped ∈ blockedLiteralHosts then
        refused ("host " ++ text ++ " maps to internal " ++ mappedText)
      else if privateIpv4Patterns.any (· mapped) then
        refused ("host " ++ text ++ " maps to private " ++ mappedText)
      else if isMulticast mapped then
        refused ("host " ++ text ++ " maps to multicast " ++ mappedText)
      else { ok := true }
    | none =>
      if "::ffff:".toList.isPrefixOf host then
        refused ("host " ++ text ++ " uses IPv4-mapped IPv6 (refused)")
      else { ok := true }

/-- `rawHost.replace(/^\[/, '')` -/
def stripOpening : List Char → List Char
  | '[' :: rest => rest
  | host => host

/-- The host without its brackets and without the dots at its end. -/
def strippedHost (rawHost : List Char) : List Char :=
  let host := stripOpening rawHost
  let host := if host.getLast? = some ']' then host.dropLast else host
  (host.reverse.dropWhile (· = '.')).reverse

def checkHost (host : List Char) : UrlSafetyResult :=
  let text := String.ofList host
  if host ∈ blockedLiteralHosts then refused ("host " ++ text ++ " is internal")
  else if ".local".toList.isSuffixOf host || ".localhost".toList.isSuffixOf host then
    refused ("host " ++ text ++ " resolves on the local network")
  else if privateIpv4Patterns.any (· host) then
    refused ("host " ++ text ++ " is in a private IP range")
  else if ':' ∈ host then checkIpv6Host host
  else { ok := true }

def checkUrlSafety (domainToAscii : List Char → Option (List Char)) (url : List Char)
    (options : UrlSafetyOptions) : UrlSafetyResult :=
  match newURL domainToAscii url with
  | none => refused ("not a valid URL: " ++ String.ofList url)
  | some parsed =>
    let scheme := String.ofList (parsed.protocol.map Char.toLower)
    if scheme ∉ options.allowedSchemes then refused ("scheme " ++ scheme ++ " is not allowed")
    else if parsed.password ≠ [] then refused "embedded credentials are not allowed"
    else if parsed.username ≠ [] ∧ ¬options.allowUserInfo then
      refused "embedded credentials are not allowed"
    else if parsed.hostname = [] then refused "empty host"
    else checkHost (strippedHost (parsed.hostname.map Char.toLower))

/-- `GIT_ALLOWED_SCHEMES` -/
def gitAllowedSchemes : List String := ["http:", "https:", "ssh:", "git+ssh:"]

/-- The options of `validateRepoUrlSafety`. -/
def gitOptions : UrlSafetyOptions := { allowedSchemes := gitAllowedSchemes, allowUserInfo := true }

/-! ## The claim -/

/-- The second octets of `172.16.0.0/12`. -/
def seconds : List (Fin 256) := [16, 17, 18, 19, 20, 21, 22, 23, 24, 25, 26, 27, 28, 29, 30, 31]

/-- The first octets of the ranges of `PRIVATE_IPV4_PATTERNS`. -/
def privateRanges : List (List (Fin 256)) :=
  [[10], [192, 168], [127], [169, 254], [0]] ++ seconds.map ([172, ·])

/-- The address is loopback, private, link-local, unspecified or in `0.0.0.0/8`. -/
def ListedIpv4 (address : Ipv4) : Prop := ∃ range ∈ privateRanges, range <+: address.octets

def Multicast (address : Ipv4) : Prop := 224 ≤ address.a ∧ address.a ≤ 239

def ofPieces (high low : Fin 65536) : Ipv4 where
  a := .ofNat 256 (high.val / 256)
  b := .ofNat 256 high.val
  c := .ofNat 256 (low.val / 256)
  d := .ofNat 256 low.val

/-- `::ffff:a.b.c.d` -/
def IsMapped (address : Ipv6) (embedded : Ipv4) : Prop :=
  ∃ high low, address.pieces = [0, 0, 0, 0, 0, 65535, high, low] ∧ embedded = ofPieces high low

/-- `::a.b.c.d` -/
def IsCompatible (address : Ipv6) (embedded : Ipv4) : Prop :=
  ∃ high low, address.pieces = [0, 0, 0, 0, 0, 0, high, low] ∧ embedded = ofPieces high low

/-- The address is in `fc00::/7` or `fe80::/10`. -/
def PrivateIpv6 (address : Ipv6) : Prop :=
  ∃ first rest, address.pieces = first :: rest ∧
    (0xfc00 ≤ first ∧ first ≤ 0xfdff ∨ 0xfe80 ≤ first ∧ first ≤ 0xfebf)

/-- The address is in a listed range. The addresses `::` and `::1` are those compatible with `0.0.0.0` and
`0.0.0.1`. -/
def Listed : Address → Prop
  | .v4 address => ListedIpv4 address
  | .v6 address => PrivateIpv6 address ∨
      (∃ embedded, IsMapped address embedded ∧ (ListedIpv4 embedded ∨ Multicast embedded)) ∨
      ∃ embedded, IsCompatible address embedded ∧ ListedIpv4 embedded

/-- A listed address in a text that the guard knows it by. An IPv4 address is known where the parser of
URLs writes it anew, or where the octets that tell its range are written in plain decimals before a dot. An
IPv6 address is known but for those compatible with an IPv4 address, other than `::` and `::1`. -/
def Recognised (scheme host : List Char) : Address → Prop
  | .v4 address => isSpecial scheme = true ∨
      ∃ range ∈ privateRanges, range <+: address.octets ∧ dotted range <+: host
  | .v6 address => ∀ embedded, IsCompatible address embedded →
      embedded = ⟨0, 0, 0, 0⟩ ∨ embedded = ⟨0, 0, 0, 1⟩

/-! ## Patterns -/

theorem second_of_isPrivateSecond : ∀ x ∈ "123".toList, ∀ y ∈ "0123456789".toList,
    isPrivateSecond x y = true → ∃ b ∈ seconds, decimal b.val = [x, y] := by
  decide

theorem isPrivateSecond_of_second : ∀ b ∈ seconds, ∃ x ∈ "123".toList, ∃ y ∈ "0123456789".toList,
    decimal b.val = [x, y] ∧ isPrivateSecond x y = true := by
  decide

theorem digits_of_isPrivateSecond (h : isPrivateSecond x y = true) :
    x ∈ "123".toList ∧ y ∈ "0123456789".toList := by
  simp only [isPrivateSecond, Bool.or_eq_true, Bool.and_eq_true, decide_eq_true_eq] at h
  obtain (⟨⟨rfl, hy⟩, hy'⟩ | ⟨⟨rfl, hy⟩, hy'⟩) | ⟨rfl, rfl | rfl⟩ := h
  · exact ⟨by decide, (by decide : _ ⊆ "0123456789".toList) (mem_of_le ⟨hy, hy'⟩)⟩
  · exact ⟨by decide, (by decide : _ ⊆ "0123456789".toList) (mem_of_le ⟨hy, hy'⟩)⟩
  · decide
  · decide

theorem isPrivateSecond_iff : isPrivateSecond x y = true ↔ ∃ b ∈ seconds, decimal b.val = [x, y] := by
  constructor
  · intro h
    obtain ⟨hx, hy⟩ := digits_of_isPrivateSecond h
    exact second_of_isPrivateSecond x hx y hy h
  · intro ⟨b, hb, hdecimal⟩
    obtain ⟨x', -, y', -, hdecimal', h⟩ := isPrivateSecond_of_second b hb
    obtain ⟨rfl, hy⟩ := List.cons.inj (hdecimal.symm.trans hdecimal')
    obtain ⟨rfl, -⟩ := List.cons.inj hy
    exact h

theorem dotted_172 (b : Fin 256) : dotted [172, b] = "172.".toList ++ (decimal b.val ++ ['.']) := by
  have h : decimal (172 : Fin 256).val ++ ['.'] = "172.".toList := by decide
  rw [dotted, List.flatMap_cons, List.flatMap_singleton, h]

theorem isPrivate172_iff : isPrivate172 text = true ↔ ∃ b ∈ seconds, dotted [172, b] <+: text := by
  constructor
  · intro h
    unfold isPrivate172 at h
    split at h
    next x y rest =>
      obtain ⟨b, hb, hdecimal⟩ := isPrivateSecond_iff.mp h
      refine ⟨b, hb, rest, ?_⟩
      rw [dotted_172, hdecimal]
      rfl
    · exact nomatch h
  · intro ⟨b, hb, rest, htext⟩
    obtain ⟨x, -, y, -, hdecimal, hsecond⟩ := isPrivateSecond_of_second b hb
    rw [dotted_172, hdecimal] at htext
    obtain rfl := htext
    exact hsecond

theorem dotted_ranges : dotted [10] = "10.".toList ∧ dotted [192, 168] = "192.168.".toList ∧
    dotted [127] = "127.".toList ∧ dotted [169, 254] = "169.254.".toList ∧
    dotted [0] = "0.".toList := by
  decide

theorem privateIpv4Patterns_iff : privateIpv4Patterns.any (· text) = true ↔
    ∃ range ∈ privateRanges, dotted range <+: text := by
  obtain ⟨h10, h192, h127, h169, h0⟩ := dotted_ranges
  have h172 : (∃ range ∈ seconds.map ([172, ·]), dotted range <+: text) ↔ isPrivate172 text = true := by
    rw [isPrivate172_iff]
    simp only [List.mem_map, exists_exists_and_eq_and]
  rw [privateRanges]
  simp only [List.mem_append, or_and_right, exists_or, h172, List.mem_cons, List.not_mem_nil, or_false,
    exists_eq_left, h10, h192, h127, h169, h0]
  simp only [privateIpv4Patterns, List.any_cons, List.any_nil, Bool.or_false, Bool.or_eq_true,
    List.isPrefixOf_iff_prefix]
  have hswap (a b c d e f : Prop) : a ∨ b ∨ f ∨ c ∨ d ∨ e ↔ (a ∨ b ∨ c ∨ d ∨ e) ∨ f := by tauto
  exact hswap ..

/-- The text of an address shows its range. -/
theorem dotted_prefix_text {address : Ipv4} {range : List (Fin 256)} (h : range <+: address.octets)
    (hlength : range.length ≤ 3) : dotted range <+: address.text := by
  obtain ⟨rest, htext, -⟩ := address.text_eq
  have hrange : range <+: [address.a, address.b, address.c] :=
    List.prefix_of_prefix_length_le h (List.prefix_append _ [address.d]) hlength
  rw [htext]
  obtain ⟨others, hothers⟩ := hrange
  refine ⟨dotted others ++ rest, ?_⟩
  rw [← hothers, dotted, dotted, dotted, List.flatMap_append, List.append_assoc]

theorem length_privateRanges : ∀ range ∈ privateRanges, range.length ≤ 3 := by
  decide

theorem privateIpv4Patterns_text {address : Ipv4} (h : ListedIpv4 address) :
    privateIpv4Patterns.any (· address.text) = true := by
  obtain ⟨range, hrange, hprefix⟩ := h
  exact privateIpv4Patterns_iff.mpr
    ⟨range, hrange, dotted_prefix_text hprefix (length_privateRanges range hrange)⟩

theorem isMulticast_decimal : ∀ a : Fin 256, 224 ≤ a → a ≤ 239 → ∃ x ∈ "23".toList,
    ∃ y ∈ "0123456789".toList, decimal a.val = ['2', x, y] ∧ isMulticast ['2', x, y, '.'] = true := by
  decide +kernel

theorem isMulticast_append (h : isMulticast ['2', x, y, '.'] = true) :
    isMulticast ('2' :: x :: y :: '.' :: rest) = true := by
  unfold isMulticast at h ⊢
  split at h <;> simp_all

theorem isMulticast_text {address : Ipv4} (h : Multicast address) :
    isMulticast address.text = true := by
  obtain ⟨rest, htext, -⟩ := address.text_eq
  obtain ⟨x, -, y, -, hdecimal, hmulticast⟩ := isMulticast_decimal address.a h.1 h.2
  rw [htext, dotted, List.flatMap_cons, hdecimal]
  exact isMulticast_append hmulticast

/-! ## Texts of hosts -/

theorem refused_ok : (refused reason).ok = false := rfl

theorem checkHost_ok_of_private (h : privateIpv4Patterns.any (· host) = true) :
    (checkHost host).ok = false := by
  unfold checkHost
  split
  · rfl
  split
  · rfl
  · rfl

theorem checkHost_ok_of_ipv6 (hcolon : ':' ∈ host) (h : (checkIpv6Host host).ok = false) :
    (checkHost host).ok = false := by
  unfold checkHost
  split
  · rfl
  split
  · rfl
  split
  · rfl
  · exact h

/-- A text that keeps to these characters has no suffix of the local network. -/
theorem not_local_suffix (chars : List Char) (hchars : host ⊆ chars) (hl : 'l' ∉ chars) :
    (".local".toList.isSuffixOf host || ".localhost".toList.isSuffixOf host) = false := by
  rw [Bool.or_eq_false_iff, Bool.eq_false_iff, Bool.eq_false_iff, Ne, Ne, List.isSuffixOf_iff_suffix,
    List.isSuffixOf_iff_suffix]
  constructor
  · intro h
    exact hl (hchars (h.subset (by decide : 'l' ∈ ".local".toList)))
  · intro h
    exact hl (hchars (h.subset (by decide : 'l' ∈ ".localhost".toList)))

theorem reverse_dropWhile_dot {text : List Char} (hdot : text.getLast? ≠ some '.') :
    (text.reverse.dropWhile (· = '.')).reverse = text := by
  have hreverse : text.reverse.dropWhile (· = '.') = text.reverse := by
    cases hcases : text.reverse with
    | nil => rfl
    | cons c rest =>
      have hlast : text.getLast? = some c := by
        rw [List.getLast?_eq_head?_reverse, hcases]
        rfl
      rw [List.dropWhile_cons_of_neg]
      rw [decide_eq_true_eq]
      rintro rfl
      exact hdot hlast
  rw [hreverse, List.reverse_reverse]

theorem strippedHost_bracketed {text : List Char} (hdot : text.getLast? ≠ some '.') :
    strippedHost ('[' :: text ++ [']']) = text := by
  have hlast : (text ++ [']']).getLast? = some ']' := List.getLast?_concat
  show ((if (text ++ [']']).getLast? = some ']' then (text ++ [']']).dropLast
    else text ++ [']']).reverse.dropWhile (· = '.')).reverse = text
  rw [if_pos hlast, List.dropLast_concat, reverse_dropWhile_dot hdot]

theorem strippedHost_plain {text : List Char} (hhead : '[' ∉ text) (hbracket : ']' ∉ text)
    (hdot : text.getLast? ≠ some '.') : strippedHost text = text := by
  have hopen : stripOpening text = text := by
    unfold stripOpening
    split
    · exact absurd List.mem_cons_self hhead
    · rfl
  have hclose : text.getLast? ≠ some ']' := fun h => hbracket (List.mem_of_getLast? h)
  unfold strippedHost
  dsimp only
  rw [hopen, if_neg hclose, reverse_dropWhile_dot hdot]

/-! ## IPv4 addresses -/

theorem toLower_of_subset {chars : List Char} (h : text ⊆ chars)
    (hlower : ∀ c ∈ chars, c.toLower = c) : text.map Char.toLower = text :=
  (List.map_congr_left fun c hc => hlower c (h hc)).trans (List.map_id text)

theorem getLast?_decimal : ∀ n : Fin 256, ∃ last ∈ (decimal n.val).getLast?, last ≠ '.' := by
  decide +kernel

/-- A listed address is refused as the parser of URLs writes it. -/
theorem checkHost_text {address : Ipv4} (h : ListedIpv4 address) :
    (checkHost (strippedHost (address.text.map Char.toLower))).ok = false := by
  have hchars : address.text ⊆ ".0123456789".toList := address.text_chars
  have hdot : address.text.getLast? ≠ some '.' := by
    obtain ⟨rest, htext, hrest⟩ := address.text_eq
    obtain ⟨last, hlast, hne⟩ := getLast?_decimal address.d
    rw [htext, List.getLast?_append, hrest, hlast, Option.some_or]
    exact fun h => hne (Option.some.inj h)
  rw [toLower_of_subset hchars (by decide), strippedHost_plain (fun h => absurd (hchars h) (by decide))
    (fun h => absurd (hchars h) (by decide)) hdot]
  exact checkHost_ok_of_private (privateIpv4Patterns_text h)

/-- No other characters become digits or dots. -/
theorem eq_toLower_iff : ∀ c ∈ inetChars, ∀ d ∈ ".0123456789".toList, d = c.toLower ↔ d = c := by
  decide

theorem prefix_toLower {digits text : List Char} (hdigits : digits ⊆ ".0123456789".toList)
    (hchars : text ⊆ inetChars) : digits <+: text.map Char.toLower ↔ digits <+: text := by
  induction digits generalizing text with
  | nil => exact ⟨fun _ => List.nil_prefix, fun _ => List.nil_prefix⟩
  | cons d digits ih =>
    cases text with
    | nil => rfl
    | cons c text =>
      rw [List.map_cons, List.cons_prefix_cons, List.cons_prefix_cons,
        eq_toLower_iff c (hchars (.head _)) d (hdigits (.head _)),
        ih (fun _ h => hdigits (.tail _ h)) (fun _ h => hchars (.tail _ h))]

theorem dotted_subset (octets : List (Fin 256)) : dotted octets ⊆ ".0123456789".toList := by
  intro c hc
  obtain ⟨octet, -, hc⟩ := List.mem_flatMap.mp hc
  obtain hc | hc := List.mem_append.mp hc
  · exact (by decide : "0123456789".toList ⊆ ".0123456789".toList) (decimal_digits octet c hc)
  · obtain rfl := List.mem_singleton.mp hc
    decide

/-- The hosts with a name, and those of IPv6. -/
theorem blocked_literal : ∀ literal ∈ blockedLiteralHosts,
    privateIpv4Patterns.any (· literal) = true ∨ ':' ∈ literal ∨ 'o' ∈ literal := by
  decide

/-- An address that is written by hand is refused where a pattern finds its range. -/
theorem checkHost_written (h : inetAton host = some address) :
    (checkHost (strippedHost (host.map Char.toLower))).ok = false ↔
      ∃ range ∈ privateRanges, range <+: address.octets ∧ dotted range <+: host := by
  have hchars := mem_inetChars h
  have hmem (d : Char) (hd : ∀ c ∈ inetChars, c.toLower ≠ d) : d ∉ host.map Char.toLower := fun hmem =>
    have ⟨c, hc, hlower⟩ := List.mem_map.mp hmem
    hd c (hchars hc) hlower
  have hdot : (host.map Char.toLower).getLast? ≠ some '.' := by
    intro hlast
    rw [List.getLast?_map] at hlast
    obtain ⟨c, hc, hlower⟩ := Option.map_eq_some_iff.mp hlast
    have hc' := (eq_toLower_iff c (hchars (List.mem_of_getLast? hc)) '.' (by decide)).mp hlower.symm
    exact inetAton_getLast? h (hc' ▸ hc)
  rw [strippedHost_plain (hmem '[' (by decide)) (hmem ']' (by decide)) hdot]
  have hpatterns : privateIpv4Patterns.any (· (host.map Char.toLower)) = true ↔
      ∃ range ∈ privateRanges, range <+: address.octets ∧ dotted range <+: host := by
    rw [privateIpv4Patterns_iff]
    refine exists_congr fun range => and_congr_right fun hrange => ?_
    rw [prefix_toLower (dotted_subset range) hchars]
    exact ⟨fun hprefix => ⟨prefix_octets_of_dotted h hprefix, hprefix⟩, And.right⟩
  rw [← hpatterns]
  refine ⟨fun hok => ?_, checkHost_ok_of_private⟩
  unfold checkHost at hok
  split at hok
  next hliteral =>
    obtain hprivate | hcolon | ho := blocked_literal _ hliteral
    · exact hprivate
    · exact absurd hcolon (hmem ':' (by decide))
    · exact absurd ho (hmem 'o' (by decide))
  split at hok
  next hlocal =>
    rw [not_local_suffix (host.map Char.toLower) (List.Subset.refl _) (hmem 'l' (by decide))]
      at hlocal
    exact nomatch hlocal
  split at hok
  next hprivate => exact hprivate
  split at hok
  next hcolon => exact absurd hcolon (hmem ':' (by decide))
  · exact nomatch hok

/-! ## IPv6 addresses -/

theorem hexText_of_le {n : Nat} (h : 4096 ≤ n) : hexText n =
    [(n / 4096).digitChar, (n / 256 % 16).digitChar, (n / 16 % 16).digitChar, (n % 16).digitChar] := by
  rw [hexText, if_neg (by omega), if_neg (by omega), if_neg (by omega)]

theorem prefix_of_private {first : Fin 65536}
    (h : 0xfc00 ≤ first ∧ first ≤ 0xfdff ∨ 0xfe80 ≤ first ∧ first ≤ 0xfebf) (rest : List Char) :
    ["fc", "fd", "fe8", "fe9", "fea", "feb"].any (·.toList.isPrefixOf (hexText first ++ rest)) = true := by
  have hle : 4096 ≤ first.val := by
    obtain ⟨h, -⟩ | ⟨h, -⟩ := h
    · exact Nat.le_trans (by decide) h
    · exact Nat.le_trans (by decide) h
  rw [hexText_of_le hle]
  obtain ⟨hfirst, hlast⟩ | ⟨hfirst, hlast⟩ := h
  · have hfirst : 0xfc00 ≤ first.val := hfirst
    have hlast : first.val ≤ 0xfdff := hlast
    have h4 : first.val / 4096 = 15 := by omega
    have h3 : first.val / 256 % 16 = 12 ∨ first.val / 256 % 16 = 13 := by omega
    obtain h3 | h3 := h3
    · rw [h4, h3]
      rfl
    · rw [h4, h3]
      rfl
  · have hfirst : 0xfe80 ≤ first.val := hfirst
    have hlast : first.val ≤ 0xfebf := hlast
    have h4 : first.val / 4096 = 15 := by omega
    have h3 : first.val / 256 % 16 = 14 := by omega
    have h2 : first.val / 16 % 16 = 8 ∨ first.val / 16 % 16 = 9 ∨ first.val / 16 % 16 = 10 ∨
        first.val / 16 % 16 = 11 := by omega
    rw [h4, h3]
    obtain h2 | h2 | h2 | h2 := h2
    all_goals
      rw [h2]
      rfl

theorem checkHost_private {address : Ipv6} (h : PrivateIpv6 address) :
    (checkHost address.text).ok = false := by
  obtain ⟨first, rest, hpieces, hfirst⟩ := h
  have hne : first ≠ 0 := by
    rintro rfl
    exact absurd hfirst (by decide)
  obtain ⟨text, htext⟩ := Ipv6.text_of_ne_zero hpieces hne
  have hprefix := prefix_of_private hfirst (':' :: text)
  rw [htext]
  refine checkHost_ok_of_ipv6 (List.mem_append_right _ (.head _)) ?_
  unfold checkIpv6Host
  dsimp only
  split
  · rfl
  · rfl

theorem isHexGroup_hexText (n : Fin 65536) : isHexGroup (hexText n) = true := by
  obtain ⟨digits, hne, hlength, hlt, heq, -⟩ := hexText_eq n n.isLt
  rw [isHexGroup, heq, List.length_map, Bool.and_eq_true, Bool.and_eq_true, List.all_eq_true]
  refine ⟨⟨decide_eq_true (List.length_pos_iff.mpr hne), decide_eq_true hlength⟩, fun c hc => ?_⟩
  obtain ⟨digit, hdigit, rfl⟩ := List.mem_map.mp hc
  rw [(digitValue_digitChar digit (hlt digit hdigit)).1]
  exact decide_eq_true (hlt digit hdigit)

theorem not_mem_hexText {n : Fin 65536} (hc : c ∉ "0123456789abcdef".toList) : c ∉ hexText n :=
  fun h => hc (hexText_digits n c h)

theorem extractIpv4Mapped_text (high low : Fin 65536) :
    extractIpv4Mapped ("::ffff:".toList ++ (hexText high ++ ':' :: hexText low)) =
      some (ofPieces high low).text := by
  have hdot : '.' ∉ hexText high ++ ':' :: hexText low := by
    rw [List.mem_append, List.mem_cons, not_or, not_or]
    exact ⟨not_mem_hexText (by decide), by decide, not_mem_hexText (by decide)⟩
  have hdotted : isDottedText (hexText high ++ ':' :: hexText low) = false := by
    rw [isDottedText, List.splitOn_eq_singleton hdot]
    rfl
  have hsplit : (hexText high ++ ':' :: hexText low).splitOn ':' = [hexText high, hexText low] := by
    rw [List.splitOn_append_cons_self_of_not_mem (not_mem_hexText (by decide)),
      List.splitOn_eq_singleton (not_mem_hexText (by decide))]
  have hdrop : ("::ffff:".toList ++ (hexText high ++ ':' :: hexText low)).drop 7 =
      hexText high ++ ':' :: hexText low := rfl
  have htake : (("::ffff:".toList ++ (hexText high ++ ':' :: hexText low)).take 7).map Char.toLower =
      "::ffff:".toList := rfl
  unfold extractIpv4Mapped
  rw [hdrop, htake]
  dsimp only
  rw [if_neg (fun h => h rfl), if_neg (by rw [hdotted]; decide), hsplit]
  dsimp only
  rw [isHexGroup_hexText, isHexGroup_hexText, number_hexText, number_hexText]
  rfl

theorem checkHost_mapped {address : Ipv6} (h : IsMapped address embedded)
    (hlisted : ListedIpv4 embedded ∨ Multicast embedded) : (checkHost address.text).ok = false := by
  obtain ⟨high, low, hpieces, rfl⟩ := h
  rw [Ipv6.text_mapped hpieces]
  refine checkHost_ok_of_ipv6 (List.mem_append_left _ (by decide)) ?_
  unfold checkIpv6Host
  dsimp only
  split
  · rfl
  split
  · rfl
  rw [extractIpv4Mapped_text]
  dsimp only
  split
  · rfl
  split
  · rfl
  next hprivate =>
    split
    · rfl
    next hmulticast =>
      obtain hlisted | hlisted := hlisted
      · exact absurd (privateIpv4Patterns_text hlisted) hprivate
      · exact absurd (isMulticast_text hlisted) hmulticast

theorem listedIpv4_first (h : ListedIpv4 address) : address.a ≠ 255 := by
  obtain ⟨range, hrange, hprefix⟩ := h
  have hhead := (by decide : ∀ range ∈ privateRanges, ∃ a ∈ range.head?, a ≠ 255) range hrange
  obtain ⟨a, ha, hne⟩ := hhead
  obtain ⟨rest, hrest⟩ := hprefix
  cases range with
  | nil => exact nomatch ha
  | cons a' range =>
    obtain rfl := Option.some.inj ha
    obtain ⟨heq, -⟩ := List.cons.inj hrest
    rw [← heq]
    exact hne

/-- Such a text is not that of an IPv4-mapped address. -/
theorem not_mapped_hexText {high low : Fin 65536} (h : (ofPieces high low).a ≠ 255) :
    ¬"ffff:".toList <+: hexText high ++ ':' :: hexText low := by
  intro ⟨rest, hrest⟩
  have htake (text : List Char) (n : Fin 65536) :
      (hexText n ++ ':' :: text).takeWhile (· ≠ ':') = hexText n := by
    rw [List.takeWhile_append_of_pos, List.takeWhile_cons_of_neg (by decide), List.append_nil]
    intro c hc
    rw [decide_eq_true_eq]
    rintro rfl
    exact not_mem_hexText (by decide) hc
  have hhigh : hexText high = hexText (65535 : Fin 65536) := by
    rw [← htake (hexText low) high, ← hrest]
    rfl
  obtain rfl := hexText_injective high 65535 hhigh
  exact h rfl

theorem not_prefix_hexText (n : Fin 65536) : ¬"ffff:".toList <+: hexText n := fun h =>
  not_mem_hexText (by decide) (h.subset (by decide : ':' ∈ "ffff:".toList))

/-- The guard does not know an IPv4-compatible address. -/
theorem checkHost_colons (text : List Char) (hchars : text ⊆ ":0123456789abcdef".toList)
    (hnil : text ≠ []) (hone : text ≠ ['1']) (hmapped : ¬"ffff:".toList <+: text) :
    (checkHost (':' :: ':' :: text)).ok = true := by
  have hliteral : ':' :: ':' :: text ∉ blockedLiteralHosts := by
    intro hmem
    have hcolons := (by decide : ∀ literal ∈ blockedLiteralHosts, "::".toList <+: literal →
      literal = "::".toList ∨ literal = "::1".toList) _ hmem ⟨text, rfl⟩
    obtain h | h := hcolons
    · exact hnil (List.cons.inj (List.cons.inj h).2).2
    · exact hone (List.cons.inj (List.cons.inj h).2).2
  have hchars' : ':' :: ':' :: text ⊆ ":0123456789abcdef".toList := fun c hc => by
    obtain rfl | hc := List.mem_cons.mp hc
    · decide
    obtain rfl | hc := List.mem_cons.mp hc
    · decide
    · exact hchars hc
  have hlocal := not_local_suffix _ hchars' (by decide)
  have hprefix : ¬"::ffff:".toList <+: ':' :: ':' :: text := fun h =>
    hmapped ((List.cons_prefix_cons.mp (List.cons_prefix_cons.mp h).2).2)
  have hextract : extractIpv4Mapped (':' :: ':' :: text) = none := by
    unfold extractIpv4Mapped
    dsimp only
    refine if_pos fun htake => hprefix ?_
    have hlower : ((':' :: ':' :: text).take 7).map Char.toLower = (':' :: ':' :: text).take 7 :=
      toLower_of_subset (fun c hc => hchars' (List.mem_of_mem_take hc)) (by decide)
    rw [← htake, hlower]
    exact List.take_prefix 7 _
  have hne (literal : String) (h : literal = "::1" ∨ literal = "0:0:0:0:0:0:0:1") :
      String.ofList (':' :: ':' :: text) ≠ literal := by
    rintro rfl
    have hliteral' : ':' :: ':' :: text = "::1".toList ∨ ':' :: ':' :: text = "0:0:0:0:0:0:0:1".toList :=
      h.imp (fun h => by rw [← h, String.toList_ofList]) fun h => by rw [← h, String.toList_ofList]
    obtain h | h := hliteral'
    · exact hone (List.cons.inj (List.cons.inj h).2).2
    · exact nomatch (List.cons.inj h).1
  have hranges : ["fc", "fd", "fe8", "fe9", "fea", "feb"].any
      (·.toList.isPrefixOf (':' :: ':' :: text)) = false := rfl
  have hpatterns : privateIpv4Patterns.any (· (':' :: ':' :: text)) = false := rfl
  have hipv6 : checkIpv6Host (':' :: ':' :: text) = { ok := true } := by
    unfold checkIpv6Host
    dsimp only
    rw [if_neg (fun h => h.elim (hne _ (.inl rfl)) (hne _ (.inr rfl))),
      if_neg (by rw [hranges]; decide), hextract]
    dsimp only
    rw [if_neg (fun h => hprefix (List.isPrefixOf_iff_prefix.mp h))]
  unfold checkHost
  dsimp only
  rw [if_neg hliteral, if_neg (by rw [hlocal]; decide),
    if_neg (by rw [hpatterns]; decide), if_pos (.head _), hipv6]

theorem ofPieces_inj {high low high' low' : Fin 65536} (h : ofPieces high low = ofPieces high' low') :
    high = high' ∧ low = low' := by
  have ha : high.val / 256 % 256 = high'.val / 256 % 256 := congrArg (·.a.val) h
  have hb : high.val % 256 = high'.val % 256 := congrArg (·.b.val) h
  have hc : low.val / 256 % 256 = low'.val / 256 % 256 := congrArg (·.c.val) h
  have hd : low.val % 256 = low'.val % 256 := congrArg (·.d.val) h
  constructor
  · exact Fin.ext (by omega)
  · exact Fin.ext (by omega)

/-- Of the listed addresses that are compatible with an IPv4 address only `::` and `::1` are refused. -/
theorem checkHost_compatible {address : Ipv6} {high low : Fin 65536}
    (hpieces : address.pieces = [0, 0, 0, 0, 0, 0, high, low])
    (hlisted : ListedIpv4 (ofPieces high low)) :
    (checkHost address.text).ok = false ↔
      ofPieces high low = ⟨0, 0, 0, 0⟩ ∨ ofPieces high low = ⟨0, 0, 0, 1⟩ := by
  rw [Ipv6.text_compatible hpieces]
  by_cases hhigh : high = 0
  · obtain rfl := hhigh
    rw [if_neg (fun h => h rfl)]
    by_cases hlow : low = 0
    · obtain rfl := hlow
      exact ⟨fun _ => .inl rfl, fun _ => by decide⟩
    by_cases hone : low = 1
    · obtain rfl := hone
      exact ⟨fun _ => .inr rfl, fun _ => by decide⟩
    rw [if_pos hlow]
    have hok := checkHost_colons (hexText low)
      (fun c hc => .tail _ (hexText_digits low c hc)) ?_ ?_ (not_prefix_hexText low)
    · rw [show "::".toList ++ hexText low = ':' :: ':' :: hexText low from rfl, hok]
      refine ⟨fun h => (by cases h), fun h => ?_⟩
      obtain h | h := h
      · exact absurd (ofPieces_inj (h.trans (rfl : _ = ofPieces 0 0))).2 hlow
      · exact absurd (ofPieces_inj (h.trans (rfl : _ = ofPieces 0 1))).2 hone
    · obtain ⟨digits, hne, -, -, heq, -⟩ := hexText_eq low low.isLt
      rw [heq]
      exact fun h => hne (List.map_eq_nil_iff.mp h)
    · exact fun h => hone (hexText_injective low 1 h)
  · rw [if_pos hhigh]
    have hok := checkHost_colons (hexText high ++ ':' :: hexText low) ?_ ?_ ?_
      (not_mapped_hexText (listedIpv4_first hlisted))
    · rw [show "::".toList ++ (hexText high ++ ':' :: hexText low) =
        ':' :: ':' :: (hexText high ++ ':' :: hexText low) from rfl, hok]
      refine ⟨fun h => (by cases h), fun h => ?_⟩
      obtain h | h := h
      · exact absurd (ofPieces_inj (h.trans (rfl : _ = ofPieces 0 0))).1 hhigh
      · exact absurd (ofPieces_inj (h.trans (rfl : _ = ofPieces 0 1))).1 hhigh
    · intro c hc
      obtain hc | hc := List.mem_append.mp hc
      · exact .tail _ (hexText_digits high c hc)
      obtain rfl | hc := List.mem_cons.mp hc
      · decide
      · exact .tail _ (hexText_digits low c hc)
    · exact List.append_ne_nil_of_right_ne_nil _ (List.cons_ne_nil _ _)
    · intro h
      exact absurd (h ▸ List.mem_append_right _ (.head _) : ':' ∈ ['1']) (by decide)

theorem checkHost_ipv6 {address : Ipv6} (hlisted : Listed (.v6 address)) :
    (checkHost (strippedHost (('[' :: address.text ++ [']']).map Char.toLower))).ok = false ↔
      Recognised scheme host (.v6 address) := by
  have hchars : address.text ⊆ ":0123456789abcdef".toList := address.text_chars
  have hlower : ('[' :: address.text ++ [']']).map Char.toLower = '[' :: address.text ++ [']'] := by
    rw [List.map_append, List.map_cons, toLower_of_subset hchars (by decide)]
    rfl
  have hdot : address.text.getLast? ≠ some '.' := fun h =>
    absurd (hchars (List.mem_of_getLast? h)) (by decide)
  rw [hlower, strippedHost_bracketed hdot]
  obtain hprivate | ⟨embedded, hmapped, hembedded⟩ | ⟨embedded, ⟨high, low, hpieces, rfl⟩, hembedded⟩ :=
    hlisted
  · refine iff_of_true (checkHost_private hprivate) ?_
    rintro embedded ⟨high, low, hpieces, _⟩
    obtain ⟨first, rest, hpieces', hfirst⟩ := hprivate
    obtain ⟨rfl, -⟩ := List.cons.inj (hpieces'.symm.trans hpieces)
    exact absurd hfirst (by decide)
  · refine iff_of_true (checkHost_mapped hmapped hembedded) ?_
    rintro embedded ⟨high, low, hpieces, _⟩
    obtain ⟨high', low', hpieces', -⟩ := hmapped
    exact absurd (hpieces.symm.trans hpieces') (by simp)
  · rw [checkHost_compatible hpieces hembedded]
    constructor
    · rintro h embedded ⟨high', low', hpieces', hembedded'⟩
      have heq := hpieces.symm.trans hpieces'
      simp only [List.cons.injEq, true_and, and_true] at heq
      obtain ⟨rfl, rfl⟩ := heq
      obtain rfl := hembedded'
      exact h
    · intro h
      exact h _ ⟨high, low, hpieces, rfl⟩

/-! ## The guard -/

theorem toLower_gitAllowedSchemes : ∀ scheme ∈ gitAllowedSchemes,
    scheme.toList.map Char.toLower = scheme.toList := by
  decide

theorem checkHost_denotes (domainToAscii : List Char → Option (List Char)) (scheme : List Char)
    (hdenotes : denotes host = some address) (hlisted : Listed address) :
    ∃ hostname, parseHost domainToAscii scheme host = some hostname ∧ hostname ≠ [] ∧
      ((checkHost (strippedHost (hostname.map Char.toLower))).ok = false ↔
        Recognised scheme host address) := by
  cases address with
  | v6 address =>
    exact ⟨_, parseHost_v6 hdenotes, List.cons_ne_nil _ _, checkHost_ipv6 hlisted⟩
  | v4 address =>
    cases hspecial : isSpecial scheme with
    | true =>
      refine ⟨_, parseHost_special hdenotes hspecial, ?_, ?_⟩
      · obtain ⟨rest, htext, -⟩ := address.text_eq
        rw [htext, dotted, List.flatMap_cons, List.append_assoc, List.append_assoc]
        exact List.append_ne_nil_of_right_ne_nil _ (List.cons_ne_nil _ _)
      · exact ⟨fun _ => .inl hspecial, fun _ => checkHost_text hlisted⟩
    | false =>
      have haddress := (denotes_v4 hdenotes).1
      refine ⟨_, parseHost_opaque hdenotes hspecial, ne_nil_of_inetAton haddress, ?_⟩
      rw [checkHost_written haddress]
      refine ⟨.inr, fun h => h.resolve_left ?_⟩
      rw [hspecial]
      decide

/-- The guard refuses an URL whose host denotes a listed address exactly if it has a password or its host is
written as the guard knows it. -/
theorem checkUrlSafety_refuses_iff (domainToAscii : List Char → Option (List Char))
    (url : List Char) (parts : UrlParts) (hsplit : splitUrl url = some parts)
    (hscheme : String.ofList (parts.scheme ++ [':']) ∈ gitAllowedSchemes)
    (hhost : parts.host = some host) (hdenotes : denotes host = some address)
    (hlisted : Listed address) :
    (checkUrlSafety domainToAscii url gitOptions).ok = false ↔
      parts.password ≠ [] ∨ Recognised parts.scheme host address := by
  obtain ⟨hostname, hhostname, hne, hiff⟩ :=
    checkHost_denotes domainToAscii parts.scheme hdenotes hlisted
  have hurl : newURL domainToAscii url = some {
      protocol := parts.scheme ++ [':'], username := parts.username, password := parts.password
      hostname } := by
    unfold newURL
    rw [hsplit]
    dsimp only
    rw [hhost]
    dsimp only
    rw [hhostname]
    rfl
  have hlower : (parts.scheme ++ [':']).map Char.toLower = parts.scheme ++ [':'] := by
    have h := toLower_gitAllowedSchemes _ hscheme
    rw [String.toList_ofList] at h
    exact h
  unfold checkUrlSafety
  rw [hurl]
  dsimp only
  rw [hlower, if_neg (fun h => h hscheme)]
  by_cases hpassword : parts.password ≠ []
  · rw [if_pos hpassword]
    exact ⟨fun _ => .inl hpassword, fun _ => rfl⟩
  · rw [if_neg hpassword, if_neg (fun h => h.2 rfl), if_neg hne, hiff]
    exact ⟨.inr, fun h => h.resolve_left hpassword⟩

/-! ## An integer for a host -/

def loopback : Ipv4 := ⟨127, 0, 0, 1⟩

theorem listed_loopback : Listed (.v4 loopback) := by
  refine ⟨[127], by decide, ?_⟩
  decide

/-- The short form of a loopback address is refused, in a scheme that is not special too. -/
theorem refuses_short :
    (checkUrlSafety (fun _ => none) "ssh://git@127.1/a.git".toList gitOptions).ok = false := by
  have hiff := checkUrlSafety_refuses_iff (fun _ => none) "ssh://git@127.1/a.git".toList
    { scheme := "ssh".toList, username := "git".toList, host := some "127.1".toList }
    (by decide) (by decide) rfl (by decide) listed_loopback
  refine hiff.mpr (.inr (.inr ⟨[127], by decide, by decide, ?_⟩))
  exact List.isPrefixOf_iff_prefix.mp (by decide)

theorem not_refuses : ¬∀ (domainToAscii : List Char → Option (List Char)) (url : List Char)
    (parts : UrlParts) (host : List Char) (address : Address), splitUrl url = some parts →
    String.ofList (parts.scheme ++ [':']) ∈ gitAllowedSchemes → parts.host = some host →
    denotes host = some address → Listed address →
      (checkUrlSafety domainToAscii url gitOptions).ok = false := by
  intro h
  have hrefuses := h (fun _ => none) "ssh://git@2130706433/a.git".toList
    { scheme := "ssh".toList, username := "git".toList, host := some "2130706433".toList }
    "2130706433".toList (.v4 loopback) (by decide) (by decide) rfl (by decide)
    listed_loopback
  exact absurd hrefuses (by decide)

end OpenLander.Lib.UrlSafety
