import OpenLander.Theory.Collections
import Mathlib.Data.Nat.Digits.Defs
import OpenLander.Compose.Interpolate
import OpenLander.Theory.Subnet

/-! # The pool of project networks

How a new Docker network gets its subnet (`src/pipeline/docker/network.ts`): the pool is divided into
subnets of prefix length 24, and the first one that no network occupies is taken. The status report
goes through the pool a second time. Texts are lists of characters. -/

namespace OpenLander.Pipeline.Network
open Theory
open Compose (trim)
open scoped Members

def projectNetworkSubnetPrefix : Nat := 24

/-! ## Texts -/

/-- `\d` -/
def isDigit (c : Char) : Bool := c ∈ "0123456789".toList

def digitValue (c : Char) : Nat := c.toNat - '0'.toNat

/-- `Number`, of digits. -/
def number (digits : List Char) : Nat := digits.foldl (fun n c => n * 10 + digitValue c) 0

/-- `/^(0|[1-9]\d{0,2})$/` -/
def isOctetText : List Char → Bool
  | [] => false
  | c :: cs => isDigit c && if c = '0' then cs.isEmpty else cs.length ≤ 2 && cs.all isDigit

def parseOctet (part : List Char) : Option Nat :=
  if isOctetText part ∧ number part ≤ 255 then some (number part) else none

def parseIpv4Address (value : List Char) : Option Nat :=
  let parts := value.splitOn '.'
  if parts.length ≠ 4 then none
  else parts.foldlM (fun result part => (parseOctet part).map (result * 256 + ·)) 0

/-- A number in a template string. -/
def decimal (n : Nat) : List Char := Nat.toDigits 10 n

def formatIpv4Address (value : Nat) : List Char :=
  ['.'].intercalate [decimal (value / 2 ^ 24), decimal (value / 2 ^ 16 % 256),
    decimal (value / 2 ^ 8 % 256), decimal (value % 256)]

structure Ipv4CidrRange where
  start : Nat
  last : Nat
  prefixLength : Nat
  cidr : List Char
  deriving DecidableEq

def cidrText (start prefixLength : Nat) : List Char :=
  formatIpv4Address start ++ '/' :: decimal prefixLength

/-- `/^([^/]+)\/(\d{1,2})$/` has two groups, and `\d{1,2}` is the second. -/
def isPrefixText (text : List Char) : Bool :=
  text ≠ [] && text.length ≤ 2 && text.all isDigit

/-- The range around an address, where the prefix length can be one. -/
def rangeOf (prefixLength address : Nat) : Option Ipv4CidrRange :=
  if prefixLength ≤ 32 then
    let size := 2 ^ (32 - prefixLength)
    let start := address / size * size
    some ⟨start, start + size - 1, prefixLength, cidrText start prefixLength⟩
  else none

def parseIpv4Cidr (value : List Char) : Option Ipv4CidrRange :=
  match (trim value).splitOn '/' with
  | [addressText, prefixText] =>
    if isPrefixText prefixText then
      (parseIpv4Address addressText).bind (rangeOf (number prefixText))
    else none
  | _ => none

def rangesOverlap (left right : Ipv4CidrRange) : Bool :=
  left.start ≤ right.last ∧ right.start ≤ left.last

/-! ## The pool -/

/-- `ServiceConfigError` -/
structure ServiceConfigError where
  message : List Char
  deriving DecidableEq

def projectNetworkPool (projectNetworkPoolCidr : List Char) :
    Except ServiceConfigError Ipv4CidrRange :=
  let configured := trim projectNetworkPoolCidr
  match (parseIpv4Cidr configured).filter fun pool =>
    pool.cidr = configured ∧ 12 ≤ pool.prefixLength ∧
      pool.prefixLength ≤ projectNetworkSubnetPrefix with
  | some pool => .ok pool
  | none => .error
    ⟨"docker.projectNetworkPoolCidr must be a canonical IPv4 CIDR between /12 and /24: ".toList ++
      configured⟩

/-- A Docker network: the `Subnet` of each entry of its `IPAM.Config`. -/
structure NetworkInfo where
  subnets : List (Option (List Char))

/-- `DockerNetworkSummary` -/
structure NetworkSummary where
  subnets : List (List Char)

def summarizeNetwork (info : NetworkInfo) : NetworkSummary where
  subnets := (info.subnets.filterMap id).filter (· ≠ [])

def occupiedIpv4Ranges (networks : List NetworkInfo) (additionalCidrs : List (List Char)) :
    List Ipv4CidrRange :=
  networks.flatMap (fun network => network.subnets.filterMap (·.bind parseIpv4Cidr)) ++
    additionalCidrs.filterMap parseIpv4Cidr

def subnetSize : Nat := 2 ^ (32 - projectNetworkSubnetPrefix)

def totalSubnets (pool : Ipv4CidrRange) : Nat :=
  2 ^ (projectNetworkSubnetPrefix - pool.prefixLength)

def candidate (pool : Ipv4CidrRange) (index : Nat) : Ipv4CidrRange :=
  let start := pool.start + index * subnetSize
  ⟨start, start + subnetSize - 1, projectNetworkSubnetPrefix,
    cidrText start projectNetworkSubnetPrefix⟩

/-- The test that both loops make. -/
def isOccupied (occupied : List Ipv4CidrRange) (candidate : Ipv4CidrRange) : Bool :=
  occupied.any (rangesOverlap candidate)

def availableProjectSubnet (projectNetworkPoolCidr : List Char) (networks : List NetworkInfo)
    (additionalCidrs : List (List Char)) : Except ServiceConfigError (Option (List Char)) := do
  let pool ← projectNetworkPool projectNetworkPoolCidr
  let occupied := occupiedIpv4Ranges networks additionalCidrs
  return (((List.range (totalSubnets pool)).map (candidate pool)).find?
    (!isOccupied occupied ·)).map (·.cidr)

inductive Pressure
  | ok
  | low
  | exhausted
  deriving DecidableEq, Repr

structure ProjectNetworkPoolStatus where
  cidr : List Char
  subnetPrefix : Nat
  totalSubnets : Nat
  unavailableSubnets : Nat
  availableSubnets : Nat
  pressure : Pressure
  deriving DecidableEq

/-- A twentieth of a power of two is never a whole number above 0, so that the source's
`Math.ceil(totalSubnets * 0.05)` does not depend on rounding. -/
def pressureOf (totalSubnets availableSubnets : Nat) : Pressure :=
  if availableSubnets = 0 then .exhausted
  else if availableSubnets ≤ max 4 ((totalSubnets + 19) / 20) then .low
  else .ok

def getProjectNetworkPoolStatus (projectNetworkPoolCidr : List Char)
    (networks : List NetworkSummary) : Except ServiceConfigError ProjectNetworkPoolStatus := do
  let pool ← projectNetworkPool projectNetworkPoolCidr
  let occupied := occupiedIpv4Ranges (networks.map fun network => ⟨network.subnets.map some⟩) []
  let unavailableSubnets :=
    ((List.range (totalSubnets pool)).map (candidate pool)).countP (isOccupied occupied)
  let availableSubnets := totalSubnets pool - unavailableSubnets
  return {
    cidr := pool.cidr
    subnetPrefix := projectNetworkSubnetPrefix
    totalSubnets := totalSubnets pool
    unavailableSubnets
    availableSubnets
    pressure := pressureOf (totalSubnets pool) availableSubnets }

/-! ## Reading addresses -/

theorem isDigit_iff : isDigit c ↔ c ∈ "0123456789".toList := by simp [isDigit]

theorem not_whitespace_of_digit : ∀ c ∈ "0123456789".toList, isWhitespace c = false := by
  decide

theorem octet_decimal : ∀ n < 256, parseOctet (decimal n) = some n ∧ '.' ∉ decimal n ∧
    ∀ c ∈ decimal n, isDigit c := by
  decide +kernel

theorem decimal_number_one : ∀ c ∈ "0123456789".toList, decimal (number [c]) = [c] := by
  decide

theorem decimal_number_two : ∀ c ∈ "0123456789".toList, ∀ d ∈ "0123456789".toList, c ≠ '0' →
    decimal (number [c, d]) = [c, d] := by
  decide

theorem decimal_number_three : ∀ c ∈ "0123456789".toList, ∀ d ∈ "0123456789".toList,
    ∀ e ∈ "0123456789".toList, c ≠ '0' → decimal (number [c, d, e]) = [c, d, e] := by
  decide +kernel

theorem decimal_number (h : isOctetText part) : decimal (number part) = part := by
  cases part with
  | nil => exact nomatch h
  | cons c cs =>
    rw [isOctetText, Bool.and_eq_true, isDigit_iff] at h
    obtain ⟨hc, hcs⟩ := h
    by_cases hzero : c = '0'
    · rw [if_pos hzero, List.isEmpty_iff] at hcs
      rw [hcs]
      exact decimal_number_one c hc
    · rw [if_neg hzero, Bool.and_eq_true, decide_eq_true_iff, List.all_eq_true] at hcs
      obtain ⟨hlength, hdigits⟩ := hcs
      match cs, hlength with
      | [], _ => exact decimal_number_one c hc
      | [d], _ =>
        exact decimal_number_two c hc d (isDigit_iff.mp (hdigits d (by simp))) hzero
      | [d, e], _ =>
        exact decimal_number_three c hc d (isDigit_iff.mp (hdigits d (by simp)))
          e (isDigit_iff.mp (hdigits e (by simp))) hzero

theorem parseOctet_eq_some : parseOctet part = some n ↔ n < 256 ∧ part = decimal n := by
  constructor
  · intro h
    rw [parseOctet, Option.ite_none_right_eq_some] at h
    obtain ⟨⟨htext, hle⟩, heq⟩ := h
    obtain rfl := Option.some.inj heq
    exact ⟨Nat.lt_succ_of_le hle, (decimal_number htext).symm⟩
  · rintro ⟨hlt, rfl⟩
    exact (octet_decimal n hlt).1

/-- The address of four octets. -/
def ofOctets (a b c d : Nat) : Nat := ((a * 256 + b) * 256 + c) * 256 + d

theorem formatIpv4Address_ofOctets (_ : a < 256) (hb : b < 256) (hc : c < 256) (hd : d < 256) :
    formatIpv4Address (ofOctets a b c d) =
      ['.'].intercalate [decimal a, decimal b, decimal c, decimal d] := by
  have h₁ : ofOctets a b c d / 2 ^ 24 = a := by rw [ofOctets]; omega
  have h₂ : ofOctets a b c d / 2 ^ 16 % 256 = b := by rw [ofOctets]; omega
  have h₃ : ofOctets a b c d / 2 ^ 8 % 256 = c := by rw [ofOctets]; omega
  have h₄ : ofOctets a b c d % 256 = d := by rw [ofOctets]; omega
  rw [formatIpv4Address, h₁, h₂, h₃, h₄]

theorem exists_octets (h : address < 2 ^ 32) :
    ∃ a b c d, a < 256 ∧ b < 256 ∧ c < 256 ∧ d < 256 ∧ address = ofOctets a b c d := by
  refine ⟨address / 2 ^ 24, address / 2 ^ 16 % 256, address / 2 ^ 8 % 256, address % 256, ?_, ?_, ?_,
    ?_, ?_⟩
  · omega
  · omega
  · omega
  · omega
  · rw [ofOctets]
    omega

theorem ofOctets_lt (ha : a < 256) (hb : b < 256) (hc : c < 256) (hd : d < 256) :
    ofOctets a b c d < 2 ^ 32 := by
  rw [ofOctets]
  omega

/-- The parts of a text with four of them. -/
theorem parseIpv4Address_eq_some : parseIpv4Address value = some address ↔
    address < 2 ^ 32 ∧ value = formatIpv4Address address := by
  constructor
  · intro h
    rw [parseIpv4Address] at h
    split at h
    · exact nomatch h
    next hlength =>
      have hvalue : value = ['.'].intercalate (value.splitOn '.') :=
        (List.intercalate_splitOn '.').symm
      match hparts : value.splitOn '.', Decidable.not_not.mp hlength with
      | [p, q, r, t], _ =>
        rw [hparts] at h hvalue
        simp only [List.foldlM_cons, List.foldlM_nil, Option.bind_eq_bind,
          Option.bind_eq_some_iff, Option.map_eq_some_iff, Option.pure_def,
          Option.some.injEq, exists_eq_right] at h
        obtain ⟨_, ⟨a, hp, rfl⟩, _, ⟨b, hq, rfl⟩, _, ⟨c, hr, rfl⟩, d, ht, rfl⟩ := h
        obtain ⟨ha, rfl⟩ := parseOctet_eq_some.mp hp
        obtain ⟨hb, rfl⟩ := parseOctet_eq_some.mp hq
        obtain ⟨hc, rfl⟩ := parseOctet_eq_some.mp hr
        obtain ⟨hd, rfl⟩ := parseOctet_eq_some.mp ht
        rw [Nat.zero_mul, Nat.zero_add]
        exact ⟨ofOctets_lt ha hb hc hd, hvalue.trans (formatIpv4Address_ofOctets ha hb hc hd).symm⟩
  · rintro ⟨hlt, rfl⟩
    obtain ⟨a, b, c, d, ha, hb, hc, hd, rfl⟩ := exists_octets hlt
    have hsplit : (formatIpv4Address (ofOctets a b c d)).splitOn '.' =
        [decimal a, decimal b, decimal c, decimal d] := by
      rw [formatIpv4Address_ofOctets ha hb hc hd]
      refine List.splitOn_intercalate '.' ?_ (List.cons_ne_nil _ _)
      simp only [List.forall_mem_cons, List.not_mem_nil, false_implies, implies_true, and_true]
      exact ⟨(octet_decimal a ha).2.1, (octet_decimal b hb).2.1, (octet_decimal c hc).2.1,
        (octet_decimal d hd).2.1⟩
    simp only [parseIpv4Address, hsplit, List.length_cons, List.length_nil, List.foldlM_cons,
      List.foldlM_nil, (octet_decimal a ha).1, (octet_decimal b hb).1, (octet_decimal c hc).1,
      (octet_decimal d hd).1, Option.map_some, Option.bind_eq_bind, Option.bind_some,
      Nat.zero_mul, Nat.zero_add, Option.pure_def]
    rfl

theorem formatIpv4Address_chars (h : address < 2 ^ 32) :
    ∀ c ∈ formatIpv4Address address, c = '.' ∨ isDigit c := by
  obtain ⟨a, b, c, d, ha, hb, hc, hd, rfl⟩ := exists_octets h
  intro x hx
  rw [formatIpv4Address_ofOctets ha hb hc hd] at hx
  simp only [List.intercalate_cons_cons, List.intercalate_singleton, List.mem_append,
    List.mem_singleton, or_assoc] at hx
  rcases hx with hx | hx | hx | hx | hx | hx | hx
  · exact .inr ((octet_decimal a ha).2.2 x hx)
  · exact .inl hx
  · exact .inr ((octet_decimal b hb).2.2 x hx)
  · exact .inl hx
  · exact .inr ((octet_decimal c hc).2.2 x hx)
  · exact .inl hx
  · exact .inr ((octet_decimal d hd).2.2 x hx)

/-! ## Reading subnets -/

/-- The text is an address and a prefix length, whose subnet it denotes. -/
def Denotes (value : List Char) (S : Subnet 32) : Prop :=
  ∃ address prefixText, ∃ h : address < 2 ^ 32, ∃ hle : number prefixText ≤ 32,
    trim value = formatIpv4Address address ++ '/' :: prefixText ∧ isPrefixText prefixText ∧
    S = .ofAddress address (number prefixText) h hle

end OpenLander.Pipeline.Network

namespace OpenLander.Theory.Subnet
open Pipeline.Network

/-- The canonical text of a subnet. -/
def cidr (S : Subnet 32) : List Char := cidrText S.first S.len

def range (S : Subnet 32) : Ipv4CidrRange := ⟨S.first, S.last, S.len, S.cidr⟩

end OpenLander.Theory.Subnet

namespace OpenLander.Pipeline.Network
open Theory Compose

theorem not_slash_mem {s : List Char} (h : ∀ c ∈ s, c = '.' ∨ isDigit c) : '/' ∉ s := fun hmem => by
  have hslash := h '/' hmem
  revert hslash
  decide

theorem splitOn_slash (h : address < 2 ^ 32) (hp : isPrefixText prefixText) :
    (formatIpv4Address address ++ '/' :: prefixText).splitOn '/' =
      [formatIpv4Address address, prefixText] := by
  have hdigits : ∀ c ∈ prefixText, c = '.' ∨ isDigit c := by
    rw [isPrefixText, Bool.and_eq_true, List.all_eq_true] at hp
    exact fun c hc => .inr (hp.2 c hc)
  rw [List.splitOn_append_cons_self_of_not_mem (not_slash_mem (formatIpv4Address_chars h)),
    List.splitOn_eq_singleton (not_slash_mem hdigits)]

theorem rangeOf_eq_some (h : address < 2 ^ 32) : rangeOf len address = some r ↔
    ∃ hle : len ≤ 32, r = (Subnet.ofAddress (w := 32) address len h hle).range := by
  rw [rangeOf]
  split
  next hle =>
    rw [Option.some.injEq, exists_prop_of_true hle]
    exact eq_comm
  next hle =>
    refine iff_of_false nofun ?_
    rintro ⟨hle', -⟩
    exact hle hle'

/-- What is read is the range of the subnet that the text denotes. -/
theorem parseIpv4Cidr_eq_some : parseIpv4Cidr value = some r ↔ ∃ S, Denotes value S ∧ r = S.range := by
  constructor
  · intro h
    rw [parseIpv4Cidr] at h
    split at h
    next addressText prefixText hsplit =>
      have hvalue : trim value = addressText ++ '/' :: prefixText := by
        calc
          trim value = ['/'].intercalate ((trim value).splitOn '/') :=
            (List.intercalate_splitOn '/').symm
          _ = addressText ++ '/' :: prefixText := by
            rw [hsplit]
            simp
      obtain ⟨hp, h⟩ := Option.ite_none_right_eq_some.mp h
      obtain ⟨address, haddress, hrange⟩ := Option.bind_eq_some_iff.mp h
      obtain ⟨hlt, rfl⟩ := parseIpv4Address_eq_some.mp haddress
      obtain ⟨hle, rfl⟩ := (rangeOf_eq_some hlt).mp hrange
      exact ⟨_, ⟨address, prefixText, hlt, hle, hvalue, hp, rfl⟩, rfl⟩
    · exact nomatch h
  · rintro ⟨S, ⟨address, prefixText, hlt, hle, hvalue, hp, rfl⟩, rfl⟩
    have haddress := parseIpv4Address_eq_some.mpr ⟨hlt, rfl⟩
    simp only [parseIpv4Cidr, hvalue, splitOn_slash hlt hp, hp, if_true, haddress,
      Option.bind_some]
    exact (rangeOf_eq_some hlt).mpr ⟨hle, rfl⟩

theorem trim_eq_self {s : List Char} (h : ∀ c ∈ s, isWhitespace c = false) : trim s = s := by
  have hdrop {t : List Char} (ht : ∀ c ∈ t, isWhitespace c = false) :
      t.dropWhile isWhitespace = t := by
    cases t with
    | nil => rfl
    | cons c cs => exact List.dropWhile_cons_of_neg (by simp [ht c])
  rw [trim, hdrop h, hdrop (fun c hc => h c (List.mem_reverse.mp hc)), List.reverse_reverse]

theorem prefix_decimal : ∀ n ≤ 32, isPrefixText (decimal n) ∧ number (decimal n) = n := by
  decide

theorem denotes_cidr (S : Subnet 32) : Denotes S.cidr S := by
  obtain ⟨hp, hnumber⟩ := prefix_decimal S.len S.len_le
  refine ⟨S.first, decimal S.len, S.first_lt, hnumber.symm ▸ S.len_le, ?_, hp, ?_⟩
  · refine trim_eq_self fun c hc => ?_
    have hchars : c = '.' ∨ c = '/' ∨ isDigit c := by
      rcases List.mem_append.mp hc with hc | hc
      · exact (formatIpv4Address_chars S.first_lt c hc).imp_right .inr
      · rw [isPrefixText, Bool.and_eq_true, List.all_eq_true] at hp
        exact .inr ((List.mem_cons.mp hc).imp_right (hp.2 c))
    rcases hchars with rfl | rfl | hdigit
    · decide
    · decide
    · exact not_whitespace_of_digit c (isDigit_iff.mp hdigit)
  · refine S.ofAddress_first.symm.trans ?_
    simp only [hnumber]

/-! ## Ranges of subnets -/

theorem rangesOverlap_range (S T : Subnet 32) : rangesOverlap S.range T.range ↔ S.Overlaps T := by
  rw [S.overlaps_iff, rangesOverlap, decide_eq_true_iff]
  rfl

/-- The configuration is accepted exactly if it is the canonical text of a subnet of a size between
these. -/
theorem projectNetworkPool_eq_ok : projectNetworkPool projectNetworkPoolCidr = .ok pool ↔
    ∃ P : Subnet 32, trim projectNetworkPoolCidr = P.cidr ∧ 12 ≤ P.len ∧ P.len ≤ 24 ∧
      pool = P.range := by
  have hok (o : Option Ipv4CidrRange) (e : ServiceConfigError) :
      (match o with | some pool => Except.ok pool | none => .error e) = .ok pool ↔
        o = some pool := by
    cases o <;> simp
  rw [projectNetworkPool, hok, Option.filter_eq_some_iff, parseIpv4Cidr_eq_some, decide_eq_true_iff]
  constructor
  · rintro ⟨⟨P, -, rfl⟩, hcidr, hle, hlen⟩
    exact ⟨P, hcidr.symm, hle, hlen, rfl⟩
  · rintro ⟨P, htext, hle, hlen, rfl⟩
    exact ⟨⟨P, htext ▸ denotes_cidr P, rfl⟩, htext.symm, hle, hlen⟩

section
variable (networks : List NetworkInfo) (rejected : List (Subnet 32)) (P S : Subnet 32)

/-- A network has the subnet. -/
def Occupies : Prop :=
  ∃ network ∈ networks, ∃ text, some text ∈ network.subnets ∧ Denotes text S

/-- A subnet that a new network may get: it is within the pool, it overlaps no subnet of a network,
and it has not been rejected. -/
structure Allocatable : Prop where
  len : S.len = projectNetworkSubnetPrefix
  within : S.Within P
  free : ∀ T, Occupies networks T → ¬S.Overlaps T
  not_rejected : S ∉ rejected

/-- The first of these. -/
structure LowestAllocatable : Prop where
  allocatable : Allocatable networks rejected P S
  lowest : ∀ T, Allocatable networks rejected P T → S.first ≤ T.first

end

variable {networks : List NetworkInfo} {rejected : List (Subnet 32)} {P S T : Subnet 32}

theorem range_injective (h : S.range = T.range) : S = T := by
  have hlen : S.len = T.len := congrArg Ipv4CidrRange.prefixLength h
  have hfirst : S.first = T.first := congrArg Ipv4CidrRange.start h
  refine Subnet.ext' hlen ?_
  rw [← S.contains_first, ← T.contains_first, hfirst, Subnet.size, Subnet.size, hlen]

theorem Denotes.unique (hS : Denotes value S) (hT : Denotes value T) : S = T := by
  have hS := parseIpv4Cidr_eq_some.mpr ⟨S, hS, rfl⟩
  have hT := parseIpv4Cidr_eq_some.mpr ⟨T, hT, rfl⟩
  exact range_injective (Option.some.inj (hS.symm.trans hT))

theorem mem_occupiedIpv4Ranges {additionalCidrs : List (List Char)} :
    r ∈ occupiedIpv4Ranges networks additionalCidrs ↔
      ∃ T, (Occupies networks T ∨ ∃ text ∈ additionalCidrs, Denotes text T) ∧ r = T.range := by
  simp only [occupiedIpv4Ranges, List.mem_append, List.mem_flatMap, List.mem_filterMap,
    Option.bind_eq_some_iff, parseIpv4Cidr_eq_some]
  constructor
  · rintro (⟨network, hnetwork, subnet, hsubnet, text, rfl, T, hT, rfl⟩ | ⟨text, htext, T, hT, rfl⟩)
    · exact ⟨T, .inl ⟨network, hnetwork, text, hsubnet, hT⟩, rfl⟩
    · exact ⟨T, .inr ⟨text, htext, hT⟩, rfl⟩
  · rintro ⟨T, ⟨network, hnetwork, text, hsubnet, hT⟩ | ⟨text, htext, hT⟩, rfl⟩
    · exact .inl ⟨network, hnetwork, some text, hsubnet, text, rfl, T, hT, rfl⟩
    · exact .inr ⟨text, htext, T, hT, rfl⟩

theorem isOccupied_range {additionalCidrs : List (List Char)} :
    isOccupied (occupiedIpv4Ranges networks additionalCidrs) S.range ↔
      ∃ T, (Occupies networks T ∨ ∃ text ∈ additionalCidrs, Denotes text T) ∧ S.Overlaps T := by
  simp only [isOccupied, List.any_eq_true, mem_occupiedIpv4Ranges]
  constructor
  · rintro ⟨_, ⟨T, hT, rfl⟩, hoverlap⟩
    exact ⟨T, hT, (rangesOverlap_range S T).mp hoverlap⟩
  · rintro ⟨T, hT, hoverlap⟩
    exact ⟨T.range, ⟨T, hT, rfl⟩, (rangesOverlap_range S T).mpr hoverlap⟩

/-- The test of both loops, on a subnet of the pool. -/
theorem allocatable_iff (hrejected : ∀ R ∈ rejected, R.len = projectNetworkSubnetPrefix)
    (hlen : S.len = projectNetworkSubnetPrefix) (hwithin : S.Within P) :
    Allocatable networks rejected P S ↔
      ¬isOccupied (occupiedIpv4Ranges networks (rejected.map (·.cidr))) S.range := by
  rw [isOccupied_range]
  constructor
  · rintro h ⟨T, hT | ⟨text, htext, hT⟩, hoverlap⟩
    · exact h.free T hT hoverlap
    · obtain ⟨R, hR, rfl⟩ := List.mem_map.mp htext
      obtain rfl := hT.unique (denotes_cidr R)
      obtain rfl := (Subnet.overlaps_iff_eq (hlen.trans (hrejected T hR).symm)).mp hoverlap
      exact h.not_rejected hR
  · intro h
    refine ⟨hlen, hwithin, fun T hT hoverlap => h ⟨T, .inl hT, hoverlap⟩, fun hmem => h ?_⟩
    exact ⟨S, .inr ⟨S.cidr, List.mem_map_of_mem hmem, denotes_cidr S⟩, S.overlaps_self⟩

section
variable (hlen : P.len ≤ 24)

/-- The candidate of an index, as a subnet. -/
def candidateSubnet (P : Subnet 32) (hlen : P.len ≤ 24) (i : Nat) (hi : i < 2 ^ (24 - P.len)) :
    Subnet 32 :=
  P.child 24 hlen (by decide) i hi

theorem candidate_range (hi : i < 2 ^ (24 - P.len)) :
    candidate P.range i = (candidateSubnet P hlen i hi).range := by
  have hfirst : (candidateSubnet P hlen i hi).first = P.first + i * subnetSize :=
    Subnet.first_child hi
  have hlast : (candidateSubnet P hlen i hi).last = P.first + i * subnetSize + subnetSize - 1 := by
    rw [Subnet.last, hfirst]
    rfl
  simp only [Subnet.range, Subnet.cidr, hfirst, hlast, candidate]
  rfl

theorem first_candidateSubnet_le (hi : i < 2 ^ (24 - P.len)) (hj : j < 2 ^ (24 - P.len)) :
    (candidateSubnet P hlen i hi).first ≤ (candidateSubnet P hlen j hj).first ↔ i ≤ j := by
  have hpos : 0 < 2 ^ (32 - 24) := by decide
  rw [candidateSubnet, candidateSubnet, Subnet.first_child, Subnet.first_child,
    Nat.add_le_add_iff_left, Nat.mul_le_mul_right_iff hpos]

/-- What may be allocated is among the candidates. -/
theorem Allocatable.exists_candidate (h : Allocatable networks rejected P S) :
    ∃ i, ∃ hi : i < 2 ^ (24 - P.len), S = candidateSubnet P hlen i hi := by
  obtain ⟨len, index, hle, hlt⟩ := S
  obtain rfl : len = 24 := h.len
  exact (Subnet.within_iff_child hlen).mp h.within

end

/-! ## Allocation -/

section
variable {projectNetworkPoolCidr : List Char}

/-- The index that the loop stops at. -/
def firstFree (occupied : List Ipv4CidrRange) (pool : Ipv4CidrRange) : Option Nat :=
  (List.range (totalSubnets pool)).find? fun i => !isOccupied occupied (candidate pool i)

theorem availableProjectSubnet_eq {additionalCidrs : List (List Char)}
    (hpool : projectNetworkPool projectNetworkPoolCidr = .ok pool) :
    availableProjectSubnet projectNetworkPoolCidr networks additionalCidrs =
      .ok ((firstFree (occupiedIpv4Ranges networks additionalCidrs) pool).map
        fun i => (candidate pool i).cidr) := by
  rw [availableProjectSubnet, hpool, firstFree]
  simp only [List.find?_map, Option.map_map]
  rfl

variable (hrejected : ∀ R ∈ rejected, R.len = projectNetworkSubnetPrefix) (hlen : P.len ≤ 24)

include hrejected in
theorem allocatable_candidate (hi : i < 2 ^ (24 - P.len)) :
    Allocatable networks rejected P (candidateSubnet P hlen i hi) ↔
      !isOccupied (occupiedIpv4Ranges networks (rejected.map (·.cidr))) (candidate P.range i) := by
  have hwithin : (candidateSubnet P hlen i hi).Within P := Subnet.child_within hi
  rw [allocatable_iff hrejected rfl hwithin, candidate_range hlen hi, Bool.not_eq_true,
    Bool.not_eq_true']

include hrejected in
/-- The loop stops at the lowest subnet that may be allocated. -/
theorem firstFree_eq_some :
    firstFree (occupiedIpv4Ranges networks (rejected.map (·.cidr))) P.range = some i ↔
      ∃ hi : i < 2 ^ (24 - P.len),
        LowestAllocatable networks rejected P (candidateSubnet P hlen i hi) := by
  rw [firstFree, List.find?_range_eq_some, List.mem_range]
  constructor
  · rintro ⟨hfree, hi, hbelow⟩
    have hi : i < 2 ^ (24 - P.len) := hi
    refine ⟨hi, (allocatable_candidate hrejected hlen hi).mpr hfree, fun T hT => ?_⟩
    obtain ⟨j, hj, rfl⟩ := hT.exists_candidate hlen
    rw [first_candidateSubnet_le]
    refine Nat.le_of_not_lt fun hji => ?_
    have hoccupied := hbelow j hji
    rw [(allocatable_candidate hrejected hlen hj).mp hT] at hoccupied
    exact nomatch hoccupied
  · rintro ⟨hi, hlowest⟩
    refine ⟨(allocatable_candidate hrejected hlen hi).mp hlowest.allocatable, hi, fun j hji => ?_⟩
    by_contra hfree
    have hj := hji.trans hi
    rw [Bool.not_eq_true, Bool.not_eq_false'] at hfree
    have hle := hlowest.lowest _ ((allocatable_candidate hrejected hlen hj).mpr hfree)
    exact Nat.not_le.mpr hji ((first_candidateSubnet_le hlen hi hj).mp hle)

include hrejected hlen in
theorem firstFree_eq_none :
    firstFree (occupiedIpv4Ranges networks (rejected.map (·.cidr))) P.range = none ↔
      ∀ S, ¬Allocatable networks rejected P S := by
  rw [firstFree, List.find?_range_eq_none]
  constructor
  · intro hnone S hS
    obtain ⟨i, hi, rfl⟩ := hS.exists_candidate hlen
    have hoccupied := hnone i hi
    rw [(allocatable_candidate hrejected hlen hi).mp hS] at hoccupied
    exact nomatch hoccupied
  · intro hnone i hi
    by_contra hfree
    rw [Bool.not_eq_true, Bool.not_eq_false'] at hfree
    exact hnone _ ((allocatable_candidate hrejected hlen hi).mpr hfree)

/-- The subnets of the summaries are those of the networks. -/
theorem occupies_summarizeNetwork :
    Occupies ((networks.map summarizeNetwork).map fun network => ⟨network.subnets.map some⟩) S ↔
      Occupies networks S := by
  simp only [Occupies, List.mem_map]
  constructor
  · rintro ⟨_, ⟨_, ⟨network, hnetwork, rfl⟩, rfl⟩, text, htext, hS⟩
    obtain ⟨_, hmem, heq⟩ := List.mem_map.mp htext
    obtain rfl := Option.some.inj heq
    have hmem := (List.mem_filter.mp hmem).1
    obtain ⟨_, hsubnet, rfl⟩ := List.mem_filterMap.mp hmem
    exact ⟨network, hnetwork, _, hsubnet, hS⟩
  · rintro ⟨network, hnetwork, text, htext, hS⟩
    refine ⟨_, ⟨_, ⟨network, hnetwork, rfl⟩, rfl⟩, text, List.mem_map_of_mem ?_, hS⟩
    refine List.mem_filter.mpr ⟨List.mem_filterMap.mpr ⟨some text, htext, rfl⟩, ?_⟩
    refine decide_eq_true fun hnil => ?_
    obtain ⟨address, prefixText, -, -, htrim, -⟩ := hS
    rw [hnil, show trim [] = [] from rfl] at htrim
    exact absurd htrim.symm (by simp)

/-- A free index is what the status counts. -/
theorem availableSubnets_pos {occupied : List Ipv4CidrRange} :
    0 < totalSubnets pool - ((List.range (totalSubnets pool)).map (candidate pool)).countP
      (isOccupied occupied) ↔ ∃ i, firstFree occupied pool = some i := by
  have hle := List.countP_le_length (p := isOccupied occupied)
    (l := (List.range (totalSubnets pool)).map (candidate pool))
  have hall := List.countP_eq_length (p := isOccupied occupied)
    (l := (List.range (totalSubnets pool)).map (candidate pool))
  rw [List.length_map, List.length_range] at hle hall
  rw [← Option.isSome_iff_exists, firstFree, List.find?_isSome, Nat.sub_pos_iff_lt,
    Nat.lt_iff_le_and_ne, and_iff_right hle, ne_eq, hall]
  simp only [List.mem_map, List.mem_range, forall_exists_index, and_imp, Bool.not_eq_true']
  constructor
  · intro h
    by_contra hnone
    refine h fun range i hi heq => ?_
    by_contra hfree
    exact hnone ⟨i, hi, heq ▸ Bool.eq_false_of_not_eq_true hfree⟩
  · rintro ⟨i, hi, hfree⟩ h
    exact nomatch hfree.symm.trans (h _ i hi rfl)

theorem occupied_summarizeNetwork (r : Ipv4CidrRange) :
    isOccupied (occupiedIpv4Ranges
      ((networks.map summarizeNetwork).map fun network => ⟨network.subnets.map some⟩) []) r =
      isOccupied (occupiedIpv4Ranges networks []) r := by
  rw [Bool.eq_iff_iff]
  simp only [isOccupied, List.any_eq_true, mem_occupiedIpv4Ranges, occupies_summarizeNetwork]

/-- For a pool that the configuration accepts: what is allocated is the lowest subnet that may be, and
the status reports one exactly if one is allocated. -/
theorem availableProjectSubnet_spec
    (hpool : projectNetworkPool projectNetworkPoolCidr = .ok pool)
    (hrejected : ∀ R ∈ rejected, R.len = projectNetworkSubnetPrefix) :
    ∃ P : Subnet 32, pool = P.range ∧ trim projectNetworkPoolCidr = P.cidr ∧
      (∀ subnet, availableProjectSubnet projectNetworkPoolCidr networks (rejected.map (·.cidr)) =
          .ok (some subnet) ↔
        ∃ S, LowestAllocatable networks rejected P S ∧ subnet = S.cidr) ∧
      (availableProjectSubnet projectNetworkPoolCidr networks (rejected.map (·.cidr)) = .ok none ↔
        ∀ S, ¬Allocatable networks rejected P S) ∧
      ∃ status, getProjectNetworkPoolStatus projectNetworkPoolCidr
          (networks.map summarizeNetwork) = .ok status ∧
        (0 < status.availableSubnets ↔ ∃ subnet,
          availableProjectSubnet projectNetworkPoolCidr networks [] = .ok (some subnet)) := by
  obtain ⟨P, htext, -, hlen, rfl⟩ := projectNetworkPool_eq_ok.mp hpool
  refine ⟨P, rfl, htext, fun subnet => ?_, ?_, ?_⟩
  · rw [availableProjectSubnet_eq hpool, Except.ok.injEq, Option.map_eq_some_iff]
    constructor
    · rintro ⟨i, hi, rfl⟩
      obtain ⟨hi, hlowest⟩ := (firstFree_eq_some hrejected hlen).mp hi
      exact ⟨_, hlowest, by rw [candidate_range hlen hi]; rfl⟩
    · rintro ⟨S, hlowest, rfl⟩
      obtain ⟨i, hi, rfl⟩ := hlowest.allocatable.exists_candidate hlen
      refine ⟨i, (firstFree_eq_some hrejected hlen).mpr ⟨hi, hlowest⟩, ?_⟩
      rw [candidate_range hlen hi]
      rfl
  · rw [availableProjectSubnet_eq hpool, Except.ok.injEq, Option.map_eq_none_iff]
    exact firstFree_eq_none hrejected hlen
  · refine ⟨_, by rw [getProjectNetworkPoolStatus, hpool]; rfl, ?_⟩
    simp only [availableProjectSubnet_eq hpool, Except.ok.injEq, Option.map_eq_some_iff]
    refine availableSubnets_pos.trans ?_
    simp only [firstFree, occupied_summarizeNetwork]
    exact ⟨fun ⟨i, hi⟩ => ⟨_, i, hi, rfl⟩, fun ⟨_, i, hi, _⟩ => ⟨i, hi⟩⟩

end

/-- `10.0.0.0/22` -/
def smallPool : Subnet 32 where
  len := 22
  index := 10 * 2 ^ 14
  len_le := by decide
  index_lt := by decide

/-- `10.0.1.0/24` -/
def secondSubnet : Subnet 32 where
  len := 24
  index := 10 * 2 ^ 16 + 1
  len_le := by decide
  index_lt := by decide

/-- A network on half of the first candidate, which has an IPv6 subnet as well. -/
def someNetwork : NetworkInfo := ⟨[some "10.0.0.0/25".toList, some "fd00::/64".toList]⟩

theorem availableProjectSubnet_smallPool : ∃ P S : Subnet 32,
    LowestAllocatable [someNetwork] [secondSubnet] P S ∧ "10.0.2.0/24".toList = S.cidr := by
  have hpool : projectNetworkPool "10.0.0.0/22".toList = .ok smallPool.range :=
    projectNetworkPool_eq_ok.mpr ⟨smallPool, by decide, by decide, by decide, rfl⟩
  have hfirst : (firstFree (occupiedIpv4Ranges [someNetwork] [secondSubnet.cidr])
      smallPool.range).map (fun i => (candidate smallPool.range i).cidr) =
      some "10.0.2.0/24".toList := by
    decide
  have hrejected : ∀ R ∈ [secondSubnet], R.len = projectNetworkSubnetPrefix := by decide
  obtain ⟨P, -, -, hsome, -⟩ := availableProjectSubnet_spec hpool hrejected
  exact ⟨P, (hsome _).mp ((availableProjectSubnet_eq hpool).trans (congrArg Except.ok hfirst))⟩

end OpenLander.Pipeline.Network
