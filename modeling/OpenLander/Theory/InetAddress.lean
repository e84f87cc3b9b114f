import OpenLander.Theory.Collections
import Mathlib.Data.List.Basic
import Mathlib.Data.Nat.Digits.Defs

/-! # Texts of internet addresses

IPv4 addresses by their octets and IPv6 addresses by their pieces. `inetAton` reads an IPv4 address as
resolvers do, from one to four numbers that are decimal, octal or hexadecimal. `urlIpv4`, `parseIpv6`
and the two `text`s are the parsers and serializers of the URL standard. -/

namespace OpenLander.Theory.Inet
open scoped Members

scoped instance neZero_octet : NeZero 256 := ⟨by decide⟩

scoped instance neZero_piece : NeZero 65536 := ⟨by decide⟩

structure Ipv4 where
  a : Fin 256
  b : Fin 256
  c : Fin 256
  d : Fin 256
  deriving DecidableEq, Repr

structure Ipv6 where
  pieces : List (Fin 65536)
  length_pieces : pieces.length = 8
  deriving DecidableEq, Repr

inductive Address
  | v4 (address : Ipv4)
  | v6 (address : Ipv6)
  deriving DecidableEq, Repr

/-! ## Numbers -/

/-- The value of a hexadecimal digit, and 16 for all other characters. -/
def digitValue (c : Char) : Nat :=
  if '0' ≤ c ∧ c ≤ '9' then c.toNat - '0'.toNat
  else if 'a' ≤ c ∧ c ≤ 'f' then c.toNat - 'a'.toNat + 10
  else if 'A' ≤ c ∧ c ≤ 'F' then c.toNat - 'A'.toNat + 10
  else 16

def number (radix : Nat) (text : List Char) : Option Nat :=
  if text ≠ [] ∧ ∀ c ∈ text, digitValue c < radix then
    some (text.foldl (fun value c => value * radix + digitValue c) 0)
  else none

def decimal (n : Nat) : List Char := Nat.toDigits 10 n

/-- The digits of a number of 16 bits. -/
def hexText (n : Nat) : List Char :=
  if n < 16 then [n.digitChar]
  else if n < 256 then [(n / 16).digitChar, (n % 16).digitChar]
  else if n < 4096 then [(n / 256).digitChar, (n / 16 % 16).digitChar, (n % 16).digitChar]
  else [(n / 4096).digitChar, (n / 256 % 16).digitChar, (n / 16 % 16).digitChar, (n % 16).digitChar]

/-! ## IPv4 -/

def Ipv4.ofNat (n : Nat) : Ipv4 where
  a := .ofNat 256 (n / 256 ^ 3)
  b := .ofNat 256 (n / 256 ^ 2)
  c := .ofNat 256 (n / 256)
  d := .ofNat 256 n

/-- The last number fills what the others leave. -/
def Ipv4.ofNumbers : List Nat → Option Ipv4
  | [n] => if n < 256 ^ 4 then some (.ofNat n) else none
  | [a, n] => if a < 256 ∧ n < 256 ^ 3 then some (.ofNat (a * 256 ^ 3 + n)) else none
  | [a, b, n] =>
    if a < 256 ∧ b < 256 ∧ n < 256 ^ 2 then some (.ofNat (a * 256 ^ 3 + b * 256 ^ 2 + n)) else none
  | [a, b, c, n] =>
    if a < 256 ∧ b < 256 ∧ c < 256 ∧ n < 256 then
      some (.ofNat (a * 256 ^ 3 + b * 256 ^ 2 + c * 256 + n))
    else none
  | _ => none

def Ipv4.text (address : Ipv4) : List Char :=
  ['.'].intercalate [decimal address.a, decimal address.b, decimal address.c, decimal address.d]

def atonNumber : List Char → Option Nat
  | '0' :: x :: rest => if x = 'x' ∨ x = 'X' then number 16 rest else number 8 (x :: rest)
  | text => number 10 text

def inetAton (text : List Char) : Option Ipv4 :=
  ((text.splitOn '.').mapM atonNumber).bind Ipv4.ofNumbers

/-- Here `0x` is a number too. -/
def urlNumber : List Char → Option Nat
  | '0' :: x :: rest =>
    if x = 'x' ∨ x = 'X' then if rest = [] then some 0 else number 16 rest else number 8 (x :: rest)
  | text => number 10 text

/-- The parts, without that after a dot at the end. -/
def urlParts (text : List Char) : List (List Char) :=
  let parts := text.splitOn '.'
  if parts.getLast? = some [] ∧ 1 < parts.length then parts.dropLast else parts

def urlIpv4 (text : List Char) : Option Ipv4 := ((urlParts text).mapM urlNumber).bind Ipv4.ofNumbers

def endsInNumber (text : List Char) : Bool :=
  match (urlParts text).getLast? with
  | some last => (last ≠ [] && last.all (digitValue · < 10)) || (urlNumber last).isSome
  | none => false

/-! ## IPv6 -/

/-- A decimal octet without leading zeros. -/
def strictOctet (part : List Char) : Option Nat :=
  if part.length = 1 ∨ part.head? ≠ some '0' then (number 10 part).filter (· < 256) else none

/-- The two pieces of an IPv4 address at the end. -/
def embeddedIpv4 (text : List Char) : Option (List (Fin 65536)) :=
  match text.splitOn '.' with
  | [a, b, c, d] => do
    let a ← strictOctet a
    let b ← strictOctet b
    let c ← strictOctet c
    let d ← strictOctet d
    return [.ofNat _ (a * 256 + b), .ofNat _ (c * 256 + d)]
  | _ => none

def piece (digits : List Char) : Fin 65536 := .ofNat _ ((number 16 digits).getD 0)

/-- The pieces, and where zeros are left out: behind so many of them. The digits are those of the piece
that is being read. -/
def ipv6Pieces : List Char → List Char → List (Fin 65536) → Option Nat →
    Option (List (Fin 65536) × Option Nat)
  | [], digits, pieces, compress =>
    some (if digits = [] then pieces else pieces ++ [piece digits], compress)
  | c :: rest, digits, pieces, compress =>
    if digits = [] ∧ pieces.length = 8 then none
    else if c = ':' then
      if digits = [] then
        if compress.isSome then none
        else ipv6Pieces rest [] (pieces ++ [0]) (some (pieces.length + 1))
      else if rest = [] then none
      else ipv6Pieces rest [] (pieces ++ [piece digits]) compress
    else if c = '.' then
      if digits = [] ∨ 6 < pieces.length then none
      else (embeddedIpv4 (digits ++ '.' :: rest)).map fun last => (pieces ++ last, compress)
    else if digitValue c < 16 ∧ digits.length < 4 then
      ipv6Pieces rest (digits ++ [c]) pieces compress
    else none

def parseIpv6 (text : List Char) : Option Ipv6 :=
  (match text with
    | ':' :: ':' :: rest => ipv6Pieces rest [] [0] (some 1)
    | ':' :: _ => none
    | text => ipv6Pieces text [] [] none).bind fun (pieces, compress) =>
  let filled := match compress with
    | some index => pieces.take index ++ List.replicate (8 - pieces.length) 0 ++ pieces.drop index
    | none => pieces
  if h : filled.length = 8 then some ⟨filled, h⟩ else none

/-- Where the first of the longest runs of zeros begins, if it has more than one. -/
def longestZeros : List (Fin 65536) → Nat → Option Nat → Nat → Option Nat → Nat → Option Nat
  | [], _, longest, longestSize, found, foundSize =>
    if longestSize < foundSize then found else longest
  | piece :: pieces, index, longest, longestSize, found, foundSize =>
    if piece ≠ 0 then
      if longestSize < foundSize then longestZeros pieces (index + 1) found foundSize none 0
      else longestZeros pieces (index + 1) longest longestSize none 0
    else
      longestZeros pieces (index + 1) longest longestSize (found.or (some index)) (foundSize + 1)

def piecesText (compress : Option Nat) : List (Fin 65536) → Nat → Bool → List Char
  | [], _, _ => []
  | piece :: pieces, index, ignoreZeros =>
    if ignoreZeros && piece = 0 then piecesText compress pieces (index + 1) true
    else if compress = some index then
      (if index = 0 then [':', ':'] else [':']) ++ piecesText compress pieces (index + 1) true
    else
      hexText piece ++ (if pieces = [] then [] else [':']) ++
        piecesText compress pieces (index + 1) false

def Ipv6.text (address : Ipv6) : List Char :=
  piecesText (longestZeros address.pieces 0 none 1 none 0) address.pieces 0 false

/-! ## Digits -/

theorem decimal_digits : ∀ n : Fin 256, ∀ c ∈ decimal n, c ∈ "0123456789".toList := by
  decide +kernel

theorem atonNumber_decimal : ∀ n : Fin 256, atonNumber (decimal n) = some n.val := by
  decide +kernel

theorem digitValue_digitChar : ∀ n < 16, digitValue n.digitChar = n ∧
    n.digitChar ∈ "0123456789abcdef".toList := by
  decide

/-- The digits as a list of numbers. -/
theorem hexText_eq (n : Nat) (h : n < 65536) :
    ∃ digits : List Nat, digits ≠ [] ∧ digits.length ≤ 4 ∧ (∀ digit ∈ digits, digit < 16) ∧
      hexText n = digits.map Nat.digitChar ∧ digits.foldl (fun value digit => value * 16 + digit) 0 = n := by
  unfold hexText
  split
  · exact ⟨[n], by simp, by simp, by simpa, rfl, by simp⟩
  split
  · refine ⟨[n / 16, n % 16], by simp, by simp, ?_, rfl, ?_⟩
    · simp only [List.mem_cons, List.not_mem_nil, or_false, forall_eq_or_imp, forall_eq]
      omega
    · simp only [List.foldl_cons, List.foldl_nil]
      omega
  split
  · refine ⟨[n / 256, n / 16 % 16, n % 16], by simp, by simp, ?_, rfl, ?_⟩
    · simp only [List.mem_cons, List.not_mem_nil, or_false, forall_eq_or_imp, forall_eq]
      omega
    · simp only [List.foldl_cons, List.foldl_nil]
      omega
  · refine ⟨[n / 4096, n / 256 % 16, n / 16 % 16, n % 16], by simp, by simp, ?_, rfl, ?_⟩
    · simp only [List.mem_cons, List.not_mem_nil, or_false, forall_eq_or_imp, forall_eq]
      omega
    · simp only [List.foldl_cons, List.foldl_nil]
      omega

theorem hexText_digits (n : Fin 65536) : ∀ c ∈ hexText n, c ∈ "0123456789abcdef".toList := by
  obtain ⟨digits, -, -, hlt, heq, -⟩ := hexText_eq n n.isLt
  intro c hc
  rw [heq] at hc
  obtain ⟨digit, hdigit, rfl⟩ := List.mem_map.mp hc
  exact (digitValue_digitChar digit (hlt digit hdigit)).2

theorem foldl_digitValue {digits : List Nat} (h : ∀ digit ∈ digits, digit < 16) (value : Nat) :
    (digits.map Nat.digitChar).foldl (fun value c => value * 16 + digitValue c) value =
      digits.foldl (fun value digit => value * 16 + digit) value := by
  induction digits generalizing value with
  | nil => rfl
  | cons digit digits ih =>
    rw [List.map_cons, List.foldl_cons, List.foldl_cons, (digitValue_digitChar digit (h digit (.head _))).1]
    exact ih (fun digit' hdigit' => h digit' (.tail _ hdigit')) _

theorem number_hexText (n : Fin 65536) : number 16 (hexText n) = some n.val := by
  obtain ⟨digits, hne, -, hlt, heq, hvalue⟩ := hexText_eq n n.isLt
  rw [number, if_pos, heq, foldl_digitValue hlt, hvalue]
  constructor
  · rw [heq]
    exact fun h => hne (List.map_eq_nil_iff.mp h)
  · intro c hc
    rw [heq] at hc
    obtain ⟨digit, hdigit, rfl⟩ := List.mem_map.mp hc
    rw [(digitValue_digitChar digit (hlt digit hdigit)).1]
    exact hlt digit hdigit

theorem hexText_injective (m n : Fin 65536) (h : hexText m = hexText n) : m = n := by
  have hnumber := number_hexText m
  rw [h, number_hexText n] at hnumber
  exact (Fin.ext (Option.some.inj hnumber)).symm

/-! ## Splitting -/

section
variable {α β : Type*} [DecidableEq α] [DecidableEq β] {sep x : α} {xs : List α}

theorem map_splitOn (f : α → β) (hf : ∀ x ∈ xs, f x = f sep → x = sep) :
    (xs.map f).splitOn (f sep) = (xs.splitOn sep).map (List.map f) := by
  induction xs with
  | nil => rfl
  | cons x xs ih =>
    rw [List.map_cons, List.splitOn_cons_eq_if_modifyHead, List.splitOn_cons_eq_if_modifyHead,
      ih fun x hx => hf x (.tail _ hx)]
    by_cases hx : x = sep
    · rw [if_pos (beq_iff_eq.mpr (congrArg f hx)), if_pos (beq_iff_eq.mpr hx)]
      rfl
    · rw [if_neg fun h => hx (hf x (.head _) (beq_iff_eq.mp h)), if_neg fun h => hx (beq_iff_eq.mp h)]
      cases xs.splitOn sep <;> rfl

/-- An element is the separator, or in a part. -/
theorem mem_splitOn (sep : α) (h : x ∈ xs) : x = sep ∨ ∃ part ∈ xs.splitOn sep, x ∈ part := by
  induction xs with
  | nil => exact absurd h List.not_mem_nil
  | cons y ys ih =>
    rw [List.splitOn_cons_eq_if_modifyHead]
    by_cases hy : y = sep
    · rw [if_pos (beq_iff_eq.mpr hy)]
      cases h with
      | head => exact .inl hy
      | tail _ h =>
        obtain h | ⟨part, hpart, hx⟩ := ih h
        · exact .inl h
        · exact .inr ⟨part, .tail _ hpart, hx⟩
    · rw [if_neg fun h => hy (beq_iff_eq.mp h)]
      obtain ⟨part, parts, hparts⟩ := List.exists_cons_of_ne_nil (List.splitOn_ne_nil sep ys)
      rw [hparts] at ih ⊢
      cases h with
      | head => exact .inr ⟨_, .head _, .head _⟩
      | tail _ h =>
        obtain h | ⟨part', hpart', hx⟩ := ih h
        · exact .inl h
        · cases hpart' with
          | head => exact .inr ⟨y :: part, .head _, .tail _ hx⟩
          | tail _ hpart' => exact .inr ⟨part', .tail _ hpart', hx⟩

/-- Behind a separator at the end there is an empty part. -/
theorem nil_mem_splitOn (h : xs.getLast? = some sep) : [] ∈ xs.splitOn sep := by
  obtain ⟨ys, rfl⟩ := List.getLast?_eq_some_iff.mp h
  rw [List.splitOn_append_cons_self]
  exact List.mem_append_right _ (.head _)

end

/-! ## Reading IPv4 addresses -/

def Ipv4.octets (address : Ipv4) : List (Fin 256) := [address.a, address.b, address.c, address.d]

theorem number_isSome (h : number radix text = some n) :
    text ≠ [] ∧ ∀ c ∈ text, digitValue c < radix := by
  rw [number, Option.ite_none_right_eq_some] at h
  exact h.1

/-- The characters of the numbers that `inetAton` reads. -/
theorem atonNumber_chars (h : atonNumber text = some n) :
    text ≠ [] ∧ ∀ c ∈ text, digitValue c < 16 ∨ c = 'x' ∨ c = 'X' := by
  unfold atonNumber at h
  split at h
  next x rest =>
    refine ⟨List.cons_ne_nil _ _, ?_⟩
    split at h
    next hx =>
      rw [List.forall_mem_cons, List.forall_mem_cons]
      exact ⟨.inl (by decide), .inr hx, fun c hc => .inl ((number_isSome h).2 c hc)⟩
    next hx =>
      rw [List.forall_mem_cons]
      exact ⟨.inl (by decide), fun c hc => .inl (Nat.lt_trans ((number_isSome h).2 c hc) (by decide))⟩
  · exact ⟨(number_isSome h).1, fun c hc => .inl (Nat.lt_trans ((number_isSome h).2 c hc) (by decide))⟩

theorem inetAton_parts (h : inetAton host = some address) :
    ∃ numbers, (host.splitOn '.').mapM atonNumber = some numbers ∧
      Ipv4.ofNumbers numbers = some address :=
  Option.bind_eq_some_iff.mp h

theorem exists_of_mem_mapM {α β : Type} {f : α → Option β} {xs : List α} {ys : List β} {x : α}
    (h : xs.mapM f = some ys) (hx : x ∈ xs) : ∃ y, f x = some y := by
  induction xs generalizing ys with
  | nil => exact absurd hx List.not_mem_nil
  | cons x' xs ih =>
    rw [List.mapM_cons] at h
    obtain ⟨y, hy, h⟩ := Option.bind_eq_some_iff.mp h
    obtain ⟨ys', hys', -⟩ := Option.bind_eq_some_iff.mp h
    cases hx with
    | head => exact ⟨y, hy⟩
    | tail _ hx => exact ih hys' hx

/-- The characters of a host that `inetAton` reads. -/
theorem inetAton_chars (h : inetAton host = some address) :
    ∀ c ∈ host, digitValue c < 16 ∨ c = 'x' ∨ c = 'X' ∨ c = '.' := by
  obtain ⟨numbers, hnumbers, -⟩ := inetAton_parts h
  intro c hc
  obtain rfl | ⟨part, hpart, hc⟩ := mem_splitOn '.' hc
  · exact .inr (.inr (.inr rfl))
  · obtain ⟨n, hn⟩ := exists_of_mem_mapM hnumbers hpart
    exact ((atonNumber_chars hn).2 c hc).imp_right (.imp_right .inl)

theorem inetAton_getLast? (h : inetAton host = some address) : host.getLast? ≠ some '.' := by
  intro hlast
  obtain ⟨numbers, hnumbers, -⟩ := inetAton_parts h
  obtain ⟨n, hn⟩ := exists_of_mem_mapM hnumbers (nil_mem_splitOn hlast)
  exact (atonNumber_chars hn).1 rfl

/-- The octets in plain decimals, each with a dot behind it. -/
def dotted (octets : List (Fin 256)) : List Char :=
  octets.flatMap fun octet => decimal octet.val ++ ['.']

theorem splitOn_dotted (octets : List (Fin 256)) (rest : List Char) :
    (dotted octets ++ rest).splitOn '.' = octets.map (decimal ·.val) ++ rest.splitOn '.' := by
  induction octets with
  | nil => rfl
  | cons octet octets ih =>
    have hdot : '.' ∉ decimal octet := fun h => absurd (decimal_digits octet _ h) (by decide)
    rw [dotted, List.flatMap_cons, ← dotted, List.append_assoc, List.append_assoc,
      List.singleton_append, List.splitOn_append_cons_self_of_not_mem hdot, ih]
    rfl

theorem mapM_decimal {parts : List (List Char)} (octets : List (Fin 256)) :
    (octets.map (decimal ·.val) ++ parts).mapM atonNumber =
      (parts.mapM atonNumber).map (octets.map (·.val) ++ ·) := by
  induction octets with
  | nil => exact Option.map_id'.symm
  | cons octet octets ih =>
    rw [List.map_cons, List.cons_append, List.mapM_cons, atonNumber_decimal, ih]
    cases parts.mapM atonNumber <;> rfl

/-- The numbers before the last one are the first octets. -/
theorem dropLast_prefix_octets {numbers : List Nat} (h : Ipv4.ofNumbers numbers = some address) :
    numbers.dropLast <+: address.octets.map (·.val) := by
  unfold Ipv4.ofNumbers at h
  split at h
  · exact List.nil_prefix
  next a n =>
    obtain ⟨⟨ha, hn⟩, haddress⟩ := Option.ite_none_right_eq_some.mp h
    obtain rfl := Option.some.inj haddress
    refine ⟨_, congrArg₂ List.cons ?_ rfl⟩
    show a = (a * 256 ^ 3 + n) / 256 ^ 3 % 256
    omega
  next a b n =>
    obtain ⟨⟨ha, hb, hn⟩, haddress⟩ := Option.ite_none_right_eq_some.mp h
    obtain rfl := Option.some.inj haddress
    refine ⟨_, congrArg₂ List.cons ?_ (congrArg₂ List.cons ?_ rfl)⟩
    · show a = (a * 256 ^ 3 + b * 256 ^ 2 + n) / 256 ^ 3 % 256
      omega
    · show b = (a * 256 ^ 3 + b * 256 ^ 2 + n) / 256 ^ 2 % 256
      omega
  next a b c n =>
    obtain ⟨⟨ha, hb, hc, hn⟩, haddress⟩ := Option.ite_none_right_eq_some.mp h
    obtain rfl := Option.some.inj haddress
    refine ⟨_, congrArg₂ List.cons ?_ (congrArg₂ List.cons ?_ (congrArg₂ List.cons ?_ rfl))⟩
    · show a = (a * 256 ^ 3 + b * 256 ^ 2 + c * 256 + n) / 256 ^ 3 % 256
      omega
    · show b = (a * 256 ^ 3 + b * 256 ^ 2 + c * 256 + n) / 256 ^ 2 % 256
      omega
    · show c = (a * 256 ^ 3 + b * 256 ^ 2 + c * 256 + n) / 256 % 256
      omega
  · exact nomatch h

/-- Octets that are written out before a dot are the first octets of the address. -/
theorem prefix_octets_of_dotted {octets : List (Fin 256)} (h : inetAton host = some address)
    (hdotted : dotted octets <+: host) : octets <+: address.octets := by
  obtain ⟨rest, rfl⟩ := hdotted
  obtain ⟨numbers, hnumbers, haddress⟩ := inetAton_parts h
  rw [splitOn_dotted, mapM_decimal] at hnumbers
  obtain ⟨last, hlast, rfl⟩ := Option.map_eq_some_iff.mp hnumbers
  have hne : last ≠ [] := by
    obtain ⟨part, parts, hparts⟩ := List.exists_cons_of_ne_nil (List.splitOn_ne_nil '.' rest)
    rw [hparts, List.mapM_cons] at hlast
    obtain ⟨n, -, hlast⟩ := Option.bind_eq_some_iff.mp hlast
    obtain ⟨ns, -, hlast⟩ := Option.bind_eq_some_iff.mp hlast
    obtain rfl := Option.some.inj hlast
    exact List.cons_ne_nil n ns
  have hprefix := dropLast_prefix_octets haddress
  rw [List.dropLast_append_of_ne_nil hne] at hprefix
  have hoctets := (List.prefix_append _ _).trans hprefix
  exact (List.prefix_map_iff_of_injective fun _ _ => Fin.ext).mp hoctets

/-! ## The parser of URLs reads what `inetAton` reads -/

theorem mem_of_le {first last c : Char} (h : first ≤ c ∧ c ≤ last) :
    c ∈ (List.range' first.toNat (last.toNat + 1 - first.toNat)).map Char.ofNat := by
  obtain ⟨hfirst, hlast⟩ := h
  refine List.mem_map.mpr ⟨c.toNat, ?_, Char.ofNat_toNat c⟩
  have hfirst : first.toNat ≤ c.toNat := hfirst
  have hlast : c.toNat ≤ last.toNat := hlast
  rw [List.mem_range'_1]
  omega

def hexDigits : List Char := "0123456789abcdefABCDEF".toList

theorem mem_hexDigits (h : digitValue c < 16) : c ∈ hexDigits := by
  unfold digitValue at h
  split at h
  next hc => exact (by decide : _ ⊆ hexDigits) (mem_of_le hc)
  split at h
  next hc => exact (by decide : _ ⊆ hexDigits) (mem_of_le hc)
  split at h
  next hc => exact (by decide : _ ⊆ hexDigits) (mem_of_le hc)
  · exact absurd h (by decide)

theorem digitValue_toLower : ∀ c ∈ hexDigits, digitValue c.toLower = digitValue c ∧
    (digitValue c < 10 → c.toLower = c) := by
  decide

theorem number_toLower (hradix : radix ≤ 16) (h : number radix text = some n) :
    number radix (text.map Char.toLower) = some n := by
  obtain ⟨hne, hlt⟩ := number_isSome h
  have hvalue (c : Char) (hc : c ∈ text) : digitValue c.toLower = digitValue c :=
    (digitValue_toLower c (mem_hexDigits (Nat.lt_of_lt_of_le (hlt c hc) hradix))).1
  have hfoldl (text' : List Char) (htext' : text' ⊆ text) (value : Nat) :
      (text'.map Char.toLower).foldl (fun value c => value * radix + digitValue c) value =
        text'.foldl (fun value c => value * radix + digitValue c) value := by
    induction text' generalizing value with
    | nil => rfl
    | cons c text' ih =>
      rw [List.map_cons, List.foldl_cons, List.foldl_cons, hvalue c (htext' (.head _))]
      exact ih (fun c' hc' => htext' (.tail _ hc')) _
  rw [number, if_pos ⟨hne, hlt⟩] at h
  rw [number, if_pos, hfoldl text (List.Subset.refl text), h]
  refine ⟨fun hnil => hne (List.map_eq_nil_iff.mp hnil), fun c hc => ?_⟩
  obtain ⟨c', hc', rfl⟩ := List.mem_map.mp hc
  rw [hvalue c' hc']
  exact hlt c' hc'

theorem urlNumber_toLower (h : atonNumber text = some n) :
    urlNumber (text.map Char.toLower) = some n := by
  unfold atonNumber at h
  split at h
  next x rest =>
    split at h
    next hx =>
      have hx : x.toLower = 'x' := by
        obtain rfl | rfl := hx <;> rfl
      have hrest : rest.map Char.toLower ≠ [] := fun hnil =>
        (number_isSome h).1 (List.map_eq_nil_iff.mp hnil)
      show (if x.toLower = 'x' ∨ x.toLower = 'X' then
        if rest.map Char.toLower = [] then some 0 else number 16 (rest.map Char.toLower)
        else number 8 (x.toLower :: rest.map Char.toLower)) = some n
      rw [if_pos (.inl hx), if_neg hrest]
      exact number_toLower (Nat.le_refl 16) h
    next hx =>
      have hdigit := (number_isSome h).2 x (.head _)
      have hlower := (digitValue_toLower x (mem_hexDigits (by omega))).2 (by omega)
      show (if x.toLower = 'x' ∨ x.toLower = 'X' then
        if rest.map Char.toLower = [] then some 0 else number 16 (rest.map Char.toLower)
        else number 8 (x.toLower :: rest.map Char.toLower)) = some n
      rw [hlower, if_neg hx, ← hlower]
      exact number_toLower (show 8 ≤ 16 by decide) h
  next hnot =>
    have hlower : text.map Char.toLower = text := by
      refine (List.map_congr_left fun c hc => ?_).trans (List.map_id text)
      have hdigit := (number_isSome h).2 c hc
      exact (digitValue_toLower c (mem_hexDigits (by omega))).2 hdigit
    rw [hlower]
    unfold urlNumber
    split
    next x rest => exact absurd rfl (hnot x rest)
    · exact h

def inetChars : List Char := '.' :: 'x' :: 'X' :: hexDigits

theorem mem_inetChars (h : inetAton host = some address) : host ⊆ inetChars := by
  intro c hc
  obtain hdigit | rfl | rfl | rfl := inetAton_chars h c hc
  · exact .tail _ (.tail _ (.tail _ (mem_hexDigits hdigit)))
  all_goals decide

theorem mapM_map {α β γ : Type} {f : α → Option γ} {g : β → Option γ} {k : α → β} {xs : List α}
    {ys : List γ} (hfg : ∀ x y, f x = some y → g (k x) = some y) (h : xs.mapM f = some ys) :
    (xs.map k).mapM g = some ys := by
  induction xs generalizing ys with
  | nil => exact h
  | cons x xs ih =>
    rw [List.mapM_cons] at h
    obtain ⟨y, hy, h⟩ := Option.bind_eq_some_iff.mp h
    obtain ⟨ys', hys', h⟩ := Option.bind_eq_some_iff.mp h
    rw [List.map_cons, List.mapM_cons, hfg x y hy, ih hys']
    exact h

theorem urlParts_toLower (h : inetAton host = some address) :
    urlParts (host.map Char.toLower) = (host.splitOn '.').map (List.map Char.toLower) := by
  have hsplit : (host.map Char.toLower).splitOn '.' = (host.splitOn '.').map (List.map Char.toLower) :=
    map_splitOn Char.toLower fun c hc hdot =>
      (by decide : ∀ c ∈ inetChars, c.toLower = '.' → c = '.') c (mem_inetChars h hc) hdot
  rw [urlParts, hsplit, if_neg]
  intro ⟨hlast, _⟩
  obtain ⟨part, hpart, hnil⟩ := List.mem_map.mp (List.mem_of_getLast? hlast)
  obtain ⟨numbers, hnumbers, -⟩ := inetAton_parts h
  obtain ⟨n, hn⟩ := exists_of_mem_mapM hnumbers hpart
  exact (atonNumber_chars hn).1 (List.map_eq_nil_iff.mp hnil)

/-- What `inetAton` reads is the same address for the parser of URLs. -/
theorem urlIpv4_toLower (h : inetAton host = some address) :
    urlIpv4 (host.map Char.toLower) = some address := by
  obtain ⟨numbers, hnumbers, haddress⟩ := inetAton_parts h
  rw [urlIpv4, urlParts_toLower h, mapM_map (fun _ _ => urlNumber_toLower) hnumbers]
  exact haddress

theorem endsInNumber_toLower (h : inetAton host = some address) :
    endsInNumber (host.map Char.toLower) = true := by
  obtain ⟨numbers, hnumbers, -⟩ := inetAton_parts h
  rw [endsInNumber, urlParts_toLower h, List.getLast?_map]
  cases hlast : (host.splitOn '.').getLast? with
  | none => exact absurd (List.getLast?_eq_none_iff.mp hlast) (List.splitOn_ne_nil '.' host)
  | some part =>
    obtain ⟨n, hn⟩ := exists_of_mem_mapM hnumbers (List.mem_of_getLast? hlast)
    show (_ || (urlNumber (part.map Char.toLower)).isSome) = true
    rw [urlNumber_toLower hn, Option.isSome_some, Bool.or_true]

/-! ## Writing addresses -/

theorem Ipv4.text_eq (address : Ipv4) : ∃ rest,
    address.text = dotted [address.a, address.b, address.c] ++ rest ∧ rest = decimal address.d := by
  refine ⟨_, ?_, rfl⟩
  simp [Ipv4.text, dotted, List.intercalate_cons_cons, List.intercalate_singleton]

theorem Ipv4.text_chars (address : Ipv4) : ∀ c ∈ address.text, c ∈ ".0123456789".toList := by
  have hdecimal (n : Fin 256) : decimal n ⊆ ".0123456789".toList := fun c hc =>
    (by decide : "0123456789".toList ⊆ ".0123456789".toList) (decimal_digits n c hc)
  intro c hc
  obtain ⟨rest, htext, rfl⟩ := address.text_eq
  rw [htext] at hc
  obtain hc | hc := List.mem_append.mp hc
  · obtain ⟨octet, -, hc⟩ := List.mem_flatMap.mp hc
    obtain hc | hc := List.mem_append.mp hc
    · exact hdecimal octet hc
    · obtain rfl := List.mem_singleton.mp hc
      decide
  · exact hdecimal _ hc

/-- The text of a piece at the start that is not zero. -/
theorem longestZeros_ne_zero {pieces : List (Fin 65536)} {longest found : Option Nat}
    (hindex : index ≠ 0) (hlongest : longest ≠ some 0) (hfound : found ≠ some 0) :
    longestZeros pieces index longest longestSize found foundSize ≠ some 0 := by
  induction pieces generalizing index longest longestSize found foundSize with
  | nil =>
    unfold longestZeros
    split
    · exact hfound
    · exact hlongest
  | cons piece pieces ih =>
    unfold longestZeros
    split
    · split
      · exact ih (Nat.succ_ne_zero index) hfound (fun h => (nomatch h))
      · exact ih (Nat.succ_ne_zero index) hlongest (fun h => (nomatch h))
    · refine ih (Nat.succ_ne_zero index) hlongest ?_
      cases found with
      | none => exact fun h => hindex (Option.some.inj h)
      | some => exact hfound

theorem Ipv6.text_of_ne_zero {address : Ipv6} {first : Fin 65536} {rest : List (Fin 65536)}
    (h : address.pieces = first :: rest) (hfirst : first ≠ 0) :
    ∃ text, address.text = hexText first ++ ':' :: text := by
  have hrest : rest ≠ [] := by
    rintro rfl
    exact absurd (h ▸ address.length_pieces : [first].length = 8) (by simp)
  have hcompress : longestZeros (first :: rest) 0 none 1 none 0 ≠ some 0 := by
    unfold longestZeros
    rw [if_pos hfirst, if_neg (by decide)]
    exact longestZeros_ne_zero (by decide) (fun h => (nomatch h)) (fun h => (nomatch h))
  refine ⟨piecesText (longestZeros (first :: rest) 0 none 1 none 0) rest 1 false, ?_⟩
  rw [Ipv6.text, h]
  conv_lhs => unfold piecesText
  rw [if_neg (by simp), if_neg hcompress, if_neg hrest, List.append_assoc]
  rfl

/-- The text of an IPv4-mapped address. -/
theorem Ipv6.text_mapped {address : Ipv6} {high low : Fin 65536}
    (h : address.pieces = [0, 0, 0, 0, 0, 65535, high, low]) :
    address.text = "::ffff:".toList ++ (hexText high ++ ':' :: hexText low) := by
  have hcompress : longestZeros [0, 0, 0, 0, 0, 65535, high, low] 0 none 1 none 0 = some 0 := by
    by_cases hhigh : high = 0 <;> by_cases hlow : low = 0 <;> simp [longestZeros, hhigh, hlow]
  have hffff : hexText (Fin.val (65535 : Fin 65536)) = ['f', 'f', 'f', 'f'] := rfl
  have htext : "::ffff:".toList = [':', ':', 'f', 'f', 'f', 'f', ':'] := rfl
  rw [Ipv6.text, h, hcompress, htext]
  have hpieces : piecesText (some 0) [0, 0, 0, 0, 0, 65535, high, low] 0 false =
      [':', ':'] ++ (hexText (Fin.val (65535 : Fin 65536)) ++
        ':' :: (hexText high ++ ':' :: hexText low)) := by
    simp [piecesText]
  rw [hpieces, hffff]
  rfl

/-- The text of an IPv4-compatible address. -/
theorem Ipv6.text_compatible {address : Ipv6} {high low : Fin 65536}
    (h : address.pieces = [0, 0, 0, 0, 0, 0, high, low]) :
    address.text = "::".toList ++
      if high ≠ 0 then hexText high ++ ':' :: hexText low else if low ≠ 0 then hexText low else [] := by
  have hcompress : longestZeros [0, 0, 0, 0, 0, 0, high, low] 0 none 1 none 0 = some 0 := by
    by_cases hhigh : high = 0 <;> by_cases hlow : low = 0 <;> simp [longestZeros, hhigh, hlow]
  rw [Ipv6.text, h, hcompress]
  by_cases hhigh : high = 0
  · by_cases hlow : low = 0
    · simp [piecesText, hhigh, hlow]
    · simp [piecesText, hhigh, hlow]
  · simp [piecesText, hhigh]

/-- The characters of the texts of IPv6 addresses. -/
theorem Ipv6.text_chars (address : Ipv6) : ∀ c ∈ address.text, c ∈ ":0123456789abcdef".toList := by
  have hpieces (compress : Option Nat) (pieces : List (Fin 65536)) (index : Nat) (ignoreZeros : Bool) :
      ∀ c ∈ piecesText compress pieces index ignoreZeros, c ∈ ":0123456789abcdef".toList := by
    induction pieces generalizing index ignoreZeros with
    | nil => exact fun c hc => absurd hc List.not_mem_nil
    | cons piece pieces ih =>
      intro c hc
      unfold piecesText at hc
      split at hc
      · exact ih _ _ c hc
      split at hc
      · obtain hc | hc := List.mem_append.mp hc
        · split at hc <;> simp_all
        · exact ih _ _ c hc
      · obtain hc | hc := List.mem_append.mp hc
        · obtain hc | hc := List.mem_append.mp hc
          · exact (by decide : "0123456789abcdef".toList ⊆ ":0123456789abcdef".toList)
              (hexText_digits piece c hc)
          · split at hc <;> simp_all
        · exact ih _ _ c hc
  exact hpieces _ _ _ _

end OpenLander.Theory.Inet
