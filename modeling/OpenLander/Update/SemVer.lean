import Mathlib.Data.List.Lex
import Mathlib.Data.Sum.Order
import Mathlib.Data.Prod.Lex
import Mathlib.Data.Char
import Mathlib.Order.WithBot
import Mathlib.Order.Compare
import OpenLander.Compose.Interpolate

/-! # Versions and the release to update to

`parseSemVer` and `compareSemVer` (`src/update/semver.ts`), and `selectLatest` of the release checker
(`src/update/release-checker.ts`), which sorts the releases of a channel and takes the first.
`compareSemVer` compares by precedence, which is a linear order on `ParsedSemVer.Precedence`. -/

namespace OpenLander.Update
open Compose (trim)

/-! ## Versions -/

def isIdentifierChar (c : Char) : Bool := c.isAlphanum || c = '-'

/-- `string | number`, an identifier of a prerelease. -/
inductive Identifier
  | number (value : Nat)
  /-- ASCII, so that the order of the characters is that of their code units. -/
  | text (value : List Char) (ascii : value.all isIdentifierChar = true)
  deriving DecidableEq

/-- The numbers are exact below `2^53`. -/
structure ParsedSemVer where
  raw : List Char
  major : Nat
  minor : Nat
  patch : Nat
  prerelease : List Identifier
  deriving DecidableEq

/-- `/^\d+$/`. -/
def isDigits (part : List Char) : Bool := !part.isEmpty && part.all (·.isDigit)

/-- `/^(0|[1-9]\d*)$/`. -/
def parseNumeric (part : List Char) : Option Nat :=
  if isDigits part && (part.head? ≠ some '0' || part.length = 1) then
    some (Nat.ofDigitChars 10 part 0)
  else none

/-- `[0-9A-Za-z-]+`. -/
def isIdentifier (part : List Char) : Bool := !part.isEmpty && part.all isIdentifierChar

/-- A number with a zero in front is no identifier of a prerelease. -/
def parseIdentifier (part : List Char) : Option Identifier :=
  match parseNumeric part with
  | some value => some (.number value)
  | none =>
    if isDigits part || part.isEmpty then none
    else if h : part.all isIdentifierChar = true then some (.text part h)
    else none

/-- What is in front of the character and what is behind it, if it occurs. -/
def breakAt (c : Char) (text : List Char) : List Char × Option (List Char) :=
  (text.takeWhile (· ≠ c), (text.dropWhile (· ≠ c)).tail?)

/-- The core has no hyphen and the build no further plus. -/
def parseSemVer (value : String) : Option ParsedSemVer :=
  let text := trim value.toList
  let raw := if text.head? = some 'v' then text.tail else text
  let (version, build) := breakAt '+' raw
  let (core, prerelease) := breakAt '-' version
  if (build.any fun build => !(build.splitOn '.').all isIdentifier) then none
  else
    match (core.splitOn '.').map parseNumeric with
    | [some major, some minor, some patch] =>
      (((prerelease.map (·.splitOn '.')).getD []).mapM parseIdentifier).map fun prerelease =>
        { raw, major, minor, patch, prerelease }
    | _ => none

/-- Two parts that differ. -/
def comparePart : Identifier → Identifier → Int
  | .number leftPart, .number rightPart => if leftPart > rightPart then 1 else -1
  | .number _, .text .. => -1
  | .text .., .number _ => 1
  | .text leftPart _, .text rightPart _ => if leftPart > rightPart then 1 else -1

/-- The loop over the parts of both. -/
def compareParts : List Identifier → List Identifier → Int
  | [], [] => 0
  | [], _ :: _ => -1
  | _ :: _, [] => 1
  | leftPart :: left, rightPart :: right =>
    if leftPart = rightPart then compareParts left right else comparePart leftPart rightPart

def comparePrerelease (left right : List Identifier) : Int :=
  if left.isEmpty && right.isEmpty then 0
  else if left.isEmpty then 1
  else if right.isEmpty then -1
  else compareParts left right

def compareSemVer (left right : ParsedSemVer) : Int :=
  if left.major ≠ right.major then if left.major > right.major then 1 else -1
  else if left.minor ≠ right.minor then if left.minor > right.minor then 1 else -1
  else if left.patch ≠ right.patch then if left.patch > right.patch then 1 else -1
  else comparePrerelease left.prerelease right.prerelease

/-! ## Releases -/

inductive ReleaseChannel
  | stable | rc | development
  deriving DecidableEq, Repr

def isRc (prerelease : List Identifier) : Bool :=
  match prerelease.head? with
  | some (.text value _) => value = ['r', 'c']
  | _ => false

def isReleaseAllowedForChannel (version : String) (channel : ReleaseChannel) : Bool :=
  match parseSemVer version, channel with
  | none, _ | _, .development => false
  | some parsed, .stable => parsed.prerelease.isEmpty
  | some parsed, .rc => parsed.prerelease.isEmpty || isRc parsed.prerelease

structure PlatformReleaseSummary where
  version : String
  tag : String
  publishedAt : String
  notes : List String
  url : String
  deriving DecidableEq

/-- What `sort` is called with. -/
def compareReleases (left right : PlatformReleaseSummary) : Int :=
  match parseSemVer left.version, parseSemVer right.version with
  | some leftVersion, some rightVersion => compareSemVer rightVersion leftVersion
  | _, _ => 0

def selectLatest (releases : List PlatformReleaseSummary) (channel : ReleaseChannel) :
    Option PlatformReleaseSummary :=
  ((releases.filter fun release => isReleaseAllowedForChannel release.version channel).mergeSort
    fun left right => compareReleases left right ≤ 0).head?

/-! ## Precedence -/

/-- Identifiers of digits only are compared as numbers and come before the others, which are compared
in ASCII order. -/
def Identifier.precedence : Identifier → ℕ ⊕ₗ List Char
  | number value => toLex (.inl value)
  | text value _ => toLex (.inr value)

/-- A version without a prerelease comes after those with one. Prereleases are compared identifier by
identifier, and a shorter one comes before those that go on. -/
def prereleasePrecedence (prerelease : List Identifier) : WithTop (List (ℕ ⊕ₗ List Char)) :=
  if prerelease = [] then ⊤ else some (prerelease.map (·.precedence))

namespace ParsedSemVer

abbrev Precedence := ℕ ×ₗ ℕ ×ₗ ℕ ×ₗ WithTop (List (ℕ ⊕ₗ List Char))

/-- The precedence of SemVer 2.0, which does not depend on the build. -/
def precedence (version : ParsedSemVer) : Precedence :=
  toLex (version.major, toLex (version.minor, toLex (version.patch,
    prereleasePrecedence version.prerelease)))

end ParsedSemVer

/-! ## Comparisons -/

section
variable [LinearOrder α] [LinearOrder β]

/-- The number that a comparison returns. -/
def sign (a b : α) : Int := if a < b then -1 else if b < a then 1 else 0

theorem sign_of_lt {a b : α} (h : a < b) : sign a b = -1 := if_pos h

theorem sign_of_gt {a b : α} (h : b < a) : sign a b = 1 := by
  rw [sign, if_neg h.not_gt, if_pos h]

theorem sign_self (a : α) : sign a a = 0 := by
  rw [sign, if_neg (lt_irrefl a), if_neg (lt_irrefl a)]

/-- How the code compares what differs. -/
theorem sign_of_ne {a b : α} (h : a ≠ b) : sign a b = if a > b then 1 else -1 := by
  rcases h.lt_or_gt with hlt | hgt
  · rw [sign_of_lt hlt, if_neg hlt.not_gt]
  · rw [sign_of_gt hgt, if_pos hgt]

theorem sign_map {f : α → β} (hf : StrictMono f) (a b : α) : sign (f a) (f b) = sign a b := by
  simp only [sign, hf.lt_iff_lt]

theorem sign_neg_iff {a b : α} : sign a b < 0 ↔ a < b := by
  rcases lt_trichotomy a b with hlt | rfl | hgt
  · rw [sign_of_lt hlt]
    exact iff_of_true (by decide) hlt
  · rw [sign_self]
    exact iff_of_false (lt_irrefl _) (lt_irrefl _)
  · rw [sign_of_gt hgt]
    exact iff_of_false (by decide) hgt.not_gt

theorem neg_sign (a b : α) : -sign a b = sign b a := by
  rcases lt_trichotomy a b with hlt | rfl | hgt
  · rw [sign_of_lt hlt, sign_of_gt hlt]
    rfl
  · rw [sign_self]
    rfl
  · rw [sign_of_gt hgt, sign_of_lt hgt]

theorem sign_pos_iff {a b : α} : 0 < sign a b ↔ b < a := by
  have h := sign_neg_iff (a := b) (b := a)
  rw [← neg_sign a b] at h
  rw [← h]
  omega

theorem sign_eq_zero_iff {a b : α} : sign a b = 0 ↔ a = b := by
  constructor
  · intro h
    exact le_antisymm (not_lt.mp fun hgt => (sign_pos_iff.mpr hgt).ne' h)
      (not_lt.mp fun hlt => (sign_neg_iff.mpr hlt).ne h)
  · exact fun h => h ▸ sign_self a

theorem sign_nonpos_iff {a b : α} : sign a b ≤ 0 ↔ a ≤ b := by
  rw [← not_lt, sign_pos_iff, not_lt]

/-- The first components decide, where they differ. -/
theorem sign_toLex (a b : α) (c d : β) :
    sign (toLex (a, c)) (toLex (b, d)) =
      if a ≠ b then if a > b then 1 else -1 else sign c d := by
  rcases lt_trichotomy a b with hlt | rfl | hgt
  · rw [if_pos hlt.ne, if_neg hlt.not_gt]
    exact sign_of_lt (Prod.Lex.toLex_lt_toLex.mpr (.inl hlt))
  · rw [if_neg (not_not.mpr rfl)]
    refine sign_map (f := fun c => toLex (a, c)) (fun c d h => ?_) c d
    exact Prod.Lex.toLex_lt_toLex.mpr (.inr ⟨rfl, h⟩)
  · rw [if_pos hgt.ne', if_pos hgt]
    exact sign_of_gt (Prod.Lex.toLex_lt_toLex.mpr (.inl hgt))

theorem sign_cons (a b : α) (l r : List α) :
    sign (a :: l) (b :: r) = if a = b then sign l r else sign a b := by
  rcases lt_trichotomy a b with hlt | rfl | hgt
  · rw [if_neg hlt.ne, sign_of_lt hlt]
    exact sign_of_lt (List.cons_lt_cons_iff.mpr (.inl hlt))
  · rw [if_pos rfl]
    refine sign_map (f := fun l => a :: l) (fun l r h => ?_) l r
    exact List.cons_lt_cons_iff.mpr (.inr ⟨rfl, h⟩)
  · rw [if_neg hgt.ne', sign_of_gt hgt]
    exact sign_of_gt (List.cons_lt_cons_iff.mpr (.inl hgt))

end

theorem Identifier.precedence_injective : Function.Injective Identifier.precedence := by
  intro a b h
  cases a with
  | number _ =>
    cases b with
    | number _ => exact congrArg _ (Sum.inl.inj h)
    | text _ _ => exact nomatch h
  | text _ _ =>
    cases b with
    | number _ => exact nomatch h
    | text _ _ =>
      cases Sum.inr.inj h
      rfl

theorem comparePart_eq {a b : Identifier} (hne : a ≠ b) :
    comparePart a b = sign a.precedence b.precedence := by
  rw [sign_of_ne (Identifier.precedence_injective.ne hne)]
  match a, b with
  | .number a, .number b =>
    simp only [comparePart, Identifier.precedence, gt_iff_lt, Sum.Lex.inl_lt_inl_iff]
  | .number a, .text b _ => exact (if_neg Sum.Lex.not_inr_lt_inl).symm
  | .text a _, .number b => exact (if_pos (Sum.Lex.inl_lt_inr ..)).symm
  | .text a _, .text b _ =>
    simp only [comparePart, Identifier.precedence, gt_iff_lt, Sum.Lex.inr_lt_inr_iff]

theorem compareParts_eq (left right : List Identifier) : compareParts left right =
    sign (left.map (·.precedence)) (right.map (·.precedence)) := by
  induction left generalizing right with
  | nil =>
    cases right with
    | nil => exact (sign_eq_zero_iff.mpr rfl).symm
    | cons b right => exact (sign_of_lt (List.nil_lt_cons ..)).symm
  | cons a left ih =>
    cases right with
    | nil => exact (sign_of_gt (List.nil_lt_cons ..)).symm
    | cons b right =>
      rw [List.map_cons, List.map_cons, sign_cons, ← ih]
      by_cases heq : a = b
      · rw [if_pos (congrArg _ heq)]
        exact if_pos heq
      · rw [if_neg (Identifier.precedence_injective.ne heq), ← comparePart_eq heq]
        exact if_neg heq

theorem comparePrerelease_eq (left right : List Identifier) : comparePrerelease left right =
    sign (prereleasePrecedence left) (prereleasePrecedence right) := by
  cases left with
  | nil =>
    cases right with
    | nil => exact (sign_eq_zero_iff.mpr rfl).symm
    | cons b right => exact (sign_of_gt (WithTop.coe_lt_top _)).symm
  | cons a left =>
    cases right with
    | nil => exact (sign_of_lt (WithTop.coe_lt_top _)).symm
    | cons b right =>
      exact (compareParts_eq _ _).trans (sign_map WithTop.coe_strictMono _ _).symm

/-- The code compares by precedence. -/
theorem compareSemVer_eq (left right : ParsedSemVer) :
    compareSemVer left right = sign left.precedence right.precedence := by
  rw [ParsedSemVer.precedence, ParsedSemVer.precedence, sign_toLex, sign_toLex,
    sign_toLex, ← comparePrerelease_eq, compareSemVer]

/-! ## The first of the sorted releases -/

/-- The precedence of a release that has a version. -/
def PlatformReleaseSummary.rank (release : PlatformReleaseSummary) :
    WithBot ParsedSemVer.Precedence :=
  (parseSemVer release.version).map (·.precedence)

theorem parseSemVer_of_allowed (h : isReleaseAllowedForChannel version channel = true) :
    ∃ parsed, parseSemVer version = some parsed := by
  cases hparsed : parseSemVer version with
  | none =>
    unfold isReleaseAllowedForChannel at h
    rw [hparsed] at h
    exact nomatch h
  | some parsed => exact ⟨parsed, rfl⟩

/-- Releases with versions are sorted by their precedence, the latest first. -/
theorem compareReleases_nonpos_iff (hleft : parseSemVer left.version = some leftVersion)
    (hright : parseSemVer right.version = some rightVersion) :
    compareReleases left right ≤ 0 ↔ right.rank ≤ left.rank := by
  rw [compareReleases, PlatformReleaseSummary.rank, PlatformReleaseSummary.rank, hleft, hright]
  exact (compareSemVer_eq rightVersion leftVersion ▸ sign_nonpos_iff).trans WithBot.coe_le_coe.symm

theorem mergeSort_releases {releases : List PlatformReleaseSummary}
    (hparsed : ∀ release ∈ releases, ∃ parsed, parseSemVer release.version = some parsed) :
    releases.mergeSort (fun left right => compareReleases left right ≤ 0) =
      releases.mergeSort fun left right => right.rank ≤ left.rank := by
  have hmap := List.map_mergeSort (f := id) (l := releases)
    (r := fun left right => decide (compareReleases left right ≤ 0))
    (s := fun left right : PlatformReleaseSummary => decide (right.rank ≤ left.rank)) ?_
  · rwa [List.map_id, List.map_id] at hmap
  · intro left hleft right hright
    obtain ⟨leftVersion, hleft⟩ := hparsed left hleft
    obtain ⟨rightVersion, hright⟩ := hparsed right hright
    exact decide_eq_decide.mpr (compareReleases_nonpos_iff hleft hright)

/-- The first release has the greatest rank of those that are allowed. -/
theorem rank_le_of_selectLatest (h : selectLatest releases channel = some release)
    (hmem : other ∈ releases)
    (hallowed : isReleaseAllowedForChannel other.version channel = true) :
    other.rank ≤ release.rank := by
  rw [selectLatest, mergeSort_releases fun r hr => parseSemVer_of_allowed (List.mem_filter.mp hr).2]
    at h
  have hsorted := @List.pairwise_mergeSort _ (fun left right : PlatformReleaseSummary =>
      decide (right.rank ≤ left.rank))
    (fun a b c hab hbc => decide_eq_true ((of_decide_eq_true hbc).trans (of_decide_eq_true hab)))
    (fun a b => by simpa using le_total b.rank a.rank)
    (releases.filter fun release => isReleaseAllowedForChannel release.version channel)
  have hother : other ∈ (releases.filter fun release =>
      isReleaseAllowedForChannel release.version channel).mergeSort
        fun left right => right.rank ≤ left.rank :=
    List.mem_mergeSort.mpr (List.mem_filter.mpr ⟨hmem, hallowed⟩)
  cases hlist : (releases.filter fun release =>
      isReleaseAllowedForChannel release.version channel).mergeSort
        fun left right => right.rank ≤ left.rank with
  | nil =>
    rw [hlist] at hother
    exact nomatch hother
  | cons first rest =>
    rw [hlist] at h hsorted hother
    obtain rfl := Option.some.inj h
    rcases List.mem_cons.mp hother with rfl | hrest
    · exact le_rfl
    · exact of_decide_eq_true ((List.pairwise_cons.mp hsorted).1 other hrest)

theorem mem_of_selectLatest (h : selectLatest releases channel = some release) :
    release ∈ releases ∧ isReleaseAllowedForChannel release.version channel = true := by
  have hmem := List.mem_of_mem_head? h
  rwa [List.mem_mergeSort, List.mem_filter] at hmem

theorem selectLatest_eq_none_iff : selectLatest releases channel = none ↔
    ∀ release ∈ releases, isReleaseAllowedForChannel release.version channel = false := by
  rw [selectLatest, List.head?_eq_none_iff, ← List.length_eq_zero_iff, List.length_mergeSort,
    List.length_eq_zero_iff, List.filter_eq_nil_iff]
  simp only [Bool.not_eq_true]

/-- `left` is a greater version than `right`. -/
def Exceeds (left right : String) : Prop :=
  ∃ leftVersion rightVersion, parseSemVer left = some leftVersion ∧
    parseSemVer right = some rightVersion ∧ 0 < compareSemVer leftVersion rightVersion

/-- The first of the sorted releases is a maximal one. -/
structure Maximal (releases : List PlatformReleaseSummary) (channel : ReleaseChannel)
    (release : PlatformReleaseSummary) : Prop where
  mem : release ∈ releases
  allowed : isReleaseAllowedForChannel release.version channel = true
  not_exceeded : ∀ other ∈ releases, isReleaseAllowedForChannel other.version channel = true →
    ¬Exceeds other.version release.version

theorem maximal_selectLatest (h : selectLatest releases channel = some release) :
    Maximal releases channel release where
  mem := (mem_of_selectLatest h).1
  allowed := (mem_of_selectLatest h).2
  not_exceeded := by
    rintro other hmem hallowed ⟨otherVersion, version, hother, hversion, hexceeds⟩
    have hle := rank_le_of_selectLatest h hmem hallowed
    rw [← compareReleases_nonpos_iff hversion hother, compareReleases, hversion, hother] at hle
    exact absurd hexceeds (not_lt.mpr hle)

/-- The code compares versions by the precedence of SemVer 2.0, which makes the comparison a total
preorder, and selects a release that no other one exceeds. -/
theorem selectLatest_correct :
    (∀ left right : ParsedSemVer,
      (compareSemVer left right < 0 ↔ left.precedence < right.precedence) ∧
        (compareSemVer left right = 0 ↔ left.precedence = right.precedence) ∧
        (0 < compareSemVer left right ↔ right.precedence < left.precedence)) ∧
      (∀ left right : ParsedSemVer, compareSemVer left right ≤ 0 ∨ compareSemVer right left ≤ 0) ∧
      (∀ a b c : ParsedSemVer, compareSemVer a b ≤ 0 → compareSemVer b c ≤ 0 →
        compareSemVer a c ≤ 0) ∧
      ∀ (releases : List PlatformReleaseSummary) (channel : ReleaseChannel),
        (∀ release, selectLatest releases channel = some release →
          Maximal releases channel release) ∧
          (selectLatest releases channel = none ↔
            ∀ release ∈ releases, isReleaseAllowedForChannel release.version channel = false) := by
  simp only [compareSemVer_eq, sign_nonpos_iff]
  exact ⟨fun _ _ => ⟨sign_neg_iff, sign_eq_zero_iff, sign_pos_iff⟩, fun _ _ => le_total _ _,
    fun _ _ _ => le_trans, fun _ _ => ⟨fun _ => maximal_selectLatest, selectLatest_eq_none_iff⟩⟩

end OpenLander.Update
