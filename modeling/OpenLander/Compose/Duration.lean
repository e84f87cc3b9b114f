import Mathlib.Algebra.Order.Field.Rat
import Mathlib.Tactic.Ring
import OpenLander.Theory.Collections
import OpenLander.Theory.Pattern
import OpenLander.Pipeline.EnvFile

/-! # Durations of healthchecks

`parseComposeDurationSeconds` (`src/pipeline/compose.ts`) is what a container is created with,
`composeDurationNanoseconds` (`src/pipeline/compose-stateful-update.ts`) what its healthcheck is compared with.
Both are over the rationals: no amount overflows. -/

namespace OpenLander.Compose.Duration
open Theory Theory.Pattern
open Pipeline (isWhitespace)

/-! ## Numbers -/

def digits (s : List Char) : ℚ := s.foldl (fun n c => 10 * n + (c.toNat - '0'.toNat : ℕ)) 0

/-- `Number` of digits, with a fraction or without. -/
def number (s : List Char) : ℚ :=
  match s.dropWhile Char.isDigit with
  | [] => digits s
  | _ :: fraction => digits (s.takeWhile Char.isDigit) + digits fraction / 10 ^ fraction.length

/-- `[0-9]*\.?[0-9]+` -/
def amountRegex : Pattern Char (List Char) := do
  let whole ← many Char.isDigit
  let point ← optional (char (· == '.'))
  let fraction ← many1 Char.isDigit
  return whole ++ point.toList ++ fraction

/-- `\d+(\.\d+)?` -/
def plainRegex : Pattern Char (List Char) := do
  let whole ← many1 Char.isDigit
  let fraction ← optional do
    let point ← char (· == '.')
    let fraction ← many1 Char.isDigit
    return point :: fraction
  return whole ++ fraction.getD []

/-! ## Tokens -/

inductive DurationUnit
  | ns | us | ms | s | m | h
  deriving DecidableEq, Repr

namespace DurationUnit

def text : DurationUnit → List Char
  | ns => ['n', 's']
  | us => ['u', 's']
  | ms => ['m', 's']
  | s => ['s']
  | m => ['m']
  | h => ['h']

/-- In the order of the regular expression. -/
def all : List DurationUnit := [ns, us, ms, s, m, h]

end DurationUnit

/-- `([0-9]*\.?[0-9]+)\s*(ns|us|ms|s|m|h)` -/
def tokenRegex : Pattern Char (List Char × DurationUnit) := do
  let amount ← amountRegex
  let _ ← many isWhitespace
  let unit ← word DurationUnit.text DurationUnit.all
  return (amount, unit)

/-- UTF-16 units. -/
def units (c : Char) : Nat := if c.toNat < 0x10000 then 1 else 2

def inSeconds (amount : ℚ) : DurationUnit → ℚ
  | .h => amount * 3600
  | .m => amount * 60
  | .s => amount
  | .ms => amount / 1000
  | .us => amount / 1000000
  | .ns => amount / 1000000000

def inNanoseconds (amount : ℚ) : DurationUnit → ℚ
  | .h => amount * 3600000000000
  | .m => amount * 60000000000
  | .s => amount * 1000000000
  | .ms => amount * 1000000
  | .us => amount * 1000
  | .ns => amount

def parseComposeDurationSeconds (value : Option String) : Option ℚ :=
  match value with
  | none => none
  | some value =>
    let normalized := trim value.toList
    if normalized = [] then none
    else if plainRegex.test normalized then some (number normalized)
    else
      let found := tokenRegex.scan 0 normalized
      if consumed units found ≠ size units normalized then none
      else some (found.map fun m => inSeconds (number m.2.1) m.2.2).sum

def composeDurationNanoseconds (value : Option String) : ℚ :=
  match value with
  | none => 0
  | some value =>
    let normalized := trim value.toList
    if normalized = [] then 0
    else if plainRegex.test normalized then number normalized * 1000000000
    else
      let found := tokenRegex.scan 0 normalized
      if consumed units found = size units normalized then
        (found.map fun m => inNanoseconds (number m.2.1) m.2.2).sum
      else 0

/-! ## Healthchecks -/

structure Healthcheck where
  interval : Option String := none
  timeout : Option String := none
  start_period : Option String := none

/-- The durations of the healthcheck of a container, in nanoseconds where they are given. -/
structure RuntimeHealthcheck where
  Interval : Option ℚ
  Timeout : Option ℚ
  StartPeriod : Option ℚ

/-- `resolveDockerHealthcheck`, and what `createContainer` is called with. -/
def createdHealthcheck (healthcheck : Healthcheck) : RuntimeHealthcheck where
  Interval := (parseComposeDurationSeconds healthcheck.interval).map (· * 1000000000)
  Timeout := (parseComposeDurationSeconds healthcheck.timeout).map (· * 1000000000)
  StartPeriod := (parseComposeDurationSeconds healthcheck.start_period).map (· * 1000000000)

/-- The durations that make the classifier report a changed healthcheck. -/
def durationsChanged (healthcheck : Healthcheck) (runtime : RuntimeHealthcheck) : Bool :=
  runtime.Interval.getD 0 ≠ composeDurationNanoseconds healthcheck.interval ∨
    runtime.Timeout.getD 0 ≠ composeDurationNanoseconds healthcheck.timeout ∨
      runtime.StartPeriod.getD 0 ≠ composeDurationNanoseconds healthcheck.start_period

/-! ## What a duration is -/

/-- At least one digit. -/
def Digits (s : List Char) : Prop := s ≠ [] ∧ ∀ c ∈ s, c.isDigit = true

/-- Digits, with a fraction or without. -/
def PlainDecimal (s : List Char) : Prop :=
  Digits s ∨ ∃ whole fraction, s = whole ++ '.' :: fraction ∧ Digits whole ∧ Digits fraction

/-- A decimal that may start with the point. -/
def Decimal (s : List Char) : Prop :=
  Digits s ∨ ∃ whole fraction, s = whole ++ '.' :: fraction ∧ (∀ c ∈ whole, c.isDigit = true) ∧ Digits fraction

/-- A decimal, optional spaces and a unit. -/
structure Token where
  amount : List Char
  spaces : List Char
  unit : DurationUnit
  decimal : Decimal amount
  blank : ∀ c ∈ spaces, isWhitespace c = true

namespace Token

def text (t : Token) : List Char := t.amount ++ t.spaces ++ t.unit.text

def seconds (t : Token) : ℚ := inSeconds (number t.amount) t.unit

end Token

/-- The duration that a text says. -/
def Says (s : List Char) (seconds : ℚ) : Prop :=
  (PlainDecimal s ∧ seconds = number s) ∨
    ∃ tokens : List Token, tokens ≠ [] ∧ s = tokens.flatMap Token.text ∧
      seconds = (tokens.map Token.seconds).sum

/-! ## Regular expressions -/

theorem mem_amountRegex {s d r : List Char} : (d, r) ∈ amountRegex s ↔ Decimal d ∧ s = d ++ r := by
  simp only [amountRegex, mem_bind, mem_many, mem_optional, mem_char, mem_many1, mem_pure, Prod.mk.injEq]
  constructor
  · rintro ⟨whole, _, ⟨rfl, hwhole⟩, point, _, hpoint, fraction, _, ⟨hne, rfl, hfraction⟩, rfl, rfl⟩
    rcases hpoint with ⟨c, rfl, rfl, hc⟩ | ⟨rfl, rfl⟩
    · obtain rfl := eq_of_beq hc
      exact ⟨.inr ⟨whole, fraction, by simp, hwhole, hne, hfraction⟩, by simp⟩
    · refine ⟨.inl ⟨by simp [hne], fun c hc => ?_⟩, by simp⟩
      rcases List.mem_append.mp hc with hc | hc
      · exact hwhole c (by simpa using hc)
      · exact hfraction c hc
  · rintro ⟨⟨hne, hdigits⟩ | ⟨whole, fraction, rfl, hwhole, hne, hfraction⟩, rfl⟩
    · exact ⟨[], _, ⟨rfl, List.forall_mem_nil _⟩, none, _, .inr ⟨rfl, rfl⟩, d, r, ⟨hne, rfl, hdigits⟩, rfl, rfl⟩
    · refine ⟨whole, '.' :: (fraction ++ r), ⟨by simp, hwhole⟩, some '.', fraction ++ r, ?_, fraction, r,
        ⟨hne, rfl, hfraction⟩, by simp, rfl⟩
      exact .inl ⟨'.', rfl, rfl, rfl⟩

theorem test_plainRegex {s : List Char} : plainRegex.test s = true ↔ PlainDecimal s := by
  simp only [test_eq_true_iff, plainRegex, mem_bind, mem_optional, mem_char, mem_many1, mem_pure, Prod.mk.injEq]
  constructor
  · rintro ⟨_, whole, _, ⟨hne, rfl, hwhole⟩, fraction, _, hfraction, rfl, rfl⟩
    rcases hfraction with ⟨_, rfl, point, _, ⟨rfl, hpoint⟩, fraction, _, ⟨hne', rfl, hfraction⟩, rfl, rfl⟩ |
      ⟨rfl, rfl⟩
    · obtain rfl := eq_of_beq hpoint
      exact .inr ⟨whole, fraction, by simp, ⟨hne, hwhole⟩, hne', hfraction⟩
    · exact .inl ⟨by simpa using hne, by simpa using hwhole⟩
  · rintro (⟨hne, hdigits⟩ | ⟨whole, fraction, rfl, ⟨hne, hwhole⟩, hne', hfraction⟩)
    · exact ⟨_, s, [], ⟨hne, by simp, hdigits⟩, none, [], .inr ⟨rfl, rfl⟩, rfl, rfl⟩
    · refine ⟨_, whole, '.' :: fraction, ⟨hne, rfl, hwhole⟩, some ('.' :: fraction), [], ?_, rfl, rfl⟩
      exact .inl ⟨_, rfl, '.', fraction, ⟨rfl, rfl⟩, fraction, [], ⟨hne', by simp, hfraction⟩, rfl, rfl⟩

theorem mem_tokenRegex {s r : List Char} {m : List Char × DurationUnit} :
    (m, r) ∈ tokenRegex s ↔ ∃ t : Token, m = (t.amount, t.unit) ∧ s = t.text ++ r := by
  simp only [tokenRegex, mem_bind, mem_amountRegex, mem_many, mem_word, mem_pure, Prod.mk.injEq]
  constructor
  · rintro ⟨amount, _, ⟨hdecimal, rfl⟩, spaces, _, ⟨rfl, hblank⟩, unit, _, ⟨_, rfl⟩, rfl, rfl⟩
    exact ⟨⟨amount, spaces, unit, hdecimal, hblank⟩, rfl, by simp [Token.text]⟩
  · rintro ⟨⟨amount, spaces, unit, hdecimal, hblank⟩, rfl, rfl⟩
    refine ⟨amount, _, ⟨hdecimal, by rw [Token.text, List.append_assoc, List.append_assoc]⟩, spaces, _,
      ⟨rfl, hblank⟩, unit, r, ⟨?_, rfl⟩, rfl, rfl⟩
    cases unit <;> decide

/-! ## Where a token ends -/

def isAmountChar (c : Char) : Bool := c.isDigit || c == '.'

theorem Decimal.isAmountChar (h : Decimal s) : ∀ c ∈ s, isAmountChar c = true := by
  rcases h with ⟨_, hdigits⟩ | ⟨whole, fraction, rfl, hwhole, _, hfraction⟩
  · exact fun c hc => Bool.or_eq_true_iff.mpr (.inl (hdigits c hc))
  · intro c hc
    rcases List.mem_append.mp hc with hc | hc
    · exact Bool.or_eq_true_iff.mpr (.inl (hwhole c hc))
    · cases hc with
      | head => rfl
      | tail _ hc => exact Bool.or_eq_true_iff.mpr (.inl (hfraction c hc))

theorem Decimal.ne_nil (h : Decimal s) : s ≠ [] := by
  rcases h with ⟨hne, _⟩ | ⟨_, _, rfl, _⟩
  · exact hne
  · simp

theorem not_isAmountChar_of_isWhitespace (h : isWhitespace c = true) : isAmountChar c = false := by
  have halphanum := Pipeline.EnvFile.not_isAlphanum_of_isWhitespace h
  rw [Bool.or_eq_false_iff, Char.isAlphanum, Bool.or_eq_false_iff] at halphanum
  rw [isAmountChar, halphanum.1.2, Bool.false_or, beq_eq_false_iff_ne]
  rintro rfl
  exact absurd h (by decide)

/-- The letter that a unit starts with. -/
theorem DurationUnit.head?_text (unit : DurationUnit) :
    ∃ c rest, unit.text = c :: rest ∧ isAmountChar c = false ∧ isWhitespace c = false := by
  cases unit <;> exact ⟨_, _, rfl, by decide, by decide⟩

namespace Token

/-- The parts of a token can be told apart, but for the unit, where a longer one may start with it. -/
theorem text_inj {t t' : Token} {r r' : List Char} (h : t.text ++ r = t'.text ++ r') :
    t.amount = t'.amount ∧ t.spaces = t'.spaces ∧ t.unit.text ++ r = t'.unit.text ++ r' := by
  have hspaces (t : Token) (r : List Char) : ∀ c ∈ (t.unit.text ++ r).head?, isWhitespace c = false := by
    obtain ⟨c, rest, heq, _, hc⟩ := t.unit.head?_text
    rw [heq]
    exact fun _ h => Option.some.inj h ▸ hc
  have hamount (t : Token) (r : List Char) :
      ∀ c ∈ (t.spaces ++ (t.unit.text ++ r)).head?, isAmountChar c = false := by
    cases hs : t.spaces with
    | nil =>
      obtain ⟨c, rest, heq, hc, _⟩ := t.unit.head?_text
      rw [heq]
      exact fun _ h => Option.some.inj h ▸ hc
    | cons c rest =>
      have hblank := not_isAmountChar_of_isWhitespace (t.blank c (hs ▸ .head _))
      exact fun _ h => Option.some.inj h ▸ hblank
  simp only [text, List.append_assoc] at h
  obtain ⟨hfirst, h⟩ := append_inj_of_run t.decimal.isAmountChar (hamount t r) t'.decimal.isAmountChar
    (hamount t' r') h
  obtain ⟨hsecond, h⟩ := append_inj_of_run t.blank (hspaces t r) t'.blank (hspaces t' r') h
  exact ⟨hfirst, hsecond, h⟩

theorem text_ne_nil (t : Token) : t.text ≠ [] := by
  simp [text, t.decimal.ne_nil]

end Token

theorem tokenRegex_consuming : tokenRegex.Consuming := by
  intro s m r hm
  obtain ⟨t, _, rfl⟩ := mem_tokenRegex.mp hm
  exact ⟨t.text, t.text_ne_nil, rfl⟩

/-- Of the units the one that is there, where no `s` follows. -/
theorem first_word {unit : DurationUnit} {r : List Char} (hr : ∀ c ∈ r.head?, c ≠ 's') :
    (word DurationUnit.text DurationUnit.all).first (unit.text ++ r) = some (unit, r) := by
  cases unit with
  | m =>
    cases r with
    | nil => rfl
    | cons c r =>
      have hc : ('s' == c) = false := beq_eq_false_iff_ne.mpr (hr c rfl).symm
      simp [first, word, DurationUnit.all, DurationUnit.text, List.isPrefixOf, List.filter, hc]
  | _ => rfl

theorem first_tokenRegex (t : Token) {r : List Char} (hr : ∀ c ∈ r.head?, c ≠ 's') :
    tokenRegex.first (t.text ++ r) = some ((t.amount, t.unit), r) := by
  obtain ⟨m, hm⟩ := first_isSome (mem_tokenRegex.mpr ⟨t, rfl, rfl⟩)
  rw [hm]
  obtain ⟨amount, s, hamount, hspaces⟩ := exists_of_first_bind hm
  obtain ⟨spaces, s', hmany, hunit⟩ := exists_of_first_bind hspaces
  obtain ⟨hdecimal, hs⟩ := mem_amountRegex.mp hamount
  obtain ⟨rfl, hblank⟩ := mem_many.mp hmany
  rw [first_bind_pure] at hunit
  obtain ⟨⟨unit, r'⟩, hfirst, rfl⟩ := Option.map_eq_some_iff.mp hunit
  obtain ⟨-, rfl⟩ := mem_word.mp (mem_of_first hfirst)
  obtain ⟨rfl, -, heq⟩ := @Token.text_inj t ⟨amount, spaces, unit, hdecimal, hblank⟩ r r' (by
    rw [hs]
    simp [Token.text])
  rw [← heq, first_word hr] at hfirst
  obtain ⟨rfl, rfl⟩ := Prod.mk.inj (Option.some.inj hfirst)
  rfl

/-! ## Tokens one after the other -/

theorem head?_flatMap_text (tokens : List Token) : ∀ c ∈ (tokens.flatMap Token.text).head?, c ≠ 's' := by
  cases tokens with
  | nil => exact nofun
  | cons t tokens =>
    intro c hc
    have hmem : c ∈ t.amount := by
      obtain ⟨a, rest, heq⟩ := List.exists_cons_of_ne_nil t.decimal.ne_nil
      rw [List.flatMap_cons, Token.text, heq] at hc
      rw [heq, ← Option.some.inj hc]
      exact .head _
    rintro rfl
    exact absurd (t.decimal.isAmountChar _ hmem) (by decide)

/-- The matches without a gap are the tokens that the text consists of. -/
theorem tiles_tokenRegex_iff : Tiles tokenRegex s l ↔ ∃ tokens : List Token,
    s = tokens.flatMap Token.text ∧ l = tokens.map fun t => (t.text, t.amount, t.unit) := by
  constructor
  · intro h
    induction h with
    | nil => exact ⟨[], rfl, rfl⟩
    | cons hfirst _ ih =>
      obtain ⟨tokens, rfl, rfl⟩ := ih
      obtain ⟨t, rfl, heq⟩ := mem_tokenRegex.mp (mem_of_first hfirst)
      obtain rfl := List.append_cancel_right heq
      exact ⟨t :: tokens, rfl, rfl⟩
  · rintro ⟨tokens, rfl, rfl⟩
    induction tokens with
    | nil => exact .nil
    | cons t tokens ih => exact .cons (first_tokenRegex t (head?_flatMap_text tokens)) ih

theorem units_pos (c : Char) : 0 < units c := by
  rw [units]
  split <;> decide

theorem scan_eq_of_consumed (h : consumed units (tokenRegex.scan 0 s) = size units s) :
    ∃ tokens : List Token, s = tokens.flatMap Token.text ∧
      tokenRegex.scan 0 s = tokens.map fun t => (t.text, t.amount, t.unit) :=
  tiles_tokenRegex_iff.mp ((consumed_eq_iff units tokenRegex_consuming units_pos).mp h)

theorem scan_flatMap_text (tokens : List Token) : tokenRegex.scan 0 (tokens.flatMap Token.text) =
    tokens.map fun t => (t.text, t.amount, t.unit) :=
  (tiles_tokenRegex_iff.mpr ⟨tokens, rfl, rfl⟩).scan_eq tokenRegex_consuming

theorem consumed_flatMap_text (tokens : List Token) :
    consumed units (tokenRegex.scan 0 (tokens.flatMap Token.text)) =
      size units (tokens.flatMap Token.text) := by
  rw [consumed_eq_iff units tokenRegex_consuming units_pos, scan_flatMap_text]
  exact tiles_tokenRegex_iff.mpr ⟨tokens, rfl, rfl⟩

/-- A text with a unit is not a plain number. -/
theorem not_plainDecimal_flatMap_text (hne : tokens ≠ []) :
    ¬PlainDecimal (tokens.flatMap Token.text) := by
  obtain ⟨t, tokens, rfl⟩ := List.exists_cons_of_ne_nil hne
  intro h
  have hall : ∀ c ∈ (t :: tokens).flatMap Token.text, isAmountChar c = true := by
    rcases h with h | ⟨whole, fraction, heq, hwhole, hfraction⟩
    · exact Decimal.isAmountChar (.inl h)
    · exact Decimal.isAmountChar (.inr ⟨whole, fraction, heq, hwhole.2, hfraction⟩)
  obtain ⟨c, rest, heq, hc, -⟩ := t.unit.head?_text
  have hmem : c ∈ (t :: tokens).flatMap Token.text := by
    rw [List.flatMap_cons, Token.text, heq]
    simp
  rw [hall c hmem] at hc
  cases hc

theorem inNanoseconds_eq (amount : ℚ) (unit : DurationUnit) :
    inNanoseconds amount unit = 10 ^ 9 * inSeconds amount unit := by
  cases unit <;> simp only [inNanoseconds, inSeconds] <;> ring

theorem sum_inNanoseconds (l : List (List Char × List Char × DurationUnit)) :
    (l.map fun m => inNanoseconds (number m.2.1) m.2.2).sum =
      10 ^ 9 * (l.map fun m => inSeconds (number m.2.1) m.2.2).sum := by
  induction l with
  | nil => simp
  | cons m l ih => rw [List.map_cons, List.sum_cons, ih, inNanoseconds_eq, List.map_cons, List.sum_cons, mul_add]

/-- The seconds are exactly what the trimmed text says. -/
theorem parseComposeDurationSeconds_eq_some_iff {value : String} {seconds : ℚ} :
    parseComposeDurationSeconds (some value) = some seconds ↔ Says (trim value.toList) seconds := by
  rw [parseComposeDurationSeconds]
  generalize trim value.toList = s
  dsimp only
  split
  next hempty =>
    subst hempty
    refine ⟨nofun, ?_⟩
    rintro (⟨h, -⟩ | ⟨tokens, hne, h, -⟩)
    · rcases h with h | ⟨_, _, h, _⟩
      · exact absurd rfl h.1
      · simp at h
    · obtain ⟨t, tokens, rfl⟩ := List.exists_cons_of_ne_nil hne
      simp [t.text_ne_nil] at h
  split
  next hplain =>
    rw [test_plainRegex] at hplain
    rw [Option.some_inj]
    constructor
    · rintro rfl
      exact .inl ⟨hplain, rfl⟩
    · rintro (⟨-, rfl⟩ | ⟨tokens, hne, rfl, -⟩)
      · rfl
      · exact absurd hplain (not_plainDecimal_flatMap_text hne)
  next hne hplain =>
    rw [test_plainRegex] at hplain
    split
    next hconsumed =>
      refine ⟨nofun, ?_⟩
      rintro (⟨h, -⟩ | ⟨tokens, -, rfl, -⟩)
      · exact absurd h hplain
      · exact absurd (consumed_flatMap_text tokens) hconsumed
    next hconsumed =>
      obtain ⟨tokens, rfl, hscan⟩ := scan_eq_of_consumed (not_not.mp hconsumed)
      rw [hscan, Option.some_inj, List.map_map]
      constructor
      · rintro rfl
        refine .inr ⟨tokens, ?_, rfl, rfl⟩
        rintro rfl
        exact hne rfl
      · rintro (⟨h, -⟩ | ⟨tokens', -, heq, rfl⟩)
        · exact absurd h hplain
        · have hmap := hscan.symm.trans ((congrArg _ heq).trans (scan_flatMap_text tokens'))
          have hseconds := congrArg (List.map fun m => inSeconds (number m.2.1) m.2.2) hmap
          rw [List.map_map, List.map_map] at hseconds
          exact congrArg List.sum hseconds

theorem composeDurationNanoseconds_eq (value : Option String) :
    composeDurationNanoseconds value = 10 ^ 9 * (parseComposeDurationSeconds value).getD 0 := by
  cases value with
  | none => simp [composeDurationNanoseconds, parseComposeDurationSeconds]
  | some value =>
    rw [composeDurationNanoseconds, parseComposeDurationSeconds]
    dsimp only
    split
    · simp
    split
    · rw [Option.getD_some]
      ring
    split
    next hconsumed => rw [if_neg (not_not.mpr hconsumed), Option.getD_some, sum_inNanoseconds]
    next hconsumed => simp

theorem getD_map_eq (value : Option String) :
    ((parseComposeDurationSeconds value).map (· * 1000000000)).getD 0 = composeDurationNanoseconds value := by
  rw [composeDurationNanoseconds_eq]
  cases parseComposeDurationSeconds value with
  | none => simp
  | some seconds =>
    rw [Option.map_some, Option.getD_some, Option.getD_some]
    ring

/-- A duration has a value if the trimmed text is a plain decimal or consists of tokens, and the value is
theirs. The classifier reads the same, so that it never reports the durations of a container created so. -/
theorem durations_agree :
    (∀ value seconds, parseComposeDurationSeconds (some value) = some seconds ↔
      Says (trim value.toList) seconds) ∧
    parseComposeDurationSeconds none = none ∧
    (∀ value, composeDurationNanoseconds value = 10 ^ 9 * (parseComposeDurationSeconds value).getD 0) ∧
    ∀ healthcheck, durationsChanged healthcheck (createdHealthcheck healthcheck) = false := by
  refine ⟨fun _ _ => parseComposeDurationSeconds_eq_some_iff, rfl, composeDurationNanoseconds_eq, ?_⟩
  intro healthcheck
  simp [durationsChanged, createdHealthcheck, getD_map_eq]

example : parseComposeDurationSeconds (some " 1m.5s 250ms ") = none := by decide +kernel

example : parseComposeDurationSeconds (some " 1m.5s250 ms ") = some (243 / 4) := by decide +kernel

end OpenLander.Compose.Duration
