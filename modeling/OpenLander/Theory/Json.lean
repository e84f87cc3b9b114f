import Mathlib.Algebra.Group.Int.Defs
import Mathlib.Data.List.TakeWhile
import Mathlib.Data.List.Basic
import Mathlib.Data.Nat.Notation

/-! # JSON

`JSON.parse`, as a function on the characters of a text, and `JSON.stringify` of a flat object. A number
is a decimal: an integer times a power of ten. A text with a lone surrogate has no value here, since a
list of characters has none.

`parse_stringify` says that a flat object is read back as it was written. -/

namespace OpenLander.Theory

inductive Json
  | null
  | bool (value : Bool)
  /-- `mantissa * 10 ^ exponent` -/
  | number (mantissa exponent : Int)
  | string (text : List Char)
  | array (elements : List Json)
  | object (members : List (List Char × Json))

namespace Json

/-! ## Reading -/

def isSpace (c : Char) : Bool := c = ' ' || c = '\t' || c = '\n' || c = '\r'

def skipSpaces (text : List Char) : List Char := text.dropWhile isSpace

def hexValue (c : Char) : Option Nat :=
  if '0' ≤ c && c ≤ '9' then some (c.toNat - 48)
  else if 'a' ≤ c && c ≤ 'f' then some (c.toNat - 87)
  else if 'A' ≤ c && c ≤ 'F' then some (c.toNat - 55)
  else none

def hex4 (a b c d : Char) : Option Nat :=
  match hexValue a, hexValue b, hexValue c, hexValue d with
  | some a, some b, some c, some d => some (((a * 16 + b) * 16 + c) * 16 + d)
  | _, _, _, _ => none

/-- The character that a letter after a backslash stands for. -/
def unescape : Char → Option Char
  | '"' => some '"'
  | '\\' => some '\\'
  | '/' => some '/'
  | 'b' => some '\x08'
  | 'f' => some '\x0c'
  | 'n' => some '\n'
  | 'r' => some '\r'
  | 't' => some '\t'
  | _ => none

/-- The character of a surrogate pair. -/
def surrogates (high low : Nat) : Option Char :=
  if 0xD800 ≤ high && high < 0xDC00 && 0xDC00 ≤ low && low < 0xE000 then
    some (Char.ofNat (0x10000 + (high - 0xD800) * 0x400 + (low - 0xDC00)))
  else none

def isSurrogate (n : Nat) : Bool := 0xD800 ≤ n && n < 0xE000

/-- A string from behind its opening quote, and what follows the closing one. -/
def stringBody : List Char → Option (List Char × List Char)
  | [] => none
  | '"' :: rest => some ([], rest)
  | '\\' :: 'u' :: a :: b :: c :: d :: rest =>
    match hex4 a b c d with
    | none => none
    | some high =>
      if isSurrogate high then
        match rest with
        | '\\' :: 'u' :: a :: b :: c :: d :: rest =>
          ((hex4 a b c d).bind (surrogates high)).bind fun c =>
            (stringBody rest).map fun (cs, rest) => (c :: cs, rest)
        | _ => none
      else (stringBody rest).map fun (cs, rest) => (Char.ofNat high :: cs, rest)
  | '\\' :: c :: rest =>
    (unescape c).bind fun c => (stringBody rest).map fun (cs, rest) => (c :: cs, rest)
  | c :: rest =>
    if c.toNat < 32 then none else (stringBody rest).map fun (cs, rest) => (c :: cs, rest)

def digits (text : List Char) : List Char × List Char :=
  (text.takeWhile (·.isDigit), text.dropWhile (·.isDigit))

/-- The digits behind the point, if there is one. -/
def fraction : List Char → Option (List Char × List Char)
  | '.' :: text =>
    let (ds, rest) := digits text
    if ds = [] then none else some (ds, rest)
  | text => some ([], text)

/-- Whether there is a minus, and what follows it. -/
def minus : List Char → Bool × List Char
  | '-' :: text => (true, text)
  | text => (false, text)

def signed (text : List Char) : Option (Int × List Char) :=
  let (negative, text) := match text with
    | '+' :: text => (false, text)
    | text => minus text
  let (ds, rest) := digits text
  let value : Int := Nat.ofDigitChars 10 ds 0
  if ds = [] then none else some (if negative then -value else value, rest)

def exponentPart : List Char → Option (Int × List Char)
  | 'e' :: text | 'E' :: text => signed text
  | text => some (0, text)

def numeral (text : List Char) : Option (Json × List Char) :=
  let (negative, text) := minus text
  let (whole, rest) := digits text
  if whole = [] || (1 < whole.length && whole.head? = some '0') then none
  else
    (fraction rest).bind fun (decimals, rest) =>
      (exponentPart rest).map fun (exponent, rest) =>
        let mantissa : Int := Nat.ofDigitChars 10 (whole ++ decimals) 0
        (.number (if negative then -mantissa else mantissa) (exponent - decimals.length), rest)

mutual

def value : Nat → List Char → Option (Json × List Char)
  | 0, _ => none
  | fuel + 1, text =>
    match skipSpaces text with
    | 'n' :: 'u' :: 'l' :: 'l' :: rest => some (.null, rest)
    | 't' :: 'r' :: 'u' :: 'e' :: rest => some (.bool true, rest)
    | 'f' :: 'a' :: 'l' :: 's' :: 'e' :: rest => some (.bool false, rest)
    | '"' :: rest => (stringBody rest).map fun (text, rest) => (.string text, rest)
    | '[' :: rest =>
      match skipSpaces rest with
      | ']' :: rest => some (.array [], rest)
      | _ => (elements fuel rest).map fun (es, rest) => (.array es, rest)
    | '\x7b' :: rest =>
      match skipSpaces rest with
      | '\x7d' :: rest => some (.object [], rest)
      | _ => (members fuel rest).map fun (ms, rest) => (.object ms, rest)
    | text => numeral text

def elements : Nat → List Char → Option (List Json × List Char)
  | 0, _ => none
  | fuel + 1, text =>
    (value fuel text).bind fun (element, rest) =>
      match skipSpaces rest with
      | ',' :: rest => (elements fuel rest).map fun (es, rest) => (element :: es, rest)
      | ']' :: rest => some ([element], rest)
      | _ => none

def members : Nat → List Char → Option (List (List Char × Json) × List Char)
  | 0, _ => none
  | fuel + 1, text =>
    match skipSpaces text with
    | '"' :: rest =>
      (stringBody rest).bind fun (key, rest) =>
        match skipSpaces rest with
        | ':' :: rest =>
          (value fuel rest).bind fun (member, rest) =>
            match skipSpaces rest with
            | ',' :: rest => (members fuel rest).map fun (ms, rest) => ((key, member) :: ms, rest)
            | '\x7d' :: rest => some ([(key, member)], rest)
            | _ => none
        | _ => none
    | _ => none

end

/-- `JSON.parse` -/
def parse (text : List Char) : Option Json :=
  (value (text.length + 1) text).bind fun (json, rest) =>
    if skipSpaces rest = [] then some json else none

/-- A property of the value of `JSON.parse`: of members with one name the last one counts. -/
def get (json : Json) (key : List Char) : Option Json :=
  match json with
  | object members => (members.reverse.find? (·.1 = key)).map (·.2)
  | _ => none

/-- The value is a number greater than `n`. -/
def exceeds (n : Nat) : Json → Bool
  | number mantissa exponent =>
    if 0 ≤ exponent then n < mantissa * 10 ^ exponent.toNat
    else n * 10 ^ (-exponent).toNat < mantissa
  | _ => false

/-- The value is a number of at most `n`. -/
def atMost (n : Nat) : Json → Bool
  | number mantissa exponent =>
    if 0 ≤ exponent then mantissa * 10 ^ exponent.toNat ≤ n
    else mantissa ≤ n * 10 ^ (-exponent).toNat
  | _ => false

@[simp] theorem exceeds_natural (n m : Nat) : exceeds n (.number m 0) = decide (n < m) := by
  simp [exceeds]

@[simp] theorem atMost_natural (n m : Nat) : atMost n (.number m 0) = decide (m ≤ n) := by
  simp [atMost]

/-- The value is the string. -/
def isString (text : List Char) : Json → Bool
  | string value => value = text
  | _ => false

/-! ## Writing -/

inductive Scalar
  | text (value : List Char)
  | natural (value : Nat)

def Scalar.toJson : Scalar → Json
  | text value => .string value
  | natural value => .number value 0

def escape (c : Char) : List Char :=
  if c = '"' then ['\\', '"']
  else if c = '\\' then ['\\', '\\']
  else if c = '\x08' then ['\\', 'b']
  else if c = '\t' then ['\\', 't']
  else if c = '\n' then ['\\', 'n']
  else if c = '\x0c' then ['\\', 'f']
  else if c = '\r' then ['\\', 'r']
  else if c.toNat < 32 then
    ['\\', 'u', '0', '0', Nat.digitChar (c.toNat / 16), Nat.digitChar (c.toNat % 16)]
  else [c]

def quote (text : List Char) : List Char := '"' :: (text.flatMap escape ++ ['"'])

def Scalar.stringify : Scalar → List Char
  | text value => quote value
  | natural value => Nat.toDigits 10 value

/-- The members of an object up to its closing brace. -/
def stringifyMembers : List (List Char × Scalar) → List Char
  | [] => []
  | [(key, member)] => quote key ++ ':' :: member.stringify
  | (key, member) :: ms => quote key ++ ':' :: (member.stringify ++ ',' :: stringifyMembers ms)

/-- `JSON.stringify` of an object whose members are texts and natural numbers. -/
def stringify (ms : List (List Char × Scalar)) : List Char :=
  '\x7b' :: (stringifyMembers ms ++ ['\x7d'])

/-! ## What is read back -/

theorem hexValue_digitChar (n : Nat) (hn : n < 16) : hexValue (Nat.digitChar n) = some n := by
  have hall : ∀ n : Fin 16, hexValue (Nat.digitChar n) = some n.1 := by decide
  exact hall ⟨n, hn⟩

/-- What is written for a character is read as that character. -/
theorem stringBody_escape (c : Char) (text : List Char) :
    stringBody (escape c ++ text) =
      (stringBody text).map fun (cs, rest) => (c :: cs, rest) := by
  unfold escape
  split_ifs with hquote hslash hb ht hn hf hr hcontrol
  · rw [hquote]
    rfl
  · rw [hslash]
    rfl
  · rw [hb]
    rfl
  · rw [ht]
    rfl
  · rw [hn]
    rfl
  · rw [hf]
    rfl
  · rw [hr]
    rfl
  · have hvalue : hex4 '0' '0' (Nat.digitChar (c.toNat / 16)) (Nat.digitChar (c.toNat % 16)) =
        some c.toNat := by
      rw [hex4, hexValue_digitChar _ (by omega), hexValue_digitChar _ (by omega)]
      show some (((0 * 16 + 0) * 16 + c.toNat / 16) * 16 + c.toNat % 16) = some c.toNat
      congr 1
      omega
    have hplain : isSurrogate c.toNat = false := by
      simp only [isSurrogate, Bool.and_eq_false_iff, decide_eq_false_iff_not]
      omega
    simp only [List.cons_append, List.nil_append]
    rw [stringBody, hvalue]
    simp only [hplain, Bool.false_eq_true, if_false, Char.ofNat_toNat]
  · rw [List.cons_append, List.nil_append, stringBody, if_neg hcontrol]
    · exact hquote
    · intro _ _ _ _ _ h
      exact absurd h hslash
    · intro _ _ h
      exact absurd h hslash

theorem stringBody_quote (text rest : List Char) :
    stringBody (text.flatMap escape ++ '"' :: rest) = some (text, rest) := by
  induction text with
  | nil => rfl
  | cons c text ih => rw [List.flatMap_cons, List.append_assoc, stringBody_escape, ih, Option.map_some]

/-- What comes behind a number in an object. -/
def Ends (text : List Char) : Prop := text.head? = some ',' ∨ text.head? = some '\x7d'

theorem head_toDigits (hn : 0 < n) : (Nat.toDigits 10 n).head? ≠ some '0' := by
  induction n using Nat.base_induction 10 (by decide) with
  | single m hm =>
    rw [Nat.toDigits_of_lt_base hm, List.head?_cons]
    have hall : ∀ m : Fin 10, 0 < m.1 → some (Nat.digitChar m) ≠ some '0' := by decide
    exact hall ⟨m, hm⟩ hn
  | digit m k hk hm ih =>
    rw [← Nat.toDigits_append_toDigits (by decide) hm hk, List.head?_append_of_ne_nil _ Nat.toDigits_ne_nil]
    exact ih hm

theorem digits_append (hds : ∀ c ∈ ds, c.isDigit = true)
    (hrest : ∀ c ∈ rest.head?, c.isDigit = false) : digits (ds ++ rest) = (ds, rest) := by
  rw [digits, List.takeWhile_append_of_pos hds, List.dropWhile_append_of_pos hds]
  cases rest with
  | nil => simp
  | cons c rest =>
    have hc : c.isDigit = false := hrest c rfl
    rw [List.takeWhile_cons_of_neg (by simp [hc]), List.dropWhile_cons_of_neg (by simp [hc]),
      List.append_nil]

/-- A numeral in its parts. -/
theorem numeral_append (hw : ∀ c ∈ whole, c.isDigit = true) (hnil : whole ≠ [])
    (hzero : whole.head? = some '0' → whole.length = 1)
    (hrest : ∀ c ∈ rest.head?, c.isDigit = false)
    (hfraction : fraction rest = some (decimals, rest'))
    (hexponent : exponentPart rest' = some (e, end')) (negative : Bool) :
    numeral (if negative then '-' :: (whole ++ rest) else whole ++ rest) =
      some (.number (if negative then -Nat.ofDigitChars 10 (whole ++ decimals) 0
        else Nat.ofDigitChars 10 (whole ++ decimals) 0) (e - decimals.length), end') := by
  have hminus : minus (if negative then '-' :: (whole ++ rest) else whole ++ rest) =
      (negative, whole ++ rest) := by
    cases negative with
    | true => rfl
    | false =>
      obtain ⟨c, cs, rfl⟩ := List.exists_cons_of_ne_nil hnil
      have hc : c ≠ '-' := by
        rintro rfl
        exact nomatch hw '-' (.head _)
      show minus (c :: (cs ++ rest)) = _
      unfold minus
      split
      next heq => exact absurd (List.cons.inj heq).1 hc
      next => rfl
  have hplain : ¬(whole = [] || (1 < whole.length && whole.head? = some '0')) = true := by
    simp only [Bool.or_eq_true, Bool.and_eq_true, decide_eq_true_eq, not_or, not_and]
    exact ⟨hnil, fun hlength hhead => by have := hzero hhead; omega⟩
  rw [numeral, hminus]
  dsimp only
  rw [digits_append hw hrest]
  dsimp only
  rw [if_neg hplain, hfraction, Option.bind_some]
  dsimp only
  rw [hexponent, Option.map_some]

theorem fraction_of_ends (h : Ends rest) : fraction rest = some ([], rest) := by
  unfold fraction
  split
  next => exact absurd h (by simp [Ends])
  next => rfl

theorem exponentPart_of_ends (h : Ends rest) : exponentPart rest = some (0, rest) := by
  unfold exponentPart
  split
  next => exact absurd h (by simp [Ends])
  next => exact absurd h (by simp [Ends])
  next => rfl

theorem not_isDigit_of_ends (h : Ends rest) : ∀ c ∈ rest.head?, c.isDigit = false := by
  intro c hc
  obtain h | h := h
  all_goals
    rw [h] at hc
    rw [← Option.some.inj hc]
    rfl

theorem numeral_toDigits (n : Nat) (h : Ends rest) :
    numeral (Nat.toDigits 10 n ++ rest) = some (.number n 0, rest) := by
  have hzero : (Nat.toDigits 10 n).head? = some '0' → (Nat.toDigits 10 n).length = 1 := by
    intro hzero
    cases n with
    | zero => rfl
    | succ n => exact absurd hzero (head_toDigits (Nat.succ_pos n))
  refine (numeral_append (fun c hc => Nat.isDigit_of_mem_toDigits (by decide) (by decide) hc)
    Nat.toDigits_ne_nil hzero (not_isDigit_of_ends h) (fraction_of_ends h)
    (exponentPart_of_ends h) false).trans ?_
  rw [List.append_nil, Nat.ofDigitChars_ten_toDigits]
  rfl

/-! ## Objects -/

theorem skipSpaces_of_not (h : isSpace c = false) (text : List Char) :
    skipSpaces (c :: text) = c :: text :=
  List.dropWhile_cons_of_neg (by simp [h])

theorem value_of_digit (h : c.isDigit = true) (fuel : Nat) (text : List Char) :
    value (fuel + 1) (c :: text) = numeral (c :: text) := by
  have hspace : isSpace c = false := by
    by_contra hspace
    simp only [isSpace, Bool.not_eq_false, Bool.or_eq_true, decide_eq_true_eq] at hspace
    obtain ((rfl | rfl) | rfl) | rfl := hspace
    all_goals exact nomatch h
  rw [value, skipSpaces_of_not hspace]
  -- None of the other values begins with a digit.
  split
  case h_7 => rfl
  all_goals
    rename_i heq
    rw [(List.cons.inj heq).1] at h
    exact nomatch h

theorem value_scalar (fuel : Nat) (member : Scalar) (h : Ends rest) :
    value (fuel + 1) (member.stringify ++ rest) = some (member.toJson, rest) := by
  cases member with
  | text t =>
    rw [Scalar.stringify, quote, List.cons_append, List.append_assoc, value,
      skipSpaces_of_not rfl]
    show Option.map _ (stringBody (t.flatMap escape ++ '"' :: rest)) = _
    rw [stringBody_quote]
    rfl
  | natural n =>
    rw [Scalar.stringify, Scalar.toJson, ← numeral_toDigits n h]
    cases hdigits : Nat.toDigits 10 n with
    | nil => exact absurd hdigits Nat.toDigits_ne_nil
    | cons d ds =>
      refine value_of_digit ?_ fuel _
      exact Nat.isDigit_of_mem_toDigits (b := 10) (n := n) (by decide) (by decide)
        (hdigits ▸ List.mem_cons_self)

/-- The first member, and what is made of the rest. -/
theorem members_cons (fuel : Nat) (key : List Char) (member : Scalar) (rest : List Char) :
    Ends rest → members (fuel + 2) (quote key ++ ':' :: (member.stringify ++ rest)) =
      match rest with
      | ',' :: rest =>
        (members (fuel + 1) rest).map fun (ms, rest) => ((key, member.toJson) :: ms, rest)
      | '\x7d' :: rest => some ([(key, member.toJson)], rest)
      | _ => none := by
  intro h
  rw [quote, List.cons_append, List.append_assoc, members, skipSpaces_of_not rfl]
  show Option.bind (stringBody (key.flatMap escape ++ '"' :: (':' :: (member.stringify ++ rest)))) _ = _
  rw [stringBody_quote, Option.bind_some]
  dsimp only
  rw [skipSpaces_of_not rfl]
  show Option.bind (value (fuel + 1) (member.stringify ++ rest)) _ = _
  rw [value_scalar fuel member h, Option.bind_some]
  cases rest with
  | nil => exact absurd h (by simp [Ends])
  | cons c rest =>
    obtain h | h := h
    · obtain rfl : c = ',' := Option.some.inj h
      rfl
    · obtain rfl : c = '\x7d' := Option.some.inj h
      rfl

theorem members_stringify (ms : List (List Char × Scalar)) (fuel : Nat) (hms : ms ≠ [])
    (hfuel : ms.length < fuel) (rest : List Char) :
    members fuel (stringifyMembers ms ++ '\x7d' :: rest) =
      some (ms.map fun m => (m.1, m.2.toJson), rest) := by
  induction ms generalizing fuel with
  | nil => exact absurd rfl hms
  | cons m ms ih =>
    obtain ⟨key, member⟩ := m
    obtain ⟨fuel, rfl⟩ : ∃ n, fuel = n + 2 := ⟨fuel - 2, by rw [List.length_cons] at hfuel; omega⟩
    cases ms with
    | nil =>
      rw [stringifyMembers, List.append_assoc, List.cons_append, members_cons _ _ _ _ (.inr rfl)]
      rfl
    | cons m' ms =>
      rw [stringifyMembers, List.append_assoc, List.cons_append, List.append_assoc,
        List.cons_append, members_cons _ _ _ _ (.inl rfl)]
      · show Option.map _ (members (fuel + 1) (stringifyMembers (m' :: ms) ++ '\x7d' :: rest)) = _
        rw [ih (fuel + 1) nofun (by simp only [List.length_cons] at hfuel ⊢; omega)]
        rfl
      · exact nofun

theorem length_lt_stringify (ms : List (List Char × Scalar)) :
    ms.length ≤ (stringifyMembers ms).length := by
  induction ms with
  | nil => exact Nat.le_refl 0
  | cons m ms ih =>
    cases ms with
    | nil =>
      rw [stringifyMembers, quote]
      simp
    | cons m' ms =>
      rw [stringifyMembers]
      · simp only [List.length_cons, List.length_append] at ih ⊢
        omega
      · exact nofun

theorem le_toNat_of_mem_escape {c d : Char} (h : c ∈ escape d) : 32 ≤ c.toNat := by
  revert c
  have hdigit (n : Nat) (hn : n < 16) : 32 ≤ (Nat.digitChar n).toNat := by
    have hall : ∀ n : Fin 16, 32 ≤ (Nat.digitChar n).toNat := by decide
    exact hall ⟨n, hn⟩
  rw [escape]
  repeat' split
  all_goals simp only [List.forall_mem_cons]
  iterate 7 next => exact ⟨by decide, by decide, List.forall_mem_nil _⟩
  next hd =>
    exact ⟨by decide, by decide, by decide, by decide, hdigit _ (by omega),
      hdigit _ (Nat.mod_lt _ (by decide)), List.forall_mem_nil _⟩
  next hd => exact ⟨Nat.not_lt.mp hd, List.forall_mem_nil _⟩

/-- No control character is written. -/
theorem le_toNat_of_mem_stringify {c : Char} {ms : List (List Char × Scalar)} (h : c ∈ stringify ms) :
    32 ≤ c.toNat := by
  have hquote (text : List Char) : ∀ c ∈ quote text, 32 ≤ c.toNat := by
    simp only [quote, List.forall_mem_cons, List.forall_mem_append]
    refine ⟨by decide, fun c hc => ?_, by decide, List.forall_mem_nil _⟩
    obtain ⟨d, -, hc⟩ := List.mem_flatMap.mp hc
    exact le_toNat_of_mem_escape hc
  have hscalar (x : Scalar) : ∀ c ∈ x.stringify, 32 ≤ c.toNat := by
    cases x with
    | text value => exact hquote value
    | natural n =>
      intro c hc
      have hc := Nat.isDigit_of_mem_toDigits (by decide) (by decide) hc
      simp only [Char.isDigit, Bool.and_eq_true, decide_eq_true_eq] at hc
      exact Nat.le_trans (by decide) hc.1
  have hmembers : ∀ c ∈ stringifyMembers ms, 32 ≤ c.toNat := by
    clear h
    induction ms with
    | nil => exact List.forall_mem_nil _
    | cons m ms ih =>
      cases ms with
      | nil =>
        rw [stringifyMembers, List.forall_mem_append, List.forall_mem_cons]
        exact ⟨hquote _, by decide, hscalar _⟩
      | cons m' ms =>
        rw [stringifyMembers, List.forall_mem_append, List.forall_mem_cons, List.forall_mem_append,
          List.forall_mem_cons]
        · exact ⟨hquote _, by decide, hscalar _, by decide, ih⟩
        · rintro ⟨⟩
  revert c
  simp only [stringify, List.forall_mem_cons, List.forall_mem_append]
  exact ⟨by decide, hmembers, by decide, List.forall_mem_nil _⟩

/-- A flat object is read back. -/
theorem parse_stringify (ms : List (List Char × Scalar)) :
    parse (stringify ms) = some (.object (ms.map fun m => (m.1, m.2.toJson))) := by
  have hvalue : value ((stringify ms).length + 1) (stringify ms) =
      some (.object (ms.map fun m => (m.1, m.2.toJson)), []) := by
    rw [stringify, value, skipSpaces_of_not rfl]
    cases ms with
    | nil => rfl
    | cons m ms =>
      have hopen : skipSpaces (stringifyMembers (m :: ms) ++ ['\x7d']) =
          '"' :: (stringifyMembers (m :: ms) ++ ['\x7d']).tail := by
        cases ms with
        | nil => rfl
        | cons _ _ => rfl
      show (match skipSpaces (stringifyMembers (m :: ms) ++ ['\x7d']) with
        | '\x7d' :: rest => some (Json.object [], rest)
        | _ => (members _ (stringifyMembers (m :: ms) ++ ['\x7d'])).map
            fun (ms, rest) => (.object ms, rest)) = _
      rw [hopen]
      show Option.map _ (members _ (stringifyMembers (m :: ms) ++ ['\x7d'])) = _
      rw [members_stringify (m :: ms) _ nofun ?_]
      · rfl
      · have hlength := length_lt_stringify (m :: ms)
        simp only [List.length_cons, List.length_append] at hlength ⊢
        omega
  rw [parse, hvalue]
  rfl

end Json

end OpenLander.Theory
