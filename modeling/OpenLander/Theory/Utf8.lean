import Mathlib.Data.List.Basic
import Mathlib.Data.List.Flatten

/-! # UTF-8

Decoding of UTF-8 with replacement characters, one byte after the other. What is no part of a character
becomes U+FFFD, one for each longest beginning of a character.

`decode_flatten_eq_iff` says when decoding the parts of a text one by one gives the text. -/

namespace OpenLander.Theory.Utf8

/-- A character of which some bytes have been seen. -/
structure Pending where
  codePoint : Nat
  /-- The bytes still needed after the next one. -/
  later : Nat
  lower : Nat := 0x80
  upper : Nat := 0xBF
  continuation : 0x80 ≤ lower ∧ upper ≤ 0xBF

def replacement : Char := '\uFFFD'

/-- The first byte of a character, or one that begins none. -/
def first (b : UInt8) : List Char × Option Pending :=
  let n := b.toNat
  if n ≤ 0x7F then ([Char.ofNat n], none)
  else if 0xC2 ≤ n ∧ n ≤ 0xDF then
    ([], some { codePoint := n - 0xC0, later := 0, continuation := by decide })
  else if n = 0xE0 then
    ([], some { codePoint := 0, later := 1, lower := 0xA0, continuation := by decide })
  else if n = 0xED then
    ([], some { codePoint := 0xD, later := 1, upper := 0x9F, continuation := by decide })
  else if 0xE1 ≤ n ∧ n ≤ 0xEF then
    ([], some { codePoint := n - 0xE0, later := 1, continuation := by decide })
  else if n = 0xF0 then
    ([], some { codePoint := 0, later := 2, lower := 0x90, continuation := by decide })
  else if n = 0xF4 then
    ([], some { codePoint := 4, later := 2, upper := 0x8F, continuation := by decide })
  else if 0xF1 ≤ n ∧ n ≤ 0xF3 then
    ([], some { codePoint := n - 0xF0, later := 2, continuation := by decide })
  else ([replacement], none)

def Pending.accepts (p : Pending) (b : UInt8) : Bool := p.lower ≤ b.toNat && b.toNat ≤ p.upper

/-- A byte that the character accepts. -/
def Pending.next (p : Pending) (b : UInt8) : List Char × Option Pending :=
  let codePoint := p.codePoint * 64 + (b.toNat - 0x80)
  match p.later with
  | 0 => ([Char.ofNat codePoint], none)
  | later + 1 => ([], some { codePoint, later, continuation := by decide })

def feed : Option Pending → UInt8 → List Char × Option Pending
  | none, b => first b
  | some p, b =>
    if p.accepts b then p.next b else (replacement :: (first b).1, (first b).2)

/-- What is left at the end of the text. -/
def flush : Option Pending → List Char
  | none => []
  | some _ => [replacement]

def decodeFrom : Option Pending → List UInt8 → List Char
  | s, [] => flush s
  | s, b :: bs => (feed s b).1 ++ decodeFrom (feed s b).2 bs

def decode (bytes : List UInt8) : List Char := decodeFrom none bytes

/-- The state behind the bytes. -/
def after (s : Option Pending) (bytes : List UInt8) : Option Pending :=
  bytes.foldl (fun s b => (feed s b).2) s

/-- The characters that end within the bytes. -/
def emitted : Option Pending → List UInt8 → List Char
  | _, [] => []
  | s, b :: bs => (feed s b).1 ++ emitted (feed s b).2 bs

/-- The bytes go on with the character that is pending. -/
def continues (s : Option Pending) (bytes : List UInt8) : Bool :=
  match s, bytes with
  | some p, b :: _ => p.accepts b
  | _, _ => false

/-- A character of the text is split between the parts. -/
def splitsCharacter : List (List UInt8) → Bool
  | [] => false
  | p :: ps => continues (after none p) ps.flatten || splitsCharacter ps

theorem decodeFrom_append (s : Option Pending) (p q : List UInt8) :
    decodeFrom s (p ++ q) = emitted s p ++ decodeFrom (after s p) q := by
  induction p generalizing s with
  | nil => rfl
  | cons b p ih =>
    show (feed s b).1 ++ decodeFrom (feed s b).2 (p ++ q) = _
    rw [ih, ← List.append_assoc]
    rfl

theorem decodeFrom_eq (s : Option Pending) (p : List UInt8) :
    decodeFrom s p = emitted s p ++ flush (after s p) := by
  have happend := decodeFrom_append s p []
  rwa [List.append_nil] at happend

/-- No character begins with a byte that another one accepts. -/
theorem first_of_accepts {p : Pending} (h : p.accepts b = true) : first b = ([replacement], none) := by
  obtain ⟨hl, hu⟩ := Bool.and_eq_true_iff.mp h
  have hl := of_decide_eq_true hl
  have hu := of_decide_eq_true hu
  have hc := p.continuation
  unfold first
  dsimp only
  rw [if_neg (by omega), if_neg (by omega), if_neg (by omega), if_neg (by omega), if_neg (by omega),
    if_neg (by omega), if_neg (by omega), if_neg (by omega)]

/-- Where the bytes do not go on with the pending character, it ends before them. -/
theorem decodeFrom_of_not_continues (h : continues s bytes = false) :
    decodeFrom s bytes = flush s ++ decode bytes := by
  cases s with
  | none => rfl
  | some p =>
    cases bytes with
    | nil => rfl
    | cons b bs =>
      have hfeed : feed (some p) b = (replacement :: (first b).1, (first b).2) := by
        rw [feed, if_neg (by rw [show p.accepts b = false from h]; exact Bool.false_ne_true)]
      rw [decodeFrom, hfeed]
      rfl

theorem decodeFrom_of_accepts {p : Pending} (h : p.accepts b = true) (bs : List UInt8) :
    decodeFrom (some p) (b :: bs) = (p.next b).1 ++ decodeFrom (p.next b).2 bs := by
  have hfeed : feed (some p) b = p.next b := if_pos h
  rw [decodeFrom, hfeed]

theorem decode_of_accepts {p : Pending} (h : p.accepts b = true) (bs : List UInt8) :
    decode (b :: bs) = replacement :: decode bs := by
  show (first b).1 ++ decodeFrom (first b).2 bs = _
  rw [first_of_accepts h]
  rfl

/-- A character is one character, in whatever state its next byte leaves it. -/
theorem length_next (p : Pending) (b : UInt8) :
    (p.next b).1.length + (flush (p.next b).2).length = 1 := by
  unfold Pending.next
  dsimp only
  split <;> rfl

/-- Ending the pending character before the bytes gives no fewer characters. -/
theorem length_decodeFrom_le (s : Option Pending) (bytes : List UInt8) :
    (decodeFrom s bytes).length ≤ (flush s).length + (decode bytes).length := by
  induction bytes generalizing s with
  | nil => exact Nat.le_add_right _ _
  | cons b bs ih =>
    cases hc : continues s (b :: bs) with
    | false =>
      have hlength := congrArg List.length (decodeFrom_of_not_continues hc)
      rw [List.length_append] at hlength
      exact Nat.le_of_eq hlength
    | true =>
      cases s with
      | none => exact nomatch hc
      | some p =>
        have hrest := ih (p.next b).2
        have hone := length_next p b
        rw [decodeFrom_of_accepts hc, decode_of_accepts hc, List.length_append, List.length_cons]
        omega

/-- It gives more of them if the bytes go on with the character. -/
theorem length_decodeFrom_lt (h : continues s bytes = true) :
    (decodeFrom s bytes).length < (flush s).length + (decode bytes).length := by
  cases s with
  | none => exact nomatch h
  | some p =>
    cases bytes with
    | nil => exact nomatch h
    | cons b bs =>
      have hrest := length_decodeFrom_le (p.next b).2 bs
      have hone := length_next p b
      have hflush : (flush (some p)).length = 1 := rfl
      rw [decodeFrom_of_accepts h, decode_of_accepts h, List.length_append, List.length_cons]
      omega

/-- The bytes go on with the pending character exactly if it makes a difference to end it. -/
theorem decodeFrom_eq_flush_iff :
    decodeFrom s bytes = flush s ++ decode bytes ↔ continues s bytes = false := by
  refine ⟨fun h => ?_, decodeFrom_of_not_continues⟩
  by_contra hc
  have hlt := length_decodeFrom_lt (Bool.not_eq_false _ ▸ hc)
  rw [h, List.length_append] at hlt
  exact Nat.lt_irrefl _ hlt

theorem length_decode_flatten_le (parts : List (List UInt8)) :
    (decode parts.flatten).length ≤ (parts.flatMap decode).length := by
  induction parts with
  | nil => exact Nat.le_refl _
  | cons p ps ih =>
    have hle := length_decodeFrom_le (after none p) ps.flatten
    rw [List.flatten_cons, List.flatMap_cons, decode, decodeFrom_append, List.length_append,
      List.length_append, decode, decodeFrom_eq none p, List.length_append]
    omega

/-- The parts decode to the text exactly if no character is split between them. By induction on the
parts: the decoded parts are never shorter than the text, so both boundaries and tails agree. -/
theorem decode_flatten_eq_iff (parts : List (List UInt8)) :
    parts.flatMap decode = decode parts.flatten ↔ splitsCharacter parts = false := by
  induction parts with
  | nil => exact iff_of_true rfl rfl
  | cons p ps ih =>
    have hsplit : decode (p :: ps).flatten =
        emitted none p ++ decodeFrom (after none p) ps.flatten := decodeFrom_append none p _
    have hparts : (p :: ps).flatMap decode =
        emitted none p ++ (flush (after none p) ++ ps.flatMap decode) := by
      rw [List.flatMap_cons, decode, decodeFrom_eq none p, List.append_assoc]
    rw [hsplit, hparts, List.append_cancel_left_eq, splitsCharacter, Bool.or_eq_false_iff, ← ih,
      ← decodeFrom_eq_flush_iff]
    constructor
    · intro h
      have hrest := length_decode_flatten_le ps
      have hlength := congrArg List.length h
      rw [List.length_append] at hlength
      have hclean : continues (after none p) ps.flatten = false := by
        by_contra hc
        have hlt := length_decodeFrom_lt (Bool.not_eq_false _ ▸ hc)
        omega
      have hboundary := decodeFrom_of_not_continues hclean
      exact ⟨hboundary, List.append_cancel_left (h.trans hboundary)⟩
    · rintro ⟨hclean, hrest⟩
      rw [hclean, hrest]

end OpenLander.Theory.Utf8
