import Mathlib.Tactic.Ring
import OpenLander.Theory.Json

/-! # Numbers as text

`Number::toString`. A number is a decimal here, so every double that is finite is one.
`Number.text_injective` says that two numbers with one text are one number: `numeral` reads the text
back. -/

namespace OpenLander.Theory.JsonValue

/-! ## Numbers -/

/-- A number that is not zero, as `Number::toString` has it: `± significand * 10 ^ exponent`. -/
structure Decimal where
  negative : Bool
  significand : Nat
  exponent : Int
  normal : ¬10 ∣ significand

/-- `-0` is `0`. -/
inductive Number
  | zero
  | decimal (value : Decimal)

namespace Decimal

def figures (d : Decimal) : List Char := Nat.toDigits 10 d.significand

/-- Where the point stands among the digits. -/
def point (d : Decimal) : Int := d.exponent + d.figures.length

/-- The digits with the point behind the first one. -/
def scientific (d : Decimal) : List Char :=
  match d.figures with
  | [] => []
  | [c] => [c]
  | c :: cs => c :: '.' :: cs

/-- `Number::toString` of a positive number. -/
def unsigned (d : Decimal) : List Char :=
  let n := d.point
  if d.figures.length ≤ n ∧ n ≤ 21 then
    d.figures ++ List.replicate (n - d.figures.length).toNat '0'
  else if 0 < n ∧ n ≤ 21 then d.figures.take n.toNat ++ '.' :: d.figures.drop n.toNat
  else if -6 < n ∧ n ≤ 0 then '0' :: '.' :: (List.replicate (-n).toNat '0' ++ d.figures)
  else
    d.scientific ++ 'e' :: (if n - 1 < 0 then '-' else '+') :: Nat.toDigits 10 (n - 1).natAbs

def text (d : Decimal) : List Char := if d.negative then '-' :: d.unsigned else d.unsigned

end Decimal

/-- `Number::toString` -/
def Number.text : Number → List Char
  | zero => ['0']
  | decimal d => d.text

/-! ## Numbers are read back -/

section
open Json

namespace Decimal

theorem isDigit_of_mem (hc : c ∈ Nat.toDigits 10 n) : c.isDigit = true :=
  Nat.isDigit_of_mem_toDigits (by decide) (by decide) hc

theorem significand_pos (d : Decimal) : 0 < d.significand :=
  Nat.pos_of_ne_zero fun h => d.normal (h ▸ Nat.dvd_zero 10)

theorem figures_ne_nil (d : Decimal) : d.figures ≠ [] := Nat.toDigits_ne_nil

theorem ofDigitChars_figures (d : Decimal) : Nat.ofDigitChars 10 d.figures 0 = d.significand :=
  Nat.ofDigitChars_ten_toDigits

theorem head_figures (d : Decimal) : d.figures.head? ≠ some '0' := Json.head_toDigits d.significand_pos

/-- What `numeral` makes of the text of a number. -/
def Read (d : Decimal) (m e : Int) : Prop :=
  ∃ j : Nat, m = (if d.negative then -1 else 1) * (d.significand * 10 ^ j : Nat) ∧ e + j = d.exponent

theorem le_of_mul_pow_eq (hn : ¬10 ∣ n) (h : n * 10 ^ j = m * 10 ^ i) : i ≤ j := by
  by_contra hlt
  obtain ⟨k, rfl⟩ : ∃ k, i = j + 1 + k := ⟨i - (j + 1), by omega⟩
  have heq : n * 10 ^ j = 10 * (m * 10 ^ k) * 10 ^ j := by
    rw [h]
    ring
  have hdvd : n = 10 * (m * 10 ^ k) := Nat.eq_of_mul_eq_mul_right (Nat.pow_pos (by decide)) heq
  exact hn ⟨_, hdvd⟩

theorem sign_mul_inj {b b' : Bool} {n m : Nat} (hn : 0 < n) (hm : 0 < m)
    (h : (if b then -1 else 1) * (n : Int) = (if b' then -1 else 1) * (m : Int)) :
    b = b' ∧ n = m := by
  cases b <;> cases b' <;> simp at h ⊢ <;> omega

theorem Read.inj {d d' : Decimal} (h : d.Read m e) (h' : d'.Read m e) : d = d' := by
  obtain ⟨j, rfl, he⟩ := h
  obtain ⟨i, hm, he'⟩ := h'
  obtain ⟨hsign, hs⟩ := sign_mul_inj (Nat.mul_pos d.significand_pos (Nat.pow_pos (by decide)))
    (Nat.mul_pos d'.significand_pos (Nat.pow_pos (by decide))) hm
  obtain rfl : j = i := le_antisymm (le_of_mul_pow_eq d'.normal hs.symm)
    (le_of_mul_pow_eq d.normal hs)
  have hs : d.significand = d'.significand := Nat.eq_of_mul_eq_mul_right (Nat.pow_pos (by decide)) hs
  have hx : d.exponent = d'.exponent := he.symm.trans he'
  cases d
  cases d'
  cases hsign
  cases hs
  cases hx
  rfl

theorem read_of_parts (d : Decimal) {j : Nat} (hsplit : d.unsigned ++ [','] = w ++ r)
    (hw : ∀ c ∈ w, c.isDigit = true) (hnil : w ≠ [])
    (hzero : w.head? = some '0' → w.length = 1)
    (hr : ∀ c ∈ r.head?, c.isDigit = false)
    (hfraction : fraction r = some (f, r'))
    (hexponent : exponentPart r' = some (e, [',']))
    (hm : Nat.ofDigitChars 10 (w ++ f) 0 = d.significand * 10 ^ j)
    (he : e - f.length + j = d.exponent) :
    ∃ m e, numeral (d.text ++ [',']) = some (.number m e, [',']) ∧ d.Read m e := by
  have htext : d.text ++ [','] = if d.negative then '-' :: (w ++ r) else w ++ r := by
    rw [text, ← hsplit]
    split <;> rfl
  refine ⟨_, _, htext ▸ numeral_append hw hnil hzero hr hfraction hexponent d.negative, j, ?_, he⟩
  rw [hm]
  split <;> simp

theorem fraction_point (hds : ∀ c ∈ ds, c.isDigit = true) (hnil : ds ≠ [])
    (hrest : ∀ c ∈ rest.head?, c.isDigit = false) :
    fraction ('.' :: (ds ++ rest)) = some (ds, rest) := by
  show (if (digits (ds ++ rest)).1 = [] then none else some (digits (ds ++ rest))) = _
  rw [digits_append hds hrest, if_neg hnil]

theorem signed_minus (text : List Char) : signed ('-' :: text) =
    if (digits text).1 = [] then none
    else some (-(Nat.ofDigitChars 10 (digits text).1 0 : Int), (digits text).2) := rfl

theorem signed_plus (text : List Char) : signed ('+' :: text) =
    if (digits text).1 = [] then none
    else some ((Nat.ofDigitChars 10 (digits text).1 0 : Int), (digits text).2) := rfl

theorem exponentPart_text (n : Int) :
    exponentPart ('e' :: ((if n < 0 then '-' else '+') :: Nat.toDigits 10 n.natAbs ++ [','])) =
      some (n, [',']) := by
  have hdigits : digits (Nat.toDigits 10 n.natAbs ++ [',']) = (Nat.toDigits 10 n.natAbs, [',']) :=
    digits_append (fun _ => isDigit_of_mem) (by simp)
  show signed _ = _
  rw [List.cons_append]
  split_ifs with hn
  · rw [signed_minus, hdigits, if_neg Nat.toDigits_ne_nil, Nat.ofDigitChars_ten_toDigits]
    congr 2
    omega
  · rw [signed_plus, hdigits, if_neg Nat.toDigits_ne_nil, Nat.ofDigitChars_ten_toDigits]
    congr 2
    omega

theorem isDigit_figures (d : Decimal) : ∀ c ∈ d.figures, c.isDigit = true := fun _ => isDigit_of_mem

theorem isDigit_replicate (n : Nat) : ∀ c ∈ List.replicate n '0', c.isDigit = true := by
  intro c hc
  rw [List.eq_of_mem_replicate hc]
  rfl

theorem comma_not_digit : ∀ c ∈ [','].head?, c.isDigit = false := by simp

theorem read_integer (d : Decimal) (hn : d.figures.length ≤ d.point) (hlarge : d.point ≤ 21) :
    ∃ m e, numeral (d.text ++ [',']) = some (.number m e, [',']) ∧ d.Read m e := by
  have hexp : 0 ≤ d.exponent := by
    unfold point at hn
    omega
  refine d.read_of_parts (w := d.figures ++ List.replicate (d.point - d.figures.length).toNat '0')
    (r := [',']) (f := []) (j := d.exponent.toNat) (e := 0) ?_ ?_ ?_ ?_ comma_not_digit
    rfl rfl ?_ ?_
  · rw [unsigned, if_pos ⟨hn, hlarge⟩]
  · exact List.forall_mem_append.mpr ⟨d.isDigit_figures, isDigit_replicate _⟩
  · exact List.append_ne_nil_of_left_ne_nil d.figures_ne_nil _
  · intro h
    rw [List.head?_append_of_ne_nil _ d.figures_ne_nil] at h
    exact absurd h d.head_figures
  · rw [List.append_nil, Nat.ofDigitChars_append, d.ofDigitChars_figures,
      Nat.ofDigitChars_replicate_zero, Nat.mul_comm]
    congr 3
    unfold point
    omega
  · simp
    omega

theorem read_inside (d : Decimal) (hn : d.point < d.figures.length) (hpos : 0 < d.point)
    (hlarge : d.point ≤ 21) :
    ∃ m e, numeral (d.text ++ [',']) = some (.number m e, [',']) ∧ d.Read m e := by
  refine d.read_of_parts (w := d.figures.take d.point.toNat)
    (r := '.' :: (d.figures.drop d.point.toNat ++ [',']))
    (f := d.figures.drop d.point.toNat) (j := 0) (e := 0) ?_ ?_ ?_ ?_ (by simp)
    (fraction_point ?_ ?_ comma_not_digit) rfl ?_ ?_
  · rw [unsigned, if_neg fun h => absurd h.1 (by omega), if_pos ⟨hpos, hlarge⟩, List.append_assoc]
    rfl
  · exact fun c hc => d.isDigit_figures c (List.mem_of_mem_take hc)
  · rw [← List.length_pos_iff, List.length_take]
    omega
  · intro h
    rw [List.head?_take, if_neg (by omega)] at h
    exact absurd h d.head_figures
  · exact fun c hc => d.isDigit_figures c (List.mem_of_mem_drop hc)
  · rw [← List.length_pos_iff, List.length_drop]
    omega
  · rw [List.take_append_drop, d.ofDigitChars_figures, Nat.pow_zero, Nat.mul_one]
  · rw [List.length_drop]
    unfold point at *
    omega

theorem read_fraction (d : Decimal) (hpos : d.point ≤ 0) (hsmall : -6 < d.point) :
    ∃ m e, numeral (d.text ++ [',']) = some (.number m e, [',']) ∧ d.Read m e := by
  have hlength := List.length_pos_iff.mpr d.figures_ne_nil
  refine d.read_of_parts (w := ['0'])
    (r := '.' :: ((List.replicate (-d.point).toNat '0' ++ d.figures) ++ [',']))
    (f := List.replicate (-d.point).toNat '0' ++ d.figures) (j := 0) (e := 0) ?_ (by simp)
    nofun (fun _ => rfl) (by simp) (fraction_point ?_ ?_ comma_not_digit) rfl ?_ ?_
  · rw [unsigned, if_neg fun h => absurd h.1 (by omega), if_neg fun h => absurd h.1 (by omega),
      if_pos ⟨hsmall, hpos⟩]
    rfl
  · exact List.forall_mem_append.mpr ⟨isDigit_replicate _, d.isDigit_figures⟩
  · exact List.append_ne_nil_of_right_ne_nil _ d.figures_ne_nil
  · rw [Nat.pow_zero, Nat.mul_one, ← d.ofDigitChars_figures, List.singleton_append,
      Nat.ofDigitChars_cons, Nat.ofDigitChars_append, Nat.ofDigitChars_replicate_zero]
    simp
  · rw [List.length_append, List.length_replicate]
    unfold point at *
    omega

theorem read_scientific (d : Decimal) (hn : ¬(d.figures.length ≤ d.point ∧ d.point ≤ 21))
    (hin : ¬(0 < d.point ∧ d.point ≤ 21)) (hout : ¬(-6 < d.point ∧ d.point ≤ 0)) :
    ∃ m e, numeral (d.text ++ [',']) = some (.number m e, [',']) ∧ d.Read m e := by
  have hunsigned : d.unsigned ++ [','] = d.scientific ++
      'e' :: ((if d.point - 1 < 0 then '-' else '+') :: Nat.toDigits 10 (d.point - 1).natAbs ++
        [',']) := by
    rw [unsigned, if_neg hn, if_neg hin, if_neg hout, List.append_assoc]
    rfl
  have hexponent := exponentPart_text (d.point - 1)
  generalize hrest : 'e' :: ((if d.point - 1 < 0 then '-' else '+') ::
    Nat.toDigits 10 (d.point - 1).natAbs ++ [',']) = rest at hunsigned hexponent
  have hnot : ∀ c ∈ rest.head?, c.isDigit = false := by
    rw [← hrest]
    simp
  have hpoint : d.point = d.exponent + d.figures.length := rfl
  have hvalue := d.ofDigitChars_figures
  have hdigit := d.isDigit_figures
  have hhead := d.head_figures
  rw [scientific] at hunsigned
  cases hd : d.figures with
  | nil => exact absurd hd d.figures_ne_nil
  | cons c cs =>
    rw [hd] at hpoint hvalue hdigit hhead hunsigned
    cases cs with
    | nil =>
      refine d.read_of_parts (w := [c]) (r := rest) (f := []) (j := 0) hunsigned
        hdigit nofun (fun _ => rfl) hnot ?_ hexponent ?_ ?_
      · rw [← hrest]
        rfl
      · rw [List.append_nil, hvalue, Nat.pow_zero, Nat.mul_one]
      · simp only [List.length_cons, List.length_nil] at hpoint ⊢
        omega
    | cons c' cs =>
      refine d.read_of_parts (w := [c]) (r := '.' :: ((c' :: cs) ++ rest))
        (f := c' :: cs) (j := 0) hunsigned ?_ nofun (fun _ => rfl) (by simp)
        (fraction_point ?_ nofun hnot) hexponent ?_ ?_
      · exact fun a ha => hdigit a (List.mem_singleton.mp ha ▸ .head _)
      · exact fun a ha => hdigit a (.tail _ ha)
      · rw [List.singleton_append, hvalue, Nat.pow_zero, Nat.mul_one]
      · simp only [List.length_cons] at hpoint ⊢
        omega

/-- The comma is what ends the number. -/
theorem read_text (d : Decimal) :
    ∃ m e, numeral (d.text ++ [',']) = some (.number m e, [',']) ∧ d.Read m e := by
  by_cases hint : d.figures.length ≤ d.point ∧ d.point ≤ 21
  · exact d.read_integer hint.1 hint.2
  by_cases hin : 0 < d.point ∧ d.point ≤ 21
  · exact d.read_inside (by omega) hin.1 hin.2
  by_cases hout : -6 < d.point ∧ d.point ≤ 0
  · exact d.read_fraction hout.2 hout.1
  · exact d.read_scientific hint hin hout

theorem text_injective {d d' : Decimal} (h : d.text = d'.text) : d = d' := by
  obtain ⟨m, e, hread, hd⟩ := d.read_text
  obtain ⟨m', e', hread', hd'⟩ := d'.read_text
  rw [h, hread'] at hread
  cases hread
  exact hd.inj hd'

end Decimal

end

/-! ## The characters of a numeral -/

/-- A character of a numeral. -/
def isNumeral (c : Char) : Bool := c.isDigit || c = '+' || c = '-' || c = '.' || c = 'e'

theorem toNat_of_isNumeral (h : isNumeral c = true) : c.toNat < 128 := by
  simp only [isNumeral, Bool.or_eq_true, decide_eq_true_eq] at h
  obtain (((h | rfl) | rfl) | rfl) | rfl := h
  · have hle := (Char.isDigit_iff_toNat.mp h).2
    have hnine : '9'.toNat = 57 := rfl
    omega
  all_goals decide

theorem isNumeral_of_isDigit (h : c.isDigit = true) : isNumeral c = true := by
  simp [isNumeral, h]

theorem Decimal.isNumeral_scientific (d : Decimal) : ∀ c ∈ d.scientific, isNumeral c = true := by
  have hfigures : ∀ c ∈ d.figures, isNumeral c = true :=
    fun c hc => isNumeral_of_isDigit (d.isDigit_figures c hc)
  unfold scientific
  split
  next => exact nofun
  next heq => exact heq ▸ hfigures
  next heq =>
    rw [heq, List.forall_mem_cons] at hfigures
    exact List.forall_mem_cons.mpr ⟨hfigures.1, List.forall_mem_cons.mpr ⟨rfl, hfigures.2⟩⟩

theorem Decimal.isNumeral_unsigned (d : Decimal) : ∀ c ∈ d.unsigned, isNumeral c = true := by
  have hfigures : ∀ c ∈ d.figures, isNumeral c = true :=
    fun c hc => isNumeral_of_isDigit (d.isDigit_figures c hc)
  have hzeros : ∀ n, ∀ c ∈ List.replicate n '0', isNumeral c = true :=
    fun n c hc => isNumeral_of_isDigit (isDigit_replicate n c hc)
  unfold unsigned
  dsimp only
  split_ifs with hint hin hout hneg
  · exact List.forall_mem_append.mpr ⟨hfigures, hzeros _⟩
  · refine List.forall_mem_append.mpr ⟨fun c hc => hfigures c (List.mem_of_mem_take hc), ?_⟩
    exact List.forall_mem_cons.mpr ⟨rfl, fun c hc => hfigures c (List.mem_of_mem_drop hc)⟩
  · refine List.forall_mem_cons.mpr ⟨rfl, List.forall_mem_cons.mpr ⟨rfl, ?_⟩⟩
    exact List.forall_mem_append.mpr ⟨hzeros _, hfigures⟩
  all_goals
    refine List.forall_mem_append.mpr ⟨d.isNumeral_scientific, ?_⟩
    refine List.forall_mem_cons.mpr ⟨rfl, List.forall_mem_cons.mpr ⟨rfl, fun c hc => ?_⟩⟩
    exact isNumeral_of_isDigit (isDigit_of_mem hc)

namespace Number

theorem isNumeral_text (x : Number) : ∀ c ∈ x.text, isNumeral c = true := by
  cases x with
  | zero => simp [text, isNumeral]
  | decimal d =>
    rw [text, Decimal.text]
    split
    · exact List.forall_mem_cons.mpr ⟨rfl, d.isNumeral_unsigned⟩
    · exact d.isNumeral_unsigned

theorem text_zero_ne (d : Decimal) : zero.text ≠ d.text := by
  intro h
  obtain ⟨m, e, hread, j, hm, -⟩ := d.read_text
  rw [← h] at hread
  cases hread
  have hpos := Nat.mul_pos d.significand_pos (Nat.pow_pos (n := j) (show 0 < 10 by decide))
  have hne : (if d.negative then (-1 : Int) else 1) * (d.significand * 10 ^ j : Nat) ≠ 0 :=
    mul_ne_zero (by split <;> decide) (Int.ofNat_ne_zero.mpr (by omega))
  exact hne hm.symm

theorem text_injective : Function.Injective text := by
  intro x y h
  cases x with
  | zero =>
    cases y with
    | zero => rfl
    | decimal d => exact absurd h (text_zero_ne d)
  | decimal d =>
    cases y with
    | zero => exact absurd h.symm (text_zero_ne d)
    | decimal d' => rw [d.text_injective h]

theorem text_ne_nil (x : Number) : x.text ≠ [] := by
  cases x with
  | zero => exact nofun
  | decimal d =>
    intro h
    obtain ⟨m, e, hread, -⟩ := d.read_text
    rw [show d.text = [] from h] at hread
    exact nomatch hread

end Number

end OpenLander.Theory.JsonValue
