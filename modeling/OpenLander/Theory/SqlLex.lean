import Mathlib.Data.List.Infix

/-! # The lexical structure of SQL

What PostgreSQL's scanner makes of a text with `standard_conforming_strings` on, as an automaton that
reads one character at a time. `Mode` is what the scanner is in the middle of, `depth` counts the
parentheses outside comments, literals and quoted identifiers. `encloses_iff` says when the
parentheses that a template puts around a text pair up with each other: a scan of the text by itself
tells. A number goes on over the letters behind it, where PostgreSQL reports junk. -/

namespace OpenLander.Theory.Sql

/-! ## Characters -/

def isNewline (c : Char) : Bool := c = '\n' || c = '\r'

def isSpace (c : Char) : Bool := c = ' ' || c = '\t' || c.toNat = 11 || c.toNat = 12 || isNewline c

/-- What begins an identifier, or the tag of a dollar quote. -/
def isIdentStart (c : Char) : Bool := c.isAlpha || c = '_' || 128 ≤ c.toNat

def isIdentCont (c : Char) : Bool := isIdentStart c || c.isDigit || c = '$'

/-- The character goes on with the tag of a dollar quote. -/
def isTagCont (tag : List Char) (c : Char) : Bool :=
  isIdentStart c || (!tag.isEmpty && c.isDigit)

/-- What a quote makes an escape string of. -/
def isE (word : List Char) : Bool := word = ['e'] || word = ['E']

/-! ## The automaton -/

inductive Mode
  | code
  /-- In an identifier or a key word. -/
  | word (isE : Bool)
  | number
  /-- Behind a `-` that may begin a comment. -/
  | dash
  /-- Behind a `/` that may begin a comment. -/
  | slash
  /-- Behind a `$` that may begin a dollar quote, with what there is of its tag. -/
  | dollar (tag : List Char)
  | lineComment
  /-- In a block comment within `depth` others. The last character is none if it has been used. -/
  | blockComment (depth : Nat) (last : Option Char)
  | string
  | quotedIdent
  | escapeString
  | backslash
  /-- Behind the quote that ends an escape string, unless another one follows. -/
  | escapeEnd
  /-- In the space behind an escape string. It goes on at a quote, on a later line. -/
  | gap (newline : Bool)
  | gapDash (newline : Bool)
  | gapComment (newline : Bool)
  /-- In a dollar quote, with the tag behind the last `$` while it may end the quote. -/
  | dollarQuote (tag : List Char) (last : Option (List Char))
  deriving DecidableEq, Repr

namespace Mode

/-- What the scanner is in the middle of is code: it reads a parenthesis as one. -/
def isCode : Mode → Bool
  | code | word _ | number | dash | slash | dollar _ | escapeEnd | gap _ | gapDash _ => true
  | lineComment | blockComment .. | string | quotedIdent | escapeString | backslash | gapComment _
  | dollarQuote .. => false

/-- A token begins. -/
def start (c : Char) : Mode :=
  if c = '\'' then string
  else if c = '"' then quotedIdent
  else if c = '-' then dash
  else if c = '/' then slash
  else if c = '$' then dollar []
  else if c.isDigit then number
  else if isIdentStart c then word (isE [c])
  else code

def stepGap (newline : Bool) (c : Char) : Mode :=
  if isNewline c then gap true
  else if isSpace c then gap newline
  else if c = '-' then gapDash newline
  else start c

def step : Mode → Char → Mode
  | code, c => start c
  | word isE, c =>
    if isE && c = '\'' then escapeString else if isIdentCont c then word false else start c
  | number, c => if c.isDigit || isIdentStart c then number else start c
  | dash, c => if c = '-' then lineComment else start c
  | slash, c => if c = '*' then blockComment 0 none else start c
  | dollar tag, c =>
    if c = '$' then dollarQuote tag none
    else if isTagCont tag c then dollar (tag ++ [c])
    -- Without a second `$` the first one stands alone, and what follows it is a word.
    else if isE tag && c = '\'' then escapeString
    else start c
  | lineComment, c => if isNewline c then code else lineComment
  | blockComment depth last, c =>
    if last = some '/' && c = '*' then blockComment (depth + 1) none
    else if last = some '*' && c = '/' then
      match depth with
      | 0 => code
      | depth + 1 => blockComment depth none
    else blockComment depth (some c)
  | string, c => if c = '\'' then code else string
  | quotedIdent, c => if c = '"' then code else quotedIdent
  | escapeString, c =>
    if c = '\\' then backslash else if c = '\'' then escapeEnd else escapeString
  | backslash, _ => escapeString
  | escapeEnd, c => if c = '\'' then escapeString else stepGap false c
  | gap newline, c => if newline && c = '\'' then escapeString else stepGap newline c
  | gapDash newline, c => if c = '-' then gapComment newline else start c
  | gapComment newline, c => if isNewline c then gap true else gapComment newline
  | dollarQuote tag none, c => dollarQuote tag (if c = '$' then some [] else none)
  | dollarQuote tag (some last), c =>
    if c = '$' then
      if last = tag then code else dollarQuote tag (some [])
    else if isTagCont last c then dollarQuote tag (some (last ++ [c]))
    else dollarQuote tag none

end Mode

open Mode

/-- What the scanner is in the middle of after a text. -/
def modeAfter (m : Mode) (text : List Char) : Mode := text.foldl step m

/-- What a character adds to the depth of the parentheses. -/
def paren (m : Mode) (c : Char) : Int :=
  if m.isCode then
    if c = '(' then 1 else if c = ')' then -1 else 0
  else 0

/-- The parentheses that a text opens, less those that it closes. -/
def depth : Mode → List Char → Int
  | _, [] => 0
  | m, c :: text => paren m c + depth (step m c) text

@[simp] theorem modeAfter_nil : modeAfter m [] = m := rfl

@[simp] theorem modeAfter_cons : modeAfter m (c :: text) = modeAfter (step m c) text := rfl

theorem modeAfter_append : modeAfter m (a ++ b) = modeAfter (modeAfter m a) b := List.foldl_append

theorem depth_append : depth m (a ++ b) = depth m a + depth (modeAfter m a) b := by
  induction a generalizing m with
  | nil => rw [List.nil_append, modeAfter_nil, depth, Int.zero_add]
  | cons c a ih => rw [List.cons_append, depth, depth, ih, modeAfter_cons, Int.add_assoc]

/-- A parenthesis ends every token. -/
theorem step_paren {m : Mode} (hm : m.isCode) (hc : c = '(' ∨ c = ')') : step m c = .code := by
  have hstart : start c = code := by
    obtain rfl | rfl := hc <;> rfl
  have hcont : isIdentCont c = false := by
    obtain rfl | rfl := hc <;> rfl
  have htag (tag : List Char) : isTagCont tag c = false := by
    obtain rfl | rfl := hc <;> cases tag <;> rfl
  have hgap (newline : Bool) : stepGap newline c = code := by
    obtain rfl | rfl := hc <;> rfl
  have hne : c ≠ '\'' ∧ c ≠ '-' ∧ c ≠ '*' ∧ c ≠ '$' := by
    obtain rfl | rfl := hc <;> decide
  obtain ⟨hquote, hdash, hstar, hdollar⟩ := hne
  cases m with
  | code => exact hstart
  | word isE =>
    rw [step, decide_eq_false hquote, Bool.and_false, if_neg Bool.false_ne_true, hcont,
      if_neg Bool.false_ne_true, hstart]
  | number =>
    have hdigit : (c.isDigit || isIdentStart c) = false := by
      obtain rfl | rfl := hc <;> rfl
    rw [step, hdigit, if_neg Bool.false_ne_true, hstart]
  | dash => rw [step, if_neg hdash, hstart]
  | slash => rw [step, if_neg hstar, hstart]
  | dollar tag =>
    rw [step, if_neg hdollar, htag, if_neg Bool.false_ne_true, decide_eq_false hquote,
      Bool.and_false, if_neg Bool.false_ne_true, hstart]
  | escapeEnd => rw [step, if_neg hquote, hgap]
  | gap newline =>
    rw [step, decide_eq_false hquote, Bool.and_false, if_neg Bool.false_ne_true, hgap]
  | gapDash newline => rw [step, if_neg hdash, hstart]
  | lineComment | blockComment | string | quotedIdent | escapeString | backslash | gapComment
  | dollarQuote => exact nomatch hm

/-! ## Templates -/

/-- Read as a whole, `before ++ '(' :: inner ++ ')' :: after` pairs up the two parentheses, and goes on
behind them as `after` does by itself. -/
structure Encloses (before inner after : List Char) : Prop where
  opens : (modeAfter .code before).isCode
  closes : (modeAfter .code (before ++ '(' :: inner)).isCode
  inside : ∀ p, p <+: inner → depth .code (before ++ ['(']) ≤ depth .code (before ++ '(' :: p)
  balanced : depth .code (before ++ '(' :: inner) = depth .code (before ++ ['('])
  behind : ∀ p, p <+: after →
    modeAfter .code (before ++ '(' :: inner ++ ')' :: p) = modeAfter .code p

/-- The text, read in a mode, closes no parenthesis but the `n` that are open and its own, closes all
of them, and ends in code. -/
def scan : Mode → Nat → List Char → Bool
  | m, n, [] => m.isCode && n = 0
  | m, n, c :: text =>
    if m.isCode && c = '(' then scan (step m c) (n + 1) text
    else if m.isCode && c = ')' then
      match n with
      | 0 => false
      | n + 1 => scan (step m c) n text
    else scan (step m c) n text

/-- Read by itself, the text is a sequence of whole tokens with its parentheses paired up. -/
def selfContained (text : List Char) : Bool := scan .code 0 text

example : selfContained "f($a$ ) $b$ $a$, E'(\\'' -- \n '\\'') /* /* ( */ ' */".toList := by decide

example : selfContained "1 -- (".toList = false := by decide

theorem scan_iff : scan m n text ↔
    (modeAfter m text).isCode ∧ (∀ p, p <+: text → 0 ≤ n + depth m p) ∧ n + depth m text = 0 := by
  induction text generalizing m n with
  | nil =>
    rw [scan, Bool.and_eq_true, decide_eq_true_iff, modeAfter_nil, depth, Int.add_zero]
    constructor
    · rintro ⟨hm, rfl⟩
      refine ⟨hm, fun p hp => ?_, rfl⟩
      rw [List.prefix_nil.mp hp]
      exact Int.le_refl 0
    · rintro ⟨hm, -, hn⟩
      exact ⟨hm, Int.natCast_eq_zero.mp hn⟩
  | cons c text ih =>
    have hprefix (P : Int → Prop) (h0 : P 0) :
        (∀ p, p <+: c :: text → P (depth m p)) ↔
          ∀ p, p <+: text → P (paren m c + depth (step m c) p) := by
      constructor
      · intro h p hp
        exact h (c :: p) (List.cons_prefix_cons.mpr ⟨rfl, hp⟩)
      · intro h p hp
        cases p with
        | nil => exact h0
        | cons d p =>
          obtain ⟨rfl, htail⟩ := List.cons_prefix_cons.mp hp
          exact h p htail
    rw [modeAfter_cons, depth, hprefix (fun x => 0 ≤ (n : Int) + x) (by omega)]
    unfold scan
    split
    next hopen =>
      obtain ⟨hm, hc⟩ := Bool.and_eq_true_iff.mp hopen
      have hparen : paren m c = 1 := by rw [paren, if_pos hm, if_pos (of_decide_eq_true hc)]
      rw [ih, hparen]
      simp only [Int.natCast_add, Int.cast_ofNat_Int, Int.add_assoc]
    split
    next hnot hclose =>
      obtain ⟨hm, hc⟩ := Bool.and_eq_true_iff.mp hclose
      obtain rfl := of_decide_eq_true hc
      have hparen : paren m ')' = -1 := by rw [paren, if_pos hm, if_neg (by decide), if_pos rfl]
      cases n with
      | zero =>
        refine ⟨nofun, fun ⟨_, hinside, _⟩ => ?_⟩
        have := hinside [] (List.nil_prefix)
        rw [hparen, depth] at this
        exact absurd this (by decide)
      | succ n =>
        dsimp only
        rw [ih, hparen]
        refine and_congr_right fun _ => and_congr (forall₂_congr fun p _ => ?_) ?_ <;> omega
    next hnot hclose =>
      have hparen : paren m c = 0 := by
        rw [paren]
        split
        next hm =>
          rw [hm, Bool.true_and, decide_eq_true_iff] at hnot hclose
          rw [if_neg hnot, if_neg hclose]
        · rfl
      rw [ih, hparen]
      simp only [Int.zero_add]

theorem selfContained_iff : selfContained text ↔
    (modeAfter .code text).isCode ∧ (∀ p, p <+: text → 0 ≤ depth .code p) ∧
      depth .code text = 0 := by
  rw [selfContained, scan_iff]
  simp only [Int.natCast_zero, Int.zero_add]

/-- A template encloses what is put into it exactly if that is `selfContained`. -/
theorem encloses_iff {inner : List Char} (hbefore : (modeAfter .code before).isCode) :
    Encloses before inner after ↔ selfContained inner := by
  have hmode (p : List Char) : modeAfter .code (before ++ '(' :: p) = modeAfter .code p := by
    rw [modeAfter_append, modeAfter_cons, step_paren hbefore (.inl rfl)]
  have hdepth (p : List Char) :
      depth .code (before ++ '(' :: p) = depth .code before + 1 + depth .code p := by
    have hparen : paren (modeAfter .code before) '(' = 1 := by
      rw [paren, if_pos hbefore, if_pos rfl]
    rw [depth_append, depth, hparen, step_paren hbefore (.inl rfl), Int.add_assoc]
  rw [selfContained_iff]
  constructor
  · rintro ⟨-, hcloses, hinside, hbalanced, -⟩
    refine ⟨hmode inner ▸ hcloses, fun p hp => ?_, ?_⟩
    · have h := hinside p hp
      rw [hdepth, hdepth, depth] at h
      omega
    · rw [hdepth, hdepth, depth] at hbalanced
      omega
  · rintro ⟨hends, hinside, hbalanced⟩
    refine ⟨hbefore, (hmode inner).symm ▸ hends, fun p hp => ?_, ?_, fun p _ => ?_⟩
    · have h := hinside p hp
      rw [hdepth, hdepth, depth]
      omega
    · rw [hdepth, hdepth, depth, hbalanced]
    · rw [modeAfter_append, hmode, modeAfter_cons, step_paren hends (.inr rfl)]

end OpenLander.Theory.Sql
