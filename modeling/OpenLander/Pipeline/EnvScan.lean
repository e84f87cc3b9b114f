import Mathlib.Data.List.Infix

/-! # The code mask of a source file

`buildNodeCodeMask` (`src/pipeline/env-scan.ts`) marks the characters of a JavaScript or TypeScript
file that are executable. One counter serves all open braces and template expressions, so the
brace that ends an expression within another one is taken for code. -/

namespace OpenLander.Pipeline.EnvScan

inductive Mode where
  | code | single | double | template | lineComment | blockComment
  deriving DecidableEq, Repr

/-- What one round of the loop marks, and the state after it. -/
structure Round where
  executable : Bool
  /-- The character after it is passed over. -/
  skip : Bool
  mode : Mode
  templateExpressionDepth : Nat

/-- The round in mode `code`. Here `\x60` is the backtick, `\x7b` and `\x7d` are the braces. -/
def codeRound (depth : Nat) (char : Char) (next : Option Char) : Round :=
  if char = '/' ∧ next = some '/' then ⟨false, true, .lineComment, depth⟩
  else if char = '/' ∧ next = some '*' then ⟨false, true, .blockComment, depth⟩
  else if char = '\'' then ⟨false, false, .single, depth⟩
  else if char = '"' then ⟨false, false, .double, depth⟩
  else if char = '\x60' then ⟨false, false, .template, depth⟩
  else if 0 < depth ∧ char = '\x7b' then ⟨true, false, .code, depth + 1⟩
  else if 0 < depth ∧ char = '\x7d' then
    if depth - 1 = 0 then ⟨false, false, .template, depth - 1⟩ else ⟨true, false, .code, depth - 1⟩
  else ⟨true, false, .code, depth⟩

/-- The round in a string that `quote` ends. -/
def stringRound (quote : Char) (mode : Mode) (depth : Nat) (char : Char) : Round :=
  if char = '\\' then ⟨false, true, mode, depth⟩
  else if char = quote then ⟨false, false, .code, depth⟩
  else ⟨false, false, mode, depth⟩

def round (mode : Mode) (depth : Nat) (char : Char) (next : Option Char) : Round :=
  match mode with
  | .lineComment =>
    if char = '\n' then ⟨true, false, .code, depth⟩ else ⟨false, false, .lineComment, depth⟩
  | .blockComment =>
    if char = '*' ∧ next = some '/' then ⟨false, true, .code, depth⟩
    else ⟨false, false, .blockComment, depth⟩
  | .single => stringRound '\'' .single depth char
  | .double => stringRound '"' .double depth char
  | .template =>
    if char = '\\' then ⟨false, true, .template, depth⟩
    else if char = '\x60' then ⟨false, false, .code, depth⟩
    else if char = '$' ∧ next = some '\x7b' then ⟨false, true, .code, depth + 1⟩
    else ⟨false, false, .template, depth⟩
  | .code => codeRound depth char next

/-- The marks of the characters that are left. -/
def maskFrom (mode : Mode) (depth : Nat) : List Char → List Bool
  | [] => []
  | [char] => [(round mode depth char none).executable]
  | char :: next :: rest =>
    let r := round mode depth char (some next)
    r.executable ::
      if r.skip then false :: maskFrom r.mode r.templateExpressionDepth rest
      else maskFrom r.mode r.templateExpressionDepth (next :: rest)

def buildNodeCodeMask (content : List Char) : List Bool := maskFrom .code 0 content

theorem maskFrom_cons (h : round mode depth char rest.head? = ⟨executable, false, mode', depth'⟩) :
    maskFrom mode depth (char :: rest) = executable :: maskFrom mode' depth' rest := by
  cases rest with
  | nil =>
    change round mode depth char none = _ at h
    simp only [maskFrom, h]
  | cons next rest =>
    change round mode depth char (some next) = _ at h
    rw [maskFrom, h]
    rfl

theorem maskFrom_cons_skip
    (h : round mode depth char (some next) = ⟨executable, true, mode', depth'⟩) :
    maskFrom mode depth (char :: next :: rest) =
      executable :: false :: maskFrom mode' depth' rest := by
  rw [maskFrom, h]
  rfl

/-! ## Sources -/

inductive Quote where
  | single | double
  deriving DecidableEq, Repr

def Quote.char : Quote → Char
  | .single => '\''
  | .double => '"'

def Quote.mode : Quote → Mode
  | .single => .single
  | .double => .double

/-- A character of a string, or one with a backslash before it. -/
inductive StringItem where
  | plain (char : Char)
  | escape (char : Char)

def StringItem.text : StringItem → List Char
  | .plain char => [char]
  | .escape char => ['\\', char]

def StringItem.WellFormed (quote : Quote) : StringItem → Prop
  | .plain char => char ≠ '\\' ∧ char ≠ quote.char
  | .escape _ => True

mutual
/-- Code, comments, strings and templates, one after the other. -/
inductive Source where
  | nil
  | code (char : Char) (rest : Source)
  | braces (inner rest : Source)
  | lineComment (text : List Char) (rest : Source)
  | blockComment (text : List Char) (rest : Source)
  | string (quote : Quote) (items : List StringItem) (rest : Source)
  | template (parts : Parts) (rest : Source)
/-- What stands between the backticks of a template. -/
inductive Parts where
  | nil
  | plain (char : Char) (rest : Parts)
  | escape (char : Char) (rest : Parts)
  | expression (inner : Source) (rest : Parts)
end

mutual
def Source.text : Source → List Char
  | .nil => []
  | .code char rest => char :: rest.text
  | .braces inner rest => '\x7b' :: (inner.text ++ '\x7d' :: rest.text)
  | .lineComment text rest => '/' :: '/' :: (text ++ rest.text)
  | .blockComment text rest => '/' :: '*' :: (text ++ '*' :: '/' :: rest.text)
  | .string quote items rest => quote.char :: (items.flatMap (·.text) ++ quote.char :: rest.text)
  | .template parts rest => '\x60' :: (parts.text ++ '\x60' :: rest.text)
def Parts.text : Parts → List Char
  | .nil => []
  | .plain char rest => char :: rest.text
  | .escape char rest => '\\' :: char :: rest.text
  | .expression inner rest => '$' :: '\x7b' :: (inner.text ++ '\x7d' :: rest.text)
end

/-- Positions of a text that is not executable. -/
def outside (text : List Char) : List Bool := text.map fun _ => false

mutual
/-- Positions outside every comment, string and template text. The marks that begin and end one
belong to it, also those around an expression of a template. -/
def Source.mask : Source → List Bool
  | .nil => []
  | .code _ rest => true :: rest.mask
  | .braces inner rest => true :: (inner.mask ++ true :: rest.mask)
  | .lineComment text rest => false :: false :: (outside text ++ rest.mask)
  | .blockComment text rest => false :: false :: (outside text ++ false :: false :: rest.mask)
  | .string _ items rest => false :: (outside (items.flatMap (·.text)) ++ false :: rest.mask)
  | .template parts rest => false :: (parts.mask ++ false :: rest.mask)
def Parts.mask : Parts → List Bool
  | .nil => []
  | .plain _ rest => false :: rest.mask
  | .escape _ rest => false :: false :: rest.mask
  | .expression inner rest => false :: false :: (inner.mask ++ false :: rest.mask)
end

/-- The characters that end a line. -/
def LineTerminator (char : Char) : Prop :=
  char = '\n' ∨ char = '\r' ∨ char = '\u2028' ∨ char = '\u2029'

instance (char : Char) : Decidable (LineTerminator char) :=
  inferInstanceAs (Decidable (char = '\n' ∨ char = '\r' ∨ char = '\u2028' ∨ char = '\u2029'))

mutual
/-- Within a template expression (`nested`) braces are balanced, elsewhere they are characters of
code like others. A line comment ends before the end of its line, or with the source. -/
def Source.WellFormed (nested : Bool) : Source → Prop
  | .nil => True
  | .code char rest =>
    (nested = true → char ≠ '\x7b' ∧ char ≠ '\x7d') ∧ rest.WellFormed nested
  | .braces inner rest => nested = true ∧ inner.WellFormed nested ∧ rest.WellFormed nested
  | .lineComment text rest =>
    (∀ char ∈ text, ¬LineTerminator char) ∧ (∀ char ∈ rest.text.head?, LineTerminator char) ∧
      (rest.text = [] → nested = false) ∧ rest.WellFormed nested
  | .blockComment text rest => ¬['*', '/'] <:+: text ∧ rest.WellFormed nested
  | .string quote items rest => (∀ item ∈ items, item.WellFormed quote) ∧ rest.WellFormed nested
  | .template parts rest => parts.WellFormed ∧ rest.WellFormed nested
def Parts.WellFormed : Parts → Prop
  | .nil => True
  | .plain char rest =>
    char ≠ '\\' ∧ char ≠ '\x60' ∧ (char = '$' → rest.text.head? ≠ some '\x7b') ∧ rest.WellFormed
  | .escape _ rest => rest.WellFormed
  | .expression inner rest => inner.WellFormed true ∧ rest.WellFormed
end

mutual
/-- No template within an expression of a template has an expression of its own. Besides, no
character of code is a quote or begins what looks like a comment, as in a regular expression, and a
line comment ends at a line feed. -/
def Source.Exact (nested : Bool) : Source → Prop
  | .nil => True
  | .code char rest =>
    char ∉ ['\'', '"', '\x60'] ∧
      (char = '/' → rest.text.head? ≠ some '/' ∧ rest.text.head? ≠ some '*') ∧ rest.Exact nested
  | .braces inner rest => inner.Exact nested ∧ rest.Exact nested
  | .lineComment _ rest => (∀ char ∈ rest.text.head?, char = '\n') ∧ rest.Exact nested
  | .blockComment _ rest => rest.Exact nested
  | .string _ _ rest => rest.Exact nested
  | .template parts rest => parts.Exact nested ∧ rest.Exact nested
def Parts.Exact (nested : Bool) : Parts → Prop
  | .nil => True
  | .plain _ rest => rest.Exact nested
  | .escape _ rest => rest.Exact nested
  | .expression inner rest => nested = false ∧ inner.Exact true ∧ rest.Exact nested
end

/-! ## Marks up to a place -/

/-- The marks begin as they should and go on with `continued`, if `ok`; otherwise one of them is
wrong, whatever comes after. -/
structure Tracks (ok : Prop) (marks mask continued : List Bool) : Prop where
  eq : ok → marks = mask ++ continued
  wrong : ¬ok → ¬mask <+: marks

namespace Tracks

theorem of_eq (h : marks = mask ++ continued) : Tracks True marks mask continued :=
  ⟨fun _ => h, fun hnot => (hnot trivial).elim⟩

theorem of_wrong (h : ¬mask <+: marks) : Tracks False marks mask continued :=
  ⟨False.elim, fun _ => h⟩

theorem congr (h : Tracks p marks mask continued) (hiff : q ↔ p) : Tracks q marks mask continued :=
  ⟨fun hq => h.eq (hiff.mp hq), fun hq => h.wrong (mt hiff.mpr hq)⟩

theorem append (h₁ : Tracks p marks mask₁ middle) (h₂ : Tracks q middle mask₂ continued) :
    Tracks (p ∧ q) marks (mask₁ ++ mask₂) continued where
  eq h := by rw [h₁.eq h.1, h₂.eq h.2, List.append_assoc]
  wrong h hprefix := by
    by_cases hp : p
    · rw [h₁.eq hp, List.prefix_append_right_inj] at hprefix
      exact h₂.wrong (fun hq => h ⟨hp, hq⟩) hprefix
    · exact h₁.wrong hp ((List.prefix_append _ _).trans hprefix)

theorem cons (mark : Bool) (h : Tracks p marks mask continued) :
    Tracks p (mark :: marks) (mark :: mask) continued where
  eq hp := congrArg (mark :: ·) (h.eq hp)
  wrong hp hprefix := h.wrong hp (List.cons_prefix_cons.mp hprefix).2

theorem of_ne (mark expected : Bool) (h : mark ≠ expected) :
    Tracks False (mark :: marks) (expected :: mask) continued :=
  of_wrong fun hprefix => h (List.cons_prefix_cons.mp hprefix).1.symm

end Tracks

/-! ## Comments and strings -/

theorem maskFrom_lineComment (h : ∀ char ∈ text, ¬LineTerminator char) :
    maskFrom .lineComment depth (text ++ after) =
      outside text ++ maskFrom .lineComment depth after := by
  induction text with
  | nil => rfl
  | cons char text ih =>
    have hchar : char ≠ '\n' := fun hnewline => h char (.head _) (.inl hnewline)
    have hround (next : Option Char) :
        round .lineComment depth char next = ⟨false, false, .lineComment, depth⟩ := if_neg hchar
    rw [List.cons_append, maskFrom_cons (hround _), ih fun c hc => h c (.tail _ hc)]
    rfl

theorem maskFrom_blockComment (h : ¬['*', '/'] <:+: text) :
    maskFrom .blockComment depth (text ++ '*' :: '/' :: after) =
      outside text ++ false :: false :: maskFrom .code depth after := by
  induction text with
  | nil => exact maskFrom_cons_skip rfl
  | cons char text ih =>
    have hnot : ¬(char = '*' ∧ (text ++ '*' :: '/' :: after).head? = some '/') := by
      rintro ⟨rfl, hhead⟩
      cases text with
      | nil => cases hhead
      | cons next text =>
        cases hhead
        exact h ⟨[], text, rfl⟩
    have hround : round .blockComment depth char (text ++ '*' :: '/' :: after).head? =
        ⟨false, false, .blockComment, depth⟩ := if_neg hnot
    rw [List.cons_append, maskFrom_cons hround,
      ih fun hsub => h (hsub.trans (List.suffix_cons _ _).isInfix)]
    rfl

theorem round_quote (quote : Quote) (depth : Nat) (char : Char) (next : Option Char) :
    round quote.mode depth char next = stringRound quote.char quote.mode depth char := by
  cases quote <;> rfl

theorem maskFrom_string {items : List StringItem} (h : ∀ item ∈ items, item.WellFormed quote) :
    maskFrom quote.mode depth (items.flatMap (·.text) ++ quote.char :: after) =
      outside (items.flatMap (·.text)) ++ false :: maskFrom .code depth after := by
  induction items with
  | nil =>
    refine maskFrom_cons ?_
    rw [round_quote]
    cases quote <;> rfl
  | cons item items ih =>
    have hitem := h item (.head _)
    have hrest := ih fun item hitem => h item (.tail _ hitem)
    cases item with
    | plain char =>
      change maskFrom quote.mode depth (char :: (items.flatMap (·.text) ++ quote.char :: after)) = _
      have hround (next : Option Char) :
          round quote.mode depth char next = ⟨false, false, quote.mode, depth⟩ := by
        rw [round_quote, stringRound, if_neg hitem.1, if_neg hitem.2]
      rw [maskFrom_cons (hround _), hrest]
      rfl
    | escape char =>
      change maskFrom quote.mode depth
        ('\\' :: char :: (items.flatMap (·.text) ++ quote.char :: after)) = _
      have hround (next : Option Char) :
          round quote.mode depth '\\' next = ⟨false, true, quote.mode, depth⟩ := by
        rw [round_quote, stringRound, if_pos rfl]
      rw [maskFrom_cons_skip (hround _), hrest]
      rfl

/-! ## Code and templates -/

/-- A quote, or what looks like the begin of a comment, is not taken for code. -/
theorem maskFrom_code_cons (char : Char) (rest : List Char)
    (h : 0 < depth → char ≠ '\x7b' ∧ char ≠ '\x7d') :
    Tracks (char ∉ ['\'', '"', '\x60'] ∧
        (char = '/' → rest.head? ≠ some '/' ∧ rest.head? ≠ some '*'))
      (maskFrom .code depth (char :: rest)) [true] (maskFrom .code depth rest) where
  eq := by
    rintro ⟨hquote, hslash⟩
    simp only [List.mem_cons, List.not_mem_nil, or_false, not_or] at hquote
    obtain ⟨hsingle, hdouble, hbacktick⟩ := hquote
    refine maskFrom_cons ?_
    rw [round, codeRound, if_neg fun hline => (hslash hline.1).1 hline.2,
      if_neg fun hblock => (hslash hblock.1).2 hblock.2, if_neg hsingle, if_neg hdouble,
      if_neg hbacktick, if_neg fun hopen => (h hopen.1).1 hopen.2,
      if_neg fun hclose => (h hclose.1).2 hclose.2]
  wrong := by
    intro hnot hprefix
    have hmark : (codeRound depth char rest.head?).executable = true := by
      obtain ⟨tail, htail⟩ := hprefix
      cases rest with
      | nil => exact (List.cons.inj htail).1.symm
      | cons next rest => exact (List.cons.inj htail).1.symm
    refine hnot ⟨fun hquote => ?_, ?_⟩
    · simp only [List.mem_cons, List.not_mem_nil, or_false] at hquote
      rcases hquote with rfl | rfl | rfl <;> exact nomatch hmark
    · rintro rfl
      refine ⟨fun hline => ?_, fun hblock => ?_⟩
      · rw [hline] at hmark
        cases hmark
      · rw [hblock] at hmark
        cases hmark

/-- A brace in an expression of a template. -/
theorem maskFrom_openBrace (depth : Nat) (rest : List Char) :
    maskFrom .code (depth + 1) ('\x7b' :: rest) = true :: maskFrom .code (depth + 2) rest := by
  refine maskFrom_cons ?_
  simp [round, codeRound]

theorem maskFrom_closeBrace (depth : Nat) (rest : List Char) :
    maskFrom .code (depth + 2) ('\x7d' :: rest) = true :: maskFrom .code (depth + 1) rest := by
  refine maskFrom_cons ?_
  simp [round, codeRound]

/-- The brace that ends the outermost expression. -/
theorem maskFrom_closeExpression (rest : List Char) :
    maskFrom .code 1 ('\x7d' :: rest) = false :: maskFrom .template 0 rest :=
  maskFrom_cons rfl

theorem maskFrom_quote (quote : Quote) (depth : Nat) (rest : List Char) :
    maskFrom .code depth (quote.char :: rest) = false :: maskFrom quote.mode depth rest := by
  refine maskFrom_cons ?_
  cases quote <;> simp [round, codeRound, Quote.char, Quote.mode]

theorem maskFrom_backtick (depth : Nat) (rest : List Char) :
    maskFrom .code depth ('\x60' :: rest) = false :: maskFrom .template depth rest := by
  refine maskFrom_cons ?_
  simp [round, codeRound]

theorem Source.eq_code {source : Source} (h : source.text.head? = some char)
    (hend : LineTerminator char) : ∃ rest, source = .code char rest := by
  cases source with
  | nil => cases h
  | code c rest =>
    cases h
    exact ⟨rest, rfl⟩
  | braces | lineComment | blockComment | template =>
    cases h
    exact absurd hend (by decide)
  | string quote =>
    cases h
    cases quote <;> exact absurd hend (by decide)

/-- A line comment that a line feed ends, or that ends with the source, is left. -/
theorem Tracks.lineComment {source : Source}
    (hend : ∀ char ∈ source.text.head?, LineTerminator char)
    (hnil : source.text = [] → after = [])
    (h : Tracks p (maskFrom .code depth (source.text ++ after)) source.mask continued) :
    Tracks ((∀ char ∈ source.text.head?, char = '\n') ∧ p)
      (maskFrom .lineComment depth (source.text ++ after)) source.mask continued := by
  cases hhead : source.text.head? with
  | none =>
    have htext := List.head?_eq_none_iff.mp hhead
    rw [htext, hnil htext] at h ⊢
    exact h.congr ⟨And.right, fun hp => ⟨nofun, hp⟩⟩
  | some char =>
    obtain ⟨rest, rfl⟩ := Source.eq_code hhead (hend char hhead)
    by_cases hnewline : char = '\n'
    · subst hnewline
      have hcode : maskFrom .code depth ('\n' :: (rest.text ++ after)) =
          true :: maskFrom .code depth (rest.text ++ after) :=
        (maskFrom_code_cons '\n' _ fun _ => by decide).eq ⟨by decide, nofun⟩
      have hcomment : maskFrom .lineComment depth ('\n' :: (rest.text ++ after)) =
          true :: maskFrom .code depth (rest.text ++ after) := maskFrom_cons rfl
      rw [Source.text, List.cons_append] at h ⊢
      rw [hcomment, ← hcode]
      exact h.congr ⟨And.right, fun hp => ⟨fun c hc => (Option.mem_some.mp hc).symm, hp⟩⟩
    · have hround (next : Option Char) :
          round .lineComment depth char next = ⟨false, false, .lineComment, depth⟩ :=
        if_neg hnewline
      rw [Source.text, List.cons_append, maskFrom_cons (hround _), Source.mask]
      refine (Tracks.of_ne false true nofun).congr ⟨fun hall => ?_, False.elim⟩
      exact hnewline (hall.1 char rfl)

/-- What can follow a source: the brace that ends an expression, or nothing. -/
def Follows (nested : Bool) (after : List Char) : Prop :=
  if nested then after.head? = some '\x7d' else after = []

theorem Follows.head?_append_ne_iff (h : Follows nested after) (hc : c ≠ '\x7d')
    (text : List Char) :
    (text ++ after).head? ≠ some c ↔ text.head? ≠ some c := by
  cases text with
  | cons => rfl
  | nil =>
    refine iff_of_true (fun hhead => ?_) nofun
    cases nested with
    | true => exact hc (Option.some.inj (hhead.symm.trans h))
    | false =>
      cases (h : after = [])
      cases hhead

mutual
theorem Source.tracks : ∀ (source : Source) (depth : Nat) (after : List Char) {nested : Bool},
    source.WellFormed nested → (nested = true ↔ 0 < depth) → Follows nested after →
    Tracks (source.Exact nested) (maskFrom .code depth (source.text ++ after)) source.mask
      (maskFrom .code depth after)
  | .nil, _, _, _, _, _, _ => .of_eq rfl
  | .code char rest, depth, after, nested, h, hdepth, hafter => by
    have hfirst := maskFrom_code_cons char (rest.text ++ after) fun hd =>
      h.1 (hdepth.mpr hd)
    rw [hafter.head?_append_ne_iff (by decide), hafter.head?_append_ne_iff (by decide)] at hfirst
    exact (hfirst.append (rest.tracks depth after h.2 hdepth hafter)).congr and_assoc.symm
  | .braces inner rest, depth, after, nested, ⟨hnested, hinner, hrest⟩, hdepth, hafter => by
    obtain ⟨depth, rfl⟩ := Nat.exists_eq_succ_of_ne_zero (hdepth.mp hnested).ne'
    have hbrace : Follows nested ('\x7d' :: (rest.text ++ after)) := by
      rw [hnested]
      rfl
    have htracks := inner.tracks (depth + 2) _ hinner
      (iff_of_true hnested (Nat.succ_pos _)) hbrace
    rw [maskFrom_closeBrace] at htracks
    rw [Source.text, List.cons_append, List.append_assoc, List.cons_append, maskFrom_openBrace,
      Source.mask]
    exact (htracks.append ((rest.tracks _ _ hrest hdepth hafter).cons true)).cons true
  | .lineComment text rest, depth, after, nested, ⟨htext, hend, hlast, hrest⟩, hdepth, hafter => by
    have hnil (h : rest.text = []) : after = [] := by
      rw [hlast h] at hafter
      exact hafter
    have htracks := (rest.tracks _ _ hrest hdepth hafter).lineComment hend hnil
    have hround : maskFrom .code depth ('/' :: '/' :: (text ++ rest.text ++ after)) =
        false :: false :: maskFrom .lineComment depth (text ++ rest.text ++ after) :=
      maskFrom_cons_skip rfl
    rw [Source.text, List.cons_append, List.cons_append, hround, List.append_assoc, Source.mask]
    refine ((Tracks.append (.of_eq (maskFrom_lineComment htext)) htracks).congr ?_).cons false
      |>.cons false
    exact (iff_of_eq (true_and _)).symm
  | .blockComment text rest, depth, after, nested, ⟨htext, hrest⟩, hdepth, hafter => by
    have htracks := rest.tracks _ _ hrest hdepth hafter
    have hround : maskFrom .code depth ('/' :: '*' :: (text ++ '*' :: '/' :: rest.text ++ after)) =
        false :: false :: maskFrom .blockComment depth (text ++ '*' :: '/' :: rest.text ++ after) :=
      maskFrom_cons_skip rfl
    rw [Source.text, List.cons_append, List.cons_append, hround, List.append_assoc, Source.mask]
    refine ((Tracks.append (.of_eq (maskFrom_blockComment htext))
      ((htracks.cons false).cons false)).congr ?_).cons false |>.cons false
    exact (iff_of_eq (true_and _)).symm
  | .string quote items rest, depth, after, nested, ⟨hitems, hrest⟩, hdepth, hafter => by
    have htracks := rest.tracks _ _ hrest hdepth hafter
    rw [Source.text, List.cons_append, maskFrom_quote, List.append_assoc, Source.mask]
    refine ((Tracks.append (.of_eq (maskFrom_string hitems)) (htracks.cons false)).congr ?_).cons
      false
    exact (iff_of_eq (true_and _)).symm
  | .template parts rest, depth, after, nested, ⟨hparts, hrest⟩, hdepth, hafter => by
    have htracks := parts.tracks depth ('\x60' :: (rest.text ++ after)) hparts hdepth rfl
    have hclose : maskFrom .template depth ('\x60' :: (rest.text ++ after)) =
        false :: maskFrom .code depth (rest.text ++ after) := maskFrom_cons rfl
    rw [hclose] at htracks
    rw [Source.text, List.cons_append, maskFrom_backtick, List.append_assoc, Source.mask]
    exact (htracks.append ((rest.tracks _ _ hrest hdepth hafter).cons false)).cons false
theorem Parts.tracks : ∀ (parts : Parts) (depth : Nat) (after : List Char) {nested : Bool},
    parts.WellFormed → (nested = true ↔ 0 < depth) → after.head? = some '\x60' →
    Tracks (parts.Exact nested) (maskFrom .template depth (parts.text ++ after)) parts.mask
      (maskFrom .template depth after)
  | .nil, _, _, _, _, _, _ => .of_eq rfl
  | .plain char rest, depth, after, nested, ⟨hbackslash, hbacktick, hdollar, hrest⟩, hdepth,
    hafter => by
    have hnot : ¬(char = '$' ∧ (rest.text ++ after).head? = some '\x7b') := by
      rintro ⟨hchar, hhead⟩
      rw [List.head?_append] at hhead
      cases htext : rest.text.head? with
      | none =>
        rw [htext, hafter] at hhead
        exact absurd hhead (by decide)
      | some c =>
        rw [htext] at hhead
        exact hdollar hchar (htext.trans hhead)
    have hround : round .template depth char (rest.text ++ after).head? =
        ⟨false, false, .template, depth⟩ := by
      rw [round, if_neg hbackslash, if_neg hbacktick, if_neg hnot]
    rw [Parts.text, List.cons_append, maskFrom_cons hround, Parts.mask]
    exact (rest.tracks _ _ hrest hdepth hafter).cons false
  | .escape char rest, depth, after, nested, h, hdepth, hafter => by
    have hround : maskFrom .template depth ('\\' :: char :: (rest.text ++ after)) =
        false :: false :: maskFrom .template depth (rest.text ++ after) := maskFrom_cons_skip rfl
    rw [Parts.text, List.cons_append, List.cons_append, hround, Parts.mask]
    exact ((rest.tracks _ _ h hdepth hafter).cons false).cons false
  | .expression inner rest, depth, after, nested, ⟨hinner, hrest⟩, hdepth, hafter => by
    have hopen (tail : List Char) : maskFrom .template depth ('$' :: '\x7b' :: tail) =
        false :: false :: maskFrom .code (depth + 1) tail := maskFrom_cons_skip rfl
    have htracks := inner.tracks (depth + 1) ('\x7d' :: (rest.text ++ after)) hinner
      (iff_of_true rfl (Nat.succ_pos _)) rfl
    have hclose : Tracks (nested = false ∧ rest.Exact nested)
        (maskFrom .code (depth + 1) ('\x7d' :: (rest.text ++ after))) (false :: rest.mask)
        (maskFrom .template depth after) := by
      cases depth with
      | zero =>
        have hnested : nested = false := by simpa using hdepth
        rw [maskFrom_closeExpression]
        exact ((rest.tracks _ _ hrest hdepth hafter).cons false).congr (and_iff_right hnested)
      | succ depth =>
        have hnested : nested = true := hdepth.mpr (Nat.succ_pos _)
        rw [maskFrom_closeBrace]
        refine (Tracks.of_ne true false nofun).congr ⟨fun h => ?_, False.elim⟩
        cases hnested.symm.trans h.1
    rw [Parts.text, List.cons_append, List.cons_append, hopen, List.append_assoc, Parts.mask]
    exact (((htracks.append hclose).congr and_left_comm).cons false).cons false
end

/-- The mask is right exactly if no template within a template expression has an expression, no
character of code looks like the begin of a string or comment, and line comments end at a line
feed. -/
theorem buildNodeCodeMask_eq_iff (source : Source) (h : source.WellFormed false) :
    buildNodeCodeMask source.text = source.mask ↔ source.Exact false := by
  have htracks := source.tracks 0 [] h (by decide) (rfl : Follows false [])
  rw [List.append_nil, maskFrom, ← buildNodeCodeMask] at htracks
  refine ⟨fun heq => ?_, fun hexact => (htracks.eq hexact).trans (List.append_nil _)⟩
  by_contra hnot
  exact htracks.wrong hnot (heq ▸ List.prefix_refl _)

/-- A template that holds only the name `x`, and with it as an expression. -/
def greeting : Source := .template (.expression (.code 'x' .nil) .nil) .nil

theorem buildNodeCodeMask_eq_greeting :
    buildNodeCodeMask ['\x60', '$', '\x7b', 'x', '\x7d', '\x60'] =
      [false, false, false, true, false, false] :=
  (buildNodeCodeMask_eq_iff greeting
    (by simp [greeting, Source.WellFormed, Parts.WellFormed])).mpr
    (by simp [greeting, Source.Exact, Parts.Exact])

/-- In a template within an expression, the brace after an expression is marked. -/
theorem not_buildNodeCodeMask_nested :
    ¬∀ source : Source, source.WellFormed false → buildNodeCodeMask source.text = source.mask := by
  intro h
  have hnested := h (.template (.expression greeting .nil) .nil)
    (by simp [greeting, Source.WellFormed, Parts.WellFormed])
  exact absurd hnested (by decide)

end OpenLander.Pipeline.EnvScan
