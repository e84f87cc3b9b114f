import OpenLander.Compose.Interpolate

/-! # Templates of Compose values

The text of a template with references, and what Compose makes of it. `interpolateComposeValue` agrees
where no operand holds a reference or a closing brace and all names are in capitals, unless text
and values happen to spell the sentinel that stands for an escaped dollar sign meanwhile. -/

namespace OpenLander.Compose
open Theory

/-- Literal text, `$$`, and references with or without an operand. -/
inductive Template where
  | nil
  | lit (c : Char) (rest : Template)
  | dollar (rest : Template)
  | var (key : String) (rest : Template)
  | form (key : String) (operator : Operator) (operand rest : Template)

def Operator.text : Operator → List Char
  | defaultIfEmpty => [':', '-']
  | defaultIfUnset => ['-']
  | requiredNonEmpty => [':', '?']
  | requiredSet => ['?']

/-- A name of characters that it can start with, and digits. -/
def IsName (isStart : Char → Bool) (key : String) : Prop :=
  ∃ c cs, key.toList = c :: cs ∧ isStart c = true ∧ ∀ d ∈ cs, (isStart d || d.isDigit) = true

/-- `[A-Za-z_][A-Za-z0-9_]*`. -/
def ComposeName : String → Prop := IsName fun c => c.isAlpha || c == '_'

/-- `[A-Z_][A-Z0-9_]*`. -/
def UpperName : String → Prop := IsName isKeyStart

/-- A character of the expected text, or a dollar sign that was escaped. -/
inductive Token where
  | char (c : Char)
  | dollar
  deriving DecidableEq, Repr

def Token.toChar : Token → Char
  | char c => c
  | dollar => '$'

/-- As it stands before the last replacement. -/
def Token.escaped : Token → List Char
  | char c => [c]
  | dollar => escapedDollar

def tokensOf (s : String) : List Token := s.toList.map .char

namespace Template

/-- The text with `dollar` for each escaped dollar sign. -/
def textWith (dollar : List Char) : Template → List Char
  | nil => []
  | lit c rest => c :: rest.textWith dollar
  | .dollar rest => dollar ++ rest.textWith dollar
  | var key rest => '$' :: '\x7b' :: (key.toList ++ '\x7d' :: rest.textWith dollar)
  | form key operator operand rest =>
    '$' :: '\x7b' :: (key.toList ++
      (operator.text ++ (operand.textWith dollar ++ '\x7d' :: rest.textWith dollar)))

def text (t : Template) : String := String.ofList (t.textWith ['$', '$'])

def WellFormed : Template → Prop
  | nil => True
  | lit c rest => c ≠ '$' ∧ rest.WellFormed
  | dollar rest => rest.WellFormed
  | var key rest => ComposeName key ∧ rest.WellFormed
  | form key _ operand rest => ComposeName key ∧ operand.WellFormed ∧ rest.WellFormed

/-- The value of a reference, `none` for an error. -/
def formTokens (env : Environment) (key : String) (operand : Option (List Token)) :
    Operator → Option (List Token)
  | .defaultIfEmpty =>
    if (env.raw key).any (fun value => !value.isEmpty) then (env.raw key).map tokensOf else operand
  | .defaultIfUnset => ((env.raw key).map tokensOf).or operand
  | .requiredNonEmpty =>
    if (env.raw key).any (fun value => !value.isEmpty) then (env.raw key).map tokensOf else none
  | .requiredSet => (env.raw key).map tokensOf

/-- What Compose makes of the template, `none` for an error. -/
def tokens (env : Environment) : Template → Option (List Token)
  | nil => some []
  | lit c rest => (rest.tokens env).map (.char c :: ·)
  | dollar rest => (rest.tokens env).map (.dollar :: ·)
  | var key rest => (rest.tokens env).map (tokensOf ((env.raw key).getD "") ++ ·)
  | form key operator operand rest =>
    (formTokens env key (operand.tokens env) operator).bind fun value =>
      (rest.tokens env).map (value ++ ·)

def meaning (env : Environment) (t : Template) : Option String :=
  (t.tokens env).map fun tokens => String.ofList (tokens.map (·.toChar))

/-- The template is interpolated to what it means. -/
def Correct (env : Environment) (t : Template) : Prop :=
  (interpolateComposeValue env t.text).toOption = t.meaning env

/-- No reference and no closing brace. -/
def Plain : Template → Prop
  | nil => True
  | lit c rest => c ≠ '\x7d' ∧ rest.Plain
  | dollar rest => rest.Plain
  | var _ _ => False
  | form _ _ _ _ => False

/-- Names in capitals, plain operands. -/
def Flat : Template → Prop
  | nil => True
  | lit _ rest => rest.Flat
  | dollar rest => rest.Flat
  | var key rest => UpperName key ∧ rest.Flat
  | form key _ operand rest => UpperName key ∧ operand.Plain ∧ rest.Flat

end Template

/-! ## Replacing -/

section
variable {pattern replacement : List Char}

theorem replaceAll_skip (skipped s : List Char) :
    replaceAll pattern replacement skipped.length (skipped ++ s) =
      replaceAll pattern replacement 0 s := by
  induction skipped with
  | nil => rfl
  | cons c skipped ih => exact ih

theorem replaceAll_pattern (hne : pattern ≠ []) (s : List Char) :
    replaceAll pattern replacement 0 (pattern ++ s) =
      replacement ++ replaceAll pattern replacement 0 s := by
  cases pattern with
  | nil => exact absurd rfl hne
  | cons c pattern =>
    have hprefix : (c :: pattern).isPrefixOf (c :: (pattern ++ s)) = true :=
      List.isPrefixOf_iff_prefix.mpr (List.prefix_append (c :: pattern) s)
    rw [List.cons_append, replaceAll, if_pos hprefix]
    exact congrArg (replacement ++ ·) (replaceAll_skip pattern s)

theorem replaceAll_cons (h : ¬pattern <+: c :: s) :
    replaceAll pattern replacement 0 (c :: s) = c :: replaceAll pattern replacement 0 s :=
  if_neg (mt List.isPrefixOf_iff_prefix.mp h)

/-- Where the pattern's first character does not occur, nothing is replaced. -/
theorem replaceAll_append_of_not_mem (hfirst : first ∉ s) (rest : List Char) :
    replaceAll (first :: pattern) replacement 0 (s ++ rest) =
      s ++ replaceAll (first :: pattern) replacement 0 rest := by
  induction s with
  | nil => rfl
  | cons c s ih =>
    have hne : first ≠ c := fun heq => hfirst (heq ▸ .head _)
    rw [List.cons_append, replaceAll_cons fun hprefix => hne (List.cons_prefix_cons.mp hprefix).1,
      ih fun hmem => hfirst (.tail _ hmem)]
    rfl

end

def sentinelWord : List Char := "OPENLANDER_COMPOSE_DOLLAR".toList

theorem escapedDollar_eq : escapedDollar = '\x00' :: (sentinelWord ++ ['\x00']) := by decide

theorem escapedDollar_ne_nil : escapedDollar ≠ [] := by
  rw [escapedDollar_eq]
  exact List.cons_ne_nil _ _

/-- Text and values spell the sentinel, where its last character can be the first of one that stands
for a dollar sign. -/
def SpellsSentinel (tokens : List Token) : Prop :=
  ∃ last ∈ [Token.char '\x00', .dollar],
    .char '\x00' :: (sentinelWord.map .char ++ [last]) <:+: tokens

theorem flatMap_escaped_char (c : Char) (tokens : List Token) :
    (Token.char c :: tokens).flatMap (·.escaped) = c :: tokens.flatMap (·.escaped) := rfl

theorem flatMap_escaped_dollar (tokens : List Token) :
    (Token.dollar :: tokens).flatMap (·.escaped) =
      escapedDollar ++ tokens.flatMap (·.escaped) := rfl

theorem prefix_flatMap_escaped_iff {word : List Char} (h : '\x00' ∉ word) (tokens : List Token) :
    word ++ ['\x00'] <+: tokens.flatMap (·.escaped) ↔
      ∃ last ∈ [Token.char '\x00', .dollar], word.map .char ++ [last] <+: tokens := by
  induction word generalizing tokens with
  | nil =>
    match tokens with
    | [] => simp
    | .char c :: tokens =>
      rw [flatMap_escaped_char]
      simp [List.cons_prefix_cons, eq_comm]
    | .dollar :: tokens =>
      rw [flatMap_escaped_dollar, escapedDollar_eq]
      simp [List.cons_prefix_cons]
  | cons d word ih =>
    have hd : d ≠ '\x00' := fun heq => h (heq ▸ .head _)
    have hword := ih fun hmem => h (.tail _ hmem)
    match tokens with
    | [] => simp
    | .char c :: tokens =>
      rw [flatMap_escaped_char, List.cons_append, List.cons_prefix_cons, hword]
      simp only [List.map_cons, List.cons_append, List.cons_prefix_cons, Token.char.injEq]
      exact ⟨fun ⟨hc, last, hlast, hprefix⟩ => ⟨last, hlast, hc, hprefix⟩,
        fun ⟨last, hlast, hc, hprefix⟩ => ⟨hc, last, hlast, hprefix⟩⟩
    | .dollar :: tokens =>
      rw [flatMap_escaped_dollar, escapedDollar_eq]
      simp [List.cons_prefix_cons, hd]

theorem escapedDollar_prefix_iff {tokens : List Token} :
    escapedDollar <+: c :: tokens.flatMap (·.escaped) ↔
      ∃ last ∈ [Token.char '\x00', .dollar],
        .char '\x00' :: (sentinelWord.map .char ++ [last]) <+: .char c :: tokens := by
  rw [escapedDollar_eq, List.cons_prefix_cons, prefix_flatMap_escaped_iff (by decide)]
  simp only [List.cons_prefix_cons, Token.char.injEq]
  exact ⟨fun ⟨hc, last, hlast, hprefix⟩ => ⟨last, hlast, hc, hprefix⟩,
    fun ⟨last, hlast, hc, hprefix⟩ => ⟨hc, last, hlast, hprefix⟩⟩

theorem spellsSentinel_char :
    SpellsSentinel (.char c :: tokens) ↔
      escapedDollar <+: c :: tokens.flatMap (·.escaped) ∨ SpellsSentinel tokens := by
  rw [escapedDollar_prefix_iff]
  simp only [SpellsSentinel, List.infix_cons_iff, and_or_left, exists_or]

theorem spellsSentinel_dollar : SpellsSentinel (.dollar :: tokens) ↔ SpellsSentinel tokens := by
  simp only [SpellsSentinel, List.infix_cons_iff, List.cons_prefix_cons, reduceCtorEq, false_and,
    false_or]

/-- The sentinels are replaced as they should exactly if nothing else spells one. -/
theorem replaceAll_flatMap_escaped_iff (tokens : List Token) :
    replaceAll escapedDollar ['$'] 0 (tokens.flatMap (·.escaped)) = tokens.map (·.toChar) ↔
      ¬SpellsSentinel tokens := by
  induction tokens with
  | nil => simp [SpellsSentinel, replaceAll]
  | cons token tokens ih =>
    rw [List.map_cons]
    cases token with
    | dollar =>
      rw [flatMap_escaped_dollar, replaceAll_pattern escapedDollar_ne_nil, spellsSentinel_dollar,
        ← ih, List.singleton_append, Token.toChar, List.cons.injEq, and_iff_right rfl]
    | char c =>
      rw [flatMap_escaped_char, spellsSentinel_char, Token.toChar]
      by_cases hprefix : escapedDollar <+: c :: tokens.flatMap (·.escaped)
      · refine iff_of_false (fun h => ?_) (not_not_intro (.inl hprefix))
        have hc : '\x00' = c := by
          rw [escapedDollar_eq] at hprefix
          exact (List.cons_prefix_cons.mp hprefix).1
        rw [replaceAll, if_pos (List.isPrefixOf_iff_prefix.mpr hprefix), ← hc] at h
        exact absurd (List.cons.inj h).1 (by decide)
      · rw [replaceAll_cons hprefix, List.cons.injEq, and_iff_right rfl, ih, or_iff_right hprefix]

/-! ## Names -/

theorem IsName.chars (h : IsName isStart key) :
    ∀ c ∈ key.toList, (isStart c || c.isDigit) = true := by
  obtain ⟨first, rest, hkey, hfirst, hrest⟩ := h
  rw [hkey, List.forall_mem_cons, hfirst]
  exact ⟨rfl, hrest⟩

theorem ComposeName.not_mem (h : ComposeName key) {c : Char}
    (hc : (c.isAlpha || c == '_' || c.isDigit) = false) : c ∉ key.toList := by
  intro hmem
  exact nomatch hc.symm.trans (h.chars c hmem)

theorem UpperName.not_mem (h : UpperName key) {c : Char} (hc : isKeyChar c = false) :
    c ∉ key.toList := by
  intro hmem
  exact nomatch hc.symm.trans (h.chars c hmem)

theorem Operator.not_mem_text (operator : Operator) (hdash : c ≠ '-') (hcolon : c ≠ ':')
    (hmark : c ≠ '?') : c ∉ operator.text := by
  cases operator <;> simp [Operator.text, hdash, hcolon, hmark]

/-! ## The references of a text -/

theorem scan_skip (skipped s : List Char) : scan skipped.length (skipped ++ s) = scan 0 s := by
  induction skipped with
  | nil => rfl
  | cons c skipped ih => exact ih

theorem scan_cons_none (h : matchReference (c :: s) = none) :
    scan 0 (c :: s) = .inl c :: scan 0 s := by
  rw [scan, h]

theorem scan_reference (h : matchReference (c :: (body ++ s)) = some (reference, s)) :
    scan 0 (c :: (body ++ s)) = .inr reference :: scan 0 s := by
  rw [scan, h]
  have hlength : (body ++ s).length - s.length = body.length := by simp
  simp only [hlength, scan_skip]

theorem matchReference_of_ne (h : c ≠ '$') : matchReference (c :: s) = none := by
  rw [matchReference.eq_def]
  split
  next heq => exact absurd (List.cons.inj heq).1 h
  next => rfl

theorem scan_append_of_not_mem {l : List Char} (h : '$' ∉ l) (s : List Char) :
    scan 0 (l ++ s) = l.map .inl ++ scan 0 s := by
  induction l with
  | nil => rfl
  | cons c l ih =>
    have hc : c ≠ '$' := fun heq => h (heq ▸ .head _)
    rw [List.cons_append, scan_cons_none (matchReference_of_ne hc),
      ih fun hmem => h (.tail _ hmem)]
    rfl

/-- The first character that does not satisfy `p`. -/
theorem exists_dropWhile_eq {p : Char → Bool} {s : List Char} (h : ¬∀ c ∈ s, p c = true) :
    ∃ c tail, s.dropWhile p = c :: tail ∧ p c = false ∧ c ∈ s := by
  induction s with
  | nil => exact absurd nofun h
  | cons c s ih =>
    cases hc : p c with
    | false => exact ⟨c, s, List.dropWhile_cons_of_neg (by simp [hc]), hc, .head _⟩
    | true =>
      obtain ⟨d, tail, hdrop, hd, hmem⟩ := ih fun hall => h (List.forall_mem_cons.mpr ⟨hc, hall⟩)
      exact ⟨d, tail, by rw [List.dropWhile_cons_of_pos hc, hdrop], hd, .tail _ hmem⟩

theorem matchOperand_of_mem (key : String) (operator : Operator) (h : '\x7d' ∈ s) :
    ∃ rest, matchOperand key operator s =
        some (⟨key, some (operator, String.ofList (s.takeWhile (· ≠ '\x7d')))⟩, rest) ∧
      s = s.takeWhile (· ≠ '\x7d') ++ '\x7d' :: rest := by
  obtain ⟨c, rest, hdrop, hc, -⟩ :=
    exists_dropWhile_eq (p := (· ≠ '\x7d')) fun hall => by simpa using hall _ h
  cases (by simpa using hc : c = '\x7d')
  refine ⟨rest, ?_, ?_⟩
  · rw [matchOperand, List.span_eq_takeWhile_dropWhile, hdrop]
    rfl
  · rw [← hdrop, List.takeWhile_append_dropWhile]

theorem matchOperand_append (h : '\x7d' ∉ operand) :
    matchOperand key operator (operand ++ '\x7d' :: s) =
      some (⟨key, some (operator, String.ofList operand)⟩, s) := by
  have htake : (operand ++ '\x7d' :: s).takeWhile (· ≠ '\x7d') = operand := by
    rw [List.takeWhile_append_of_pos fun c hc => by simpa using ne_of_mem_of_not_mem hc h]
    simp
  have hmem : '\x7d' ∈ operand ++ '\x7d' :: s := List.mem_append_right _ (.head _)
  obtain ⟨rest, hmatch, heq⟩ := matchOperand_of_mem key operator hmem
  rw [htake, List.append_cancel_left_eq, List.cons.injEq] at heq
  rw [hmatch, htake, heq.2]

/-- After the name comes what is no character of one. -/
theorem matchReference_name (h : UpperName key) (hc : isKeyChar c = false) :
    matchReference ('$' :: '\x7b' :: (key.toList ++ c :: s)) =
      match c :: s with
      | '}' :: rest => some (⟨key, none⟩, rest)
      | ':' :: '-' :: rest => matchOperand key .defaultIfEmpty rest
      | '-' :: rest => matchOperand key .defaultIfUnset rest
      | ':' :: '?' :: rest => matchOperand key .requiredNonEmpty rest
      | '?' :: rest => matchOperand key .requiredSet rest
      | _ => none := by
  obtain ⟨first, rest, hkey, hfirst, hrest⟩ := h
  change ∀ d ∈ rest, isKeyChar d = true at hrest
  have htake : (rest ++ c :: s).takeWhile isKeyChar = rest := by
    rw [List.takeWhile_append_of_pos hrest, List.takeWhile_cons_of_neg (by simp [hc]),
      List.append_nil]
  have hdrop : (rest ++ c :: s).dropWhile isKeyChar = c :: s := by
    rw [List.dropWhile_append_of_pos hrest, List.dropWhile_cons_of_neg (by simp [hc])]
  have hname : String.ofList (first :: rest) = key := by rw [← hkey, String.ofList_toList]
  rw [hkey, List.cons_append, matchReference, if_pos hfirst, htake, hdrop, hname]
  all_goals rfl

theorem matchReference_var (h : UpperName key) :
    matchReference ('$' :: '\x7b' :: (key.toList ++ '\x7d' :: s)) = some (⟨key, none⟩, s) :=
  matchReference_name h (by decide)

theorem matchReference_form (h : UpperName key) (operator : Operator) (s : List Char) :
    matchReference ('$' :: '\x7b' :: (key.toList ++ (operator.text ++ s))) =
      matchOperand key operator s := by
  cases operator <;> exact matchReference_name h (by decide)

/-- A name that is not in capitals is no reference. -/
theorem matchReference_eq_none (h : ComposeName key) (hnot : ¬UpperName key) (s : List Char) :
    matchReference ('$' :: '\x7b' :: (key.toList ++ s)) = none := by
  obtain ⟨first, rest, hkey, hfirst, hrest⟩ := h
  rw [hkey, List.cons_append, matchReference]
  split
  next hstart =>
    obtain ⟨c, tail, hdrop, hc, hmem⟩ := exists_dropWhile_eq (p := isKeyChar) fun hall =>
      hnot ⟨first, rest, hkey, hstart, hall⟩
    have hvalid := hrest c hmem
    have happend : (rest ++ s).dropWhile isKeyChar = c :: (tail ++ s) := by
      rw [List.dropWhile_append, hdrop]
      rfl
    rw [happend]
    split
    next heq =>
      obtain rfl := (List.cons.inj heq).1
      exact absurd hvalid (by decide)
    next heq =>
      obtain rfl := (List.cons.inj heq).1
      exact absurd hvalid (by decide)
    next heq =>
      obtain rfl := (List.cons.inj heq).1
      exact absurd hvalid (by decide)
    next heq =>
      obtain rfl := (List.cons.inj heq).1
      exact absurd hvalid (by decide)
    next heq =>
      obtain rfl := (List.cons.inj heq).1
      exact absurd hvalid (by decide)
    next => rfl
  next => rfl

/-! ## Flat templates -/

theorem dollar_not_mem_escapedDollar : '$' ∉ escapedDollar := by
  rw [escapedDollar_eq]
  decide

theorem brace_not_mem_escapedDollar : '\x7d' ∉ escapedDollar := by
  rw [escapedDollar_eq]
  decide

namespace Template

/-- The first replacement finds just the escaped dollar signs. -/
theorem replaceAll_textWith {t : Template} (h : t.WellFormed) (s : List Char) :
    replaceAll ['$', '$'] escapedDollar 0 (t.textWith ['$', '$'] ++ s) =
      t.textWith escapedDollar ++ replaceAll ['$', '$'] escapedDollar 0 s := by
  have hopen (key s : List Char) (hkey : '$' ∉ key) :
      replaceAll ['$', '$'] escapedDollar 0 ('$' :: '\x7b' :: (key ++ s)) =
        '$' :: '\x7b' :: (key ++ replaceAll ['$', '$'] escapedDollar 0 s) := by
    rw [replaceAll_cons (by simp [List.cons_prefix_cons]),
      replaceAll_cons (by simp [List.cons_prefix_cons]), replaceAll_append_of_not_mem hkey]
  have hclose (s : List Char) : replaceAll ['$', '$'] escapedDollar 0 ('\x7d' :: s) =
      '\x7d' :: replaceAll ['$', '$'] escapedDollar 0 s :=
    replaceAll_cons (by simp [List.cons_prefix_cons])
  induction t generalizing s with
  | nil => rfl
  | lit c rest ih =>
    have hnot : ¬['$', '$'] <+: c :: (rest.textWith ['$', '$'] ++ s) :=
      fun hprefix => h.1 (List.cons_prefix_cons.mp hprefix).1.symm
    rw [textWith, List.cons_append, replaceAll_cons hnot, ih h.2]
    rfl
  | dollar rest ih =>
    rw [textWith, List.append_assoc, replaceAll_pattern (by decide), ih h, textWith,
      List.append_assoc]
  | var key rest ih =>
    simp only [textWith, List.cons_append, List.append_assoc]
    rw [hopen _ _ (h.1.not_mem (by decide)), hclose, ih h.2]
  | form key operator operand rest ihOperand ih =>
    have hkey : '$' ∉ key.toList ++ operator.text := by
      rw [List.mem_append, not_or]
      exact ⟨h.1.not_mem (by decide),
        operator.not_mem_text (by decide) (by decide) (by decide)⟩
    simp only [textWith, List.cons_append, List.append_assoc]
    rw [← List.append_assoc key.toList, hopen _ _ hkey, ihOperand h.2.1, hclose, ih h.2.2,
      List.append_assoc]

theorem pieces_text {t : Template} (h : t.WellFormed) :
    Compose.pieces t.text = scan 0 (t.textWith escapedDollar) := by
  have htext := replaceAll_textWith h []
  rw [List.append_nil] at htext
  rw [Compose.pieces, text, String.toList_ofList, htext]
  exact congrArg (scan 0) (List.append_nil _)

theorem Plain.brace_not_mem {t : Template} (h : t.Plain) :
    '\x7d' ∉ t.textWith escapedDollar := by
  induction t with
  | nil => exact List.not_mem_nil
  | lit c rest ih =>
    rw [textWith, List.mem_cons, not_or]
    exact ⟨h.1.symm, ih h.2⟩
  | dollar rest ih =>
    rw [textWith, List.mem_append, not_or]
    exact ⟨brace_not_mem_escapedDollar, ih h⟩
  | var => exact h.elim
  | form => exact h.elim

/-- The pieces of a flat template. -/
def flatPieces : Template → List (Char ⊕ Reference)
  | nil => []
  | lit c rest => .inl c :: rest.flatPieces
  | dollar rest => escapedDollar.map .inl ++ rest.flatPieces
  | var key rest => .inr ⟨key, none⟩ :: rest.flatPieces
  | form key operator operand rest =>
    .inr ⟨key, some (operator, String.ofList (operand.textWith escapedDollar))⟩ :: rest.flatPieces

theorem scan_var (h : UpperName key) (s : List Char) :
    scan 0 ('$' :: '\x7b' :: (key.toList ++ '\x7d' :: s)) = .inr ⟨key, none⟩ :: scan 0 s := by
  have hmatch := matchReference_var (s := s) h
  have hbody : '\x7b' :: (key.toList ++ '\x7d' :: s) = ('\x7b' :: (key.toList ++ ['\x7d'])) ++ s := by
    simp
  rw [hbody] at hmatch ⊢
  exact scan_reference hmatch

theorem scan_form (h : UpperName key) (operator : Operator) {operand : List Char}
    (hoperand : '\x7d' ∉ operand) (s : List Char) :
    scan 0 ('$' :: '\x7b' :: (key.toList ++ (operator.text ++ (operand ++ '\x7d' :: s)))) =
      .inr ⟨key, some (operator, String.ofList operand)⟩ :: scan 0 s := by
  have hmatch := (matchReference_form h operator (operand ++ '\x7d' :: s)).trans
    (matchOperand_append hoperand)
  have hbody : '\x7b' :: (key.toList ++ (operator.text ++ (operand ++ '\x7d' :: s))) =
      ('\x7b' :: (key.toList ++ (operator.text ++ (operand ++ ['\x7d'])))) ++ s := by simp
  rw [hbody] at hmatch ⊢
  exact scan_reference hmatch

theorem Flat.scan_textWith {t : Template} (hflat : t.Flat) (h : t.WellFormed) :
    scan 0 (t.textWith escapedDollar) = t.flatPieces := by
  induction t with
  | nil => rfl
  | lit c rest ih =>
    rw [textWith, scan_cons_none (matchReference_of_ne h.1), ih hflat h.2, flatPieces]
  | dollar rest ih =>
    rw [textWith, scan_append_of_not_mem dollar_not_mem_escapedDollar, ih hflat h, flatPieces]
  | var key rest ih => rw [textWith, scan_var hflat.1, ih hflat.2 h.2, flatPieces]
  | form key operator operand rest ihOperand ih =>
    rw [textWith, scan_form hflat.1 operator hflat.2.1.brace_not_mem, ih hflat.2.2 h.2.2, flatPieces]

theorem flatMap_escaped_tokensOf (s : String) : (tokensOf s).flatMap (·.escaped) = s.toList := by
  rw [tokensOf, List.flatMap_map]
  exact List.flatMap_singleton' _

/-- The value of a plain operand. -/
theorem Plain.tokens_eq {t : Template} (h : t.Plain) (env : Environment) :
    ∃ tokens, t.tokens env = some tokens ∧
      tokens.flatMap (·.escaped) = t.textWith escapedDollar := by
  induction t with
  | nil => exact ⟨[], rfl, rfl⟩
  | lit c rest ih =>
    obtain ⟨tokens, htokens, htext⟩ := ih h.2
    refine ⟨.char c :: tokens, by rw [Template.tokens, htokens]; rfl, ?_⟩
    rw [flatMap_escaped_char, htext, textWith]
  | dollar rest ih =>
    obtain ⟨tokens, htokens, htext⟩ := ih h
    refine ⟨.dollar :: tokens, by rw [Template.tokens, htokens]; rfl, ?_⟩
    rw [flatMap_escaped_dollar, htext, textWith]
  | var => exact h.elim
  | form => exact h.elim

theorem resolve_form (env : Environment) (key : String) (operator : Operator)
    {tokens : List Token} :
    ((Reference.mk key (some (operator, String.ofList (tokens.flatMap (·.escaped))))).resolve
        env).toOption.map String.toList =
      (formTokens env key (some tokens) operator).map (·.flatMap (·.escaped)) := by
  cases hraw : env.raw key with
  | none =>
    cases operator <;> simp [Reference.resolve, formTokens, hraw, Except.toOption]
  | some value =>
    cases operator <;> cases hempty : value.isEmpty <;>
      simp [Reference.resolve, formTokens, hraw, hempty, Except.toOption, flatMap_escaped_tokensOf]

theorem toOption_resolvePieces_inl (env : Environment) (c : Char) (l : List (Char ⊕ Reference)) :
    (resolvePieces env (.inl c :: l)).toOption = (resolvePieces env l).toOption.map (c :: ·) := by
  rw [resolvePieces]
  cases resolvePieces env l <;> rfl

theorem toOption_resolvePieces_inr (env : Environment) (reference : Reference)
    (l : List (Char ⊕ Reference)) :
    (resolvePieces env (.inr reference :: l)).toOption =
      ((reference.resolve env).toOption.map String.toList).bind fun value =>
        (resolvePieces env l).toOption.map (value ++ ·) := by
  rw [resolvePieces]
  cases reference.resolve env with
  | error => rfl
  | ok value => cases resolvePieces env l <;> rfl

theorem toOption_resolvePieces_append (env : Environment) (s : List Char)
    (l : List (Char ⊕ Reference)) :
    (resolvePieces env (s.map .inl ++ l)).toOption =
      (resolvePieces env l).toOption.map (s ++ ·) := by
  induction s with
  | nil => exact Option.map_id'.symm
  | cons c s ih =>
    rw [List.map_cons, List.cons_append, toOption_resolvePieces_inl, ih, Option.map_map]
    rfl

/-- Before the last replacement the text is as expected. -/
theorem Flat.resolvePieces_flatPieces {t : Template} (hflat : t.Flat) (env : Environment) :
    (resolvePieces env t.flatPieces).toOption =
      (t.tokens env).map (·.flatMap (·.escaped)) := by
  induction t with
  | nil => rfl
  | lit c rest ih =>
    rw [flatPieces, toOption_resolvePieces_inl, ih hflat, tokens, Option.map_map, Option.map_map]
    rfl
  | dollar rest ih =>
    rw [flatPieces, toOption_resolvePieces_append, ih hflat, tokens, Option.map_map,
      Option.map_map]
    rfl
  | var key rest ih =>
    have hvalue : ((Reference.mk key none).resolve env).toOption.map String.toList =
        some ((tokensOf ((env.raw key).getD "")).flatMap (·.escaped)) := by
      rw [flatMap_escaped_tokensOf]
      rfl
    rw [flatPieces, toOption_resolvePieces_inr, hvalue, ih hflat.2, Option.bind_some,
      tokens, Option.map_map, Option.map_map]
    refine congrArg (Option.map · _) (funext fun tokens => ?_)
    exact List.flatMap_append.symm
  | form key operator operand rest ihOperand ih =>
    obtain ⟨value, hvalue, htext⟩ := hflat.2.1.tokens_eq env
    rw [flatPieces, toOption_resolvePieces_inr, ← htext, resolve_form, ih hflat.2.2, tokens, hvalue]
    cases formTokens env key (some value) operator with
    | none => rfl
    | some form =>
      rw [Option.map_some, Option.bind_some, Option.bind_some, Option.map_map, Option.map_map]
      refine congrArg (Option.map · _) (funext fun tokens => ?_)
      exact List.flatMap_append.symm

theorem toOption_interpolate (env : Environment) (value : String) :
    (interpolateComposeValue env value).toOption =
      (resolvePieces env (Compose.pieces value)).toOption.map fun s =>
        String.ofList (replaceAll escapedDollar ['$'] 0 s) := by
  rw [interpolateComposeValue]
  cases resolvePieces env (Compose.pieces value) <;> rfl

/-- A flat template is interpolated to what it means, unless something else spells the sentinel. -/
theorem Flat.correctAt_iff {t : Template} (hflat : t.Flat) (h : t.WellFormed) (env : Environment) :
    t.Correct env ↔ ∀ tokens ∈ t.tokens env, ¬SpellsSentinel tokens := by
  rw [Correct, toOption_interpolate, pieces_text h, hflat.scan_textWith h,
    hflat.resolvePieces_flatPieces, meaning]
  cases t.tokens env with
  | none => exact iff_of_true rfl nofun
  | some tokens =>
    simp only [Option.map_some, Option.some.injEq, String.ofList_inj, Option.mem_def,
      forall_eq', replaceAll_flatMap_escaped_iff]

end Template

/-! ## Other templates

Where every variable has the value `x`, the expected text has the closing braces of the literal text
only. One is left over for each reference that is not found, and for each within an operand. -/

def Reference.operand (reference : Reference) : List Char :=
  (reference.operator.map (·.2.toList)).getD []

/-- The characters outside of the references. -/
def literals (l : List (Char ⊕ Reference)) : List Char := l.filterMap Sum.getLeft?

/-- The operands of the references, one after the other. -/
def operands (l : List (Char ⊕ Reference)) : List Char :=
  (l.filterMap Sum.getRight?).flatMap (·.operand)

theorem literals_inl (c : Char) (l : List (Char ⊕ Reference)) :
    literals (.inl c :: l) = c :: literals l := rfl

theorem literals_inr (reference : Reference) (l : List (Char ⊕ Reference)) :
    literals (.inr reference :: l) = literals l := rfl

theorem operands_inl (c : Char) (l : List (Char ⊕ Reference)) :
    operands (.inl c :: l) = operands l := rfl

theorem operands_inr (reference : Reference) (l : List (Char ⊕ Reference)) :
    operands (.inr reference :: l) = reference.operand ++ operands l := rfl

theorem count_keyChars {s : List Char} (h : ∀ c ∈ s, isKeyChar c = true) (hd : isKeyChar d = false) :
    s.count d = 0 :=
  List.count_eq_zero.mpr fun hmem => nomatch hd.symm.trans (h d hmem)

/-- What a reference takes of the text. -/
structure Matched (s : List Char) (reference : Reference) (rest : List Char) where
  body : List Char
  text_eq : s = '$' :: (body ++ rest)
  count_brace : body.count '\x7d' = 1
  count_dollar : body.count '$' = reference.operand.count '$'

theorem matchOperand_spec (h : matchOperand key operator s = some (reference, rest)) :
    ∃ operand, s = operand ++ '\x7d' :: rest ∧ reference.operand = operand ∧ '\x7d' ∉ operand := by
  rw [matchOperand, List.span_eq_takeWhile_dropWhile] at h
  split at h
  next operand tail heq =>
    cases h
    rw [Prod.mk.injEq] at heq
    refine ⟨operand, ?_, by rw [Reference.operand, Option.map_some, Option.getD_some,
      String.toList_ofList], fun hmem => ?_⟩
    · rw [← heq.1, ← heq.2, List.takeWhile_append_dropWhile]
    · rw [← heq.1] at hmem
      simpa using List.all_eq_true.mp List.all_takeWhile _ hmem
  next => cases h

/-- The name, the operator and the operand with its closing brace. -/
theorem matched_form {name : List Char} (hname : ∀ c ∈ name, isKeyChar c = true) (operator : Operator)
    (h : matchOperand key operator s = some (reference, rest)) :
    Nonempty (Matched ('$' :: '\x7b' :: (name ++ (operator.text ++ s))) reference rest) := by
  obtain ⟨operand, rfl, hoperand, hbrace⟩ := matchOperand_spec h
  have hdollar : operator.text.count '$' = 0 := List.count_eq_zero.mpr
    (operator.not_mem_text (by decide) (by decide) (by decide))
  have hclose : operator.text.count '\x7d' = 0 := List.count_eq_zero.mpr
    (operator.not_mem_text (by decide) (by decide) (by decide))
  refine ⟨'\x7b' :: (name ++ (operator.text ++ (operand ++ ['\x7d']))), by simp, ?_, ?_⟩
  · simp [List.count_append, count_keyChars hname, hclose, List.count_eq_zero.mpr hbrace,
      show isKeyChar '\x7d' = false by decide]
  · simp [List.count_append, count_keyChars hname, hdollar, hoperand,
      show isKeyChar '$' = false by decide]

theorem matchReference_spec (h : matchReference s = some (reference, rest)) :
    Nonempty (Matched s reference rest) := by
  rw [matchReference.eq_def] at h
  split at h
  next c s =>
    split at h
    next hstart =>
      have hname : ∀ d ∈ c :: s.takeWhile isKeyChar, isKeyChar d = true := by
        rw [List.forall_mem_cons, isKeyChar, hstart]
        exact ⟨rfl, List.all_eq_true.mp List.all_takeWhile⟩
      have htext : c :: s = c :: s.takeWhile isKeyChar ++ s.dropWhile isKeyChar := by
        rw [List.cons_append, List.takeWhile_append_dropWhile]
      rw [htext]
      split at h
      next rest heq =>
        cases h
        rw [heq]
        refine ⟨'\x7b' :: (c :: s.takeWhile isKeyChar ++ ['\x7d']), by simp, ?_, ?_⟩
        · rw [List.count_cons_of_ne (by decide), List.count_append, count_keyChars hname (by decide)]
          rfl
        · rw [List.count_cons_of_ne (by decide), List.count_append, count_keyChars hname (by decide)]
          rfl
      next heq =>
        rw [heq]
        exact matched_form hname .defaultIfEmpty h
      next heq =>
        rw [heq]
        exact matched_form hname .defaultIfUnset h
      next heq =>
        rw [heq]
        exact matched_form hname .requiredNonEmpty h
      next heq =>
        rw [heq]
        exact matched_form hname .requiredSet h
      next => cases h
    next => cases h
  next => cases h

/-- The first piece of a text. -/
theorem scan_cases (c : Char) (s : List Char) :
    scan 0 (c :: s) = .inl c :: scan 0 s ∨
      ∃ reference rest, Nonempty (Matched (c :: s) reference rest) ∧
        scan 0 (c :: s) = .inr reference :: scan 0 rest := by
  cases hmatch : matchReference (c :: s) with
  | none => exact .inl (scan_cons_none hmatch)
  | some result =>
    obtain ⟨reference, rest⟩ := result
    obtain ⟨matched⟩ := matchReference_spec hmatch
    have hs := (List.cons.inj matched.text_eq).2
    refine .inr ⟨reference, rest, ⟨matched⟩, ?_⟩
    rw [hs] at hmatch ⊢
    exact scan_reference hmatch

/-- Each reference takes one closing brace, and one dollar sign besides those of its operand. -/
theorem count_scan (s : List Char) :
    s.count '\x7d' = (literals (scan 0 s)).count '\x7d' + (scan 0 s).countP (·.isRight) ∧
      s.count '$' = (literals (scan 0 s)).count '$' + (scan 0 s).countP (·.isRight) +
        (operands (scan 0 s)).count '$' := by
  induction hn : s.length using Nat.strongRecOn generalizing s with
  | ind n ih =>
    cases s with
    | nil => exact ⟨rfl, rfl⟩
    | cons c s =>
      rcases scan_cases c s with hscan | ⟨reference, rest, ⟨matched⟩, hscan⟩
      · obtain ⟨hbrace, hdollar⟩ := ih s.length (by simp [← hn]) s rfl
        rw [hscan, literals_inl, operands_inl, List.countP_cons_of_neg (by simp)]
        simp only [List.count_cons]
        omega
      · have htext := matched.text_eq
        have hlength : rest.length < n := by
          rw [← hn, htext]
          simp only [List.length_cons, List.length_append]
          omega
        obtain ⟨hbrace, hdollar⟩ := ih rest.length hlength rest rfl
        rw [hscan, htext, List.count_cons_of_ne (by decide), List.count_cons_self, List.count_append,
          List.count_append, matched.count_brace, matched.count_dollar, literals_inr, operands_inr,
          List.countP_cons_of_pos rfl, List.count_append]
        omega

/-- Every variable has the value `x`. -/
def allX : Environment where
  processEnv := fun _ => some "x"

theorem resolve_allX (reference : Reference) : reference.resolve allX = .ok "x" := by
  obtain ⟨key, operator⟩ := reference
  match operator with
  | none => rfl
  | some (.defaultIfEmpty, operand) => rfl
  | some (.defaultIfUnset, operand) => rfl
  | some (.requiredNonEmpty, operand) => rfl
  | some (.requiredSet, operand) => rfl

theorem resolvePieces_allX (l : List (Char ⊕ Reference)) :
    ∃ s, resolvePieces allX l = .ok s ∧ s.count '\x7d' = (literals l).count '\x7d' := by
  induction l with
  | nil => exact ⟨[], rfl, rfl⟩
  | cons piece l ih =>
    obtain ⟨s, hs, hcount⟩ := ih
    cases piece with
    | inl c =>
      refine ⟨c :: s, by rw [resolvePieces, hs]; rfl, ?_⟩
      rw [literals_inl, List.count_cons, List.count_cons, hcount]
    | inr reference =>
      refine ⟨'x' :: s, by rw [resolvePieces, resolve_allX, hs]; rfl, ?_⟩
      rw [List.count_cons_of_ne (by decide), hcount, literals_inr]

/-- Replacing leaves the characters that are in neither text. -/
theorem count_replaceAll {pattern : List Char} (replacement : List Char) (hne : pattern ≠ []) (d : Char)
    (hpattern : d ∉ pattern) (hreplacement : d ∉ replacement) (s : List Char) :
    (replaceAll pattern replacement 0 s).count d = s.count d := by
  induction hn : s.length using Nat.strongRecOn generalizing s with
  | ind n ih =>
    cases s with
    | nil => rfl
    | cons c s =>
      by_cases hprefix : pattern <+: c :: s
      · obtain ⟨rest, hrest⟩ := hprefix
        have hlength : rest.length < n := by
          have hpos := List.length_pos_iff.mpr hne
          rw [← hn, ← hrest, List.length_append]
          omega
        rw [← hrest, replaceAll_pattern hne, List.count_append, List.count_append,
          List.count_eq_zero.mpr hpattern, List.count_eq_zero.mpr hreplacement, ih _ hlength rest rfl]
      · rw [replaceAll_cons hprefix, List.count_cons, List.count_cons, ih _ (by simp [← hn]) s rfl]

namespace Template

/-- Closing braces of the literal text outside of operands. -/
def braces : Template → Nat
  | nil => 0
  | lit c rest => rest.braces + if c = '\x7d' then 1 else 0
  | dollar rest => rest.braces
  | var _ rest => rest.braces
  | form _ _ _ rest => rest.braces

/-- Closing braces of the literal text within operands. -/
def innerBraces : Template → Nat
  | nil => 0
  | lit _ rest => rest.innerBraces
  | dollar rest => rest.innerBraces
  | var _ rest => rest.innerBraces
  | form _ _ operand rest => operand.braces + operand.innerBraces + rest.innerBraces

/-- References, also within operands. -/
def forms : Template → Nat
  | nil => 0
  | lit _ rest => rest.forms
  | dollar rest => rest.forms
  | var _ rest => rest.forms + 1
  | form _ _ operand rest => operand.forms + rest.forms + 1

theorem count_textWith {t : Template} (h : t.WellFormed) :
    (t.textWith escapedDollar).count '\x7d' = t.braces + t.forms + t.innerBraces ∧
      (t.textWith escapedDollar).count '$' = t.forms := by
  have hname {key : String} (hkey : ComposeName key) {d : Char}
      (hd : (d.isAlpha || d == '_' || d.isDigit) = false) : key.toList.count d = 0 :=
    List.count_eq_zero.mpr (hkey.not_mem hd)
  have hoperator (operator : Operator) : operator.text.count '\x7d' = 0 ∧ operator.text.count '$' = 0 :=
    ⟨List.count_eq_zero.mpr (operator.not_mem_text (by decide) (by decide) (by decide)),
      List.count_eq_zero.mpr (operator.not_mem_text (by decide) (by decide) (by decide))⟩
  have hescaped : escapedDollar.count '\x7d' = 0 ∧ escapedDollar.count '$' = 0 :=
    ⟨List.count_eq_zero.mpr brace_not_mem_escapedDollar,
      List.count_eq_zero.mpr dollar_not_mem_escapedDollar⟩
  induction t with
  | nil => exact ⟨rfl, rfl⟩
  | lit c rest ih =>
    have hrest := ih h.2
    have hc := h.1
    simp only [textWith, List.count_cons, braces, forms, innerBraces, beq_iff_eq, if_neg hc]
    omega
  | dollar rest ih =>
    have hrest := ih h
    simp only [textWith, List.count_append, braces, forms, innerBraces]
    omega
  | var key rest ih =>
    have hrest := ih h.2
    have hbrace := hname h.1 (d := '\x7d') (by decide)
    have hdollar := hname h.1 (d := '$') (by decide)
    simp [textWith, List.count_append, braces, forms, innerBraces]
    omega
  | form key operator operand rest ihOperand ih =>
    have hoperand := ihOperand h.2.1
    have hrest := ih h.2.2
    have hbrace := hname h.1 (d := '\x7d') (by decide)
    have hdollar := hname h.1 (d := '$') (by decide)
    have htext := hoperator operator
    simp [textWith, List.count_append, braces, forms, innerBraces]
    omega

theorem tokens_allX (t : Template) :
    ∃ tokens, t.tokens allX = some tokens ∧ (tokens.map (·.toChar)).count '\x7d' = t.braces := by
  induction t with
  | nil => exact ⟨[], rfl, rfl⟩
  | lit c rest ih =>
    obtain ⟨tokens, htokens, hcount⟩ := ih
    refine ⟨.char c :: tokens, by rw [Template.tokens, htokens]; rfl, ?_⟩
    rw [List.map_cons, Token.toChar, List.count_cons, hcount, braces]
    simp only [beq_iff_eq]
  | dollar rest ih =>
    obtain ⟨tokens, htokens, hcount⟩ := ih
    exact ⟨.dollar :: tokens, by rw [Template.tokens, htokens]; rfl, hcount⟩
  | var key rest ih =>
    obtain ⟨tokens, htokens, hcount⟩ := ih
    refine ⟨.char 'x' :: tokens, ?_, hcount⟩
    have hvalue : tokensOf ((allX.raw key).getD "") = [.char 'x'] := by
      rw [show allX.raw key = some "x" from rfl]
      decide
    rw [Template.tokens, htokens, hvalue]
    rfl
  | form key operator operand rest _ ih =>
    obtain ⟨tokens, htokens, hcount⟩ := ih
    refine ⟨.char 'x' :: tokens, ?_, hcount⟩
    rw [Template.tokens, htokens]
    cases operator <;> rfl

/-- The text of an operand that is not plain has a dollar sign before its first closing brace. -/
theorem dollar_mem_of_not_plain {t : Template} (hnot : ¬t.Plain) (hbraces : t.braces = 0)
    (s : List Char) : '$' ∈ (t.textWith escapedDollar ++ s).takeWhile (· ≠ '\x7d') := by
  induction t with
  | nil => exact absurd trivial hnot
  | lit c rest ih =>
    rw [braces] at hbraces
    have hc : c ≠ '\x7d' := fun heq => by simp [heq] at hbraces
    rw [textWith, List.cons_append, List.takeWhile_cons_of_pos (by simpa using hc)]
    exact .tail _ (ih (fun hplain => hnot ⟨hc, hplain⟩) (by omega))
  | dollar rest ih =>
    have hall : ∀ c ∈ escapedDollar, decide (c ≠ '\x7d') = true := fun c hc => by
      simpa using ne_of_mem_of_not_mem hc brace_not_mem_escapedDollar
    rw [textWith, List.append_assoc, List.takeWhile_append_of_pos hall]
    exact List.mem_append_right _ (ih hnot hbraces)
  | var => exact .head _
  | form => exact .head _

/-- If every reference is found, and none has a dollar sign in its operand, the template is flat. -/
theorem flat_of_scan {t : Template} (h : t.WellFormed) (hinner : t.innerBraces = 0)
    (hliterals : '$' ∉ literals (scan 0 (t.textWith escapedDollar)))
    (hoperands : '$' ∉ operands (scan 0 (t.textWith escapedDollar))) : t.Flat := by
  have hupper {key : String} {s : List Char} (hkey : ComposeName key)
      (hs : '$' ∉ literals (scan 0 ('$' :: '\x7b' :: (key.toList ++ s)))) : UpperName key := by
    by_contra hnot
    rw [scan_cons_none (matchReference_eq_none hkey hnot s)] at hs
    exact hs (.head _)
  induction t with
  | nil => trivial
  | lit c rest ih =>
    rw [textWith, scan_cons_none (matchReference_of_ne h.1)] at hliterals hoperands
    exact ih h.2 hinner (fun hmem => hliterals (.tail _ hmem)) hoperands
  | dollar rest ih =>
    have hliterals_append (s : List Char) (l : List (Char ⊕ Reference)) :
        literals (s.map .inl ++ l) = s ++ literals l ∧ operands (s.map .inl ++ l) = operands l := by
      induction s with
      | nil => exact ⟨rfl, rfl⟩
      | cons c s ih => exact ⟨congrArg (c :: ·) ih.1, ih.2⟩
    rw [textWith, scan_append_of_not_mem dollar_not_mem_escapedDollar] at hliterals hoperands
    rw [(hliterals_append _ _).1] at hliterals
    rw [(hliterals_append _ _).2] at hoperands
    exact ih h hinner (fun hmem => hliterals (List.mem_append_right _ hmem)) hoperands
  | var key rest ih =>
    have hkey := hupper h.1 hliterals
    rw [textWith, scan_var hkey] at hliterals hoperands
    exact ⟨hkey, ih h.2 hinner hliterals hoperands⟩
  | form key operator operand rest _ ih =>
    have hkey := hupper h.1 hliterals
    rw [innerBraces] at hinner
    have hplain : operand.Plain := by
      by_contra hnot
      have hmem := dollar_mem_of_not_plain hnot (by omega) ('\x7d' :: rest.textWith escapedDollar)
      have hclose : '\x7d' ∈ operand.textWith escapedDollar ++
          '\x7d' :: rest.textWith escapedDollar := List.mem_append_right _ (.head _)
      obtain ⟨after, hmatch, htext⟩ := matchOperand_of_mem key operator hclose
      have hbrace : '\x7d' ∉ (operand.textWith escapedDollar ++
          '\x7d' :: rest.textWith escapedDollar).takeWhile (· ≠ '\x7d') := fun hmem => by
        simpa using List.all_eq_true.mp List.all_takeWhile _ hmem
      rw [textWith, htext, scan_form hkey operator hbrace, operands_inr] at hoperands
      refine hoperands (List.mem_append_left _ ?_)
      rwa [Reference.operand, Option.map_some, Option.getD_some, String.toList_ofList]
    rw [textWith, scan_form hkey operator hplain.brace_not_mem] at hliterals hoperands
    exact ⟨hkey, hplain, ih h.2.2 (by omega) hliterals
      fun hmem => hoperands (List.mem_append_right _ hmem)⟩

/-- If a template is interpolated to what it means where every variable has the value `x`, it is
flat. -/
theorem flat_of_correct_allX {t : Template} (h : t.WellFormed) (hcorrect : t.Correct allX) :
    t.Flat := by
  obtain ⟨tokens, htokens, hexpected⟩ := tokens_allX t
  obtain ⟨s, hs, hcount⟩ := resolvePieces_allX (scan 0 (t.textWith escapedDollar))
  have htext : replaceAll escapedDollar ['$'] 0 s = tokens.map (·.toChar) := by
    rw [Correct, toOption_interpolate, pieces_text h, hs, meaning, htokens] at hcorrect
    exact String.ofList_inj.mp (Option.some.inj hcorrect)
  have hresult := count_replaceAll ['$'] escapedDollar_ne_nil '\x7d'
    brace_not_mem_escapedDollar (by decide) s
  rw [htext, hexpected, hcount] at hresult
  obtain ⟨hbraces, hdollars⟩ := count_scan (t.textWith escapedDollar)
  obtain ⟨hbraces', hdollars'⟩ := count_textWith h
  -- as many references are found as there are, and no dollar sign is left for anything else
  exact flat_of_scan h (by omega) (List.count_eq_zero.mp (by omega))
    (List.count_eq_zero.mp (by omega))

/-- The template that is just the text. -/
def ofText : List Char → Template
  | [] => nil
  | c :: s => if c = '$' then dollar (ofText s) else lit c (ofText s)

theorem ofText_wellFormed (s : List Char) : (ofText s).WellFormed ∧ (ofText s).Flat := by
  induction s with
  | nil => exact ⟨trivial, trivial⟩
  | cons c s ih =>
    rw [ofText]
    split
    next => exact ih
    next hc => exact ⟨⟨hc, ih.1⟩, ih.2⟩

end Template

/-- Each dollar sign doubled. -/
def escape (s : String) : String :=
  String.ofList (s.toList.flatMap fun c => if c = '$' then ['$', '$'] else [c])

/-- The characters of a text, with its dollar signs escaped. -/
def escapedTokens (s : String) : List Token :=
  s.toList.map fun c => if c = '$' then .dollar else .char c

theorem text_ofText (s : String) : (Template.ofText s.toList).text = escape s := by
  rw [Template.text, escape]
  refine congrArg String.ofList ?_
  induction s.toList with
  | nil => rfl
  | cons c s ih =>
    rw [Template.ofText, List.flatMap_cons, ← ih]
    split <;> rfl

theorem tokens_ofText (env : Environment) (s : String) :
    (Template.ofText s.toList).tokens env = some (escapedTokens s) := by
  rw [escapedTokens]
  induction s.toList with
  | nil => rfl
  | cons c s ih =>
    rw [Template.ofText, List.map_cons]
    split
    · rw [Template.tokens, ih]
      rfl
    · rw [Template.tokens, ih]
      rfl

theorem meaning_ofText (env : Environment) (s : String) :
    (Template.ofText s.toList).meaning env = some s := by
  have hchars : (escapedTokens s).map (·.toChar) = s.toList := by
    rw [escapedTokens, List.map_map]
    refine (List.map_congr_left fun c _ => ?_).trans (List.map_id _)
    by_cases hc : c = '$' <;> simp [hc, Token.toChar]
  rw [Template.meaning, tokens_ofText, Option.map_some, hchars, String.ofList_toList]

/-- A template with names in capitals and plain operands is interpolated to what it means, if nothing
else spells the sentinel. Any other template is not in some environment. An escaped text is
interpolated to the text itself, under the same condition. -/
theorem correct_iff {t : Template} (h : t.WellFormed) :
    (t.Flat → ∀ env, t.Correct env ↔ ∀ tokens ∈ t.tokens env, ¬SpellsSentinel tokens) ∧
      (¬t.Flat → ∃ env, ¬t.Correct env) ∧
      ∀ env s, (interpolateComposeValue env (escape s)).toOption = some s ↔
        ¬SpellsSentinel (escapedTokens s) := by
  refine ⟨fun hflat => hflat.correctAt_iff h, fun hnot => ⟨allX, fun hcorrect => ?_⟩, fun env s => ?_⟩
  · exact hnot (Template.flat_of_correct_allX h hcorrect)
  · have hescape := (Template.ofText_wellFormed s.toList).2.correctAt_iff
      (Template.ofText_wellFormed s.toList).1 env
    rw [Template.Correct, text_ofText, meaning_ofText, tokens_ofText] at hescape
    simpa using hescape

/-- `${A}$$`, where `A` is `x`. -/
theorem correct_iff_price : (Template.var "A" (.dollar .nil)).Correct allX := by
  have hname : IsName isKeyStart "A" := ⟨'A', [], rfl, rfl, nofun⟩
  have hvalid : (Template.var "A" (.dollar .nil)).WellFormed := ⟨⟨'A', [], rfl, rfl, nofun⟩, trivial⟩
  refine ((correct_iff hvalid).1 ⟨hname, trivial⟩ allX).mpr fun tokens htokens => ?_
  cases (Option.some.inj htokens : [Token.char 'x', .dollar] = tokens)
  rintro ⟨last, -, hinfix⟩
  have hlength := hinfix.length_le
  have hword : sentinelWord.length = 25 := by decide
  simp only [List.length_cons, List.length_append, List.length_map, List.length_nil] at hlength
  omega

/-- The closing brace of a reference in an operand ends the operand: `${A:-${B}}`. -/
theorem not_correct_nested : ¬∀ t : Template, t.WellFormed → ∀ env, t.Correct env := by
  intro h
  have hnested := h (.form "A" .defaultIfEmpty (.var "B" .nil) .nil)
    ⟨⟨'A', [], rfl, rfl, nofun⟩, ⟨⟨'B', [], rfl, rfl, nofun⟩, trivial⟩, trivial⟩ allX
  exact absurd hnested (by rw [Template.Correct]; decide)

end OpenLander.Compose
