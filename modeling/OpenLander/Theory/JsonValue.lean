import OpenLander.Theory.Collections
import OpenLander.Theory.JsonNumber

/-! # JSON values

What `JSON.parse` gives, and `JSON.stringify` of it. A string is a list of UTF-16 code units, and a
lone surrogate is one. The members of an object are its own properties in their order.

`stringify_injective` says that two values with one text are one value. -/

namespace OpenLander.Theory.JsonValue

abbrev CodeUnit := UInt16

abbrev JsString := List CodeUnit

def unit (c : Char) : CodeUnit := .ofNat c.toNat

/-- The code units of ASCII characters. -/
def units (text : List Char) : JsString := text.map unit

/-! ## Values -/

inductive Value
  | null
  | bool (value : Bool)
  | number (value : Number)
  | string (text : JsString)
  | array (elements : List Value)
  | object (members : List (JsString × Value))

/-! ## Writing -/

def hexDigit (n : Nat) : CodeUnit := unit (Nat.digitChar n)

/-- `UnicodeEscape` -/
def unicodeEscape (u : CodeUnit) : JsString :=
  [unit '\\', unit 'u', hexDigit (u.toNat / 4096), hexDigit (u.toNat / 256 % 16),
    hexDigit (u.toNat / 16 % 16), hexDigit (u.toNat % 16)]

def isHigh (u : CodeUnit) : Bool := 0xD800 ≤ u && u < 0xDC00

def isLow (u : CodeUnit) : Bool := 0xDC00 ≤ u && u < 0xE000

/-- A code unit that is no surrogate. -/
def escape (u : CodeUnit) : JsString :=
  if u = 8 then [unit '\\', unit 'b']
  else if u = 9 then [unit '\\', unit 't']
  else if u = 10 then [unit '\\', unit 'n']
  else if u = 12 then [unit '\\', unit 'f']
  else if u = 13 then [unit '\\', unit 'r']
  else if u = unit '"' then [unit '\\', unit '"']
  else if u = unit '\\' then [unit '\\', unit '\\']
  else if u < 32 then unicodeEscape u
  else [u]

/-- The code units between the quotes: a surrogate stands for itself only in a pair. -/
def quoteBody : JsString → JsString
  | [] => []
  | [u] => if isHigh u || isLow u then unicodeEscape u else escape u
  | u :: v :: us =>
    if isHigh u && isLow v then u :: v :: quoteBody us
    else if isHigh u || isLow u then unicodeEscape u ++ quoteBody (v :: us)
    else escape u ++ quoteBody (v :: us)

/-- `QuoteJSONString` -/
def quote (text : JsString) : JsString := unit '"' :: (quoteBody text ++ [unit '"'])

/-- The texts with commas between them. -/
def separated : List JsString → JsString
  | [] => []
  | [t] => t
  | t :: t' :: ts => t ++ unit ',' :: separated (t' :: ts)

mutual

/-- `JSON.stringify` -/
def Value.stringify : Value → JsString
  | .null => units ['n', 'u', 'l', 'l']
  | .bool true => units ['t', 'r', 'u', 'e']
  | .bool false => units ['f', 'a', 'l', 's', 'e']
  | .number x => units x.text
  | .string text => quote text
  | .array es => unit '[' :: (separated (elementTexts es) ++ [unit ']'])
  | .object ms => unit '\x7b' :: (separated (memberTexts ms) ++ [unit '\x7d'])

def elementTexts : List Value → List JsString
  | [] => []
  | e :: es => e.stringify :: elementTexts es

def memberTexts : List (JsString × Value) → List JsString
  | [] => []
  | (k, e) :: ms => (quote k ++ unit ':' :: e.stringify) :: memberTexts ms

end

@[elab_as_elim]
theorem Value.inductionOn {P : Value → Prop} (v : Value) (null : P .null)
    (bool : ∀ b, P (.bool b)) (number : ∀ x, P (.number x)) (string : ∀ text, P (.string text))
    (array : ∀ es, (∀ e ∈ es, P e) → P (.array es))
    (object : ∀ ms, (∀ m ∈ ms, P m.2) → P (.object ms)) : P v :=
  @Value.rec P (fun es => ∀ e ∈ es, P e) (fun ms => ∀ m ∈ ms, P m.2) (fun m => P m.2)
    null bool number string array object nofun (fun _ _ h hs => List.forall_mem_cons.mpr ⟨h, hs⟩)
    nofun (fun _ _ h hs => List.forall_mem_cons.mpr ⟨h, hs⟩) (fun _ _ h => h) v

theorem elementTexts_eq (es : List Value) : elementTexts es = es.map (·.stringify) := by
  induction es with
  | nil => rfl
  | cons e es ih => rw [elementTexts, ih, List.map_cons]

def memberText (m : JsString × Value) : JsString := quote m.1 ++ unit ':' :: m.2.stringify

theorem memberTexts_eq (ms : List (JsString × Value)) : memberTexts ms = ms.map memberText := by
  induction ms with
  | nil => rfl
  | cons m ms ih => rw [memberTexts, ih, List.map_cons, memberText]

/-! ## Strings are read back -/

def hexUnit (u : CodeUnit) : Nat := if u < 58 then u.toNat - 48 else u.toNat - 87

/-- The code unit that a letter after a backslash stands for. -/
def unescape (u : CodeUnit) : CodeUnit :=
  if u = unit 'b' then 8
  else if u = unit 't' then 9
  else if u = unit 'n' then 10
  else if u = unit 'f' then 12
  else if u = unit 'r' then 13
  else u

/-- The code unit that a text begins with, escaped or not; a quote is the end of the string. -/
def token : JsString → Option (CodeUnit × JsString)
  | [] => none
  | u :: rest =>
    if u = unit '"' then none
    else if u = unit '\\' then
      match rest with
      | [] => none
      | l :: rest =>
        if l = unit 'u' then
          match rest with
          | a :: b :: c :: d :: rest =>
            some (.ofNat (((hexUnit a * 16 + hexUnit b) * 16 + hexUnit c) * 16 + hexUnit d), rest)
          | _ => none
        else some (unescape l, rest)
    else some (u, rest)

/-- The text has the code units up to its closing quote, and then the rest. -/
inductive Reads : JsString → JsString → JsString → Prop
  | nil : Reads (unit '"' :: rest) [] rest
  | cons : token text = some (u, text') → Reads text' us rest → Reads text (u :: us) rest

theorem Reads.unique (h : Reads text us rest) (h' : Reads text us' rest') :
    us = us' ∧ rest = rest' := by
  induction h generalizing us' with
  | nil =>
    cases h' with
    | nil => exact ⟨rfl, rfl⟩
    | cons htoken _ => exact nomatch htoken
  | cons htoken _ ih =>
    cases h' with
    | nil => exact nomatch htoken
    | cons htoken' h' =>
      rw [htoken] at htoken'
      cases htoken'
      obtain ⟨rfl, rfl⟩ := ih h'
      exact ⟨rfl, rfl⟩

theorem hexUnit_hexDigit (n : Nat) (hn : n < 16) : hexUnit (hexDigit n) = n := by
  have hall : ∀ n : Fin 16, hexUnit (hexDigit n) = n.1 := by decide
  exact hall ⟨n, hn⟩

theorem token_unicodeEscape (u : CodeUnit) (rest : JsString) :
    token (unicodeEscape u ++ rest) = some (u, rest) := by
  have hu := u.toNat_lt
  have hvalue : ((u.toNat / 4096 * 16 + u.toNat / 256 % 16) * 16 + u.toNat / 16 % 16) * 16 +
      u.toNat % 16 = u.toNat := by omega
  show some (UInt16.ofNat (((hexUnit (hexDigit (u.toNat / 4096)) * 16 +
    hexUnit (hexDigit (u.toNat / 256 % 16))) * 16 + hexUnit (hexDigit (u.toNat / 16 % 16))) * 16 +
    hexUnit (hexDigit (u.toNat % 16))), rest) = _
  rw [hexUnit_hexDigit _ (by omega), hexUnit_hexDigit _ (by omega), hexUnit_hexDigit _ (by omega),
    hexUnit_hexDigit _ (by omega), hvalue, UInt16.ofNat_toNat]

theorem token_plain (hquote : u ≠ unit '"') (hslash : u ≠ unit '\\') (rest : JsString) :
    token (u :: rest) = some (u, rest) := by
  rw [token.eq_def]
  dsimp only
  rw [if_neg hquote, if_neg hslash]

theorem token_escape (u : CodeUnit) (rest : JsString) :
    token (escape u ++ rest) = some (u, rest) := by
  unfold escape
  split_ifs with hb ht hn hf hr hquote hslash hcontrol
  · rw [hb]
    rfl
  · rw [ht]
    rfl
  · rw [hn]
    rfl
  · rw [hf]
    rfl
  · rw [hr]
    rfl
  · rw [hquote]
    rfl
  · rw [hslash]
    rfl
  · exact token_unicodeEscape u rest
  · exact token_plain hquote hslash rest

theorem token_surrogate (h : isHigh u = true ∨ isLow u = true) (rest : JsString) :
    token (u :: rest) = some (u, rest) := by
  refine token_plain ?_ ?_ rest
  all_goals
    rintro rfl
    exact absurd h (by decide)

theorem reads_quoteBody (text rest : JsString) :
    Reads (quoteBody text ++ unit '"' :: rest) text rest := by
  fun_induction quoteBody text with
  | case1 => exact .nil
  | case2 u h => exact .cons (token_unicodeEscape u _) .nil
  | case3 u h => exact .cons (token_escape u _) .nil
  | case4 u v us h ih =>
    obtain ⟨hu, hv⟩ := Bool.and_eq_true_iff.mp h
    exact .cons (token_surrogate (.inl hu) _) (.cons (token_surrogate (.inr hv) _) ih)
  | case5 u v us _ h ih =>
    rw [List.append_assoc]
    exact .cons (token_unicodeEscape u _) ih
  | case6 u v us _ h ih =>
    rw [List.append_assoc]
    exact .cons (token_escape u _) ih

theorem quote_cancel (h : quote t ++ r = quote t' ++ r') : t = t' ∧ r = r' := by
  rw [quote, quote, List.cons_append, List.cons_append, List.append_assoc, List.append_assoc] at h
  have hreads := reads_quoteBody t r
  rw [← List.singleton_append, (List.cons.inj h).2] at hreads
  exact hreads.unique (reads_quoteBody t' r')

/-! ## What ends a value -/

def isStop (u : CodeUnit) : Bool := u = unit ',' || u = unit ']' || u = unit '\x7d'

/-- What may come behind a value. -/
def Stops (r : JsString) : Prop := ∀ u ∈ r.head?, isStop u = true

/-- What no value ends before. -/
def Opens (t : JsString) : Prop := ∃ u rest, t = u :: rest ∧ isStop u = false

/-- A text is known from what it and a stop begin. -/
theorem cancel_of_stops (hs : ∀ u ∈ s, isStop u = false) (hs' : ∀ u ∈ s', isStop u = false)
    (hr : Stops r) (hr' : Stops r') (h : s ++ r = s' ++ r') : s = s' ∧ r = r' := by
  have hspan : ∀ {s r : JsString}, (∀ u ∈ s, isStop u = false) → Stops r →
      (s ++ r).takeWhile (!isStop ·) = s := by
    intro s r hs hr
    rw [List.takeWhile_append_of_pos fun u hu => by rw [hs u hu]; rfl]
    cases r with
    | nil => exact List.append_nil s
    | cons u r =>
      have hu : isStop u = true := hr u rfl
      rw [List.takeWhile_cons_of_neg (by simp [hu]), List.append_nil]
  obtain rfl : s = s' := by rw [← hspan hs hr, h, hspan hs' hr']
  exact ⟨rfl, List.append_cancel_left h⟩

/-- What follows the first of the texts. -/
def following : List JsString → JsString
  | [] => []
  | t :: ts => unit ',' :: separated (t :: ts)

theorem separated_cons (t : JsString) (ts : List JsString) :
    separated (t :: ts) = t ++ following ts := by
  cases ts with
  | nil => exact (List.append_nil t).symm
  | cons _ _ => rfl

/-- The texts between a bracket and the one that closes it. -/
theorem separated_cancel {c : CodeUnit} (hclose : isStop c = true) (hcomma : c ≠ unit ',')
    (hopen : ∀ t ∈ ts, Opens t) (hopen' : ∀ t ∈ ts', Opens t)
    (hcancel : ∀ t ∈ ts, ∀ t' ∈ ts', ∀ r r', Stops r → Stops r' → t ++ r = t' ++ r' →
      t = t' ∧ r = r')
    (h : separated ts ++ c :: r = separated ts' ++ c :: r') : ts = ts' ∧ r = r' := by
  have hstart : ∀ {t : JsString} {ts r r'}, Opens t →
      c :: r ≠ separated (t :: ts) ++ r' := by
    rintro _ ts r r' ⟨u, rest, rfl, hu⟩ heq
    rw [separated_cons, List.append_assoc, List.cons_append] at heq
    rw [(List.cons.inj heq).1, hu] at hclose
    exact nomatch hclose
  have hstops : ∀ (ts : List JsString) (r : JsString), Stops (following ts ++ c :: r) := by
    intro ts r u hu
    cases ts with
    | nil =>
      obtain rfl := Option.some.inj hu
      exact hclose
    | cons t ts =>
      obtain rfl := Option.some.inj hu
      rfl
  induction ts generalizing ts' with
  | nil =>
    cases ts' with
    | nil => exact ⟨rfl, (List.cons.inj h).2⟩
    | cons t' ts' => exact absurd h (hstart (hopen' t' (.head _)))
  | cons t ts ih =>
    cases ts' with
    | nil => exact absurd h.symm (hstart (hopen t (.head _)))
    | cons t' ts' =>
      rw [separated_cons, separated_cons, List.append_assoc, List.append_assoc] at h
      obtain ⟨rfl, hfollow⟩ := hcancel t (.head _) t' (.head _) _ _ (hstops ts r) (hstops ts' r') h
      have hrest : separated ts ++ c :: r = separated ts' ++ c :: r' := by
        cases ts with
        | nil =>
          cases ts' with
          | nil => exact hfollow
          | cons _ _ => exact absurd (List.cons.inj hfollow).1 hcomma
        | cons _ _ =>
          cases ts' with
          | nil => exact absurd (List.cons.inj hfollow).1.symm hcomma
          | cons _ _ => exact (List.cons.inj hfollow).2
      obtain ⟨rfl, rfl⟩ := ih (fun t ht => hopen t (.tail _ ht)) (fun t ht => hopen' t (.tail _ ht))
        (fun t ht t' ht' => hcancel t (.tail _ ht) t' (.tail _ ht')) hrest
      exact ⟨rfl, rfl⟩

/-! ## Values are read back -/

theorem unit_inj {c c' : Char} (hc : c.toNat < 128) (hc' : c'.toNat < 128) (h : unit c = unit c') :
    c = c' := by
  have hnat := congrArg UInt16.toNat h
  rw [unit, unit, UInt16.toNat_ofNat_of_lt' (by simp only [UInt16.size]; omega),
    UInt16.toNat_ofNat_of_lt' (by simp only [UInt16.size]; omega)] at hnat
  exact Char.toNat_inj.mp hnat

theorem unit_ne_of_isNumeral (h : isNumeral c = true) (hd : isNumeral d = false)
    (hd' : d.toNat < 128) : unit c ≠ unit d := by
  intro heq
  rw [unit_inj (toNat_of_isNumeral h) hd' heq, hd] at h
  exact nomatch h

theorem Number.isStop_text (x : Number) : ∀ u ∈ units x.text, isStop u = false := by
  intro u hu
  obtain ⟨c, hc, rfl⟩ := List.mem_map.mp hu
  have h := x.isNumeral_text c hc
  simp only [isStop, Bool.or_eq_false_iff, decide_eq_false_iff_not]
  exact ⟨⟨unit_ne_of_isNumeral h rfl (by decide), unit_ne_of_isNumeral h rfl (by decide)⟩,
    unit_ne_of_isNumeral h rfl (by decide)⟩

/-- What the first code unit of a text tells of its value. -/
inductive Kind
  | null
  | bool (value : Bool)
  | number
  | string
  | array
  | object

def Kind.of (u : CodeUnit) : Kind :=
  if u = unit 'n' then .null
  else if u = unit 't' then .bool true
  else if u = unit 'f' then .bool false
  else if u = unit '"' then .string
  else if u = unit '[' then .array
  else if u = unit '\x7b' then .object
  else .number

def Value.kind : Value → Kind
  | .null => .null
  | .bool b => .bool b
  | .number _ => .number
  | .string _ => .string
  | .array _ => .array
  | .object _ => .object

theorem Kind.of_isNumeral (h : isNumeral c = true) : Kind.of (unit c) = .number := by
  unfold Kind.of
  rw [if_neg (unit_ne_of_isNumeral h rfl (by decide)), if_neg (unit_ne_of_isNumeral h rfl (by decide)),
    if_neg (unit_ne_of_isNumeral h rfl (by decide)), if_neg (unit_ne_of_isNumeral h rfl (by decide)),
    if_neg (unit_ne_of_isNumeral h rfl (by decide)), if_neg (unit_ne_of_isNumeral h rfl (by decide))]

theorem Value.stringify_head (v : Value) :
    ∃ u rest, v.stringify = u :: rest ∧ isStop u = false ∧ Kind.of u = v.kind := by
  cases v with
  | null => exact ⟨_, _, rfl, rfl, rfl⟩
  | bool b => cases b <;> exact ⟨_, _, rfl, rfl, rfl⟩
  | number x =>
    obtain ⟨c, cs, hx⟩ := List.exists_cons_of_ne_nil x.text_ne_nil
    have hc : c ∈ x.text := hx ▸ List.mem_cons_self
    refine ⟨unit c, units cs, ?_, x.isStop_text _ (List.mem_map_of_mem hc), ?_⟩
    · rw [stringify, hx]
      rfl
    · exact Kind.of_isNumeral (x.isNumeral_text c hc)
  | string t => exact ⟨_, _, rfl, rfl, rfl⟩
  | array es => exact ⟨_, _, rfl, rfl, rfl⟩
  | object ms => exact ⟨_, _, rfl, rfl, rfl⟩

theorem Value.opens (v : Value) : Opens v.stringify :=
  let ⟨u, rest, h, hu, _⟩ := v.stringify_head
  ⟨u, rest, h, hu⟩

theorem Value.kind_eq {v v' : Value} (h : v.stringify ++ r = v'.stringify ++ r') :
    v.kind = v'.kind := by
  obtain ⟨u, rest, hv, -, hk⟩ := v.stringify_head
  obtain ⟨u', rest', hv', -, hk'⟩ := v'.stringify_head
  rw [hv, hv'] at h
  rw [← hk, ← hk', (List.cons.inj h).1]

theorem opens_memberText (m : JsString × Value) : Opens (memberText m) := ⟨_, _, rfl, rfl⟩

theorem eq_of_map_eq {f : α → β} {l l' : List α} (hf : ∀ a ∈ l, ∀ b ∈ l', f a = f b → a = b)
    (h : l.map f = l'.map f) : l = l' := by
  have hid : l.map id = l'.map id := map_eq_map_of hf h
  rwa [List.map_id, List.map_id] at hid

theorem Number.text_of_units {x y : Number} (h : units x.text = units y.text) : x = y :=
  text_injective <| eq_of_map_eq (fun c hc d hd hcd => unit_inj
    (toNat_of_isNumeral (x.isNumeral_text c hc)) (toNat_of_isNumeral (y.isNumeral_text d hd)) hcd) h

/-- The value is known from what its text and a stop begin. -/
def Value.Cancels (v : Value) : Prop :=
  ∀ v' r r', Stops r → Stops r' → v.stringify ++ r = v'.stringify ++ r' → v = v' ∧ r = r'

theorem Value.Cancels.eq_of_stringify (hv : Cancels v) (h : v.stringify = v'.stringify) : v = v' :=
  (hv v' [] [] nofun nofun (by rw [h])).1

theorem Value.Cancels.member {m m' : JsString × Value} (hm : Cancels m.2) (hr : Stops r)
    (hr' : Stops r') (h : memberText m ++ r = memberText m' ++ r') : m = m' ∧ r = r' := by
  rw [memberText, memberText, List.append_assoc, List.append_assoc] at h
  obtain ⟨hk, hrest⟩ := quote_cancel h
  obtain ⟨hv, hrest⟩ := hm m'.2 r r' hr hr' (List.cons.inj hrest).2
  exact ⟨Prod.ext hk hv, hrest⟩

theorem Value.Cancels.eq_of_memberText {m m' : JsString × Value} (hm : Cancels m.2)
    (h : memberText m = memberText m') : m = m' := by
  have happend : memberText m ++ [] = memberText m' ++ [] := by rw [h]
  have hnil : Stops [] := nofun
  exact (hm.member hnil hnil happend).1

theorem Value.cancels_array (hes : ∀ e ∈ es, Cancels e) : Cancels (.array es) := by
  intro v' r r' _ _ h
  have hkind := kind_eq h
  cases v' with
  | array es' =>
    rw [stringify, stringify, List.cons_append, List.cons_append, List.append_assoc,
      List.append_assoc, elementTexts_eq, elementTexts_eq] at h
    obtain ⟨htexts, hrest⟩ := separated_cancel (c := unit ']') rfl (by decide)
      (List.forall_mem_map.mpr fun e _ => e.opens) (List.forall_mem_map.mpr fun e _ => e.opens)
      (List.forall_mem_map.mpr fun e he => List.forall_mem_map.mpr fun e' _ r r' hr hr' h =>
        let ⟨heq, hrest⟩ := hes e he e' r r' hr hr' h
        ⟨congrArg stringify heq, hrest⟩) (List.cons.inj h).2
    rw [eq_of_map_eq (fun e he _ _ => (hes e he).eq_of_stringify) htexts]
    exact ⟨rfl, hrest⟩
  | _ => exact nomatch hkind

theorem Value.cancels_object (hms : ∀ m ∈ ms, Cancels m.2) : Cancels (.object ms) := by
  intro v' r r' _ _ h
  have hkind := kind_eq h
  cases v' with
  | object ms' =>
    rw [stringify, stringify, List.cons_append, List.cons_append, List.append_assoc,
      List.append_assoc, memberTexts_eq, memberTexts_eq] at h
    obtain ⟨htexts, hrest⟩ := separated_cancel (c := unit '\x7d') rfl (by decide)
      (List.forall_mem_map.mpr fun m _ => opens_memberText m)
      (List.forall_mem_map.mpr fun m _ => opens_memberText m)
      (List.forall_mem_map.mpr fun m hm => List.forall_mem_map.mpr fun m' _ r r' hr hr' h =>
        let ⟨heq, hrest⟩ := (hms m hm).member hr hr' h
        ⟨congrArg memberText heq, hrest⟩) (List.cons.inj h).2
    rw [eq_of_map_eq (fun m hm _ _ => (hms m hm).eq_of_memberText) htexts]
    exact ⟨rfl, hrest⟩
  | _ => exact nomatch hkind

/-- By induction on the value; the kind of the other one is known from its first code unit. -/
theorem Value.cancels (v : Value) : Cancels v := by
  induction v using Value.inductionOn with
  | null =>
    intro v' r r' _ _ h
    have hkind := kind_eq h
    cases v' with
    | null => exact ⟨rfl, List.append_cancel_left h⟩
    | _ => exact nomatch hkind
  | bool b =>
    intro v' r r' _ _ h
    have hkind := kind_eq h
    cases v' with
    | bool b' =>
      cases hkind
      exact ⟨rfl, List.append_cancel_left h⟩
    | _ => exact nomatch hkind
  | number x =>
    intro v' r r' hr hr' h
    have hkind := kind_eq h
    cases v' with
    | number y =>
      obtain ⟨htext, hrest⟩ := cancel_of_stops x.isStop_text y.isStop_text hr hr' h
      rw [Number.text_of_units htext]
      exact ⟨rfl, hrest⟩
    | _ => exact nomatch hkind
  | string t =>
    intro v' r r' _ _ h
    have hkind := kind_eq h
    cases v' with
    | string t' =>
      obtain ⟨rfl, hrest⟩ := quote_cancel h
      exact ⟨rfl, hrest⟩
    | _ => exact nomatch hkind
  | array es ih => exact cancels_array ih
  | object ms ih => exact cancels_object ih

/-- Values with one text are one value. -/
theorem Value.stringify_injective : Function.Injective Value.stringify :=
  fun v _ => v.cancels.eq_of_stringify

end OpenLander.Theory.JsonValue
