import OpenLander.Theory.InetAddress
import OpenLander.Theory.Lines
import OpenLander.Pipeline.World
import Mathlib.Data.List.TakeWhile

/-! # The parsers of listening ports

`parseSSOutput`, `parseProcNetTcpOutput` and `parseLsofOutput` (`src/pipeline/port.ts`, 92-144) against
the tables that `ss -tln`, the kernel and `lsof -iTCP -sTCP:LISTEN` print. The second one reads the ports
of the sockets. The first one reads the end of a line, where `ss` has the peer, and the last one misses
the ports that `lsof` prints by their names. -/

namespace OpenLander.Pipeline.PortParsers
open Theory
open scoped Members Inet

/-! ## The parsers -/

/-- `port > 0 && port <= 65535` -/
def validPort (port : Nat) : Option Nat := if 0 < port ∧ port ≤ 65535 then some port else none

/-- `parseInt(digits, 10)`, and the check. -/
def decimalPort (digits : List Char) : Option Nat := validPort (Nat.ofDigitChars 10 digits 0)

/-- The leftmost match of a character and what `tail` reads behind it. -/
def search (isStart : Char → Bool) (tail : List Char → Option (List Char)) :
    List Char → Option (List Char)
  | [] => none
  | c :: text =>
    if isStart c then (tail text).or (search isStart tail text) else search isStart tail text

/-- `([0-9]+)]?\s*$`. The digits end at the first other character, since no digit may follow. -/
def ssDigits (text : List Char) : Option (List Char) :=
  let digits := text.takeWhile (·.isDigit)
  let rest := text.dropWhile (·.isDigit)
  let rest := if rest.head? = some ']' then rest.tail else rest
  if digits ≠ [] ∧ rest.all isWhitespace then some digits else none

/-- `line.match(/[:[]([0-9]+)]?\s*$/)` -/
def matchSS : List Char → Option (List Char) := search (fun c => c = ':' ∨ c = '[') ssDigits

def parseSSOutput (output : List Char) : List Nat :=
  (output.splitOn '\n').filterMap fun line => (matchSS line).bind decimalPort

/-- `parseInt(text, 16)`, where a negative number is no port either. -/
def parseIntHex (text : List Char) : Option Nat :=
  let unsigned := if text.head? = some '+' then text.tail else text
  let digits := match unsigned with
    | '0' :: x :: rest => if x = 'x' ∨ x = 'X' then rest else unsigned
    | _ => unsigned
  Inet.number 16 (digits.takeWhile (Inet.digitValue · < 16))

/-- `line.trim().split(/\s+/)`, where the empty line has no word. -/
def words (line : List Char) : List (List Char) := (line.splitOnP isWhitespace).filter (· ≠ [])

def procPort (line : List Char) : Option Nat := do
  let localAddress ← (words line)[1]?
  let state ← (words line)[3]?
  if state = ['0', 'A'] then
    let portHex ← (localAddress.splitOn ':')[1]?
    (parseIntHex portHex).bind validPort
  else none

def parseProcNetTcpOutput (output : List Char) : List Nat :=
  ((output.splitOn '\n').drop 1).filterMap procPort

def mark : List Char := ['(', 'L', 'I', 'S', 'T', 'E', 'N']

/-- `([0-9]+)\s*\(LISTEN\)?` -/
def lsofDigits (text : List Char) : Option (List Char) :=
  let digits := text.takeWhile (·.isDigit)
  let rest := (text.dropWhile (·.isDigit)).dropWhile isWhitespace
  if digits ≠ [] ∧ mark.isPrefixOf rest then some digits else none

/-- `line.match(/[:*]([0-9]+)\s*\(LISTEN\)?/)` -/
def matchLsof : List Char → Option (List Char) := search (fun c => c = ':' ∨ c = '*') lsofDigits

def parseLsofOutput (output : List Char) : List Nat :=
  (output.splitOn '\n').filterMap fun line => (matchLsof line).bind decimalPort

/-! ## The tables -/

/-- A text without blanks. -/
structure Word where
  text : List Char
  ne_nil : text ≠ []
  plain : ∀ c ∈ text, isWhitespace c = false

def Marked (text : List Char) : Prop := ∃ before behind, text = before ++ mark ++ behind

/-- A column of `lsof` in front of the last one. -/
structure Column extends Word where
  unmarked : ¬Marked text

/-- The name of a port in the table of services. It is no number. -/
structure ServiceName where
  text : List Char
  plain : ∀ c ∈ text, isWhitespace c = false ∧ c ∉ [':', '*', '(']
  letter : ∃ c ∈ text, c.isDigit = false

inductive Host
  | wildcard
  | v4 (address : Inet.Ipv4) (device : Option Word)
  | v6 (address : Inet.Ipv6) (device : Option Word)

/-- A peer that is not connected has no port. -/
structure Peer where
  host : Host
  port : Option (Fin 65536)

/-- A listening socket, and what the tools print about it besides. -/
structure Socket where
  host : Host
  port : Nat
  valid : 0 < port ∧ port ≤ 65535
  peer : Peer
  /-- One blank less than the width of a gap. -/
  gap : Nat
  /-- Recv-Q and Send-Q -/
  queues : List Word
  /-- COMMAND to NODE -/
  process : List Column
  /-- The number of the row in the table of the kernel, and the columns behind the state. -/
  slot : Word
  counters : List Word

def deviceText : Option Word → List Char
  | none => []
  | some device => '%' :: device.text

def Host.ss : Host → List Char
  | wildcard => ['*']
  | v4 address device => address.text ++ deviceText device
  | v6 address device => '[' :: address.text ++ ']' :: deviceText device

/-- The device is not printed, and an address of zeros is a wildcard. -/
def Host.lsof : Host → List Char
  | wildcard => ['*']
  | v4 address _ => if address = ⟨0, 0, 0, 0⟩ then ['*'] else address.text
  | v6 address _ =>
    if address.pieces.all (· = 0) then ['*'] else '[' :: address.text ++ [']']

def upperDigit (n : Nat) : Char := (Nat.digitChar n).toUpper

def hexByte (n : Nat) : List Char := [upperDigit (n / 16 % 16), upperDigit (n % 16)]

def hexPort (port : Nat) : List Char := hexByte (port / 256) ++ hexByte port

/-- Two pieces make a word of four bytes, the lowest one first. -/
def hexPieces : List (Fin 65536) → List Char
  | high :: low :: pieces =>
    hexByte low ++ hexByte (low / 256) ++ hexByte high ++ hexByte (high / 256) ++ hexPieces pieces
  | _ => []

def Host.proc : Host → List Char
  | wildcard => hexPieces (List.replicate 8 0)
  | v4 address _ => hexByte address.d ++ hexByte address.c ++ hexByte address.b ++ hexByte address.a
  | v6 address _ => hexPieces address.pieces

def Host.isV4 : Host → Bool
  | v4 .. => true
  | _ => false

def column (gap : Nat) (text : List Char) : List Char := text ++ ' ' :: List.replicate gap ' '

def portText : Option (Fin 65536) → List Char
  | none => ['*']
  | some port => Nat.toDigits 10 port

def Socket.ssRow (s : Socket) : List Char :=
  column s.gap "LISTEN".toList ++ s.queues.flatMap (fun w => column s.gap w.text) ++
    column s.gap (s.host.ss ++ ':' :: Nat.toDigits 10 s.port) ++
    (s.peer.host.ss ++ ':' :: (portText s.peer.port ++ List.replicate s.gap ' '))

def ssText (table : List Socket) : List Char :=
  unlines ['\n'] ("State Recv-Q Send-Q Local Address:Port Peer Address:Port Process".toList ::
    table.map (·.ssRow))

/-- The state `0A` is LISTEN. -/
def Socket.procRow (s : Socket) : List Char :=
  List.replicate s.gap ' ' ++ (column s.gap s.slot.text ++ (column s.gap (s.host.proc ++ ':' :: hexPort s.port) ++
    (column s.gap (s.peer.host.proc ++ ':' :: hexPort ((s.peer.port.map (·.val)).getD 0)) ++
      (column s.gap ['0', 'A'] ++ s.counters.flatMap fun w => column s.gap w.text))))

def procText (table : List Socket) : List Char :=
  unlines ['\n'] ("  sl  local_address rem_address   st tx_queue rx_queue tr tm->when retrnsmt".toList ::
    table.map (·.procRow))

/-- `/proc/net/tcp` -/
def tcpText (table : List Socket) : List Char := procText (table.filter (·.host.isV4))

/-- `/proc/net/tcp6` -/
def tcp6Text (table : List Socket) : List Char := procText (table.filter (!·.host.isV4))

def lsofPort (names : Nat → Option ServiceName) (port : Nat) : List Char :=
  match names port with
  | some name => name.text
  | none => Nat.toDigits 10 port

def Socket.lsofRow (names : Nat → Option ServiceName) (s : Socket) : List Char :=
  s.process.flatMap (fun w => column s.gap w.text) ++
    (s.host.lsof ++ ':' :: (lsofPort names s.port ++ ' ' :: mark ++ [')']))

def lsofText (names : Nat → Option ServiceName) (table : List Socket) : List Char :=
  unlines ['\n'] ("COMMAND PID USER FD TYPE DEVICE SIZE/OFF NODE NAME".toList ::
    table.map (·.lsofRow names))

/-- The ports of the sockets, and no others. -/
def Exact (ports : List Nat) (table : List Socket) : Prop :=
  ∀ port, port ∈ ports ↔ ∃ s ∈ table, s.port = port

/-! ## Searching -/

section
variable {isStart : Char → Bool} {tail : List Char → Option (List Char)} {text rest : List Char}

theorem search_append (h : ∀ before c behind, text = before ++ c :: behind → isStart c = true →
      tail (behind ++ rest) = none) : search isStart tail (text ++ rest) = search isStart tail rest := by
  induction text with
  | nil => rfl
  | cons c text ih =>
    have hrest := ih fun before c' behind heq => h (c :: before) c' behind (congrArg (c :: ·) heq)
    rw [List.cons_append, search]
    split
    next hstart => rw [h [] c text rfl hstart, Option.none_or, hrest]
    next => exact hrest

theorem search_of_tail (hstart : isStart c = true) (h : tail text = some digits) :
    search isStart tail (c :: text) = some digits := by
  rw [search, if_pos hstart, h, Option.some_or]

/-- Without a start there is no match. -/
theorem search_eq_none (h : ∀ c ∈ text, isStart c = false) : search isStart tail text = none := by
  induction text with
  | nil => rfl
  | cons c text ih =>
    rw [List.forall_mem_cons] at h
    rw [search, h.1, if_neg Bool.false_ne_true, ih h.2]

end

/-! ## The ends of the lines of `ss` -/

theorem ssDigits_eq_none {text : List Char} (hc : c ∈ text) (hdigit : c.isDigit = false) (hbracket : c ≠ ']')
    (hblank : isWhitespace c = false) : ssDigits text = none := by
  rw [ssDigits]
  refine if_neg fun h => ?_
  have hall := List.all_eq_true.mp h.2
  rw [← List.takeWhile_append_dropWhile (p := (·.isDigit)) (l := text), List.mem_append] at hc
  rcases hc with hc | hc
  · have htrue := List.mem_takeWhile_imp hc
    exact nomatch hdigit.symm.trans htrue
  · split at hall
    next hhead =>
      cases hrest : text.dropWhile (·.isDigit) with
      | nil =>
        rw [hrest] at hc
        exact nomatch hc
      | cons d rest =>
        rw [hrest] at hc hhead hall
        rcases List.mem_cons.mp hc with rfl | hc
        · exact hbracket (Option.some.inj hhead)
        · exact nomatch hblank.symm.trans (hall c hc)
    next => exact nomatch hblank.symm.trans (hall c hc)

theorem isDigit_of_mem_toDigits {n : Nat} (hc : c ∈ Nat.toDigits 10 n) : c.isDigit = true :=
  Nat.isDigit_of_mem_toDigits (by decide) (by decide) hc

theorem takeWhile_toDigits {n : Nat} {rest : List Char} (h : ∀ c ∈ rest.head?, c.isDigit = false) :
    (Nat.toDigits 10 n ++ rest).takeWhile (·.isDigit) = Nat.toDigits 10 n ∧
      (Nat.toDigits 10 n ++ rest).dropWhile (·.isDigit) = rest := by
  have hall : ∀ c ∈ Nat.toDigits 10 n, c.isDigit = true := fun c => isDigit_of_mem_toDigits
  rw [List.takeWhile_append_of_pos hall, List.dropWhile_append_of_pos hall]
  cases rest with
  | nil => exact ⟨List.append_nil _, rfl⟩
  | cons c rest =>
    have hc := h c rfl
    rw [List.takeWhile_cons, List.dropWhile_cons, hc]
    exact ⟨List.append_nil _, rfl⟩

theorem ssDigits_toDigits (n gap : Nat) :
    ssDigits (Nat.toDigits 10 n ++ List.replicate gap ' ') = some (Nat.toDigits 10 n) := by
  have hhead : ∀ c ∈ (List.replicate gap ' ').head?, c.isDigit = false := by
    intro c hc
    rw [List.eq_of_mem_replicate (List.mem_of_mem_head? hc)]
    rfl
  obtain ⟨htake, hdrop⟩ := takeWhile_toDigits (n := n) hhead
  have hbracket : (List.replicate gap ' ').head? ≠ some ']' := by
    intro hc
    exact absurd (List.eq_of_mem_replicate (List.mem_of_mem_head? hc)) (by decide)
  have hblank : (List.replicate gap ' ').all isWhitespace = true := by
    rw [List.all_replicate]
    split <;> rfl
  rw [ssDigits, htake, hdrop, if_neg hbracket, if_pos ⟨Nat.toDigits_ne_nil, hblank⟩]

/-- What is matched is the port of the peer. -/
theorem matchSS_peer (before : List Char) (gap : Nat) (port : Option (Fin 65536)) :
    matchSS (before ++ ':' :: (portText port ++ List.replicate gap ' ')) =
      port.map fun port => Nat.toDigits 10 port := by
  cases port with
  | none =>
    have hsplit : before ++ ':' :: (portText none ++ List.replicate gap ' ') =
        (before ++ [':']) ++ '*' :: List.replicate gap ' ' := by
      rw [List.append_assoc]
      rfl
    rw [hsplit, matchSS, search_append]
    · refine search_eq_none fun c hc => ?_
      rcases List.mem_cons.mp hc with rfl | hc
      · rfl
      · rw [List.eq_of_mem_replicate hc]
        rfl
    · intro _ c behind _ _
      exact ssDigits_eq_none (c := '*') (List.mem_append_right _ (.head _)) rfl (by decide) rfl
  | some port =>
    rw [matchSS, search_append]
    · exact search_of_tail rfl (ssDigits_toDigits port gap)
    · intro _ c behind _ _
      exact ssDigits_eq_none (c := ':') (List.mem_append_right _ (.head _)) rfl (by decide) rfl

/-! ## The mark of `lsof` -/

/-- A character that is not in the mark cannot be inside of it. -/
theorem marked_append_cons {x y : List Char} (hc : c ∉ mark) (h : Marked (x ++ c :: y)) :
    Marked x ∨ Marked y := by
  obtain ⟨before, behind, h⟩ := h
  rw [List.append_assoc, List.append_eq_append_iff] at h
  rcases h with ⟨front, rfl, h⟩ | ⟨back, rfl, h⟩
  · cases front with
    | nil =>
      have hmem : c ∈ mark := by
        have hhead := congrArg List.head? h
        exact Option.some.inj hhead ▸ .head _
      exact absurd hmem hc
    | cons d front =>
      obtain ⟨-, rfl⟩ := List.cons.inj h
      exact .inr ⟨front, behind, (List.append_assoc ..).symm⟩
  · rw [List.append_eq_append_iff] at h
    rcases h with ⟨rest, rfl, -⟩ | ⟨rest, hmark, h⟩
    · exact .inl ⟨before, rest, (List.append_assoc ..).symm⟩
    · cases rest with
      | nil =>
        rw [List.append_nil] at hmark
        exact .inl ⟨before, [], by rw [hmark, List.append_nil]⟩
      | cons d rest =>
        obtain ⟨rfl, -⟩ := List.cons.inj h
        exact absurd (hmark ▸ List.mem_append_right _ (.head _)) hc

theorem Marked.mem {text : List Char} (h : Marked text) : '(' ∈ text := by
  obtain ⟨before, behind, rfl⟩ := h
  exact List.mem_append_left _ (List.mem_append_right _ (.head _))

theorem Marked.append_left {text : List Char} (h : Marked text) (front : List Char) :
    Marked (front ++ text) := by
  obtain ⟨before, behind, rfl⟩ := h
  exact ⟨front ++ before, behind, by simp only [List.append_assoc]⟩

theorem marked_column (h : Marked (column gap text ++ rest)) : Marked text ∨ Marked rest := by
  have hblank : ' ' ∉ mark := by decide
  have hgap : ∀ gap, Marked (List.replicate gap ' ' ++ rest) → Marked rest := by
    intro gap
    induction gap with
    | zero => exact fun h => h
    | succ gap ih =>
      intro h
      exact ih ((marked_append_cons (x := []) hblank h).resolve_left fun h => nomatch h.mem)
  rw [column, List.append_assoc, List.cons_append] at h
  exact (marked_append_cons hblank h).imp_right (hgap gap)

theorem not_marked_columns (columns : List Column) (gap : Nat) {rest : List Char} (h : ¬Marked rest) :
    ¬Marked (columns.flatMap (fun w => column gap w.text) ++ rest) := by
  induction columns with
  | nil => exact h
  | cons w columns ih =>
    rw [List.flatMap_cons, List.append_assoc]
    exact fun hmarked => (marked_column hmarked).elim w.unmarked ih

/-- The mark is not in what comes before a character that is neither a digit nor a blank. -/
theorem lsofDigits_eq_none {x y : List Char} (hdigit : c.isDigit = false) (hblank : isWhitespace c = false)
    (hc : c ∉ mark) (h : ¬Marked x) : lsofDigits (x ++ c :: y) = none := by
  have hdrop (p : Char → Bool) (hp : p c = false) (x : List Char) :
      ∃ z, (x ++ c :: y).dropWhile p = x.dropWhile p ++ c :: y ∧ x = z ++ x.dropWhile p := by
    refine ⟨x.takeWhile p, ?_, List.takeWhile_append_dropWhile.symm⟩
    rw [List.dropWhile_append]
    split
    next hnil =>
      rw [List.isEmpty_iff.mp hnil, List.dropWhile_cons, hp]
      rfl
    next => rfl
  obtain ⟨z, hdigits, hz⟩ := hdrop (·.isDigit) hdigit x
  obtain ⟨z', hblanks, hz'⟩ := hdrop isWhitespace hblank (x.dropWhile (·.isDigit))
  rw [lsofDigits, hdigits, hblanks]
  refine if_neg fun hmatch => h ?_
  obtain ⟨behind, hbehind⟩ := List.isPrefixOf_iff_prefix.mp hmatch.2
  have hrest : Marked ((x.dropWhile (·.isDigit)).dropWhile isWhitespace) := by
    rw [List.append_eq_append_iff] at hbehind
    rcases hbehind with ⟨rest, heq, -⟩ | ⟨rest, hmark, heq⟩
    · exact ⟨[], rest, heq⟩
    · cases rest with
      | nil =>
        rw [List.append_nil] at hmark
        exact ⟨[], [], by rw [hmark, List.append_nil, List.nil_append]⟩
      | cons d rest =>
        obtain ⟨rfl, -⟩ := List.cons.inj heq
        exact absurd (hmark ▸ List.mem_append_right _ (.head _)) hc
  rw [hz, hz']
  exact (hrest.append_left z').append_left z

theorem lsofDigits_toDigits (n : Nat) (rest : List Char) :
    lsofDigits (Nat.toDigits 10 n ++ ' ' :: mark ++ rest) = some (Nat.toDigits 10 n) := by
  have hhead : ∀ c ∈ (' ' :: mark ++ rest).head?, c.isDigit = false := by
    intro c hc
    exact Option.some.inj hc ▸ rfl
  obtain ⟨htake, hdrop⟩ := takeWhile_toDigits (n := n) hhead
  rw [List.append_assoc, lsofDigits, htake, hdrop]
  refine if_pos ⟨Nat.toDigits_ne_nil, List.isPrefixOf_iff_prefix.mpr ⟨rest, ?_⟩⟩
  rfl

/-- A name has no match, since what follows the colon is not a number. -/
theorem lsofDigits_name (name : ServiceName) (rest : List Char) :
    lsofDigits (name.text ++ ' ' :: rest) = none := by
  have hsome : ∃ c text, name.text.dropWhile (·.isDigit) = c :: text ∧ c ∈ name.text := by
    cases hdrop : name.text.dropWhile (·.isDigit) with
    | nil =>
      obtain ⟨c, hc, hletter⟩ := name.letter
      exact nomatch hletter.symm.trans (List.dropWhile_eq_nil_iff.mp hdrop c hc)
    | cons c text =>
      have hmem : c ∈ name.text := by
        refine (List.dropWhile_suffix fun c : Char => c.isDigit).subset ?_
        rw [hdrop]
        exact .head _
      exact ⟨c, text, rfl, hmem⟩
  obtain ⟨c, text, hdrop, hmem⟩ := hsome
  obtain ⟨hblank, hplain⟩ := name.plain c hmem
  rw [lsofDigits, List.dropWhile_append, hdrop, List.isEmpty_cons, if_neg Bool.false_ne_true,
    List.cons_append, List.dropWhile_cons, hblank, if_neg Bool.false_ne_true]
  refine if_neg fun hmatch => ?_
  obtain ⟨behind, hbehind⟩ := List.isPrefixOf_iff_prefix.mp hmatch.2
  obtain ⟨rfl, -⟩ := List.cons.inj hbehind
  exact absurd hplain (by decide)

/-- The address in front of the port has no mark. -/
theorem not_marked_lsof (host : Host) : ¬Marked host.lsof := by
  intro h
  have hmem := h.mem
  cases host with
  | wildcard => exact absurd hmem (by decide)
  | v4 address device =>
    rw [Host.lsof] at hmem
    split at hmem
    · exact absurd hmem (by decide)
    · exact absurd (Inet.Ipv4.text_chars address _ hmem) (by decide)
  | v6 address device =>
    rw [Host.lsof] at hmem
    split at hmem
    · exact absurd hmem (by decide)
    · rw [List.cons_append, List.mem_cons, List.mem_append] at hmem
      rcases hmem with hmem | hmem | hmem
      · exact absurd hmem (by decide)
      · exact absurd (Inet.Ipv6.text_chars address _ hmem) (by decide)
      · exact absurd hmem (by decide)

theorem matchLsof_row (names : Nat → Option ServiceName) (s : Socket) :
    matchLsof (s.lsofRow names) =
      if (names s.port).isSome then none else some (Nat.toDigits 10 s.port) := by
  have hfront : ¬Marked (s.process.flatMap (fun w => column s.gap w.text) ++ s.host.lsof) :=
    not_marked_columns _ _ (not_marked_lsof s.host)
  rw [Socket.lsofRow, ← List.append_assoc, matchLsof, search_append]
  · rw [lsofPort]
    cases names s.port with
    | none =>
      rw [Option.isSome_none, if_neg Bool.false_ne_true]
      exact search_of_tail rfl (lsofDigits_toDigits s.port [')'])
    | some name =>
      have hstart : ∀ c ∈ name.text ++ ' ' :: mark ++ [')'], decide (c = ':' ∨ c = '*') = false := by
        intro c hc
        rw [List.append_assoc, List.mem_append] at hc
        rcases hc with hc | hc
        · have hplain := (name.plain c hc).2
          exact decide_eq_false fun h => h.elim (fun h => hplain (by simp [h])) fun h => hplain (by simp [h])
        · revert c
          decide
      have hname : lsofDigits (name.text ++ ' ' :: mark ++ [')']) = none := by
        rw [List.append_assoc]
        exact lsofDigits_name name _
      refine (if_pos rfl).trans ?_
      exact (congrArg₂ Option.or hname (search_eq_none hstart)).trans rfl
  · intro before c behind heq _
    refine lsofDigits_eq_none rfl rfl (by decide) fun hmarked => hfront ?_
    rw [heq, List.append_cons]
    exact hmarked.append_left _

/-! ## The rows of the kernel -/

theorem words_blank (gap : Nat) (rest : List Char) : words (List.replicate gap ' ' ++ rest) = words rest := by
  induction gap with
  | zero => rfl
  | succ gap ih =>
    rw [← ih, List.replicate_succ, List.cons_append, words, words, List.splitOnP_cons_eq_if_modifyHead]
    rfl

theorem words_column {text : List Char} (hne : text ≠ []) (h : ∀ c ∈ text, isWhitespace c = false)
    (gap : Nat) (rest : List Char) : words (column gap text ++ rest) = text :: words rest := by
  rw [column, List.append_assoc, List.cons_append, words,
    List.splitOnP_append_cons_of_forall_mem h _ rfl, List.filter_cons, if_pos (decide_eq_true hne)]
  exact congrArg (text :: ·) (words_blank gap rest)

theorem upperDigit_value : ∀ n < 16, Inet.digitValue (upperDigit n) = n ∧ isWhitespace (upperDigit n) = false ∧
    upperDigit n ≠ ':' ∧ upperDigit n ≠ '+' ∧ upperDigit n ≠ 'x' ∧ upperDigit n ≠ 'X' := by
  decide

theorem hexByte_chars (n : Nat) : ∀ c ∈ hexByte n, ∃ digit < 16, c = upperDigit digit := by
  intro c hc
  rcases List.mem_cons.mp hc with rfl | hc
  · exact ⟨_, Nat.mod_lt _ (by decide), rfl⟩
  · exact ⟨_, Nat.mod_lt _ (by decide), List.mem_singleton.mp hc⟩

theorem hexPieces_chars (pieces : List (Fin 65536)) :
    ∀ c ∈ hexPieces pieces, ∃ digit < 16, c = upperDigit digit := by
  fun_induction hexPieces pieces with
  | case1 high low pieces ih =>
    simp only [List.mem_append]
    rintro c ((((hc | hc) | hc) | hc) | hc)
    · exact hexByte_chars _ c hc
    · exact hexByte_chars _ c hc
    · exact hexByte_chars _ c hc
    · exact hexByte_chars _ c hc
    · exact ih c hc
  | case2 => exact nofun

theorem proc_chars (host : Host) : ∀ c ∈ host.proc, ∃ digit < 16, c = upperDigit digit := by
  cases host with
  | wildcard => exact hexPieces_chars _
  | v4 address device =>
    simp only [Host.proc, List.mem_append]
    rintro c (((hc | hc) | hc) | hc) <;> exact hexByte_chars _ c hc
  | v6 address device => exact hexPieces_chars _

theorem hexPort_chars (port : Nat) : ∀ c ∈ hexPort port, ∃ digit < 16, c = upperDigit digit := by
  simp only [hexPort, List.mem_append]
  rintro c (hc | hc) <;> exact hexByte_chars _ c hc

theorem parseIntHex_hexPort (h : port ≤ 65535) : parseIntHex (hexPort port) = some port := by
  have hall : ∀ c ∈ hexPort port, decide (Inet.digitValue c < 16) = true := by
    intro c hc
    obtain ⟨digit, hlt, rfl⟩ := hexPort_chars port c hc
    rw [(upperDigit_value digit hlt).1]
    exact decide_eq_true hlt
  have hdigit (n : Nat) := upperDigit_value (n % 16) (Nat.mod_lt _ (by decide))
  have hplus : (hexPort port).head? ≠ some '+' := fun heq =>
    (hdigit (port / 256 / 16)).2.2.2.1 (Option.some.inj heq)
  have htake : (hexPort port).takeWhile (Inet.digitValue · < 16) = hexPort port :=
    List.takeWhile_eq_self_iff.mpr hall
  have hnumber : Inet.number 16 (hexPort port) = some port := by
    rw [Inet.number, if_pos ⟨List.cons_ne_nil _ _, fun c hc => of_decide_eq_true (hall c hc)⟩]
    simp only [hexPort, hexByte, List.cons_append, List.nil_append, List.foldl_cons, List.foldl_nil,
      (hdigit _).1]
    exact congrArg some (by omega)
  rw [parseIntHex, if_neg hplus]
  split
  next x rest heq =>
    have hx : x = upperDigit (port / 256 % 16) :=
      ((List.cons.inj (List.cons.inj heq).2).1).symm
    have hnot := (hdigit (port / 256)).2.2.2.2
    rw [← hx] at hnot
    rw [if_neg (not_or.mpr hnot), htake, hnumber]
  next => rw [htake, hnumber]

theorem procPort_row (s : Socket) : procPort s.procRow = some s.port := by
  have haddress (host : Host) (port : Nat) :
      ∀ c ∈ host.proc ++ ':' :: hexPort port, isWhitespace c = false := by
    intro c hc
    rw [List.mem_append, List.mem_cons] at hc
    rcases hc with hc | rfl | hc
    · obtain ⟨digit, hlt, rfl⟩ := proc_chars host c hc
      exact (upperDigit_value digit hlt).2.1
    · rfl
    · obtain ⟨digit, hlt, rfl⟩ := hexPort_chars port c hc
      exact (upperDigit_value digit hlt).2.1
  have hne (host : Host) (port : Nat) : host.proc ++ ':' :: hexPort port ≠ [] := by simp
  have hwords : words s.procRow = s.slot.text :: (s.host.proc ++ ':' :: hexPort s.port) ::
      (s.peer.host.proc ++ ':' :: hexPort ((s.peer.port.map (·.val)).getD 0)) :: ['0', 'A'] ::
      words (s.counters.flatMap fun w => column s.gap w.text) := by
    rw [Socket.procRow, words_blank, words_column s.slot.ne_nil s.slot.plain,
      words_column (hne _ _) (haddress _ _), words_column (hne _ _) (haddress _ _),
      words_column (by decide) (by decide)]
  have hcolon (text : List Char) (h : ∀ c ∈ text, ∃ digit < 16, c = upperDigit digit) : ':' ∉ text := by
    intro hmem
    obtain ⟨digit, hlt, heq⟩ := h _ hmem
    exact (upperDigit_value digit hlt).2.2.1 heq.symm
  have hsplit : (s.host.proc ++ ':' :: hexPort s.port).splitOn ':' = [s.host.proc, hexPort s.port] := by
    rw [List.splitOn_append_cons_self_of_not_mem (hcolon _ (proc_chars s.host)),
      List.splitOn_eq_singleton (hcolon _ (hexPort_chars s.port))]
  have hvalid : validPort s.port = some s.port := if_pos s.valid
  rw [procPort, hwords]
  simp only [List.getElem?_cons_succ, List.getElem?_cons_zero, Option.bind_eq_bind, Option.bind_some,
    if_true, hsplit, parseIntHex_hexPort s.valid.2, hvalid]

/-! ## The rows are lines -/

theorem Word.not_mem (w : Word) : '\n' ∉ w.text := fun h => nomatch w.plain _ h

theorem not_mem_blanks (gap : Nat) : '\n' ∉ List.replicate gap ' ' :=
  fun h => absurd (List.eq_of_mem_replicate h) (by decide)

theorem not_mem_column {text : List Char} (h : '\n' ∉ text) (gap : Nat) : '\n' ∉ column gap text := by
  rw [column, List.mem_append, List.mem_cons, not_or, not_or]
  exact ⟨h, by decide, not_mem_blanks gap⟩

theorem not_mem_columns (ws : List Word) (gap : Nat) : '\n' ∉ ws.flatMap fun w => column gap w.text := by
  rw [List.mem_flatMap]
  rintro ⟨w, -, hmem⟩
  exact not_mem_column w.not_mem gap hmem

theorem not_mem_toDigits (n : Nat) : '\n' ∉ Nat.toDigits 10 n := fun h => nomatch isDigit_of_mem_toDigits h

theorem not_mem_ss (host : Host) : '\n' ∉ host.ss := by
  have hdevice (device : Option Word) : '\n' ∉ deviceText device := by
    cases device with
    | none => exact List.not_mem_nil
    | some device =>
      rw [deviceText, List.mem_cons, not_or]
      exact ⟨by decide, device.not_mem⟩
  cases host with
  | wildcard => decide
  | v4 address device =>
    rw [Host.ss, List.mem_append, not_or]
    exact ⟨fun h => absurd (Inet.Ipv4.text_chars address _ h) (by decide), hdevice device⟩
  | v6 address device =>
    rw [Host.ss, List.cons_append, List.mem_cons, List.mem_append, List.mem_cons, not_or, not_or, not_or]
    exact ⟨by decide, fun h => absurd (Inet.Ipv6.text_chars address _ h) (by decide), by decide,
      hdevice device⟩

theorem not_mem_ssRow (s : Socket) : '\n' ∉ s.ssRow := by
  have hport : '\n' ∉ portText s.peer.port := by
    cases s.peer.port with
    | none => decide
    | some port => exact not_mem_toDigits port
  have hlocal : '\n' ∉ s.host.ss ++ ':' :: Nat.toDigits 10 s.port := by
    rw [List.mem_append, List.mem_cons, not_or, not_or]
    exact ⟨not_mem_ss s.host, by decide, not_mem_toDigits s.port⟩
  simp only [Socket.ssRow, List.mem_append, List.mem_cons, not_or]
  exact ⟨⟨⟨not_mem_column (by decide) _, not_mem_columns _ _⟩, not_mem_column hlocal _⟩,
    not_mem_ss s.peer.host, by decide, hport, not_mem_blanks _⟩

theorem not_mem_procRow (s : Socket) : '\n' ∉ s.procRow := by
  have hhex {text : List Char} (h : ∀ c ∈ text, ∃ digit < 16, c = upperDigit digit) : '\n' ∉ text := by
    intro hmem
    obtain ⟨digit, hlt, heq⟩ := h _ hmem
    exact nomatch (heq ▸ (upperDigit_value digit hlt).2.1 : isWhitespace '\n' = false)
  have haddress (host : Host) (port : Nat) : '\n' ∉ host.proc ++ ':' :: hexPort port := by
    rw [List.mem_append, List.mem_cons, not_or, not_or]
    exact ⟨hhex (proc_chars host), by decide, hhex (hexPort_chars port)⟩
  simp only [Socket.procRow, List.mem_append, not_or]
  exact ⟨not_mem_blanks _, not_mem_column s.slot.not_mem _, not_mem_column (haddress _ _) _,
    not_mem_column (haddress _ _) _, not_mem_column (by decide) _, not_mem_columns _ _⟩

theorem not_mem_lsofRow (names : Nat → Option ServiceName) (s : Socket) : '\n' ∉ s.lsofRow names := by
  have hhost : '\n' ∉ s.host.lsof := by
    cases s.host with
    | wildcard => decide
    | v4 address device =>
      rw [Host.lsof]
      split
      · decide
      · exact fun h => absurd (Inet.Ipv4.text_chars address _ h) (by decide)
    | v6 address device =>
      rw [Host.lsof]
      split
      · decide
      · rw [List.cons_append, List.mem_cons, List.mem_append, not_or, not_or]
        exact ⟨by decide, fun h => absurd (Inet.Ipv6.text_chars address _ h) (by decide), by decide⟩
  have hport : '\n' ∉ lsofPort names s.port := by
    rw [lsofPort]
    split
    next name _ => exact fun h => nomatch (name.plain _ h).1
    next => exact not_mem_toDigits s.port
  have hprocess : '\n' ∉ s.process.flatMap fun w => column s.gap w.text := by
    rw [List.mem_flatMap]
    rintro ⟨w, -, hmem⟩
    exact not_mem_column w.not_mem _ hmem
  simp only [Socket.lsofRow, List.mem_append, List.mem_cons, not_or]
  exact ⟨hprocess, hhost, by decide, ⟨hport, by decide, by decide⟩, by decide⟩

theorem splitOn_unlines {lines : List (List Char)} (h : Plain lines) :
    (unlines ['\n'] lines).splitOn '\n' = lines ++ [[]] := by
  rw [← splitOn_joined h List.not_mem_nil, joined, List.append_nil]

theorem plain_rows {header : List Char} {row : Socket → List Char} (hheader : '\n' ∉ header)
    (hrow : ∀ s, '\n' ∉ row s) (table : List Socket) : Plain (header :: table.map row) := by
  refine List.forall_mem_cons.mpr ⟨hheader, fun line hline => ?_⟩
  obtain ⟨s, -, rfl⟩ := List.mem_map.mp hline
  exact hrow s

/-! ## The ports that are read -/

theorem decimalPort_toDigits (n : Nat) : decimalPort (Nat.toDigits 10 n) = validPort n := by
  rw [decimalPort, Nat.ofDigitChars_toDigits (by decide) (by decide)]

/-- The ports of the peers. -/
theorem parseSSOutput_ssText (table : List Socket) : parseSSOutput (ssText table) =
    table.filterMap fun s => s.peer.port.bind fun port => validPort port := by
  have hrow (s : Socket) : (matchSS s.ssRow).bind decimalPort =
      s.peer.port.bind fun port => validPort port := by
    rw [Socket.ssRow, ← List.append_assoc, matchSS_peer]
    cases s.peer.port with
    | none => rfl
    | some port => exact decimalPort_toDigits port
  rw [parseSSOutput, ssText, splitOn_unlines (plain_rows (by decide) not_mem_ssRow table),
    List.filterMap_append, List.filterMap_cons_none (by decide), List.filterMap_map]
  refine (List.append_nil _).trans ?_
  exact List.filterMap_congr fun s _ => hrow s

theorem parseProcNetTcpOutput_procText (table : List Socket) :
    parseProcNetTcpOutput (procText table) = table.map (·.port) := by
  rw [parseProcNetTcpOutput, procText, splitOn_unlines (plain_rows (by decide) not_mem_procRow table),
    List.cons_append, List.drop_succ_cons, List.drop_zero, List.filterMap_append, List.filterMap_map,
    ← List.filterMap_eq_map]
  refine (List.append_nil _).trans ?_
  exact List.filterMap_congr fun s _ => procPort_row s

/-- The ports that have no name. -/
theorem parseLsofOutput_lsofText (names : Nat → Option ServiceName) (table : List Socket) :
    parseLsofOutput (lsofText names table) =
      table.filterMap fun s => if (names s.port).isSome then none else some s.port := by
  have hrow (s : Socket) : (matchLsof (s.lsofRow names)).bind decimalPort =
      if (names s.port).isSome then none else some s.port := by
    rw [matchLsof_row]
    split
    · rfl
    · rw [Option.bind_some, decimalPort_toDigits, validPort, if_pos s.valid]
  rw [parseLsofOutput, lsofText,
    splitOn_unlines (plain_rows (by decide) (not_mem_lsofRow names) table), List.filterMap_append,
    List.filterMap_cons_none (by decide), List.filterMap_map]
  refine (List.append_nil _).trans ?_
  exact List.filterMap_congr fun s _ => hrow s

/-! ## Agreement -/

/-- Each of the sources gives the ports of the sockets, so that all agree. -/
structure AllExact (names : Nat → Option ServiceName) (table : List Socket) : Prop where
  ss : Exact (parseSSOutput (ssText table)) table
  proc : Exact (parseProcNetTcpOutput (tcpText table) ++ parseProcNetTcpOutput (tcp6Text table)) table
  lsof : Exact (parseLsofOutput (lsofText names table)) table

/-- The numbers of ports in the column of the peers. -/
def PeerPort (table : List Socket) (port : Nat) : Prop :=
  ∃ s ∈ table, ∃ peer : Fin 65536, s.peer.port = some peer ∧ peer.val = port

theorem exact_ss_iff (table : List Socket) : Exact (parseSSOutput (ssText table)) table ↔
    ∀ port, 0 < port → (PeerPort table port ↔ ∃ s ∈ table, s.port = port) := by
  have hmem (port : Nat) : port ∈ parseSSOutput (ssText table) ↔ 0 < port ∧ PeerPort table port := by
    rw [parseSSOutput_ssText, List.mem_filterMap]
    constructor
    · rintro ⟨s, hs, hport⟩
      obtain ⟨peer, hpeer, hvalid⟩ := Option.bind_eq_some_iff.mp hport
      rw [validPort, Option.ite_none_right_eq_some] at hvalid
      obtain ⟨⟨hpos, -⟩, heq⟩ := hvalid
      have heq : peer.val = port := Option.some.inj heq
      exact ⟨heq ▸ hpos, s, hs, peer, hpeer, heq⟩
    · rintro ⟨hpos, s, hs, peer, hpeer, rfl⟩
      refine ⟨s, hs, ?_⟩
      rw [hpeer, Option.bind_some, validPort, if_pos ⟨hpos, Nat.le_of_lt_succ peer.isLt⟩]
  constructor
  · intro h port hpos
    rw [← h port, hmem, and_iff_right hpos]
  · intro h port
    rw [hmem]
    constructor
    · rintro ⟨hpos, hpeer⟩
      exact (h port hpos).mp hpeer
    · rintro ⟨s, hs, rfl⟩
      exact ⟨s.valid.1, (h _ s.valid.1).mpr ⟨s, hs, rfl⟩⟩

theorem exact_proc (table : List Socket) :
    Exact (parseProcNetTcpOutput (tcpText table) ++ parseProcNetTcpOutput (tcp6Text table)) table := by
  intro port
  rw [tcpText, tcp6Text, parseProcNetTcpOutput_procText, parseProcNetTcpOutput_procText, List.mem_append,
    List.mem_map, List.mem_map]
  constructor
  · rintro (⟨s, hs, heq⟩ | ⟨s, hs, heq⟩) <;> exact ⟨s, List.mem_of_mem_filter hs, heq⟩
  · rintro ⟨s, hs, heq⟩
    cases hv4 : s.host.isV4 with
    | true => exact .inl ⟨s, List.mem_filter.mpr ⟨hs, hv4⟩, heq⟩
    | false => exact .inr ⟨s, List.mem_filter.mpr ⟨hs, by rw [hv4]; rfl⟩, heq⟩

theorem exact_lsof_iff (names : Nat → Option ServiceName) (table : List Socket) :
    Exact (parseLsofOutput (lsofText names table)) table ↔ ∀ s ∈ table, names s.port = none := by
  have hmem (port : Nat) : port ∈ parseLsofOutput (lsofText names table) ↔
      ∃ s ∈ table, names s.port = none ∧ s.port = port := by
    rw [parseLsofOutput_lsofText, List.mem_filterMap]
    refine exists_congr fun s => and_congr_right fun _ => ?_
    cases names s.port with
    | none => exact (Option.some_inj).trans (and_iff_right rfl).symm
    | some name => exact iff_of_false nofun fun h => nomatch h.1
  constructor
  · intro h s hs
    obtain ⟨s', -, hnone, heq⟩ := (hmem s.port).mp ((h s.port).mpr ⟨s, hs, rfl⟩)
    rw [← heq, hnone]
  · intro h port
    rw [hmem]
    exact exists_congr fun s => and_congr_right fun hs => and_iff_right (h s hs)

/-- All three parsers give the ports of the sockets exactly if the column of the peers has the same
ports, and no port has a name. -/
theorem allExact_iff (names : Nat → Option ServiceName) (table : List Socket) :
    AllExact names table ↔
      (∀ port, 0 < port → (PeerPort table port ↔ ∃ s ∈ table, s.port = port)) ∧
      ∀ s ∈ table, names s.port = none := by
  rw [← exact_ss_iff, ← exact_lsof_iff]
  exact ⟨fun h => ⟨h.ss, h.lsof⟩, fun h => ⟨h.1, exact_proc table, h.2⟩⟩

def sampleWord (c : Char) (h : isWhitespace c = false) : Word where
  text := [c]
  ne_nil := List.cons_ne_nil _ _
  plain _ hc := List.mem_singleton.mp hc ▸ h

/-- A server on port 80 of all addresses. -/
def sampleSocket : Socket where
  host := .wildcard
  port := 80
  valid := by decide
  peer := ⟨.wildcard, none⟩
  gap := 0
  queues := [sampleWord '0' rfl, sampleWord '5' rfl]
  process := []
  slot := sampleWord '0' rfl
  counters := []

/-- The port is not found in the output of `ss`. -/
theorem not_forall_allExact : ¬∀ table, AllExact (fun _ => none) table := by
  intro h
  have hempty : parseSSOutput (ssText [sampleSocket]) = [] := by decide
  have hmem := ((h [sampleSocket]).ss 80).mpr ⟨sampleSocket, .head _, rfl⟩
  rw [hempty] at hmem
  exact nomatch hmem

end OpenLander.Pipeline.PortParsers
