import OpenLander.Theory.Collections
import Mathlib.Algebra.GroupWithZero.Nat
import Mathlib.Data.List.TakeWhile
import Mathlib.Data.List.Perm.Subperm
import Mathlib.Data.List.Flatten

/-! # Redis reads of the data inspector

`readRedisDataSource` (`src/data-inspector/index.ts`, 917-1004) reads the replies of Redis from the
lines that `redis-cli --raw` prints. It trims them and drops those that are empty, so that a reply is
read as it is stored if and only if no element of it is empty or has blanks at an end, and all of it is
within the limit of the output. -/

namespace OpenLander.DataInspector.Redis
open Theory

/-! ## Texts -/

/-- A text by its UTF-16 code units. -/
abbrev Text := List UInt16

def text (s : String) : Text := s.toList.map fun c => c.toNat.toUInt16

def newline : UInt16 := 10

/-- What `trim` removes. -/
def isBlank (u : UInt16) : Bool :=
  u ∈ [9, 10, 11, 12, 13, 32, 0xa0, 0x1680, 0x2028, 0x2029, 0x202f, 0x205f, 0x3000, 0xfeff] ||
    (0x2000 ≤ u && u ≤ 0x200a)

def trim (s : Text) : Text := ((s.dropWhile isBlank).reverse.dropWhile isBlank).reverse

/-- A text without newlines. -/
abbrev Line := { s : Text // newline ∉ s }

/-! ## Redis -/

inductive Value
  | string (value : Line)
  | hash (fields : List (Line × Line)) (nodup : (fields.map Prod.fst).Nodup)
  /-- A value of another type, such as a list or a sorted set. -/
  | other (type : Line)

/-- What the commands read. -/
structure Database where
  store : Line → Option Value
  ttl : Line → Line
  /-- The cursor and the keys that the server chooses to give. -/
  scan : Text → Nat → Line × List Line

inductive Command
  | get (key : Line)
  | mget (keys : List Line)
  | type (key : Line)
  | ttl (key : Line)
  | hgetall (key : Line)
  | scan (pattern : Text) (count : Nat)

inductive Reply
  | nil
  | bulk (value : Text)
  | error (message : Text)
  | array (elements : List (Option Text))
  | scan (cursor : Text) (keys : List Text)

def wrongType : Text := text "WRONGTYPE Operation against a key holding the wrong kind of value"

namespace Database

def string? (db : Database) (key : Line) : Option Text :=
  match db.store key with
  | some (.string value) => some value
  | _ => none

/-- The fields of a hash. What is no hash has none. -/
def fields (db : Database) (key : Line) : List (Text × Text) :=
  match db.store key with
  | some (.hash fields _) => fields.map fun p => (p.1.1, p.2.1)
  | _ => []

def typeOf (db : Database) (key : Line) : Text :=
  match db.store key with
  | none => text "none"
  | some (.string _) => text "string"
  | some (.hash ..) => text "hash"
  | some (.other type) => type

def reply (db : Database) : Command → Reply
  | .get key =>
    match db.store key with
    | none => .nil
    | some (.string value) => .bulk value
    | some _ => .error wrongType
  | .mget keys => .array (keys.map db.string?)
  | .type key => .bulk (db.typeOf key)
  | .ttl key => .bulk (db.ttl key)
  | .hgetall key =>
    match db.store key with
    | none | some (.hash ..) => .array ((db.fields key).flatMap fun p => [some p.1, some p.2])
    | some _ => .error wrongType
  | .scan pattern count => .scan (db.scan pattern count).1 ((db.scan pattern count).2.map (·.1))

end Database

/-- The lines of a reply in raw mode. What has no element is an empty line, and so is `nil`. -/
def Reply.printed : Reply → List Text
  | nil => [[]]
  | bulk value => [value]
  | error message => [message, []]
  | array [] => [[]]
  | array elements => elements.map (·.getD [])
  | scan cursor [] => [cursor, []]
  | scan cursor keys => cursor :: keys

def Reply.raw (reply : Reply) : Text := [newline].intercalate reply.printed ++ [newline]

structure ExecOutput where
  exitCode : Int
  stdout : Text
  stderr : Text

/-- A response that is not `ok`. -/
inductive Blocked
  | unsupported
  /-- Of `redisCliInvocation`. -/
  | invocation (code : String)
  | failed (output : Text)
  deriving DecidableEq

/-- `redis-cli --raw` in the container, or the response of `redisCliInvocation`. None stands for a
timeout. -/
abbrev RedisCli := Command → Except Blocked (Option ExecOutput)

/-- Each command is answered as documented. -/
def Serves (db : Database) (cli : RedisCli) : Prop :=
  ∀ command, cli command = .ok (some ⟨0, (db.reply command).raw, []⟩)

/-! ## The read -/

def REDIS_MAX_ITEMS : Nat := 100
def REDIS_DEFAULT_ITEMS : Nat := 50
def MAX_RESULT_BYTES : Nat := 128 * 1024

structure ContainerExecResult where
  stdout : Text
  stderr : Text
  exitCode : Int
  truncated : Bool

/-- The end of `execInServiceContainer`, where nothing is thrown. -/
def execResult (maxBytes : Nat) : Option ExecOutput → ContainerExecResult
  | none => ⟨[], [], -1, true⟩
  | some output => {
      stdout := output.stdout.take maxBytes
      stderr := output.stderr.take maxBytes
      exitCode := output.exitCode
      truncated := maxBytes < output.stdout.length ∨ maxBytes < output.stderr.length }

inductive Operation
  | get | mget | type | ttl | hgetall | scan | other
  deriving DecidableEq, Repr

/-- The input of a read. An entry of `keys` that is no text is `none`; so is a limit that is absent,
and one that is no integer is `some none`. -/
structure Input where
  operation : Operation
  key : Line
  keys : List (Option Line)
  pattern : Option Text
  limit : Option (Option Int)
  count : Option (Option Int)

def clampLimit (value : Option (Option Int)) (defaultValue maxValue : Nat) : Nat :=
  match value with
  | some (some n) => if n ≤ 0 then defaultValue else min n.toNat maxValue
  | _ => defaultValue

namespace Input

def itemLimit (input : Input) : Nat :=
  clampLimit (input.limit <|> input.count) REDIS_DEFAULT_ITEMS REDIS_MAX_ITEMS

def readKeys (input : Input) : List Line := (input.keys.filterMap fun key => key).take input.itemLimit

def scanPattern (input : Input) : Text :=
  match input.pattern with
  | some pattern => if trim pattern = [] then text "*" else trim pattern
  | none => text "*"

def commandArgs (input : Input) : Option Command :=
  match input.operation with
  | .get => if input.key.1 = [] then none else some (.get input.key)
  | .mget => if input.readKeys = [] then none else some (.mget input.readKeys)
  | .type => if input.key.1 = [] then none else some (.type input.key)
  | .ttl => if input.key.1 = [] then none else some (.ttl input.key)
  | .hgetall => if input.key.1 = [] then none else some (.hgetall input.key)
  | .scan => some (.scan input.scanPattern input.itemLimit)
  | .other => none

end Input

inductive Values
  /-- The entries that `Object.fromEntries` is given. -/
  | record (entries : List (Text × Text))
  | scan (cursor : Text) (keys : List Text)
  | list (values : List Text)
  | single (value : Option Text)
  deriving DecidableEq

structure ReadResult where
  values : Values
  count : Nat
  limit : Nat
  truncated : Bool
  deriving DecidableEq

/-- The lines of the output that are left. -/
def lines (stdout : Text) : List Text := ((stdout.splitOn newline).map trim).filter (· ≠ [])

/-- Two lines make an entry. -/
def pairs : List Text → List (Text × Text)
  | field :: value :: lines => (field, value) :: pairs lines
  | _ => []

def readValues (input : Input) (lines : List Text) : Values :=
  match input.operation with
  | .hgetall => .record (pairs lines)
  | .scan => .scan ((lines[0]?).getD (text "0")) ((lines.drop 1).take input.itemLimit)
  | .mget => .list (lines.take input.readKeys.length)
  | _ => .single lines[0]?

def Values.count : Values → Nat
  | record entries => (keys entries).length
  | scan _ keys => keys.length
  | list values => values.length
  | single value => if value.isSome then 1 else 0

def readRedisDataSource (cli : RedisCli) (input : Input) : Except Blocked ReadResult := do
  match input.commandArgs with
  | none => throw .unsupported
  | some command =>
    let exec := execResult MAX_RESULT_BYTES (← cli command)
    if exec.exitCode ≠ 0 then
      throw (.failed (if trim exec.stderr = [] then trim exec.stdout else trim exec.stderr))
    else
      let values := readValues input (lines exec.stdout)
      return {
        values
        count := values.count
        limit := input.itemLimit
        truncated := exec.truncated ∨ input.itemLimit ≤ values.count }

/-! ## What is stored -/

/-- The values are what the database has. -/
def Faithful (db : Database) : Command → Values → Prop
  | .get key, .single value => value = db.string? key
  | .mget keys, .list values => values.map some = keys.map db.string?
  | .type key, .single value => value = some (db.typeOf key)
  | .ttl key, .single value => value = some (db.ttl key).1
  | .hgetall key, .record entries => fromEntries entries = fromEntries (db.fields key)
  | .scan pattern count, .scan cursor keys =>
    cursor = (db.scan pattern count).1 ∧ keys = (db.scan pattern count).2.map (·.1)
  | _, _ => False

/-- A text that is a line of its own. -/
def Clean (s : Text) : Prop := s ≠ [] ∧ trim s = s

instance : Decidable (Clean s) := inferInstanceAs (Decidable (_ ∧ _))

/-- The number of code units of the lines, each with its newline. -/
def size (lines : List Text) : Nat := (lines.map (·.length + 1)).sum

/-- The lines are within the limit, up to the last newline. -/
def Fits (lines : List Text) : Prop := size lines ≤ MAX_RESULT_BYTES + 1

def Readable (db : Database) (limit : Nat) : Command → Prop
  | .get key =>
    match db.store key with
    | none => True
    | some (.string value) => Clean value.1 ∧ Fits [value.1]
    | some _ => False
  | .mget keys => (∀ key ∈ keys, ∃ value, db.string? key = some value ∧ Clean value) ∧
      Fits (keys.filterMap db.string?)
  | .type key => Clean (db.typeOf key) ∧ Fits [db.typeOf key]
  | .ttl key => Clean (db.ttl key).1 ∧ Fits [(db.ttl key).1]
  | .hgetall key => (∀ p ∈ db.fields key, Clean p.1 ∧ Clean p.2) ∧
      Fits ((db.fields key).flatMap fun p => [p.1, p.2])
  | .scan pattern count =>
    let (cursor, keys) := db.scan pattern count
    (∀ s ∈ cursor :: keys, Clean s.1) ∧ keys.length ≤ limit ∧ Fits ((cursor :: keys).map (·.1))

/-! ## Lines -/

theorem head?_dropWhile (s : Text) : ∀ u ∈ (s.dropWhile isBlank).head?, isBlank u = false := by
  intro u hu
  have hne : s.dropWhile isBlank ≠ [] := by
    rintro hnil
    rw [hnil] at hu
    exact nomatch hu
  have hnot := List.head_dropWhile_not (p := isBlank) hne
  rw [List.head?_eq_some_head hne] at hu
  rw [← Option.some.inj hu]
  simpa using hnot

theorem dropWhile_eq_self {s : Text} (h : ∀ u ∈ s.head?, isBlank u = false) : s.dropWhile isBlank = s := by
  cases s with
  | nil => rfl
  | cons u s => rw [List.dropWhile_cons, h u rfl, if_neg Bool.false_ne_true]

theorem trim_trim (s : Text) : trim (trim s) = trim s := by
  have hhead : ∀ u ∈ (trim s).head?, isBlank u = false := by
    intro u hu
    -- What is trimmed begins as the text does behind its first blanks.
    obtain ⟨rest, hrest⟩ := List.dropWhile_suffix (l := (s.dropWhile isBlank).reverse) isBlank
    have hprefix : trim s ++ rest.reverse = s.dropWhile isBlank := by
      rw [trim, ← List.reverse_append, hrest, List.reverse_reverse]
    refine head?_dropWhile s u ?_
    rw [← hprefix, List.head?_append, show (trim s).head? = some u from hu]
    rfl
  rw [trim, dropWhile_eq_self hhead, trim, List.reverse_reverse, dropWhile_eq_self (head?_dropWhile _)]

theorem length_trim_le (s : Text) : (trim s).length ≤ s.length := by
  rw [trim, List.length_reverse]
  refine (List.dropWhile_suffix _).length_le.trans ?_
  rw [List.length_reverse]
  exact (List.dropWhile_suffix _).length_le

theorem clean_of_mem_lines {stdout s : Text} (h : s ∈ lines stdout) : Clean s := by
  obtain ⟨hmem, hne⟩ := List.mem_filter.mp h
  obtain ⟨line, -, rfl⟩ := List.mem_map.mp hmem
  exact ⟨of_decide_eq_true hne, trim_trim line⟩

theorem size_cons (s : Text) (ls : List Text) : size (s :: ls) = s.length + 1 + size ls := by
  rw [size, List.map_cons, List.sum_cons]
  rfl

theorem size_intercalate {ls : List Text} (hne : ls ≠ []) :
    ([newline].intercalate ls).length + 1 = size ls := by
  induction ls with
  | nil => exact absurd rfl hne
  | cons s ls ih =>
    cases ls with
    | nil =>
      rw [List.intercalate_singleton]
      rfl
    | cons s' ls =>
      rw [List.intercalate_cons_of_ne_nil (List.cons_ne_nil _ _), size_cons, ← ih (List.cons_ne_nil _ _)]
      simp only [List.length_append, List.length_singleton]
      omega

/-- No line is made longer. -/
theorem size_lines_le (stdout : Text) : size (lines stdout) ≤ stdout.length + 1 := by
  have hsplit : size (stdout.splitOn newline) = stdout.length + 1 := by
    rw [← size_intercalate (List.splitOn_ne_nil _ _), List.intercalate_splitOn]
  have hle : ∀ ls : List Text, size ((ls.map trim).filter (· ≠ [])) ≤ size ls := by
    intro ls
    induction ls with
    | nil => exact Nat.le_refl _
    | cons s ls ih =>
      rw [List.map_cons, List.filter_cons, size_cons]
      split
      · rw [size_cons]
        have := length_trim_le s
        omega
      · omega
  exact (hle _).trans_eq hsplit

theorem size_le_of_sublist {ls ls' : List Text} (h : ls.Sublist ls') : size ls ≤ size ls' := by
  induction h with
  | slnil => exact Nat.le_refl _
  | cons s _ ih =>
    rw [size_cons]
    omega
  | cons_cons s _ ih =>
    rw [size_cons, size_cons]
    omega

theorem lines_append_newline (stdout rest : Text) :
    lines (stdout ++ newline :: rest) = lines stdout ++ lines rest := by
  rw [lines, List.splitOn_append_cons_self, List.map_append, List.filter_append]
  rfl

theorem lines_newlines (stdout : Text) (n : Nat) :
    lines (stdout ++ List.replicate n newline) = lines stdout := by
  have hempty : ∀ n, lines (List.replicate n newline) = [] := by
    intro n
    induction n with
    | zero => rfl
    | succ n ih => exact (lines_append_newline [] _).trans ih
  cases n with
  | zero => rw [List.replicate_zero, List.append_nil]
  | succ n => rw [List.replicate_succ, lines_append_newline, hempty, List.append_nil]

theorem lines_intercalate {ls : List Text} (hline : ∀ s ∈ ls, newline ∉ s) (hclean : ∀ s ∈ ls, Clean s) :
    lines ([newline].intercalate ls) = ls := by
  by_cases hnil : ls = []
  · subst hnil
    rfl
  · rw [lines, List.splitOn_intercalate newline hline hnil]
    have hmap : ls.map trim = ls :=
      (List.map_congr_left fun s hs => (hclean s hs).2).trans (List.map_id' ls)
    rw [hmap]
    exact List.filter_eq_self.mpr fun s hs => decide_eq_true (hclean s hs).1

/-- Clean lines that fit are read as they are. -/
theorem lines_take {ls : List Text} (hline : ∀ s ∈ ls, newline ∉ s) (hclean : ∀ s ∈ ls, Clean s)
    (hfit : Fits ls) (n : Nat) :
    lines (([newline].intercalate ls ++ List.replicate n newline).take MAX_RESULT_BYTES) = ls := by
  have hlength : ([newline].intercalate ls).length ≤ MAX_RESULT_BYTES := by
    by_cases hnil : ls = []
    · subst hnil
      exact Nat.zero_le _
    · have := size_intercalate hnil
      rw [Fits] at hfit
      omega
  rw [List.take_append, List.take_of_length_le hlength, List.take_replicate, lines_newlines,
    lines_intercalate hline hclean]

theorem size_lines_take_le (stdout : Text) :
    size (lines (stdout.take MAX_RESULT_BYTES)) ≤ MAX_RESULT_BYTES + 1 := by
  refine (size_lines_le _).trans (Nat.succ_le_succ ?_)
  rw [List.length_take]
  exact Nat.min_le_left _ _

/-! ## Replies -/

section
variable {db : Database} {value : Text} {key : Line}

/-- One line, which is followed by newlines only. -/
theorem single_iff (hline : newline ∉ value) (n : Nat) :
    (lines ((value ++ List.replicate n newline).take MAX_RESULT_BYTES))[0]? = some value ↔
      Clean value ∧ Fits [value] := by
  constructor
  · intro h
    have hmem := List.mem_of_getElem? h
    refine ⟨clean_of_mem_lines hmem, ?_⟩
    exact (size_le_of_sublist (List.singleton_sublist.mpr hmem)).trans (size_lines_take_le _)
  · rintro ⟨hclean, hfit⟩
    have hlines := @lines_take [value] (by simpa using hline) (by simpa using hclean) hfit n
    rw [List.intercalate_singleton] at hlines
    rw [hlines]
    rfl

theorem raw_bulk (value : Text) : (Reply.bulk value).raw = value ++ List.replicate 1 newline := by
  rw [Reply.raw, Reply.printed, List.intercalate_singleton]
  rfl

theorem raw_error (message : Text) : (Reply.error message).raw = message ++ List.replicate 2 newline := by
  rw [Reply.raw, Reply.printed, List.intercalate_cons_of_ne_nil (List.cons_ne_nil _ _),
    List.intercalate_singleton, List.append_nil, List.append_assoc]
  rfl

theorem lines_raw_error : lines ((Reply.error wrongType).raw.take MAX_RESULT_BYTES) = [wrongType] := by
  have hline : newline ∉ wrongType := by decide
  have hclean : Clean wrongType := by decide
  have hfit : Fits [wrongType] := by
    have hsize : size [wrongType] = 66 := by decide
    rw [Fits, hsize, MAX_RESULT_BYTES]
    decide
  have hlines := @lines_take [wrongType] (by simpa using hline) (by simpa using hclean) hfit 2
  rwa [List.intercalate_singleton, ← raw_error] at hlines

theorem raw_array (elements : List (Option Text)) : ∃ n,
    (Reply.array elements).raw = [newline].intercalate (elements.map (·.getD [])) ++ List.replicate n newline := by
  exact ⟨1, by cases elements <;> rfl⟩

theorem raw_scan (cursor : Text) (keys : List Text) : ∃ n,
    (Reply.scan cursor keys).raw = [newline].intercalate (cursor :: keys) ++ List.replicate n newline := by
  cases keys with
  | nil =>
    refine ⟨2, ?_⟩
    rw [Reply.raw, Reply.printed, List.intercalate_cons_of_ne_nil (List.cons_ne_nil _ _),
      List.intercalate_singleton, List.intercalate_singleton, List.append_nil, List.append_assoc]
    rfl
  | cons key keys => exact ⟨1, rfl⟩

theorem newline_not_mem_typeOf (db : Database) (key : Line) : newline ∉ db.typeOf key := by
  rw [Database.typeOf]
  split
  · decide
  · decide
  · decide
  next type _ => exact type.2

/-- What `readValues` makes of the reply of the command. -/
def outputLines (db : Database) (command : Command) : List Text :=
  lines ((db.reply command).raw.take MAX_RESULT_BYTES)

theorem get_iff (db : Database) (limit : Nat) (key : Line) :
    (outputLines db (.get key))[0]? = db.string? key ↔ Readable db limit (.get key) := by
  rw [outputLines, Database.reply, Database.string?, Readable]
  cases db.store key with
  | none => exact iff_of_true rfl trivial
  | some value =>
    cases value with
    | string value =>
      rw [raw_bulk]
      exact single_iff value.2 1
    | hash | other =>
      rw [lines_raw_error]
      exact iff_of_false nofun fun h => h

theorem bulk_iff (hline : newline ∉ value) :
    (lines ((Reply.bulk value).raw.take MAX_RESULT_BYTES))[0]? = some value ↔ Clean value ∧ Fits [value] := by
  rw [raw_bulk]
  exact single_iff hline 1

theorem newline_not_mem_string? {key : Line} (h : db.string? key = some value) : newline ∉ value := by
  rw [Database.string?] at h
  split at h
  next line _ => exact Option.some.inj h ▸ line.2
  next => exact nomatch h

theorem map_eq_map_filterMap {keys : List Line} (h : ∀ key ∈ keys, ∃ value, db.string? key = some value) :
    keys.map db.string? = (keys.filterMap db.string?).map some := by
  induction keys with
  | nil => rfl
  | cons key keys ih =>
    rw [List.forall_mem_cons] at h
    obtain ⟨⟨value, hvalue⟩, hkeys⟩ := h
    rw [List.map_cons, List.filterMap_cons_some hvalue, List.map_cons, hvalue, ih hkeys]

theorem mget_iff (db : Database) (limit : Nat) (keys : List Line) :
    ((outputLines db (.mget keys)).take keys.length).map some = keys.map db.string? ↔
      Readable db limit (.mget keys) := by
  obtain ⟨n, hraw⟩ := raw_array (keys.map db.string?)
  rw [outputLines, Database.reply, Readable]
  constructor
  · intro h
    have hvalue : ∀ key ∈ keys, ∃ value, db.string? key = some value ∧ Clean value := by
      intro key hkey
      have hmem : db.string? key ∈ keys.map db.string? := List.mem_map_of_mem hkey
      rw [← h] at hmem
      obtain ⟨value, hvalue, heq⟩ := List.mem_map.mp hmem
      exact ⟨value, heq.symm, clean_of_mem_lines (List.mem_of_mem_take hvalue)⟩
    refine ⟨hvalue, ?_⟩
    have hvalues : keys.filterMap db.string? =
        (lines ((Reply.array (keys.map db.string?)).raw.take MAX_RESULT_BYTES)).take keys.length := by
      have heq := congrArg (List.filterMap fun s => s) h
      rw [List.filterMap_map, List.filterMap_map] at heq
      exact heq.symm.trans List.filterMap_some
    rw [hvalues]
    exact (size_le_of_sublist (List.take_sublist _ _)).trans (size_lines_take_le _)
  · rintro ⟨hvalue, hfit⟩
    have hmap := map_eq_map_filterMap fun key hkey => (hvalue key hkey).imp fun _ h => h.1
    have hgetD : (keys.map db.string?).map (·.getD []) = keys.filterMap db.string? := by
      rw [hmap, List.map_map]
      exact List.map_id' _
    have hmem {s : Text} (hs : s ∈ keys.filterMap db.string?) : newline ∉ s ∧ Clean s := by
      obtain ⟨key, hkey, heq⟩ := List.mem_filterMap.mp hs
      obtain ⟨value, hsome, hclean⟩ := hvalue key hkey
      obtain rfl := Option.some.inj (hsome.symm.trans heq)
      exact ⟨newline_not_mem_string? heq, hclean⟩
    have hlength : (keys.filterMap db.string?).length = keys.length := by
      rw [← List.length_map some, ← hmap, List.length_map]
    rw [hraw, hgetD, lines_take (fun s hs => (hmem hs).1) (fun s hs => (hmem hs).2) hfit, ← hlength,
      List.take_length, hmap]

/-! ## Hashes -/

theorem pairs_flatMap (fields : List (Text × Text)) :
    pairs (fields.flatMap fun p => [p.1, p.2]) = fields := by
  induction fields with
  | nil => rfl
  | cons p fields ih => exact congrArg (p :: ·) ih

theorem mem_of_mem_pairs {ls : List Text} {p : Text × Text} (h : p ∈ pairs ls) : p.1 ∈ ls ∧ p.2 ∈ ls := by
  fun_induction pairs ls with
  | case1 field value ls ih =>
    rcases List.mem_cons.mp h with rfl | h
    · exact ⟨.head _, .tail _ (.head _)⟩
    · exact ⟨.tail _ (.tail _ (ih h).1), .tail _ (.tail _ (ih h).2)⟩
  | case2 => exact nomatch h

theorem flatMap_pairs_sublist (ls : List Text) : ((pairs ls).flatMap fun p => [p.1, p.2]).Sublist ls := by
  fun_induction pairs ls with
  | case1 field value ls ih => exact (ih.cons_cons value).cons_cons field
  | case2 => exact List.nil_sublist _

theorem size_flatMap (fields : List (Text × Text)) : size (fields.flatMap fun p => [p.1, p.2]) =
    (fields.map fun p => p.1.length + 1 + (p.2.length + 1)).sum := by
  induction fields with
  | nil => rfl
  | cons p fields ih =>
    rw [List.flatMap_cons, List.cons_append, List.cons_append, List.nil_append, size_cons, size_cons, ih,
      List.map_cons, List.sum_cons]
    omega

theorem size_flatMap_le {fields entries : List (Text × Text)} (hnodup : fields.Nodup) (h : fields ⊆ entries) :
    size (fields.flatMap fun p => [p.1, p.2]) ≤ size (entries.flatMap fun p => [p.1, p.2]) := by
  obtain ⟨between, hperm, hsub⟩ := hnodup.subperm h
  rw [size_flatMap, ← (hperm.map _).sum_nat, ← size_flatMap]
  exact size_le_of_sublist (hsub.flatMap _)

theorem fields_nodup (db : Database) (key : Line) : ((db.fields key).map Prod.fst).Nodup := by
  rw [Database.fields]
  split
  next fields hnodup _ =>
    rw [List.map_map]
    have hmap : fields.map (Prod.fst ∘ fun p => (p.1.1, p.2.1)) =
        (fields.map Prod.fst).map Subtype.val := by rw [List.map_map]; rfl
    rw [hmap]
    exact hnodup.map Subtype.val_injective
  next => exact List.nodup_nil

theorem newline_not_mem_fields {p : Text × Text} (h : p ∈ db.fields key) : newline ∉ p.1 ∧ newline ∉ p.2 := by
  rw [Database.fields] at h
  split at h
  · obtain ⟨p, -, rfl⟩ := List.mem_map.mp h
    exact ⟨p.1.2, p.2.2⟩
  · exact nomatch h

/-- The fields and the values, or an error if the key has a value of another type. -/
theorem reply_hgetall (db : Database) (key : Line) :
    (∃ n, (db.reply (.hgetall key)).raw =
      [newline].intercalate ((db.fields key).flatMap fun p => [p.1, p.2]) ++ List.replicate n newline) ∨
    db.reply (.hgetall key) = .error wrongType ∧ db.fields key = [] := by
  have harray : ∃ n, (Reply.array ((db.fields key).flatMap fun p => [some p.1, some p.2])).raw =
      [newline].intercalate ((db.fields key).flatMap fun p => [p.1, p.2]) ++ List.replicate n newline := by
    obtain ⟨n, hraw⟩ := raw_array ((db.fields key).flatMap fun p => [some p.1, some p.2])
    rw [List.map_flatMap] at hraw
    exact ⟨n, hraw⟩
  rw [Database.reply]
  cases hstore : db.store key with
  | none => exact .inl harray
  | some value =>
    cases value with
    | hash => exact .inl harray
    | string | other => exact .inr ⟨rfl, by rw [Database.fields, hstore]⟩

theorem hgetall_iff (db : Database) (limit : Nat) (key : Line) :
    fromEntries (pairs (outputLines db (.hgetall key))) = fromEntries (db.fields key) ↔
      Readable db limit (.hgetall key) := by
  have hnodup := fields_nodup db key
  rw [outputLines, Readable]
  constructor
  · intro h
    have hsub : db.fields key ⊆ pairs (lines ((db.reply (.hgetall key)).raw.take MAX_RESULT_BYTES)) := by
      intro p hp
      have hsome := fromEntries_of_nodup hnodup hp
      rw [← h] at hsome
      exact mem_of_fromEntries hsome
    refine ⟨fun p hp => ?_, ?_⟩
    · obtain ⟨hfield, hvalue⟩ := mem_of_mem_pairs (hsub hp)
      exact ⟨clean_of_mem_lines hfield, clean_of_mem_lines hvalue⟩
    · refine (size_flatMap_le (List.Nodup.of_map _ hnodup) hsub).trans ?_
      exact (size_le_of_sublist (flatMap_pairs_sublist _)).trans (size_lines_take_le _)
  · rintro ⟨hclean, hfit⟩
    rcases reply_hgetall db key with ⟨n, hraw⟩ | ⟨hreply, hnone⟩
    · have hmem {s : Text} (hs : s ∈ (db.fields key).flatMap fun p => [p.1, p.2]) : newline ∉ s ∧ Clean s := by
        obtain ⟨p, hp, hs⟩ := List.mem_flatMap.mp hs
        rcases List.mem_cons.mp hs with rfl | hs
        · exact ⟨(newline_not_mem_fields hp).1, (hclean p hp).1⟩
        · rw [List.mem_singleton.mp hs]
          exact ⟨(newline_not_mem_fields hp).2, (hclean p hp).2⟩
      rw [hraw, lines_take (fun s hs => (hmem hs).1) (fun s hs => (hmem hs).2) hfit, pairs_flatMap]
    · rw [hreply, hnone, lines_raw_error]
      rfl

/-! ## Scans -/

theorem scan_iff (db : Database) (limit : Nat) (pattern : Text) (count : Nat) :
    (((outputLines db (.scan pattern count))[0]?).getD (text "0") = (db.scan pattern count).1 ∧
      ((outputLines db (.scan pattern count)).drop 1).take limit = (db.scan pattern count).2.map (·.1)) ↔
      Readable db limit (.scan pattern count) := by
  rw [outputLines, Database.reply, Readable]
  generalize db.scan pattern count = reply
  obtain ⟨cursor, keys⟩ := reply
  obtain ⟨n, hraw⟩ := raw_scan cursor.1 (keys.map (·.1))
  have hline : ∀ s ∈ cursor.1 :: keys.map (·.1), newline ∉ s := by
    refine List.forall_mem_cons.mpr ⟨cursor.2, fun s hs => ?_⟩
    obtain ⟨key, -, rfl⟩ := List.mem_map.mp hs
    exact key.2
  constructor
  · rintro ⟨hcursor, hkeys⟩
    have hsize := size_lines_take_le (Reply.scan cursor.1 (keys.map (·.1))).raw
    cases hlines : lines ((Reply.scan cursor.1 (keys.map (·.1))).raw.take MAX_RESULT_BYTES) with
    | nil =>
      -- Then the cursor is 0, which is a line.
      rw [hlines] at hcursor hkeys
      have hnil : keys.map (·.1) = [] := hkeys.symm.trans (by rw [List.drop_nil, List.take_nil])
      have hzero : cursor.1 = text "0" := hcursor.symm
      have hclean : Clean (text "0") := by decide
      have hfit : Fits [text "0"] := by
        have htwo : size [text "0"] = 2 := by decide
        rw [Fits, htwo, MAX_RESULT_BYTES]
        decide
      have hread := @lines_take [text "0"] (by decide) (by simpa using hclean) hfit n
      rw [hraw, hnil, hzero, hread] at hlines
      exact nomatch hlines
    | cons first rest =>
      have hmem {s : Text} (hs : s ∈ first :: rest) : Clean s := by
        rw [← hlines] at hs
        exact clean_of_mem_lines hs
      rw [hlines] at hcursor hkeys hsize
      have hfirst : cursor.1 = first := hcursor.symm
      have htake : keys.map (·.1) = rest.take limit := hkeys.symm
      refine ⟨List.forall_mem_cons.mpr ⟨hfirst ▸ hmem (.head _), fun key hkey => ?_⟩, ?_, ?_⟩
      · have hkey : key.1 ∈ keys.map (·.1) := List.mem_map_of_mem hkey
        rw [htake] at hkey
        exact hmem (.tail _ (List.mem_of_mem_take hkey))
      · rw [← List.length_map (·.1), htake, List.length_take]
        exact Nat.min_le_left _ _
      · refine (size_le_of_sublist ?_).trans hsize
        rw [List.map_cons, hfirst, htake]
        exact (List.take_sublist _ _).cons_cons _
  · rintro ⟨hclean, hlimit, hfit⟩
    rw [List.forall_mem_cons] at hclean
    have hclean : ∀ s ∈ cursor.1 :: keys.map (·.1), Clean s := by
      refine List.forall_mem_cons.mpr ⟨hclean.1, fun s hs => ?_⟩
      obtain ⟨key, hkey, rfl⟩ := List.mem_map.mp hs
      exact hclean.2 key hkey
    rw [hraw, lines_take hline hclean hfit]
    refine ⟨rfl, List.take_of_length_le ?_⟩
    rwa [List.drop_succ_cons, List.drop_zero, List.length_map]

/-! ## The read -/

theorem readRedisDataSource_eq {cli : RedisCli} (hserves : Serves db cli) {input : Input} {command : Command}
    (hcommand : input.commandArgs = some command) : ∃ result,
    readRedisDataSource cli input = .ok result ∧
      result.values = readValues input (outputLines db command) := by
  rw [readRedisDataSource, hcommand]
  dsimp only
  rw [hserves command]
  exact ⟨_, rfl, rfl⟩

/-- The values are those of the operation of the command. -/
theorem faithful_iff {input : Input} {command : Command} (hcommand : input.commandArgs = some command) :
    Faithful db command (readValues input (outputLines db command)) ↔
      Readable db input.itemLimit command := by
  rw [Input.commandArgs] at hcommand
  rw [readValues]
  split at hcommand
  case h_6 hoperation =>
    obtain rfl := Option.some.inj hcommand
    rw [hoperation]
    exact scan_iff db _ _ _
  case h_7 => exact nomatch hcommand
  all_goals
    rename_i hoperation
    rw [Option.ite_none_left_eq_some] at hcommand
    obtain ⟨-, hcommand⟩ := hcommand
    obtain rfl := Option.some.inj hcommand
    rw [hoperation]
  · exact get_iff db _ _
  · exact mget_iff db _ _
  · exact bulk_iff (newline_not_mem_typeOf db _)
  · exact bulk_iff (db.ttl _).2
  · exact hgetall_iff db _ _

/-- What is read is what is stored exactly if no element is empty or has blanks at an end, and all is
within the limits; a `GET` moreover needs a string, if the key has a value. -/
theorem readRedisDataSource_iff {cli : RedisCli} (hserves : Serves db cli) {input : Input}
    {command : Command} (hcommand : input.commandArgs = some command) :
    (∃ result, readRedisDataSource cli input = .ok result ∧ Faithful db command result.values) ↔
      Readable db input.itemLimit command := by
  obtain ⟨result, hresult, hvalues⟩ := readRedisDataSource_eq hserves hcommand
  rw [← faithful_iff hcommand, ← hvalues]
  constructor
  · rintro ⟨result', hresult', hfaithful⟩
    obtain rfl := Except.ok.inj (hresult.symm.trans hresult')
    exact hfaithful
  · exact fun hfaithful => ⟨result, hresult, hfaithful⟩

end

def line (s : String) (h : newline ∉ text s) : Line := ⟨text s, h⟩

/-- A hash that has a field with the value given. -/
def sampleDatabase (value : Line) : Database where
  store _ := some (.hash [(line "a" (by decide), value), (line "b" (by decide), line "1" (by decide))]
    (by simp [line]; decide))
  ttl _ := line "-1" (by decide)
  scan _ _ := (line "0" (by decide), [])

def sampleCli (db : Database) : RedisCli := fun command => .ok (some ⟨0, (db.reply command).raw, []⟩)

def sampleInput : Input where
  operation := .hgetall
  key := line "h" (by decide)
  keys := []
  pattern := none
  limit := none
  count := none

theorem readRedisDataSource_sample : ∃ result,
    readRedisDataSource (sampleCli (sampleDatabase (line "x" (by decide)))) sampleInput = .ok result ∧
      Faithful (sampleDatabase (line "x" (by decide))) (.hgetall sampleInput.key) result.values := by
  refine (readRedisDataSource_iff (fun _ => rfl) rfl).mpr ⟨by decide, ?_⟩
  rw [Fits, MAX_RESULT_BYTES]
  decide

/-- The empty value is dropped, and the field `b` is taken for it. -/
theorem not_forall_faithful : ¬∀ db cli, Serves db cli → ∀ input command,
    input.commandArgs = some command →
    ∃ result, readRedisDataSource cli input = .ok result ∧ Faithful db command result.values := by
  intro h
  let db := sampleDatabase (line "" (by decide))
  obtain ⟨result, hresult, hfaithful⟩ := h db (sampleCli db) (fun _ => rfl) sampleInput _ rfl
  have hok : (readRedisDataSource (sampleCli db) sampleInput).toOption.map (·.values) =
      some (.record [(text "a", text "b")]) := by decide
  rw [hresult] at hok
  have hvalues : result.values = .record [(text "a", text "b")] := Option.some.inj hok
  rw [hvalues] at hfaithful
  have hempty := congrFun hfaithful (text "a")
  exact absurd hempty (by decide)

end OpenLander.DataInspector.Redis
