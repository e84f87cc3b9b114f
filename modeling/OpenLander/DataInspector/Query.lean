import OpenLander.Compose.Interpolate
import OpenLander.Theory.SqlLex

/-! # Queries of the data inspector

`normalizePostgresQuery` (`src/data-inspector/index.ts`) accepts a query by its words, and
`readDataSource` puts what it accepts between the parentheses of a sub-select that limits the rows.
`keepsWrapper_iff` says for which queries PostgreSQL reads that sub-select as it is meant. -/

namespace OpenLander.DataInspector
open Theory.Sql
open Pipeline (isWhitespace)
open Compose (trim)

/-! ## The regular expressions -/

def isWordChar (c : Char) : Bool := c.isAlphanum || c = '_'

/-- The text begins with the word, whatever the case of its letters. -/
def startsWith (word text : List Char) : Bool := (text.take word.length).map Char.toLower = word

/-- The text begins with one of the words, which ends there. -/
def startsWithWord (words : List (List Char)) (text : List Char) : Bool :=
  words.any fun word => startsWith word text && !(text.drop word.length).head?.any isWordChar

/-- The pattern, which begins with a letter, matches at the start of a word. -/
def matchesAtWord (pattern : List Char → Bool) : (behindWordChar : Bool) → List Char → Bool
  | _, [] => false
  | behindWordChar, c :: text =>
    !behindWordChar && pattern (c :: text) || matchesAtWord pattern (isWordChar c) text

def isLineTerminator (c : Char) : Bool :=
  c = '\n' || c = '\r' || c = '\u2028' || c = '\u2029'

/-- `/^\s*\\/m` -/
def hasMetaCommand : (atLineStart : Bool) → List Char → Bool
  | _, [] => false
  | atLineStart, c :: text =>
    atLineStart && ((c :: text).dropWhile isWhitespace).head? = some '\\' ||
      hasMetaCommand (isLineTerminator c) text

def POSTGRES_FORBIDDEN_SQL : List (List Char) :=
  ["insert", "update", "delete", "copy", "create", "alter", "drop", "truncate", "grant", "revoke", "do",
    "call", "merge", "refresh", "vacuum", "analyze", "listen", "notify", "set", "reset"].map
    String.toList

/-- `/\bset_config\s*\(/i` -/
def POSTGRES_FORBIDDEN_FUNCTIONS (text : List Char) : Bool :=
  startsWith "set_config".toList text &&
    ((text.drop "set_config".length).dropWhile isWhitespace).head? = some '('

/-! ## Normalization -/

def withoutTerminalSemicolon (query : List Char) : List Char :=
  let trimmed := trim query
  if trimmed.getLast? = some ';' then trim trimmed.dropLast else trimmed

def normalizePostgresQuery (query : List Char) : Except String (List Char) :=
  if trim query = [] then .error "query is required."
  else if hasMetaCommand true (trim query) then .error "psql meta-commands are not allowed."
  else if ';' ∈ withoutTerminalSemicolon query then
    .error "Only a single SQL statement is allowed."
  else if !startsWithWord ["select".toList, "with".toList] (withoutTerminalSemicolon query) then
    .error "Only SELECT or read-only WITH queries are allowed."
  else if matchesAtWord (startsWithWord POSTGRES_FORBIDDEN_SQL) false
      (withoutTerminalSemicolon query) then
    .error "Query contains a blocked SQL keyword."
  else if matchesAtWord POSTGRES_FORBIDDEN_FUNCTIONS false (withoutTerminalSemicolon query) then
    .error "Query contains a blocked SQL function."
  else .ok (withoutTerminalSemicolon query)

def POSTGRES_MAX_ROWS : Nat := 100

def POSTGRES_DEFAULT_ROWS : Nat := 50

/-- Nothing stands for what is not an integer. -/
def clampLimit (value : Option Int) (defaultValue maxValue : Nat) : Nat :=
  match value with
  | some value => if value ≤ 0 then defaultValue else min value.toNat maxValue
  | none => defaultValue

/-! ## The wrapper -/

/-- The text of the wrapper before the parenthesis that opens the query. -/
def wrapperHead : List Char :=
  ("SELECT COALESCE(json_agg(row_to_json(__ol_row)), '[]'::json)::text FROM " ++
    "(SELECT * FROM ").toList

/-- The text of the wrapper behind the parenthesis that closes the query. -/
def wrapperTail (limit : Nat) : List Char :=
  (" AS __ol_user_query LIMIT " ++ toString (limit + 1) ++ ") AS __ol_row").toList

def wrappedSql (sql : List Char) (limit : Nat) : List Char :=
  wrapperHead ++ '(' :: sql ++ ')' :: wrapperTail limit

/-- PostgreSQL reads the wrapper around the query as it is meant, for every limit asked for. -/
def KeepsWrapper (sql : List Char) : Prop :=
  ∀ value, Encloses wrapperHead sql
    (wrapperTail (clampLimit value POSTGRES_DEFAULT_ROWS POSTGRES_MAX_ROWS))

theorem normalizePostgresQuery_eq_ok (h : normalizePostgresQuery query = .ok sql) :
    sql = withoutTerminalSemicolon query := by
  unfold normalizePostgresQuery at h
  repeat' split at h
  all_goals cases h
  rfl

theorem wrapperHead_isCode : (modeAfter .code wrapperHead).isCode := by decide +kernel

/-- A query that is accepted keeps the wrapper exactly if it is `selfContained`. -/
theorem keepsWrapper_iff (h : normalizePostgresQuery query = .ok sql) :
    KeepsWrapper sql ↔ selfContained (withoutTerminalSemicolon query) := by
  rw [← normalizePostgresQuery_eq_ok h]
  constructor
  · intro hkeeps
    exact (encloses_iff wrapperHead_isCode).mp (hkeeps none)
  · intro hsql value
    exact (encloses_iff wrapperHead_isCode).mpr hsql

theorem keepsWrapper_select :
    normalizePostgresQuery " SELECT count(*) FROM users; ".toList =
        .ok "SELECT count(*) FROM users".toList ∧
      KeepsWrapper "SELECT count(*) FROM users".toList := by
  have haccepted : normalizePostgresQuery " SELECT count(*) FROM users; ".toList =
      .ok "SELECT count(*) FROM users".toList := by decide +kernel
  exact ⟨haccepted, (keepsWrapper_iff haccepted).mpr (by decide +kernel)⟩

/-- It closes both parentheses of the wrapper, and makes the rest with the limit a comment. -/
def unlimited : List Char := "SELECT * FROM users) AS a) AS __ol_row --".toList

theorem not_keepsWrapper :
    ¬∀ query sql, normalizePostgresQuery query = .ok sql → KeepsWrapper sql := by
  intro h
  have haccepted : normalizePostgresQuery unlimited = .ok unlimited := by decide +kernel
  have hcloses := (h unlimited unlimited haccepted none).closes
  exact absurd hcloses (by decide +kernel)

end OpenLander.DataInspector
