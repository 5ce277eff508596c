import RowAccess.Text.Case

/-
  RowAccess/Sql/Identifier.lean
  =============================
  **Names in a statement.**  A name of small letters, digits, underscores and dollar signs that is
  no word of the language is written as it is; any other name is put into double quotes, a quote
  inside written twice.  Names are looked up without regard to the case of ASCII letters.
-/

namespace RowAccess.Sql

/-- The words that may not stand for a name. -/
def reservedWords : List String :=
  ["add", "after", "all", "alter", "analyze", "and", "as", "asc", "attach", "autoincrement",
    "before", "begin", "between", "by", "cascade", "case", "cast", "check", "collate", "column",
    "commit", "conflict", "constraint", "create", "cross", "current_date", "current_time",
    "current_timestamp", "database", "default", "deferrable", "deferred", "delete", "desc",
    "detach", "distinct", "drop", "each", "else", "end", "escape", "except", "exclusive",
    "exists", "explain", "false", "fail", "for", "foreign", "from", "full", "glob", "group",
    "having", "if", "ignore", "immediate", "in", "index", "indexed", "initially", "inner",
    "insert", "instead", "intersect", "into", "is", "isnull", "join", "key", "left", "like",
    "limit", "match", "natural", "not", "notnull", "null", "of", "offset", "on", "or", "order",
    "outer", "plan", "pragma", "primary", "query", "raise", "references", "reindex", "rename",
    "replace", "restrict", "right", "rollback", "row", "select", "set", "table", "temp",
    "temporary", "then", "to", "transaction", "trigger", "true", "union", "unique", "update",
    "using", "vacuum", "values", "view", "virtual", "when", "where"]

namespace Identifier

/-- Characters of a name that needs no quotes: the dotless i and the long s count as letters. -/
def isPlainChar (c : Char) : Bool :=
  c.isLower || c.isDigit || c == '_' || c == '$' || c.toNat == 0x131 || c.toNat == 0x17F

/-- The characters of a name up to a line feed at its end. -/
def body (name : String) : List Char :=
  match name.toList.reverse with
  | '\n' :: r => r.reverse
  | _ => name.toList

/-- May the name stand without quotes? -/
def isPlain (name : String) : Bool :=
  match body name with
  | [] => false
  | c :: r =>
    !c.isDigit && c != '$' && (c :: r).all isPlainChar && !reservedWords.contains name

def quoted (name : String) : String :=
  "\"" ++ String.ofList (name.toList.flatMap fun c => if c = '"' then ['"', '"'] else [c]) ++ "\""

/-- A name as a statement holds it. -/
def text (name : String) : String :=
  if isPlain name then name else quoted name

/-- The name that a reader of the statement finds. -/
def found (name : String) : String :=
  if isPlain name then String.ofList (body name) else name

/-- Are two names the same but for the case of ASCII letters? -/
def same (a b : String) : Bool :=
  a.toList.map Char.toLower == b.toList.map Char.toLower

end Identifier

end RowAccess.Sql
