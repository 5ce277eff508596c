import RowAccess.Fault
import RowAccess.Text.Case

/-
  RowAccess/Dialect.lean
  ======================
  **The two SQL dialects and all that differs between them**: the names of native types, the texts
  that ask the engine about its tables, and the way dates are written.
-/

namespace RowAccess

/-- A part of the way a date is written. -/
inductive LiteralPart where
  | year
  | month
  | monthName
  | day
  | hour
  | minute
  | second
  | text (s : String)
  deriving DecidableEq, Repr

/-- The name of a part that is filled in, between braces; a fixed text as it is. -/
def LiteralPart.template : LiteralPart → String
  | .year => "\x7bYYYY\x7d"
  | .month => "\x7bMM\x7d"
  | .monthName => "\x7bMON\x7d"
  | .day => "\x7bDD\x7d"
  | .hour => "\x7bHH\x7d"
  | .minute => "\x7bMI\x7d"
  | .second => "\x7bSS\x7d"
  | .text s => s

/-- The way a date is written, as one text. -/
def templateText (parts : List LiteralPart) : String :=
  String.join (parts.map LiteralPart.template)

/-- An expression around a literal. -/
structure Wrapping where
  before : String
  after : String
  deriving DecidableEq, Repr

def Wrapping.template (w : Wrapping) : String :=
  w.before ++ "\x7bliteral\x7d" ++ w.after

structure Dialect where
  name : String
  numberTypes : List String
  bufferTypes : List String
  timestampTypes : List String
  booleanNativeType : String
  columnsQuery : String
  primaryKeyQuery : String
  tablesQuery : String
  viewsQuery : Option String
  timestampLiteral : List LiteralPart
  dateLiteral : List LiteralPart
  rawTimestamp : Option Wrapping
  rawDate : Option Wrapping
  deriving DecidableEq, Repr

namespace Dialect

/-- A query text of several indented lines. -/
def block (lines : List String) : String :=
  "\n" ++ String.join (lines.map fun l => "        " ++ l ++ "\n") ++ "    "

/-- Hour, minute and second after a space. -/
def clockParts : List LiteralPart :=
  [.text " ", .hour, .text ":", .minute, .text ":", .second]

def oracle : Dialect where
  name := "oracle"
  numberTypes :=
    ["BINARY_DOUBLE", "BINARY_FLOAT", "DECIMAL", "FLOAT", "INTEGER", "NUMBER", "SMALLINT"]
  bufferTypes := ["BFILE", "BLOB", "LONG RAW", "RAW"]
  timestampTypes :=
    ["DATE", "TIMESTAMP", "TIMESTAMP WITH LOCAL TIME ZONE", "TIMESTAMP WITH TIME ZONE"]
  booleanNativeType := "CHAR"
  columnsQuery := block
    ["SELECT COLUMN_NAME AS COLUMN_NAME, DATA_TYPE AS DATA_TYPE, DATA_LENGTH AS DATA_LENGTH",
      "FROM ALL_TAB_COLUMNS", "WHERE OWNER = :schema_name AND TABLE_NAME = :table_name",
      "ORDER BY COLUMN_ID"]
  primaryKeyQuery := block
    ["SELECT COLS.COLUMN_NAME AS COLUMN_NAME", "FROM ALL_CONSTRAINTS CONS",
      "INNER JOIN ALL_CONS_COLUMNS COLS",
      "    ON CONS.CONSTRAINT_NAME = COLS.CONSTRAINT_NAME AND CONS.OWNER = COLS.OWNER",
      "WHERE CONS.CONSTRAINT_TYPE = 'P'", "    AND CONS.OWNER = :schema_name",
      "    AND COLS.TABLE_NAME = :table_name", "ORDER BY COLS.POSITION"]
  tablesQuery := block
    ["SELECT TABLE_NAME AS TABLE_NAME", "FROM ALL_TABLES", "WHERE OWNER = :schema_name"]
  viewsQuery := some (block
    ["SELECT VIEW_NAME AS TABLE_NAME", "FROM ALL_VIEWS", "WHERE OWNER = :schema_name"])
  timestampLiteral := [.day, .text "-", .monthName, .text "-", .year] ++ clockParts
  dateLiteral := [.day, .text "-", .monthName, .text "-", .year]
  rawTimestamp := some ⟨"TO_DATE('", "', 'DD-MON-YYYY HH24:MI:SS')"⟩
  rawDate := some ⟨"TO_DATE('", "', 'DD-MON-YYYY')"⟩

def mysql : Dialect where
  name := "mysql"
  numberTypes :=
    ["BIGINT", "DECIMAL", "DOUBLE", "FLOAT", "INT", "INTEGER", "MEDIUMINT", "NUMERIC", "REAL",
      "SMALLINT", "TINYINT"]
  bufferTypes := ["BINARY", "BLOB", "LONGBLOB", "MEDIUMBLOB", "TINYBLOB", "VARBINARY"]
  timestampTypes := ["DATE", "DATETIME", "TIMESTAMP"]
  booleanNativeType := "CHAR"
  columnsQuery := block
    ["SELECT COLUMN_NAME AS COLUMN_NAME, DATA_TYPE AS DATA_TYPE,",
      "    CHARACTER_MAXIMUM_LENGTH AS DATA_LENGTH", "FROM INFORMATION_SCHEMA.COLUMNS",
      "WHERE TABLE_SCHEMA = :schema_name AND TABLE_NAME = :table_name",
      "ORDER BY ORDINAL_POSITION"]
  primaryKeyQuery := block
    ["SELECT COLUMN_NAME AS COLUMN_NAME", "FROM INFORMATION_SCHEMA.KEY_COLUMN_USAGE",
      "WHERE CONSTRAINT_NAME = 'PRIMARY'", "    AND TABLE_SCHEMA = :schema_name",
      "    AND TABLE_NAME = :table_name", "ORDER BY ORDINAL_POSITION"]
  tablesQuery := block
    ["SELECT TABLE_NAME AS TABLE_NAME", "FROM INFORMATION_SCHEMA.TABLES",
      "WHERE TABLE_SCHEMA = :schema_name AND TABLE_TYPE = 'BASE TABLE'"]
  viewsQuery := none
  timestampLiteral := [.year, .text "-", .month, .text "-", .day] ++ clockParts
  dateLiteral := [.year, .text "-", .month, .text "-", .day]
  rawTimestamp := none
  rawDate := none

/-- The dialect of a name, whatever its case and the blanks around it. -/
def named (name : String) : Except Fault Dialect :=
  let plain := Text.lower (Text.strip name)
  if plain = oracle.name then .ok oracle
  else if plain = mysql.name then .ok mysql
  else .error (.badArgument (.dialect name))

/-- What a text of the dialect asks for: columns, the primary key, tables or views. -/
def queryName? (d : Dialect) (text : String) : Option String :=
  if text = d.columnsQuery then some "columns"
  else if text = d.primaryKeyQuery then some "primary_key"
  else if text = d.tablesQuery then some "tables"
  else if some text = d.viewsQuery then some "views"
  else none

end Dialect

/-- Removes every shortest bracketed part that stays within a line. -/
def dropBracketed : Nat → List Char → List Char
  | 0, cs => cs
  | _ + 1, [] => []
  | fuel + 1, c :: r =>
    if c = '(' then
      let inside := r.takeWhile fun d => d ≠ ')' && d ≠ '\n'
      match r.drop inside.length with
      | ')' :: rest => dropBracketed fuel rest
      | _ => c :: dropBracketed fuel r
    else c :: dropBracketed fuel r

/-- The name of a native type in capitals, without its precision or length. -/
def nativeTypeName (s : String) : String :=
  let cs := s.toList
  Text.upper (Text.strip (String.ofList (dropBracketed cs.length cs)))

end RowAccess
