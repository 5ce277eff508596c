import RowAccess.Sql.Command
import RowAccess.Sql.Meaning

/-
  RowAccess/Sql/Refusal.lean
  ==========================
  **Why a statement is refused**, and the words for it.
-/

namespace RowAccess.Sql

inductive Refusal where
  | nullCharacter
  | malformed (near : String)
  | incomplete
  | unrecognized (token : String)
  | tooDeep
  | noTable (name : String)
  | noColumn (name : String)
  | noFunction (name : String)
  | noCollation (name : String)
  | argumentCount (function : String)
  | misused (aggregate : String)
  | lacksColumn (table column : String)
  | valueCount (values columns : Nat)
  | tableless
  | misusedRow
  | misusedRaise
  | lonelyGroupTest
  | lonelyOrder (command : String)
  | misplaced (clause : String) (k : Combination)
  | unequalWidths (k : Combination)
  | placeRange (term columns : Nat)
  | unmatchedTerm (term : Nat)
  | rowWidths
  | width (columns : Nat)
  | severalStatements
  | bindings (used supplied : Nat)
  | unsupported (position : Nat) (kind : String)
  | tooLarge
  | unevaluated (cause : Unevaluated)
  | takenId
  | noId
  deriving DecidableEq, Repr

/-- A number of columns in words. -/
def columnsText (n : Nat) : String :=
  Text.decimal n ++ " column" ++ if n = 1 then "" else "s"

/-- A number as a place in an order. -/
def placeText (n : Nat) : String :=
  let ending :=
    if n % 100 / 10 = 1 then "th"
    else match n % 10 with
      | 1 => "st"
      | 2 => "nd"
      | 3 => "rd"
      | _ => "th"
  Text.decimal n ++ ending

def Combination.text : Combination → String
  | .union => "UNION"
  | .unionAll => "UNION ALL"
  | .except => "EXCEPT"
  | .intersect => "INTERSECT"

namespace Refusal

def message : Refusal → String
  | .nullCharacter => "(sqlite3.ProgrammingError) the query contains a null character"
  | .malformed near => "(sqlite3.OperationalError) near \"" ++ near ++ "\": syntax error"
  | .incomplete => "(sqlite3.OperationalError) incomplete input"
  | .unrecognized token => "(sqlite3.OperationalError) unrecognized token: \"" ++ token ++ "\""
  | .tooDeep => "(sqlite3.OperationalError) Expression tree is too large (maximum depth 1000)"
  | .noTable name => "(sqlite3.OperationalError) no such table: " ++ name
  | .noColumn name => "(sqlite3.OperationalError) no such column: " ++ name
  | .noFunction name => "(sqlite3.OperationalError) no such function: " ++ name
  | .noCollation name => "(sqlite3.OperationalError) no such collation sequence: " ++ name
  | .argumentCount name =>
    "(sqlite3.OperationalError) wrong number of arguments to function " ++ name ++ "()"
  | .misused name => "(sqlite3.OperationalError) misuse of aggregate function " ++ name ++ "()"
  | .lacksColumn table column =>
    "(sqlite3.OperationalError) table " ++ table ++ " has no column named " ++ column
  | .valueCount values columns =>
    "(sqlite3.OperationalError) " ++ Text.decimal values ++ " values for " ++
      Text.decimal columns ++ " columns"
  | .tableless => "(sqlite3.OperationalError) no tables specified"
  | .misusedRow => "(sqlite3.OperationalError) row value misused"
  | .misusedRaise => "(sqlite3.OperationalError) RAISE() may only be used within a trigger-program"
  | .lonelyGroupTest => "(sqlite3.OperationalError) HAVING clause on a non-aggregate query"
  | .lonelyOrder command => "(sqlite3.OperationalError) ORDER BY without LIMIT on " ++ command
  | .misplaced clause k =>
    "(sqlite3.OperationalError) " ++ clause ++ " clause should come after " ++ k.text ++
      " not before"
  | .unequalWidths k =>
    "(sqlite3.OperationalError) SELECTs to the left and right of " ++ k.text ++
      " do not have the same number of result columns"
  | .placeRange term columns =>
    "(sqlite3.OperationalError) " ++ placeText term ++
      " ORDER BY term out of range - should be between 1 and " ++ Text.decimal columns
  | .unmatchedTerm term =>
    "(sqlite3.OperationalError) " ++ placeText term ++
      " ORDER BY term does not match any column in the result set"
  | .rowWidths => "(sqlite3.OperationalError) all VALUES must have the same number of terms"
  | .width columns =>
    "(sqlite3.OperationalError) sub-select returns " ++ columnsText columns ++ " - expected 1"
  | .severalStatements => "You can only execute one statement at a time."
  | .bindings used supplied =>
    "(sqlite3.ProgrammingError) Incorrect number of bindings supplied. The current statement uses " ++
      Text.decimal used ++ ", and there are " ++ Text.decimal supplied ++ " supplied."
  | .unsupported position kind =>
    "(sqlite3.ProgrammingError) Error binding parameter " ++ Text.decimal position ++ ": type '" ++
      kind ++ "' is not supported"
  | .tooLarge => ""
  | .unevaluated cause => "(sqlite3.OperationalError) " ++ cause.text
  | .takenId => "(sqlite3.IntegrityError) UNIQUE constraint failed: ITEMS.ID"
  | .noId => "(sqlite3.IntegrityError) datatype mismatch"

end Refusal

end RowAccess.Sql
