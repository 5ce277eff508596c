import RowAccess.Operation.Compile
import RowAccess.Query.Bracket
import RowAccess.Query.Validation

/-
  RowAccess/Query/Client.lean
  ===========================
  **From a client's query to a plan**: read it in whichever form it came, check it, compile it.  The
  first stage that fails gives the failure.
-/

namespace RowAccess

def planOfRecord (table : Value) (schema : Option TableSchema) (c : Config) (query : Fields) :
    Except Fault (Reply Plan) := do
  match ← (validate (.object query)).1 with
  | .error failure => return .error failure
  | .ok q => q.plan table schema c

def planOfClient (table : Value) (schema : Option TableSchema) (c : Config) (query : Value) :
    Except Fault (Reply Plan) := do
  match ← capture (clientQuery query) with
  | .error failure => return .error failure
  | .ok fields => planOfRecord table schema c fields

end RowAccess
