import RowAccess.Json.Writer
import RowAccess.Query.Bracket

/-
  RowAccess/Query/Bracket/Printer.lean
  ====================================
  **Writing query strings.**  Every text inside nested objects and lists is one parameter, named by
  its path.  The entries of a query's value lists stand between commas in one parameter; inside a
  filter every entry has an index of its own.  A filter can also be written as JSON text.
-/

namespace RowAccess.Bracket

/-! ## Leaves -/

def textsOf? (vs : List Value) : Option (List String) :=
  vs.mapM Value.text?

mutual

/-- The texts inside a value with their paths.  With `joined` a list of texts is one text. -/
def leaves (joined : Bool) (path : List String) : Value → List (List String × String)
  | .text s => [(path, s)]
  | .object fs => fieldLeaves joined path fs
  | .list vs =>
    match joined, textsOf? vs with
    | true, some ss => [(path, ",".intercalate ss)]
    | _, _ => entryLeaves joined path 0 vs
  | _ => []

def fieldLeaves (joined : Bool) (path : List String) :
    List (String × Value) → List (List String × String)
  | [] => []
  | (k, v) :: r => leaves joined (path ++ [k]) v ++ fieldLeaves joined path r

/-- The texts inside the entries of a list from an index on. -/
def entryLeaves (joined : Bool) (path : List String) (i : Nat) :
    List Value → List (List String × String)
  | [] => []
  | v :: r => leaves joined (path ++ [Text.decimal i]) v ++ entryLeaves joined path (i + 1) r

end

/-! ## Parameters -/

/-- A parameter for every leaf. -/
def named (ls : List (List String × String)) : List (String × String) :=
  ls.map fun (path, s) => (renderPath path, s)

/-- The parameters of a query in its record form. -/
def ofQuery (query : Fields) : List (String × String) :=
  named (fieldLeaves true [] query)

/-- The parameters of a filter whose leaves are texts. -/
def ofFilter (filter : Fields) : List (String × String) :=
  named (fieldLeaves false [filterName] filter)

/-! ## Text -/

def escaped (s : String) : String :=
  String.ofList (Text.Percent.encode s.toList)

def parameterText (p : String × String) : String :=
  escaped p.1 ++ "=" ++ escaped p.2

def queryString (ps : List (String × String)) : String :=
  "&".intercalate (ps.map parameterText)

end RowAccess.Bracket
