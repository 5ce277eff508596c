import RowAccess.Sql.Command
import RowAccess.Sql.Refusal
import RowAccess.Sql.Token

/-
  RowAccess/Sql/Grammar.lean
  ==========================
  **Reading a statement.**  Operators bind by levels, from a disjunction up to a sign; operators of
  one level are read from the left.  A reader goes on as long as the tokens can begin a statement,
  so that a refusal names the first token that cannot go on.  Parameters take the given cells in
  turn.
-/

namespace RowAccess.Sql

/-- What is left to read, the parameters met so far, the cells that they take, and a flaw that
counts once the whole has been read. -/
structure Reader where
  tokens : List Token
  used : Nat
  named : List (String × Nat)
  cells : List Cell
  late : Option Refusal

/-- Reading a part of a statement. -/
abbrev Scanning (α : Type) := StateT Reader (Except Refusal) α

namespace Grammar

/-! ## Tokens -/

/-- Refuses the next token. -/
def fail {α : Type} : Scanning α := do
  match (← get).tokens with
  | [] => throw .incomplete
  | t :: _ => throw (if t.kind = .stray then .unrecognized t.text else .malformed t.text)

/-- Keeps a flaw for later; the first one counts. -/
def postpone (r : Refusal) : Scanning Unit :=
  modify fun s => { s with late := s.late <|> some r }

def peek? : Scanning (Option Token) := do
  return (← get).tokens.head?

/-- Goes past the next token. -/
def advance : Scanning Unit :=
  modify fun r => { r with tokens := r.tokens.drop 1 }

/-- Is the next token the word? -/
def isAtWord (word : String) : Scanning Bool := do
  return ((← peek?).map fun t => t.isWord word).getD false

/-- Is the next token the symbol? -/
def isAtSymbol (symbol : String) : Scanning Bool := do
  return ((← peek?).map fun t => t.isSymbol symbol).getD false

/-- Goes past the word, if it is next. -/
def eatWord (word : String) : Scanning Bool := do
  if ← isAtWord word then
    advance
    return true
  else return false

/-- Goes past the symbol, if it is next. -/
def eatSymbol (symbol : String) : Scanning Bool := do
  if ← isAtSymbol symbol then
    advance
    return true
  else return false

def expectWord (word : String) : Scanning Unit := do
  if !(← eatWord word) then fail

def expectSymbol (symbol : String) : Scanning Unit := do
  if !(← eatSymbol symbol) then fail

def name : Scanning Name := do
  match ← peek? with
  | some t =>
    match t.name?, t.kind with
    | some n, _ => do
      advance
      return n
    | none, .literal (.text s) => do
      advance
      return ⟨s, false⟩
    | none, _ => fail
  | none => fail

/-! ## Parameters -/

/-- The number of a parameter: a question mark takes the next one, or the one that it names; a word
takes the next one when it comes first. -/
def parameterNumber (text : String) : Scanning Nat := do
  let r ← get
  let digits := (text.toList.drop 1)
  if text.toList.head? = some '?' then
    if digits.isEmpty then
      set { r with used := r.used + 1 }
      return r.used + 1
    else
      let n := Text.ofDigits (digitValues digits)
      set { r with used := max r.used n }
      return n
  else
    match Keyed.find? r.named text with
    | some n => return n
    | none =>
      set { r with used := r.used + 1, named := (text, r.used + 1) :: r.named }
      return r.used + 1

/-- A parameter with the cell that it takes. -/
def parameter (text : String) : Scanning Expr := do
  let n ← parameterNumber text
  return .bound ((← get).cells.getD (n - 1) .null)

/-! ## Operators -/

/-- The operators of two numbers, and their levels. -/
def calculations : List (String × Nat × Calculation) :=
  [("&", 7, .bitAnd), ("|", 7, .bitOr), ("<<", 7, .shiftLeft), (">>", 7, .shiftRight),
    ("+", 8, .add), ("-", 8, .subtract), ("*", 9, .multiply), ("/", 9, .divide),
    ("%", 9, .modulo), ("||", 10, .concat)]

def relations : List (String × Nat × Relation) :=
  [("=", 4, .eq), ("==", 4, .eq), ("!=", 4, .ne), ("<>", 4, .ne), ("<", 5, .lt), ("<=", 5, .le),
    (">", 5, .gt), (">=", 5, .ge)]

def testLevel : Nat := 4

def matchWords : List String := ["LIKE", "GLOB", "REGEXP", "MATCH"]

def isMatchWord (t : Token) : Bool :=
  matchWords.any t.isWord

/-- The number with the opposite sign, where the token for it is too large without one. -/
def signed (negative : Bool) (e : Expr) : Expr :=
  match negative, e with
  | true, .literal (.real x) =>
    if x == .ofInt (Int.pow 2 63) then .literal (.int (-Int.pow 2 63)) else .sign true e
  | negative, e => .sign negative e

/-- Does a text occur in another, in any case? -/
def mentions (needle text : String) : Bool :=
  let small (s : String) : List Char := s.toList.map Char.toLower
  (List.range (text.length + 1)).any fun n => (small needle).isPrefixOf ((small text).drop n)

/-- The kind that a name of a type stands for. -/
def castOf (type : String) : Cast :=
  if mentions "INT" type then .integer
  else if mentions "CHAR" type || mentions "CLOB" type || mentions "TEXT" type then .text
  else if mentions "BLOB" type then .blob
  else if mentions "REAL" type || mentions "FLOA" type || mentions "DOUB" type then .real
  else .numeric

def matched (word : String) (negated : Bool) (e pattern : Expr) (escape : Option Expr) : Expr :=
  match escape with
  | none =>
    if Identifier.same word "LIKE" then .like negated e pattern
    else
      let call := Expr.call word [pattern, e]
      if negated then .not call else call
  | some c =>
    let call := Expr.call word [pattern, e, c]
    if negated then .not call else call

/-- A test for null or for a truth value, where the other side is one; else a test for sameness. -/
def sameOrAbsent (negated : Bool) (a b : Expr) : Expr :=
  let yes (e : Expr) : Expr :=
    .choose e (.literal (.int (Value.ofBool !negated))) (.literal (.int (Value.ofBool negated)))
  match b with
  | .literal .null => .absent negated a
  | .name n =>
    match n.meaning? with
    | some (.truth true) => yes a
    | some (.truth false) => yes (.not a)
    | _ => .same negated a b
  | b => .same negated a b

/-- A membership in a list.  Nothing is in an empty one, whatever it is, and a single nested
selection gives the choices itself. -/
def listed (negated : Bool) (e : Expr) : List Expr → Expr
  | [] => .literal (.int (Value.ofBool negated))
  | [.nested .first f parts _] => .oneOf negated e (.selection f []) parts
  | choices => .oneOf negated e .list choices

/-- Rows that are written one behind the other have equally many expressions. -/
def checkRowWidths (rows : List (List Expr)) : Except Refusal Unit :=
  if rows.any fun r => r.length != (rows.headD []).length then .error .rowWidths else .ok ()

/-- The words of a type, up to its bracket. -/
def typeWords : Nat → Scanning String
  | 0 => return ""
  | fuel + 1 => do
    match (← peek?).bind Token.name? with
    | some n => do
      advance
      return n.text ++ " " ++ (← typeWords fuel)
    | none => return ""

/-- Goes past the numbers in the bracket of a type. -/
def typeSize : Nat → Scanning Unit
  | 0 => fail
  | fuel + 1 => do
    if ← eatSymbol ")" then return ()
    match ← peek? with
    | some t =>
      match t.kind with
      | .literal _ => advance
      | _ => if t.isSymbol "," || t.isSymbol "+" || t.isSymbol "-" then advance else fail
    | none => fail
    typeSize fuel

/-- A table. -/
def target : Scanning Target := do
  let n ← name
  if ← eatSymbol "." then return ⟨some n.text, (← name).text⟩ else return ⟨none, n.text⟩

/-- Another name of a table, which does not matter. -/
def otherName : Scanning Unit := do
  if ← eatWord "AS" then
    let _ ← name
  else
    match ← peek? with
    | some t => if t.name?.isSome && !isJoinWord t then advance
    | none => return ()
where
  /-- Words between two tables. -/
  isJoinWord (t : Token) : Bool :=
    ["CROSS", "FULL", "INNER", "LEFT", "NATURAL", "OUTER", "RIGHT"].any t.isWord

def titleOf (e : Expr) : String :=
  match e with
  | .name n => n.text
  | .member _ n => n.text
  | _ => ""

mutual

def expr (fuel : Nat) (level : Nat) : Scanning Expr :=
  match fuel with
  | 0 => fail
  | fuel + 1 => do
    let e ← prefixed fuel
    continued fuel level e

def continued (fuel : Nat) (level : Nat) (e : Expr) : Scanning Expr :=
  match fuel with
  | 0 => fail
  | fuel + 1 => do
    match ← peek? with
    | none => return e
    | some t =>
      match calculations.find? fun (s, _) => t.isSymbol s with
      | some (_, n, op) =>
        if n < level then return e
        advance
        continued fuel level (.calculate op e (← expr fuel (n + 1)))
      | none =>
      match relations.find? fun (s, _) => t.isSymbol s with
      | some (_, n, r) =>
        if n < level then return e
        advance
        continued fuel level (.compare r e (← expr fuel (n + 1)))
      | none =>
      if t.isWord "AND" then
        if 2 < level then return e
        advance
        continued fuel level (.both e (← expr fuel 3))
      else if t.isWord "OR" then
        if 1 < level then return e
        advance
        continued fuel level (.either e (← expr fuel 2))
      else if t.isWord "COLLATE" then
        advance
        let n ← name
        continued fuel level (.collated (.ofName n.text) e)
      else if testLevel < level then return e
      else if t.isWord "ISNULL" then
        advance
        continued fuel level (.absent false e)
      else if t.isWord "NOTNULL" then
        advance
        continued fuel level (.absent true e)
      else if t.isWord "IS" then
        advance
        let negated ← eatWord "NOT"
        if ← eatWord "DISTINCT" then
          expectWord "FROM"
          let other ← expr fuel (testLevel + 1)
          continued fuel level (sameOrAbsent (!negated) e other)
        else
          let other ← expr fuel (testLevel + 1)
          continued fuel level (sameOrAbsent negated e other)
      else if t.isWord "NOT" then
        advance
        if ← eatWord "NULL" then continued fuel level (.absent true e)
        else
          match ← test? fuel true e with
          | some e => continued fuel level e
          | none => fail
      else
        match ← test? fuel false e with
        | some e => continued fuel level e
        | none => return e

/-- A range, a membership or a match, if its word is next. -/
def test? (fuel : Nat) (negated : Bool) (e : Expr) : Scanning (Option Expr) :=
  match fuel with
  | 0 => fail
  | fuel + 1 => do
    if ← eatWord "BETWEEN" then
      let low ← expr fuel testLevel
      lost fuel
      expectWord "AND"
      let high ← expr fuel (testLevel + 1)
      return some (.between negated e low high)
    else if ← eatWord "IN" then
      if !(← isAtSymbol "(") then
        let f : Frame := ⟨none, [← target], false, 0, false, [], false, false⟩
        return some (.oneOf negated e (.selection f []) [])
      advance
      if ← eatSymbol ")" then return some (listed negated e [])
      else if ← eatWord "SELECT" then
        let q ← selected fuel
        expectSymbol ")"
        return some (.oneOf negated e (.selection q.frame []) q.parts)
      else if ← eatWord "VALUES" then
        let rows ← rows fuel
        checkRowWidths rows
        expectSymbol ")"
        return some (.oneOf negated e (.rows (rows.map List.length)) rows.flatten)
      else
        let choices ← exprs fuel
        expectSymbol ")"
        return some (listed negated e choices)
    else
      match ← peek? with
      | some t =>
        if isMatchWord t then
          advance
          let pattern ← expr fuel (testLevel + 1)
          let escape ← if ← eatWord "ESCAPE" then some <$> expr fuel 5 else pure none
          return some (matched t.text negated e pattern escape)
        else return none
      | none => return none

/-- A disjunction in the lower bound of a range leaves no way to go on: it takes in the conjunction
that the range needs. -/
def lost (fuel : Nat) : Scanning Unit :=
  match fuel with
  | 0 => fail
  | fuel + 1 => do
    if ← eatWord "OR" then
      let _ ← expr fuel 2
      lost fuel

def exprs (fuel : Nat) : Scanning (List Expr) :=
  match fuel with
  | 0 => fail
  | fuel + 1 => do
    let e ← expr fuel 0
    if ← eatSymbol "," then return e :: (← exprs fuel) else return [e]

def rows (fuel : Nat) : Scanning (List (List Expr)) :=
  match fuel with
  | 0 => fail
  | fuel + 1 => do
    expectSymbol "("
    let row ← exprs fuel
    expectSymbol ")"
    if ← eatSymbol "," then return row :: (← rows fuel) else return [row]

/-- An expression without operators after it. -/
def prefixed (fuel : Nat) : Scanning Expr :=
  match fuel with
  | 0 => fail
  | fuel + 1 => do
    match ← peek? with
    | none => fail
    | some t =>
      match t.kind with
      | .stray => fail
      | .literal c =>
        advance
        return .literal c
      | .parameter =>
        advance
        parameter t.text
      | .symbol =>
        if t.text == "(" then
          advance
          if ← eatWord "SELECT" then
            let q ← selected fuel
            expectSymbol ")"
            return .nested .first q.frame q.parts []
          match ← exprs fuel with
          | [e] =>
            expectSymbol ")"
            return e
          | parts =>
            expectSymbol ")"
            return .row parts
        else if t.text == "-" then
          advance
          return signed true (← prefixed fuel)
        else if t.text == "+" then
          advance
          return signed false (← prefixed fuel)
        else if t.text == "~" then
          advance
          return .complement (← prefixed fuel)
        else fail
      | _ =>
        if t.isWord "NOT" then
          advance
          return .not (← expr fuel testLevel)
        else if t.isWord "NULL" then
          advance
          return .literal .null
        else if t.isWord "EXISTS" then
          advance
          expectSymbol "("
          expectWord "SELECT"
          let q ← selected fuel
          expectSymbol ")"
          return .nested .presence q.frame q.parts []
        else if t.isWord "CASE" then
          advance
          let subject ← if ← isAtWord "WHEN" then pure none else some <$> expr fuel 0
          expectWord "WHEN"
          cases fuel subject
        else if t.isWord "RAISE" then
          advance
          expectSymbol "("
          if !(← eatWord "IGNORE") then
            let _ ← name
            expectSymbol ","
            let _ ← name
          expectSymbol ")"
          postpone .misusedRaise
          return .literal .null
        else if Moment.currentNames.any t.isWord then
          advance
          return .call t.text []
        else if t.isWord "CAST" then
          advance
          expectSymbol "("
          let e ← expr fuel 0
          expectWord "AS"
          let type ← typeWords fuel
          if ← eatSymbol "(" then typeSize fuel
          expectSymbol ")"
          return .cast (castOf type) e
        else
          match t.name? with
          | none => fail
          | some n =>
            advance
            named fuel n []

/-- The cases of a choice, after the word before the first. -/
def cases (fuel : Nat) (subject : Option Expr) : Scanning Expr :=
  match fuel with
  | 0 => fail
  | fuel + 1 => do
    let e ← expr fuel 0
    let test := match subject with
      | none => e
      | some s => .compare .eq s e
    expectWord "THEN"
    let result ← expr fuel 0
    if ← eatWord "WHEN" then return .choose test result (← cases fuel subject)
    else if ← eatWord "ELSE" then
      let rest ← expr fuel 0
      expectWord "END"
      return .choose test result rest
    else
      expectWord "END"
      return .choose test result (.literal .null)

/-- What begins with a name: a call, a name behind names, or the name. -/
def named (fuel : Nat) (n : Name) (path : List String) : Scanning Expr :=
  match fuel with
  | 0 => fail
  | fuel + 1 => do
    if ← eatSymbol "." then
      let next ← name
      named fuel next (path ++ [n.text])
    else if path.isEmpty && (← isAtSymbol "(") then
      advance
      if ← eatSymbol ")" then return .call n.text []
      else if ← eatSymbol "*" then
        expectSymbol ")"
        return .call n.text []
      else
        let _ ← eatWord "DISTINCT"
        let arguments ← exprs fuel
        expectSymbol ")"
        return .call n.text arguments
    else return if path.isEmpty then .name n else .member path n

/-- Shown expressions with commas between them. -/
def shown (fuel : Nat) : Scanning (List Shown) :=
  match fuel with
  | 0 => fail
  | fuel + 1 => do
    let e ← expr fuel 0
    let title ←
      if ← eatWord "AS" then pure (← name).text
      else
        match (← peek?).bind Token.name? with
        | some n => do
          advance
          pure n.text
        | none => pure (titleOf e)
    if ← eatSymbol "," then return ⟨e, title⟩ :: (← shown fuel) else return [⟨e, title⟩]

/-- The tables joined to the first one, and what joins them. -/
def joined (fuel : Nat) : Scanning (List Target × List Expr) :=
  match fuel with
  | 0 => fail
  | fuel + 1 => do
    let inner ← eatWord "INNER"
    let joins ← if ← eatWord "JOIN" then pure true
      else if inner then pure false
      else eatSymbol ","
    if joins then
      let t ← target
      otherName
      let tests ← if ← eatWord "ON" then pure [← expr fuel 0] else pure []
      let (ts, more) ← joined fuel
      return (t :: ts, tests ++ more)
    else if inner then fail
    else return ([], [])

def orderTerms (fuel : Nat) : Scanning (List (Expr × Direction)) :=
  match fuel with
  | 0 => fail
  | fuel + 1 => do
    let e ← expr fuel 0
    let direction ←
      if ← eatWord "DESC" then pure Direction.descending
      else do
        let _ ← eatWord "ASC"
        pure Direction.ascending
    if ← eatSymbol "," then return (e, direction) :: (← orderTerms fuel)
    else return [(e, direction)]

/-- An order, if its word is next. -/
def orderClause (fuel : Nat) : Scanning (List (Expr × Direction)) :=
  match fuel with
  | 0 => fail
  | fuel + 1 => do
    if ← eatWord "ORDER" then
      expectWord "BY"
      orderTerms fuel
    else return []

/-- A limit and an offset, if their words are next. -/
def limitClause (fuel : Nat) : Scanning (Option Expr × Option Expr) :=
  match fuel with
  | 0 => fail
  | fuel + 1 => do
    if ← eatWord "LIMIT" then
      let first ← expr fuel 0
      if ← eatWord "OFFSET" then return (some first, some (← expr fuel 0))
      else if ← eatSymbol "," then return (some (← expr fuel 0), some first)
      else return (some first, none)
    else return (none, none)

/-- A selection after its first word. -/
def selected (fuel : Nat) : Scanning Query :=
  match fuel with
  | 0 => fail
  | fuel + 1 => do
    if !(← eatWord "DISTINCT") then
      let _ ← eatWord "ALL"
    let columns ← if ← eatSymbol "*" then pure none else some <$> shown fuel
    let (tables, joins) ←
      if ← eatWord "FROM" then do
        let t ← target
        otherName
        let (ts, joins) ← joined fuel
        pure (t :: ts, joins)
      else pure ([], [])
    let test ← if ← eatWord "WHERE" then some <$> expr fuel 0 else pure none
    let group ←
      if ← eatWord "GROUP" then do
        expectWord "BY"
        exprs fuel
      else pure []
    let groupTest ← if ← eatWord "HAVING" then some <$> expr fuel 0 else pure none
    let order ← orderClause fuel
    let (limit, offset) ← limitClause fuel
    let tests := joins ++ test.toList
    let test := tests.head?.map fun e => tests.tail.foldl .both e
    return ⟨columns, tables, test, group, groupTest, order, limit, offset⟩

end

/-! ## Statements -/

/-- The test after its word, if it is next. -/
def whereTest (fuel : Nat) : Scanning (Option Expr) := do
  if ← eatWord "WHERE" then return some (← expr fuel 0) else return none

def names : Nat → Scanning (List String)
  | 0 => fail
  | fuel + 1 => do
    let n ← name
    if ← eatSymbol "," then return n.text :: (← names fuel) else return [n.text]

/-- What a change gives back, if its word is next. -/
def returning (fuel : Nat) : Scanning (Option Expr) := do
  if ← eatWord "RETURNING" then return ((← shown fuel).head?.map Shown.expr) else return none

def newRows : Nat → Scanning (List (List Expr))
  | 0 => fail
  | fuel + 1 => do
    expectSymbol "("
    let row ← exprs fuel
    expectSymbol ")"
    if ← eatSymbol "," then return row :: (← newRows fuel) else return [row]

/-- An insertion after its first word. -/
def insert (fuel : Nat) : Scanning Command := do
  expectWord "INTO"
  let t ← target
  let columns ←
    if ← eatSymbol "(" then do
      let columns ← names fuel
      expectSymbol ")"
      pure columns
    else pure (ItemColumn.all.map ItemColumn.title)
  if ← eatWord "DEFAULT" then
    expectWord "VALUES"
    return .insert t [] [] (← returning fuel)
  else
    expectWord "VALUES"
    let rows ← newRows fuel
    checkRowWidths rows
    return .insert t columns rows (← returning fuel)

/-- Entries of an update with commas between them. -/
def entries : Nat → Scanning (List (String × Expr))
  | 0 => fail
  | fuel + 1 => do
    let n ← name
    expectSymbol "="
    let e ← expr fuel 0
    if ← eatSymbol "," then return (n.text, e) :: (← entries fuel) else return [(n.text, e)]

/-- The test of a change whose rows are those of a selection, where an order or a limit follows. -/
def cutTest (fuel : Nat) (command : String) (t : Target) (test : Option Expr) :
    Scanning (Option Expr) := do
  let order ← orderClause fuel
  let (limit, offset) ← limitClause fuel
  if limit.isNone && !order.isEmpty then postpone (.lonelyOrder command)
  if limit.isNone then return test
  let id := Expr.name ⟨ItemColumn.id.title, false⟩
  let q : Query := ⟨some [⟨id, ""⟩], [t], test, [], none, order, limit, offset⟩
  return some (.oneOf false id (.selection q.frame []) q.parts)

/-- An update after its first word. -/
def update (fuel : Nat) : Scanning Command := do
  let t ← target
  expectWord "SET"
  let changes ← entries fuel
  let test ← whereTest fuel
  return .update t changes (← cutTest fuel "UPDATE" t test)

/-- A deletion after its first word. -/
def delete (fuel : Nat) : Scanning Command := do
  expectWord "FROM"
  let t ← target
  let test ← whereTest fuel
  return .delete t (← cutTest fuel "DELETE" t test)

/-- The selections that are put together with those before. -/
def others (fuel : Nat) : Scanning (List (Combination × Query)) :=
  match fuel with
  | 0 => fail
  | fuel + 1 => do
    let k ←
      if ← eatWord "UNION" then do
        if ← eatWord "ALL" then pure (some Combination.unionAll) else pure (some .union)
      else do
        if ← eatWord "EXCEPT" then pure (some .except)
        else do
          if ← eatWord "INTERSECT" then pure (some .intersect) else pure none
    match k with
    | none => return []
    | some k =>
      expectWord "SELECT"
      let q ← selected fuel
      return (k, q) :: (← others fuel)

/-- Only the last of several selections can have an order or a limit. -/
def checkPlacement (first : Query) : List (Combination × Query) → Except Refusal Unit
  | [] => .ok ()
  | (k, q) :: rest =>
    if !first.order.isEmpty then .error (.misplaced "ORDER BY" k)
    else if first.limit.isSome then .error (.misplaced "LIMIT" k)
    else checkPlacement q rest

/-- A selection without tables sees no columns. -/
def separate (q : Query) : Query :=
  if q.tables.isEmpty then
    let detach := Expr.detached
    { q with
      shown := q.shown.map fun s => s.map fun s => { s with expr := detach s.expr }
      test := q.test.map detach
      group := q.group.map detach
      groupTest := q.groupTest.map detach }
  else q

/-- A selection, or several put together, after its first word. -/
def selection (fuel : Nat) : Scanning Command := do
  let first ← selected fuel
  let rest ← others fuel
  match checkPlacement first rest with
  | .ok () => pure ()
  | .error r => postpone r
  if rest.isEmpty then return .select (separate first)
  else return .combine (separate first) (rest.map fun (k, q) => (k, separate q))

/-- A statement. -/
def command (fuel : Nat) : Scanning Command := do
  if ← eatWord "SELECT" then selection fuel
  else if ← eatWord "INSERT" then insert fuel
  else if ← eatWord "UPDATE" then update fuel
  else if ← eatWord "DELETE" then delete fuel
  else fail

/-- A statement that was read: the command, the number of its parameters, and whether there is more
behind it. -/
structure Understood where
  command : Command
  used : Nat
  isFollowed : Bool
  deriving Repr

/-- Reads a text whose parameters take the given cells. -/
def read (text : String) (cells : List Cell) : Except Refusal Understood := do
  let tokens := Token.ofText text
  let (c, r) ← (command (8 * tokens.length + 8)).run ⟨tokens, 0, [], cells, none⟩
  match r.tokens with
  | [] => understood c r false
  | t :: rest =>
    if t.isSymbol ";" then understood c r !rest.isEmpty
    else throw (if t.kind = .stray then .unrecognized t.text else .malformed t.text)
where
  /-- The statement, unless it has a flaw that was kept for later. -/
  understood (c : Command) (r : Reader) (isFollowed : Bool) : Except Refusal Understood :=
    match r.late with
    | some flaw => .error flaw
    | none => .ok ⟨c, r.used, isFollowed⟩

end Grammar

end RowAccess.Sql
