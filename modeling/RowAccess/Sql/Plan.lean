import RowAccess.Sql.Meaning

/-
  RowAccess/Sql/Plan.lean
  =======================
  **In which order a read meets its rows.**  Rows are met in the order of their ids unless it seems
  cheaper to meet the alternatives of a disjunction one after the other, each by what it says about
  the id.  What is cheaper is decided by estimates of work and of rows met, both on a scale on which
  ten more is twice as much; the table counts as large whatever it holds.

  A plan only says which alternatives come first.  Which rows pass is not its business.
-/

namespace RowAccess.Sql

/-! ## Estimates -/

/-- Work, and the number of rows met. -/
structure Estimate where
  work : Int
  met : Int
  deriving DecidableEq, Repr

namespace Estimate

def scaled (n : Nat) : Int :=
  if n < 2 then 0
  else
    let top := Nat.log2 n
    let eighths := n * 8 / Nat.pow 2 top - 8
    10 * (top : Int) + ([0, 2, 3, 5, 6, 7, 8, 9].getD eighths 0)

/-- What the sum of two numbers is more than the greater of them, by their distance. -/
def surplus (distance : Int) : Int :=
  if 49 < distance then 0
  else if 31 < distance then 1
  else
    ([10, 10, 9, 9, 8, 8, 7, 7, 7, 6, 6, 6, 5, 5, 5, 4, 4, 4, 4, 3, 3, 3, 3, 3, 3, 2, 2, 2, 2, 2, 2,
      2] : List Int).getD distance.toNat 0

/-- The sum of two numbers on the scale. -/
def sum (a b : Int) : Int :=
  max a b + surplus (max a b - min a b)

def plus (a b : Estimate) : Estimate :=
  ⟨sum a.work b.work, sum a.met b.met⟩

def tableRows : Int := 200

/-- Meeting every row. -/
def whole : Estimate := ⟨216, tableRows⟩

/-- Meeting the row of one id. -/
def single : Estimate := ⟨45, 0⟩

/-- Meeting the rows of several ids, their number on the scale. -/
def among (count : Int) : Estimate := ⟨45 + count, count⟩

/-- Meeting the rows on one side of an id. -/
def halfLine : Estimate := ⟨196, 180⟩

/-- Meeting the rows between two ids. -/
def interval : Estimate := ⟨156, 140⟩

/-- The lesser work of two; with equal work fewer rows. -/
def lesser (a b : Estimate) : Estimate :=
  if b.work < a.work || (b.work == a.work && b.met < a.met) then b else a

/-- What is kept of the ways to meet one alternative: the least work, and the fewest rows of all
that were once kept. -/
def keep (best : Option Estimate) (e : Estimate) : Option Estimate :=
  match best with
  | none => some e
  | some b => if e.work ≤ b.work then some ⟨e.work, min e.met b.met⟩ else some b

end Estimate

/-! ## What a test says about the id -/

/-- Which ids a test leaves. -/
inductive Reach where
  | all
  | single
  | among (count : Int)
  | above
  | below
  | interval
  | written
  deriving DecidableEq, Repr

/-- What the planner knows of a test: which ids it leaves, whether it looks at the row, by how much
it is thought to lessen the rows, whether it is a plain relation of a column, and whether it could
serve an index. -/
structure Test where
  reach : Reach
  onRow : Bool
  saving : Int
  isRelation : Bool
  mayIndex : Bool
  equalOn : Option ItemColumn
  deriving Repr

namespace Expr

def column? : Expr → Option ItemColumn
  | .name n =>
    match n.meaning? with
    | some (.column c) => some c
    | _ => none
  | .member path n => memberOf? path n
  | .collated _ e => e.column?
  | _ => none

mutual

def looksAtRow : Expr → Bool
  | .bound _ | .literal _ => false
  | .name n =>
    match n.meaning? with
    | some (.column _) => true
    | _ => false
  | .member path n => (memberOf? path n).isSome
  | .sign _ e | .complement e | .not e | .cast _ e | .collated _ e => e.looksAtRow
  | .absent _ e => e.column? != some .id && e.looksAtRow
  | .calculate _ a b | .compare _ a b | .same _ a b | .both a b | .either a b | .like _ a b =>
    a.looksAtRow || b.looksAtRow
  | .between _ e low high => e.looksAtRow || low.looksAtRow || high.looksAtRow
  | .oneOf _ e source choices => e.looksAtRow || (source.isOpen && anyLooksAtRow choices)
  | .call _ arguments => anyLooksAtRow arguments
  | .choose test result rest => test.looksAtRow || result.looksAtRow || rest.looksAtRow
  | .row parts => anyLooksAtRow parts
  | .nested _ f parts _ => f.isOpen && anyLooksAtRow parts

def anyLooksAtRow : List Expr → Bool
  | [] => false
  | e :: es => e.looksAtRow || anyLooksAtRow es

end

/-- Is the expression written as one of the integers from minus one to one? -/
def isSmallWhole : Expr → Bool
  | .literal (.int n) => n.natAbs ≤ 1
  | .sign _ e => e.isSmallWhole
  | _ => false

/-- The value of an expression that is known before any row is met. -/
def known? : Expr → Option Cell
  | .bound c => some c
  | .literal c => some c
  | _ => none

end Expr

namespace Test

def plain (e : Expr) : Test :=
  ⟨.all, e.looksAtRow, 0, false, false, none⟩

/-- The ids that a relation of the id leaves. -/
def reachOf (r : Relation) : Reach :=
  match r with
  | .eq => .single
  | .ne => .all
  | .gt | .ge => .above
  | .lt | .le => .below

def ofRelation (c : ItemColumn) (r : Relation) (other e : Expr) : Test :=
  if r = .ne then plain e
  else
    { reach := if c = .id && !other.looksAtRow then reachOf r else .all
      onRow := true
      saving := if r ≠ .eq then 0 else if other.isSmallWhole then 10 else 20
      isRelation := true
      mayIndex := true
      equalOn := if r = .eq then some c else none }

/-- A comparison, its column on either side. -/
def ofComparison (r : Relation) (a b e : Expr) : Test :=
  match a.column?, b.column? with
  | some c, _ => ofRelation c r b e
  | none, some c => ofRelation c r.flip a e
  | none, none => plain e

def ofMembership (c : ItemColumn) (source : Source) (choices : List Expr) (e : Expr) : Test :=
  let fixed := !(source.isOpen && Expr.anyLooksAtRow choices)
  match source, choices with
  | .list, [choice] =>
    if fixed then ofRelation c .eq choice e
    else { plain e with isRelation := true, mayIndex := true }
  | .list, choices =>
    { plain e with
      reach := if c = .id && fixed then .among (Estimate.scaled choices.length) else .all
      isRelation := true
      mayIndex := true }
  | _, _ =>
    { plain e with
      reach := if c = .id && fixed then .among 46 else .all
      isRelation := true
      mayIndex := true }

/-- The characters of a pattern before the first one that stands for others. -/
def patternFront (pattern : String) : List Char :=
  pattern.toList.takeWhile fun c => c != '%' && c != '_' && c.toNat != 0

/-- The text after every text with the same front: the last character is the next one. -/
def frontEnd (cs : List Char) : List Char :=
  cs.dropLast ++ (cs.getLast?.map fun c => Char.ofNat (c.toNat + 1)).toList

/-- Can the front of a pattern bound a column?  A column of numbers takes no front that is, or
could become, a number. -/
def isBounding (c : ItemColumn) (front : List Char) : Bool :=
  !front.isEmpty &&
    (c.affinity == .text ||
      ((numberOf? (String.ofList front)).isNone && front != ['-'] &&
        (numberOf? (String.ofList (frontEnd front))).isNone))

def ofLike (c : ItemColumn) (pattern e : Expr) : Test :=
  match pattern.known? with
  | some (.text s) =>
    if isBounding c (patternFront s) then
      { plain e with reach := if c = .id then .written else .all, mayIndex := true }
    else plain e
  | _ => plain e

def of (e : Expr) : Test :=
  match e with
  | .compare r a b => ofComparison r a b e
  | .oneOf false a source choices =>
    match a.column? with
    | some c => ofMembership c source choices e
    | none => plain e
  | .absent false a =>
    match a.column? with
    | some .id => plain e
    | some _ => { plain e with isRelation := true, mayIndex := true }
    | none => plain e
  | .between false a low high =>
    match a.column? with
    | some c =>
      { plain e with
        reach :=
          if c ≠ .id then .all
          else if low.looksAtRow then if high.looksAtRow then .all else .below
          else if high.looksAtRow then .above
          else .interval
        mayIndex := true }
    | none => plain e
  | .like false a pattern =>
    match a.column? with
    | some c => ofLike c pattern e
    | none => plain e
  | e => plain e

end Test

/-! ## Disjunctions -/

namespace Expr

def isEither : Expr → Bool
  | .either _ _ => true
  | _ => false

/-- The column that a disjunction asks to equal one of several values, and their number. -/
def sharedColumn? (e : Expr) : Option (ItemColumn × Nat) :=
  match e.disjuncts.map fun d => (Test.of d).equalOn with
  | some c :: rest =>
    if e.isEither && rest.all (· == some c) then some (c, rest.length + 1) else none
  | _ => none

/-- Could the conjunct serve an index? -/
def mayIndex (e : Expr) : Bool :=
  if e.isEither then e.sharedColumn?.isSome else (Test.of e).mayIndex

/-- Could every alternative of a disjunction serve an index? -/
def isSplittable (e : Expr) : Bool :=
  e.isEither && e.disjuncts.all fun d => d.conjuncts.any mayIndex

/-- What a conjunct says about the id. -/
def reach (e : Expr) : Reach :=
  if e.isEither then
    match e.sharedColumn? with
    | some (.id, n) => .among (Estimate.scaled n)
    | _ => .all
  else (Test.of e).reach

/-- Does a conjunct look at the row? -/
def isOnRow (e : Expr) : Bool :=
  if e.isEither then e.looksAtRow else (Test.of e).onRow

/-- By how much a conjunct is thought to lessen the rows. -/
def saving (e : Expr) : Int :=
  if e.isEither then 0 else (Test.of e).saving

end Expr

/-! ## Ways to meet the rows -/

abbrev Placed := Nat × Expr

namespace Estimate

/-- The rows met, lessened by the conjuncts that have no part in meeting them. -/
def lessened (own : List Placed) (used : List Nat) (e : Estimate) : Estimate :=
  let unused := own.filter fun (n, t) => t.isOnRow && !used.contains n
  let saving := (unused.map fun (_, t) => t.saving).foldl max 0
  { e with met := min (e.met - unused.length) (tableRows - saving) }

/-- The ways to meet rows by a conjunct, perhaps together with an upper bound of another. -/
def waysBy (own : List Placed) (uppers : List Nat) (p : Placed) : List Estimate :=
  let (n, t) := p
  let alone (e : Estimate) : List Estimate := [e.lessened own [n]]
  let closed := uppers.map fun m => interval.lessened own [n, m]
  match t.reach with
  | .all => []
  | .single => alone single
  | .among count => alone (among count)
  | .above => alone halfLine ++ closed
  | .below => alone halfLine
  | .interval => alone halfLine ++ closed ++ alone halfLine
  | .written => alone interval

/-- Does a conjunct bound the id from above? -/
def isUpper (p : Placed) : Bool :=
  p.2.reach == .below || p.2.reach == .interval

/-- The ways to meet rows by conjuncts of the condition and of what stands around it. -/
def ways (own outer : List Placed) : List Estimate :=
  let all := own ++ outer
  let uppers := (all.filter isUpper).map (·.1)
  all.flatMap (waysBy own uppers)

/-- Conjuncts with their places, from a place on. -/
def placed (start : Nat) (es : List Expr) : List Placed :=
  es.zipIdx.map fun (e, i) => (start + i, e)

/-- The first place after the given ones. -/
def nextPlace (ps : List Placed) : Nat :=
  (ps.map (·.1)).foldl max 0 + 1

mutual

/-- The least work to meet a conjunction by parts of it, if there is a way. -/
def ofConjunction (fuel : Nat) (own outer : List Placed) : Option Estimate :=
  match fuel with
  | 0 => none
  | fuel + 1 =>
    let byTests := (ways own outer).foldl keep none
    own.foldl
      (fun best p =>
        match ofDisjunction fuel p.2 (own ++ outer) with
        | some e => keep best e
        | none => best)
      byTests

/-- The work to meet a disjunction alternative by alternative, if each of them has a way. -/
def ofDisjunction (fuel : Nat) (e : Expr) (around : List Placed) : Option Estimate :=
  match fuel with
  | 0 => none
  | fuel + 1 =>
    if !e.isSplittable then none
    else
      let parts := e.disjuncts.map fun d =>
        ofConjunction fuel (placed (nextPlace around) d.conjuncts) around
      match parts with
      | some first :: rest =>
        let total := rest.foldl
          (fun sum part => match sum, part with
            | some s, some p => some (plus s p)
            | _, _ => none)
          (some first)
        total.map fun t => { t with work := t.work + 1 }
      | _ => none

end

/-- The work with sorting after it; `expected` rows are thought to be sorted. -/
def sorted (expected : Int) (e : Estimate) : Estimate :=
  let rows := expected + 1
  let logarithm := if rows ≤ 10 then 0 else scaled rows.toNat - 33
  { e with work := sum e.work (rows + 10 + logarithm) + 3 }

end Estimate

/-! ## Plans -/

/-- A plan: all rows by their ids, or alternatives one after the other, each by a plan of its
own. -/
inductive Turns where
  | whole
  | split (alternatives : List (Expr × Turns))
  deriving Repr, Inhabited

namespace Turns

/-- The disjunction among conjuncts that is met alternative by alternative, if one is. -/
def chosen? (fuel : Nat) (sorting : Bool) (conjuncts : List Expr) : Option Nat :=
  let own := Estimate.placed 0 conjuncts
  let byTests := (Estimate.ways own []).foldl Estimate.lesser (Estimate.whole.lessened own [])
  let splits := own.filterMap fun (n, e) =>
    (Estimate.ofDisjunction fuel e own).map fun estimate => (n, estimate)
  let least (change : Estimate → Estimate) : Option Nat × Estimate :=
    splits.foldl
      (fun best split =>
        let e := change split.2
        if Estimate.lesser best.2 e = best.2 then best else (some split.1, e))
      (none, change byTests)
  let first := least id
  if sorting then (least (Estimate.sorted first.2.met)).1 else first.1

/-- Is a conjunct kept beside every alternative of another? -/
def isKept (e : Expr) : Bool :=
  e.isEither ||
    (Test.of e).isRelation && match e with
      | .oneOf _ _ source _ => source == .list
      | _ => true

def ofConjuncts : Nat → Bool → List Expr → Turns
  | 0, _, _ => .whole
  | fuel + 1, sorting, conjuncts =>
    match chosen? fuel sorting conjuncts with
    | none => .whole
    | some n =>
      let kept := (conjuncts.eraseIdx n).filter isKept
      .split ((conjuncts.getD n (.literal .null)).disjuncts.map fun d =>
        (d, ofConjuncts fuel false (d.conjuncts ++ kept)))

/-- The plan of a condition; `sorting` says that the rows are sorted by other columns than the
id. -/
def of (sorting : Bool) (e : Expr) : Turns :=
  ofConjuncts (e.size + 1) sorting e.conjuncts

mutual

/-- The turn of a row: its first alternative, and the turn within it. -/
def turn (i : Item) : Turns → List Nat
  | .whole => []
  | .split alternatives => turnAmong i 0 alternatives

/-- The turn of a row among alternatives counted from a number on. -/
def turnAmong (i : Item) (n : Nat) : List (Expr × Turns) → List Nat
  | [] => [n]
  | (e, t) :: rest => if (e.truth i).isYes then n :: turn i t else turnAmong i (n + 1) rest

end

end Turns

end RowAccess.Sql
