import RowAccess.Sql.Operand

/-
  RowAccess/Sql/Draft.lean
  ========================
  **Statements in pieces.**  A draft is a run of words and slots.  Every slot leaves a placeholder,
  or a list of them, in the text, and its values travel beside the statement in the order of the
  placeholders.

  Slots are named while the statement is put together: a slot of a test after its column and a
  number, a slot of an entry after its column alone.  The names stand in markers of a template, and
  every marker of the template counts, wherever it comes from: it asks for the values of the slot
  that its name stands for (`Draft.prepared`).  A draft is plain if each marker is one that a slot
  put down and no other slot has its name (`Draft.isPlain`).
-/

namespace RowAccess.Sql

/-- What a slot is named after. -/
inductive Label where
  | numbered (stem : String)
  | entry (column : String)
  deriving DecidableEq, Repr

/-- A piece of a statement: words, a slot of one value, or a slot of a list of values. -/
inductive Piece where
  | words (text : String)
  | single (label : Label) (preparation : Preparation) (value : Value)
  | spread (label : Label) (preparation : Preparation) (values : List Value)
  deriving Repr

/-- A statement in pieces. -/
abbrev Draft := List Piece

/-! ## Names of slots -/

namespace Label

/-- Characters that no name of a test keeps. -/
def isDropped (c : Char) : Bool :=
  c == '%' || c == '(' || c == ')' || c == ' ' || c == '$'

/-- Puts one underscore for every run of dropped characters; `within` says that such a run was
begun. -/
def joined (within : Bool) : List Char → List Char
  | [] => []
  | c :: r =>
    if isDropped c then if within then joined true r else '_' :: joined true r
    else c :: joined false r

/-- The characters without underscores at either end. -/
def stripped (cs : List Char) : List Char :=
  ((cs.dropWhile (· == '_')).reverse.dropWhile (· == '_')).reverse

def ofColumn (column : String) : Label :=
  .numbered (String.ofList (stripped (joined false column.toList)))

/-- The label of a number of rows. -/
def ofLimit : Label := .numbered "param"

/-- The name of a label after so many slots of the same stem. -/
def named (l : Label) (before : Nat) : String :=
  match l with
  | .numbered stem => stem ++ "_" ++ Text.decimal (before + 1)
  | .entry column => column

end Label

namespace Piece

def label? : Piece → Option Label
  | .words _ => none
  | .single (.entry "") _ _ => none
  | .single l _ _ => some l
  | .spread l _ _ => some l

def isRows : List Value → Bool
  | .list _ :: _ => true
  | _ => false

/-- The text of so many placeholders. -/
def marks (count : Nat) : String :=
  ", ".intercalate (List.replicate count "?")

def memberCount (v : Value) : Nat :=
  (v.members?.map List.length).getD 0

def listText (values : List Value) : String :=
  if isRows values then
    "VALUES " ++ ", ".intercalate (values.map fun v => "(" ++ marks (memberCount v) ++ ")")
  else marks values.length

/-- A piece in the statement.  An entry without a name is no slot. -/
def text : Piece → String
  | .words s => s
  | .single (.entry "") _ _ => "%()s"
  | .single _ _ _ => "?"
  | .spread _ _ values => listText values

/-- Is every row of a list within the list of all members, counted by its own size? -/
def rowsFit (values : List Value) : Bool :=
  let total := (values.map memberCount).foldl (· + ·) 0
  (values.zipIdx).all fun (v, i) => memberCount v = 0 || i * memberCount v + memberCount v ≤ total

/-- The values of a list: members of rows, or the values themselves. -/
def listValues (values : List Value) : Except Unprepared (List Value) :=
  if isRows values then
    match values.find? fun v => v.members?.isNone with
    | some v => .error (.memberless v.fullKindName)
    | none =>
      if rowsFit values then .ok (values.flatMap fun v => v.members?.getD [])
      else .error .noIndex
  else .ok values

/-- The values of a piece, each with what it is prepared for. -/
def values : Piece → Except Unprepared (List (Preparation × Value))
  | .words _ => .ok []
  | .single (.entry "") _ _ => .ok []
  | .single _ p v => .ok [(p, v)]
  | .spread _ p vs => (listValues vs).map fun ws => ws.map fun w => (p, w)

end Piece

/-! ## Names -/

/-- A statement as it is sent: its text and the values that travel beside it. -/
structure Prepared where
  text : String
  values : List Value
  deriving Repr

namespace Draft

def text (d : Draft) : String :=
  String.join (d.map Piece.text)

/-- A character of a name in the template. -/
def escapedChar (c : Char) : Char :=
  if c = '%' then 'P'
  else if c = '(' then 'A'
  else if c = ')' then 'Z'
  else if c = ':' then 'C'
  else if c = '.' ∨ c = '[' ∨ c = ']' ∨ c = ' ' then '_'
  else c

def escaped (name : String) : String :=
  String.ofList (name.toList.map escapedChar)

/-- The slots of a draft under their names; the second list holds the labels that came before. -/
def namedSlots : Draft → List Label → List (String × Piece)
  | [], _ => []
  | p :: rest, before =>
    match p.label? with
    | none => namedSlots rest before
    | some l => (l.named (before.count l), p) :: namedSlots rest (l :: before)

def slots (d : Draft) : List (String × Piece) :=
  namedSlots d []

/-- The first name that two slots share. -/
def sharedName? : List String → Option String
  | [] => none
  | n :: rest => if rest.contains n then some n else sharedName? rest

def isList : Piece → Bool
  | .spread .. => true
  | _ => false

/-- The escaped names of the slots whose names change in the template. -/
def changedNames (slots : List (String × Piece)) : List (String × String) :=
  (slots.map fun (n, _) => (escaped n, n)).filter fun (e, n) => e != n

/-- The name of the slot that a name in the template stands for. -/
def meant (slots : List (String × Piece)) (name : String) : String :=
  (Keyed.find? (changedNames slots) name).getD name

/-! ## The template -/

def listMark : String := "__[POSTCOMPILE_"

def valueMark : String := "%("

/-- A part of a template: a character, the marker of a value, or the marker of a list, in which words
between waves may stand behind the name. -/
inductive Part where
  | char (c : Char)
  | value (name : String)
  | list (name : String) (wave : List Char)
  deriving DecidableEq, Repr

namespace Part

def chars : Part → List Char
  | .char c => [c]
  | .value name => valueMark.toList ++ name.toList ++ [')', 's']
  | .list name wave => listMark.toList ++ name.toList ++ wave ++ [']']

def name? : Part → Option String
  | .char _ => none
  | .value name => some name
  | .list name _ => some name

end Part

/-- The marker of a slot. -/
def marker (name : String) (p : Piece) : Part :=
  if isList p then .list (escaped name) [] else .value (escaped name)

/-- The parts that a draft puts down: its words, and the marker of every slot. -/
def ownParts : Draft → List Label → List Part
  | [], _ => []
  | p :: rest, before =>
    match p.label? with
    | none => p.text.toList.map .char ++ ownParts rest before
    | some l => marker (l.named (before.count l)) p :: ownParts rest (l :: before)

def template (d : Draft) : List Char :=
  (d.ownParts []).flatMap Part.chars

/-- The marker of a value at the front of characters. -/
def valueAt? (cs : List Char) : Option Part :=
  if valueMark.toList.isPrefixOf cs then
    let name := (cs.drop 2).takeWhile (· != ')')
    if !name.isEmpty && [')', 's'].isPrefixOf (cs.drop (2 + name.length)) then
      some (.value (String.ofList name))
    else none
  else none

/-- What may stand between the name of a list and its bracket: nothing, or characters of one line
between two waves. -/
def waveAt? (cs : List Char) : Option (List Char) :=
  let inner := cs.drop 2
  let line := inner.takeWhile (· != '\n')
  let found := if ['~', '~'].isPrefixOf cs then
      (List.range line.length).find? fun n => 0 < n && ['~', '~', ']'].isPrefixOf (inner.drop n)
    else none
  match found with
  | some n => some (cs.take (n + 4))
  | none => if cs.head? = some ']' then some [] else none

/-- The shortest name of a list at the front of characters, and the wave behind it. -/
def listName? : List Char → Option (List Char × List Char)
  | [] => none
  | c :: r =>
    if Text.isBlank c then none
    else
      match waveAt? r with
      | some wave => some ([c], wave)
      | none => (listName? r).map fun (name, wave) => (c :: name, wave)

/-- The marker of a list at the front of characters. -/
def listAt? (cs : List Char) : Option Part :=
  if listMark.toList.isPrefixOf cs then
    (listName? (cs.drop listMark.toList.length)).map fun (name, wave) =>
      .list (String.ofList name) wave
  else none

def markerAt? (cs : List Char) : Option Part :=
  (valueAt? cs).or (listAt? cs)

/-- The parts of a template as they are read; `skip` characters belong to the last marker. -/
def parts : List Char → Nat → List Part
  | [], _ => []
  | _ :: r, skip + 1 => parts r skip
  | c :: r, 0 =>
    match markerAt? (c :: r) with
    | some p => p :: parts r (p.chars.length - 1)
    | none => .char c :: parts r 0

/-- Is every marker of the template one that a slot put down, and the name of no other slot? -/
def isPlain (d : Draft) : Bool :=
  (sharedName? (d.slots.map fun (n, _) => escaped n)).isNone && parts d.template 0 == d.ownParts []

/-! ## Reading the template -/

/-- The values that a marker asks for. -/
def valuesUnder (slots : List (String × Piece)) (name : String) :
    Except Unprepared (List (Preparation × Value)) :=
  match Keyed.find? slots (meant slots name) with
  | none => .error (.unnamed (Text.quoted (meant slots name)))
  | some p => p.values

/-- The text of a list with the words of a wave around each of its placeholders. -/
def waved (wave : List Char) (text : String) : Except Unprepared String :=
  match (String.ofList wave).splitOn "~~" with
  | _ :: before :: _ :: behind :: _ =>
    .ok (", ".intercalate ((text.splitOn ", ").map fun mark => before ++ mark ++ behind))
  | _ => .error .noIndex

/-- The text of a part.  The marker of a list stays as it is where no slot holds a list; otherwise it
has to be that of such a slot. -/
def partText (slots : List (String × Piece)) : Part → Except Unprepared String
  | .char c => .ok (String.singleton c)
  | .value _ => .ok "?"
  | .list name wave =>
    if slots.any fun (_, p) => isList p then
      match Keyed.find? slots (meant slots name) with
      | some (.spread _ _ vs) =>
        if escaped (meant slots name) = name then
          if wave.isEmpty then .ok (Piece.listText vs) else waved wave (Piece.listText vs)
        else .error (.unnamed (Text.quoted name))
      | _ => .error (.unnamed (Text.quoted name))
    else .ok (String.ofList (Part.list name wave).chars)

/-- A draft as it is sent: each marker of the template asks for the values of its slot. -/
def prepared (d : Draft) : Except Unprepared Prepared := do
  let parts := parts d.template 0
  let values ← (parts.filterMap Part.name?).mapM (valuesUnder d.slots)
  let texts ← parts.mapM (partText d.slots)
  return ⟨String.join texts, ← values.flatten.mapM fun (p, v) => p.apply v⟩

/-- Does the template have two names for one? -/
def isAmbiguous (d : Draft) : Bool :=
  (sharedName? ((changedNames d.slots).map (·.1))).isSome

end Draft

end RowAccess.Sql
