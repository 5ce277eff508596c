import RowAccess.Calendar.Iso
import RowAccess.Json.Reader
import RowAccess.Operation.Basic
import RowAccess.Schema.Category

/-
  RowAccess/Fault.lean
  ====================
  **What can go wrong, by cause.**  The faults of the query pipeline come in six kinds and can be
  handed on as failures; the others are breaches of a promise, arguments out of their domain, or
  values of a shape that an operation cannot use.  Every cause has its wording in one place.  A
  message is written when its fault is raised, so the fault is another one where a value in the
  message has no text (`Fault.raised`).
-/

namespace RowAccess

inductive FailureKind where
  | reading
  | validation
  | coercion
  | backend
  | discovery
  | catalog
  deriving DecidableEq, Repr

namespace FailureKind

def all : List FailureKind :=
  [.reading, .validation, .coercion, .backend, .discovery, .catalog]

def name : FailureKind → String
  | .reading => "translation"
  | .validation => "validation"
  | .coercion => "coercion"
  | .backend => "backend"
  | .discovery => "discovery"
  | .catalog => "catalog"

def ofName? (name : String) : Option FailureKind :=
  all.find? fun k => k.name == name

end FailureKind

/-- A failure as it is handed on: its kind and a description. -/
structure Failure where
  kind : FailureKind
  detail : String
  deriving DecidableEq, Repr

/-- The place of a record: its key, and its index in a list of records. -/
structure Location where
  key : Key
  index : Option Nat
  deriving DecidableEq, Repr

/-- A place in bracket notation. -/
def Location.shown (l : Location) : String :=
  match l.index with
  | none => l.key.name
  | some i => l.key.name ++ "[" ++ Text.decimal i ++ "]"

/-! ## Causes -/

/-- Why a client query has no record form. -/
inductive ReadingFault where
  | orderEntryKind (entry : Value)
  | orderEntryForm (entry : String)
  | orderKind (order : Value)
  | filterText (text : String) (flaw : Json.Flaw)
  | filterKind (text : String)
  | filterParameter (value : Value)
  | noNames (text : String)
  | queryKind (query : Value)
  deriving Repr

def ReadingFault.message : ReadingFault → String
  | .orderEntryKind v => "Expected an order entry string, but got " ++ v.shown ++ "."
  | .orderEntryForm s =>
    "Order entry " ++ Text.quoted s ++
      " must have the form \"<column> ASC\" or \"<column> DESC\"."
  | .orderKind v => "Expected a list of order entries, but got " ++ v.shown ++ "."
  | .filterText s flaw =>
    "Filter " ++ Text.quoted s ++ " is not valid JSON: " ++ flaw.message s.toList
  | .filterKind s => "Expected the filter to be a JSON object, but got " ++ Text.quoted s ++ "."
  | .filterParameter v => "Unrecognized filter parameter " ++ v.shown ++ "."
  | .noNames s => "Query string " ++ Text.quoted s ++ " has no named parameters."
  | .queryKind v =>
    "Expected a query string or a mapping, but got " ++ v.shown ++ " of type " ++ v.kindName ++ "."

def ReadingFault.mentioned : ReadingFault → List Value
  | .orderEntryKind v | .orderKind v | .filterParameter v | .queryKind v => [v]
  | .orderEntryForm _ | .filterText .. | .filterKind _ | .noNames _ => []

/-- Why a query is not well formed. -/
inductive ValidationFault where
  | queryKind (query : Value)
  | unknownKey (name : String)
  | recordKind (at_ : Location) (value : Value)
  | nesting (at_ : Location) (field : ClauseField) (value : Value)
  | columnMissing (at_ : Location)
  | recordsKind (key : Key) (value : Value)
  | valueMissing (at_ : Location)
  | comparator (at_ : Location) (value : Value)
  | valuesMissing (at_ : Location)
  | valuesEntry (at_ : Location) (value : Value)
  | bound (key : Key) (value : Value)
  | boundCount (key : Key) (values : List Value)
  | limit (value : Value)
  | orderKind (value : Value)
  | orderEntryKind (at_ : Location) (value : Value)
  | orderColumn (at_ : Location)
  | orderDirection (at_ : Location) (value : Value)
  | select (value : Value)
  | twoAggregates
  | aggregateColumn (function : Aggregate)
  | severalStarters (kinds : List StarterKind)
  deriving Repr

def ValidationFault.message : ValidationFault → String
  | .queryKind v => "Expected the query object to be a dict, but got " ++ v.shown ++ "."
  | .unknownKey name =>
    "Unrecognized query key \"" ++ name ++ "\". Expected one of: " ++ namesShown Key.sortedNames ++
      "."
  | .recordKind l v =>
    "Expected " ++ l.shown ++ " to be a clause record with a COLUMN field, but got " ++ v.shown ++
      "."
  | .nesting l f v =>
    "Malformed bracket nesting in " ++ l.shown ++ ": field " ++ f.name ++ " holds " ++ v.shown ++
      ". Array indices must directly follow the keyword, as in " ++ l.key.name ++ "[0][COLUMN]."
  | .columnMissing l => l.shown ++ " requires a non-empty COLUMN field."
  | .recordsKind k v =>
    "Expected " ++ k.name ++ " to be a clause record or an array of clause records, but got " ++
      v.shown ++ "."
  | .valueMissing l => l.shown ++ " requires a non-empty VALUE field."
  | .comparator l v =>
    l.shown ++ " has unsupported COMPARATOR " ++ v.shown ++ ". Expected one of: " ++
      namesShown (Comparator.all.map Comparator.name) ++ "."
  | .valuesMissing l => l.shown ++ " requires a non-empty VALUES array."
  | .valuesEntry l v =>
    l.shown ++ " has an empty or non-scalar entry " ++ v.shown ++ " in VALUES."
  | .bound k v =>
    k.name ++ " bounds must be numbers or ISO-8601 dates, but got " ++ v.shown ++ "."
  | .boundCount k vs =>
    k.name ++ " requires exactly 2 entries in VALUES, [low, high], but got " ++
      (Value.list vs).shown ++ "."
  | .limit v => "LIMIT must be a non-negative integer, but got " ++ v.shown ++ "."
  | .orderKind v => "Expected ORDER to be an array of order entries, but got " ++ v.shown ++ "."
  | .orderEntryKind l v =>
    "Expected " ++ l.shown ++ " to be an order entry, but got " ++ v.shown ++ "."
  | .orderColumn l => l.shown ++ " requires a non-empty column field."
  | .orderDirection l v =>
    l.shown ++ " has unsupported order " ++ v.shown ++ ". Expected one of: ['asc', 'desc']."
  | .select v =>
    "Expected SELECT to be an array of non-empty column names, but got " ++ v.shown ++ "."
  | .twoAggregates => "Only one of MIN and MAX may be requested."
  | .aggregateColumn f => f.name ++ " requires a non-empty column name."
  | .severalStarters kinds =>
    "At most one chain starter clause may be present, but got " ++
      namesShown (kinds.map StarterKind.name) ++
      ". Use AND_WHERE, OR_WHERE or OR_WHERE_IN to extend the chain."

def ValidationFault.mentioned : ValidationFault → List Value
  | .queryKind v | .limit v | .orderKind v | .select v => [v]
  | .recordKind _ v | .nesting _ _ v | .recordsKind _ v | .comparator _ v | .valuesEntry _ v
  | .bound _ v | .orderEntryKind _ v | .orderDirection _ v => [v]
  | .boundCount _ vs => vs
  | .unknownKey _ | .columnMissing _ | .valueMissing _ | .valuesMissing _ | .orderColumn _
  | .twoAggregates | .aggregateColumn _ | .severalStarters _ => []

/-- Why the data of a buffer are no bytes. -/
inductive ByteFlaw where
  | range
  | kind (name : String)
  deriving DecidableEq, Repr

def ByteFlaw.message : ByteFlaw → String
  | .range => "bytes must be in range(0, 256)"
  | .kind name => "'" ++ name ++ "' object cannot be interpreted as an integer"

/-- Why a value cannot be converted for storage. -/
inductive CoercionFault where
  | timestampText (text : String) (flaw : Iso.Flaw)
  | timestampKind (value : Value)
  | zoned (value : Value)
  | bufferWrapper (value : Value)
  | bufferData (value : Value)
  | bufferBytes (flaw : ByteFlaw)
  | bufferEmpty
  | bufferKind (value : Value)
  deriving Repr

def CoercionFault.message : CoercionFault → String
  | .timestampText s flaw =>
    "Expected an ISO-8601 timestamp string in 'YYYY-MM-DDTHH:MM:SS' format, but got " ++
      Text.quoted s ++ ": " ++ flaw.message
  | .timestampKind v =>
    "Expected a datetime, a date or an ISO-8601 timestamp string. Got " ++ v.shown ++
      " of type " ++ v.kindName ++ " instead."
  | .zoned v =>
    "Expected a timezone-naive timestamp, but got " ++ v.shown ++
      ". Discarding the timezone component would result in an implicit loss of precision."
  | .bufferWrapper v =>
    "Expected a buffer wrapper of the form \x7b'type': 'Buffer', 'data': [...]\x7d, but got " ++
      v.shown ++ "."
  | .bufferData v => "Buffer data must be a list of byte values, but got " ++ v.shown ++ "."
  | .bufferBytes flaw => "Buffer data is not a sequence of byte values: " ++ flaw.message
  | .bufferEmpty => "Expected at least one buffer chunk, but got an empty sequence."
  | .bufferKind v =>
    "Expected bytes or a buffer wrapper, but got " ++ v.shown ++ " of type " ++ v.kindName ++ "."

def CoercionFault.mentioned : CoercionFault → List Value
  | .timestampKind v | .zoned v | .bufferWrapper v | .bufferData v | .bufferKind v => [v]
  | .timestampText .. | .bufferBytes _ | .bufferEmpty => []

/-- Why a table could not be introspected. -/
inductive DiscoveryFault where
  | introspection (table : Value) (detail : String)
  | noColumns (table : Value) (schema : String)
  | enumeration (schema detail : String)
  deriving Repr

def DiscoveryFault.message : DiscoveryFault → String
  | .introspection t detail => "Failed to introspect table " ++ t.plain ++ ": " ++ detail
  | .noColumns t schema =>
    "Table " ++ t.plain ++ " has no columns in schema " ++ schema ++
      ". Check that the table exists and is visible to the connected user."
  | .enumeration schema detail =>
    "Failed to enumerate the tables of schema " ++ schema ++ ": " ++ detail

def DiscoveryFault.mentioned : DiscoveryFault → List Value
  | .introspection t _ | .noColumns t _ => [t]
  | .enumeration .. => []

/-- Why the catalog could not be read or written. -/
inductive CatalogFault where
  | reading (path detail : String)
  | writing (path detail : String)
  | schemaForm (value : Value)
  | catalogKind (value : Value)
  deriving Repr

def CatalogFault.message : CatalogFault → String
  | .reading path detail => "Failed to read the schema catalog at " ++ path ++ ": " ++ detail
  | .writing path detail => "Failed to write the schema catalog at " ++ path ++ ": " ++ detail
  | .schemaForm v => "Malformed table schema in the catalog: " ++ v.shown
  | .catalogKind v => "Expected the catalog to be a JSON object, but got " ++ v.shown ++ "."

def CatalogFault.mentioned : CatalogFault → List Value
  | .schemaForm v | .catalogKind v => [v]
  | .reading .. | .writing .. => []

/-- A breach of a promise between the parts of the program. -/
inductive Breach where
  | emptySchemaName
  | equalSentinels (sentinel : String)
  | emptyMembership (column : Value)
  | notStarter (key : Key)
  | notAggregate (key : Key)
  | addedAfterBuild (step : Step)
  | outOfOrder (step : Step) (before : List Step)
  | starterOnOpened (step : Step) (state : String)
  | builtTwice
  | twoCategories (column table : Value) (first second : Category)
  | noFailureKind (text : String)
  | setsDiffer (onlyFirst onlySecond : List Value)
  | lockHeld (table : Value)
  | sharedSlot
  deriving Repr

/-- The names of the step kinds in the order of a chain. -/
def stepOrderNames : List String :=
  ["SelectStep", "StarterStep", "AndWhereStep", "OrWhereStep", "OrWhereInStep", "LimitStep",
    "OrderStep"]

def setShown (vs : List Value) : String :=
  "\x7b" ++ ", ".intercalate (vs.map Value.shown) ++ "\x7d"

def Breach.message : Breach → String
  | .emptySchemaName => "The schema_name field is expected to be non-empty."
  | .equalSentinels s =>
    "The boolean sentinels must differ, but both were " ++ Text.quoted s ++ "."
  | .emptyMembership column =>
    "Expected a non-empty values sequence for column " ++ column.plain ++ "."
  | .notStarter k => k.shown ++ " cannot start a query chain."
  | .notAggregate k => k.shown ++ " is not an aggregate function."
  | .addedAfterBuild s => "Cannot add " ++ s.shown ++ " to a chain that was already built."
  | .outOfOrder s before =>
    "Step " ++ s.shown ++ " arrived out of order after steps [" ++
      ", ".intercalate (before.map Step.shown) ++ "]. Expected order: " ++
      namesShown stepOrderNames ++ "."
  | .starterOnOpened s state =>
    "Chain starter " ++ s.shown ++ " added to a " ++ state ++ " chain."
  | .builtTwice => "The chain was already built."
  | .sharedSlot => ""
  | .lockHeld t => "Table " ++ t.plain ++ " is being discovered already."
  | .twoCategories c t first second =>
    "Column " ++ c.plain ++ " of table " ++ t.plain ++ " is classified as both " ++ first.name ++
      " and " ++ second.name ++ "."
  | .noFailureKind text =>
    "No failure kind is known for exception CrudCompilerError(" ++ Text.quoted text ++ ")."
  | .setsDiffer first second =>
    " ".intercalate (["Expected sets to have the same keys."] ++
      (if first.isEmpty then []
        else ["Keys in the first set but not the second: " ++ setShown first ++ "."]) ++
      (if second.isEmpty then []
        else ["Keys in the second set but not the first: " ++ setShown second ++ "."]))

def Breach.mentioned : Breach → List Value
  | .emptyMembership v | .lockHeld v => [v]
  | .addedAfterBuild s | .starterOnOpened s _ => s.mentioned
  | .outOfOrder s before => s.mentioned ++ before.flatMap Step.mentioned
  | .twoCategories c t _ _ => [c, t]
  | .setsDiffer first second => first ++ second
  | .emptySchemaName | .equalSentinels _ | .notStarter _ | .notAggregate _ | .builtTwice
  | .noFailureKind _ | .sharedSlot => []

inductive BadArgument where
  | dialect (name : String)
  | variableMissing (name : String)
  | integerText (text : String)
  | integerShown (shown : String)
  | notANumber
  | integerLength (count : Nat)
  | integerToWrite
  | idType (value : Value)
  | category (value : Value)
  | key (value : Value)
  | direction (value : Value)
  | failureKind (value : Value)
  | byteRange
  deriving Repr

def BadArgument.message : BadArgument → String
  | .dialect name =>
    "Unsupported dialect " ++ Text.quoted name ++ ". Expected one of: ['mysql', 'oracle']."
  | .variableMissing name => "The " ++ name ++ " environment variable is required."
  | .integerText s =>
    "invalid literal for int() with base 10: " ++ String.ofList ((Text.quoted s).toList.take 200)
  | .integerShown shown =>
    "invalid literal for int() with base 10: " ++ String.ofList (shown.toList.take 200)
  | .notANumber => "cannot convert float NaN to integer"
  | .integerLength n => Number.tooManyDigits n
  | .integerToWrite => Number.tooLongToWrite
  | .idType v => v.shown ++ " is not a valid IdType"
  | .category v => v.shown ++ " is not a valid ColumnCategory"
  | .key v => v.shown ++ " is not a valid QueryKey"
  | .direction v => v.shown ++ " is not a valid SortDirection"
  | .failureKind v => v.shown ++ " is not a valid ErrorKind"
  | .byteRange => "byte must be in range(0, 256)"

def BadArgument.mentioned : BadArgument → List Value
  | .idType v | .category v | .key v | .direction v | .failureKind v => [v]
  | .dialect _ | .variableMissing _ | .integerText _ | .integerShown _ | .notANumber
  | .integerLength _ | .integerToWrite | .byteRange => []

inductive BadIndex where
  | list
  | bytes
  | size
  deriving DecidableEq, Repr

def BadIndex.message : BadIndex → String
  | .list => "list index out of range"
  | .bytes => "index out of range"
  | .size => "cannot fit 'int' into an index-sized integer"

/-! ## Faults -/

inductive Fault where
  | reading (cause : ReadingFault)
  | validation (cause : ValidationFault)
  | coercion (cause : CoercionFault)
  | backend (detail : String)
  | discovery (cause : DiscoveryFault)
  | catalog (cause : CatalogFault)
  | reported (failure : Failure)
  | unclassified (text : String)
  | breach (cause : Breach)
  | badArgument (cause : BadArgument)
  | badIndex (cause : BadIndex)
  | missingKey (key : Value)
  | wrongShape
  | noSuchOperation
  | outOfRange
  | foreign (kind message : String)
  deriving Repr

namespace Fault

def failure? : Fault → Option Failure
  | .reading c => some ⟨.reading, c.message⟩
  | .validation c => some ⟨.validation, c.message⟩
  | .coercion c => some ⟨.coercion, c.message⟩
  | .backend detail => some ⟨.backend, detail⟩
  | .discovery c => some ⟨.discovery, c.message⟩
  | .catalog c => some ⟨.catalog, c.message⟩
  | .reported f => some f
  | _ => none

def kind? (f : Fault) : Option FailureKind :=
  f.failure?.map (·.kind)

def message (f : Fault) : String :=
  match f.failure? with
  | some failure => failure.detail
  | none =>
    match f with
    | .unclassified text => text
    | .breach c => c.message
    | .badArgument c => c.message
    | .badIndex c => c.message
    | .missingKey k => k.shown
    | .foreign _ m => m
    | _ => ""

/-- The values in the message of a fault that is raised.  A missing key is written when it is
shown, not when it is missed. -/
def mentioned : Fault → List Value
  | .reading c => c.mentioned
  | .validation c => c.mentioned
  | .coercion c => c.mentioned
  | .discovery c => c.mentioned
  | .catalog c => c.mentioned
  | .breach c => c.mentioned
  | .badArgument c => c.mentioned
  | _ => []

/-- Can the message of a fault be written? -/
def isWritable (f : Fault) : Bool :=
  f.mentioned.all Value.isWritable

/-- What is raised where a fault is met: a message is written with the fault, and where it cannot
be, that is the fault. -/
def raised (f : Fault) : Fault :=
  if f.isWritable then f else .badArgument .integerToWrite

end Fault

/-- An outcome with its fault as it is raised. -/
def written {α : Type} (x : Except Fault α) : Except Fault α :=
  x.mapError Fault.raised

/-- The text of a value in a description of what was attempted. -/
def Value.told (v : Value) : Except Fault String :=
  if v.isWritable then .ok v.plain else .error (.badArgument .integerToWrite)

def membersOf (v : Value) : Except Fault (List Value) :=
  match v.members? with
  | some vs => .ok vs
  | none => .error .wrongShape

/-- The text that a value has to be.  Bytes know what is asked of a text, but not with texts. -/
def neededText : Value → Except Fault String
  | .text s => .ok s
  | .bytes _ => .error .wrongShape
  | _ => .error .noSuchOperation

/-- The outcome of a step of the pipeline: a value, or the failure that is handed on. -/
abbrev Reply (α : Type) := Except Failure α

/-- Hands a pipeline fault on as a failure.  Other faults stay faults, and a pipeline fault without
a kind is a breach. -/
def capture {α : Type} : Except Fault α → Except Fault (Reply α)
  | .ok a => .ok (.ok a)
  | .error f =>
    match f.raised.failure? with
    | some failure => .ok (.error failure)
    | none =>
      match f with
      | .unclassified text => .error (.breach (.noFailureKind text))
      | _ => .error f.raised

/-- The fault that reports a failure after a description of what was attempted. -/
def Failure.report (f : Failure) (attempt : String) : Fault :=
  .reported ⟨f.kind, attempt ++ ": " ++ f.detail⟩

/-- The value of a reply, or the fault that reports its failure. -/
def unwrap {α : Type} (attempt : String) : Reply α → Except Fault α
  | .ok a => .ok a
  | .error f => .error (f.report attempt)

/-- The values of the first list that the second lacks, each once. -/
def onlyIn (vs ws : List Value) : List Value :=
  vs.foldl (fun only v => if ws.contains v || only.contains v then only else only ++ [v]) []

/-- Two lists have to hold the same values, whatever their order and number. -/
def compareSets (vs ws : List Value) : Except Fault Unit :=
  if vs.all Value.isKey && ws.all Value.isKey then
    if (onlyIn vs ws).isEmpty && (onlyIn ws vs).isEmpty then .ok ()
    else .error (Fault.raised (.breach (.setsDiffer (onlyIn vs ws) (onlyIn ws vs))))
  else .error .wrongShape

end RowAccess
