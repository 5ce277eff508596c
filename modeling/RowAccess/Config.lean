import RowAccess.Dialect

/-
  RowAccess/Config.lean
  =====================
  **The conventions in use**: the dialect, the schema whose tables are served, the place of the
  catalog, the texts that stand for truth values, and how dates are written.  The schema has a name
  and the two texts differ, in every configuration there is.
-/

namespace RowAccess

structure Config where
  dialect : Dialect
  schemaName : String
  catalogPath : String
  booleanTrue : String
  booleanFalse : String
  booleanNativeType : Option String
  wrapDateLiterals : Bool
  timestampFormatter : Option (String → String)
  debug : Bool
  schemaName_ne : schemaName ≠ ""
  sentinels_ne : booleanTrue ≠ booleanFalse

namespace Config

/-- The place of the catalog unless another one is given. -/
def defaultCatalogPath : String := "schema_catalog.json"

/-- What a configuration is made from; all but the dialect and the schema has a default. -/
structure Settings where
  dialect : Dialect
  schemaName : String
  catalogPath : String := defaultCatalogPath
  booleanTrue : String := "Y"
  booleanFalse : String := "N"
  booleanNativeType : Option String := none
  wrapDateLiterals : Bool := true
  timestampFormatter : Option (String → String) := none
  debug : Bool := false

/-- The configuration of the settings, unless they break a promise. -/
def make (s : Settings) : Except Fault Config :=
  if h₁ : s.schemaName = "" then .error (.breach .emptySchemaName)
  else if h₂ : s.booleanTrue = s.booleanFalse then
    .error (.breach (.equalSentinels s.booleanTrue))
  else .ok
    { dialect := s.dialect, schemaName := s.schemaName, catalogPath := s.catalogPath,
      booleanTrue := s.booleanTrue, booleanFalse := s.booleanFalse,
      booleanNativeType := s.booleanNativeType, wrapDateLiterals := s.wrapDateLiterals,
      timestampFormatter := s.timestampFormatter, debug := s.debug,
      schemaName_ne := h₁, sentinels_ne := h₂ }

/-- The native type whose columns of length one may hold truth values. -/
def effectiveBooleanType (c : Config) : String :=
  match c.booleanNativeType with
  | some t => Text.upper t
  | none => c.dialect.booleanNativeType

/-- The truth value that a text stands for. -/
def truthOf? (c : Config) (s : String) : Option Bool :=
  if s = c.booleanTrue then some true
  else if s = c.booleanFalse then some false
  else none

/-- The text that stands for a truth value. -/
def sentinel (c : Config) (b : Bool) : String :=
  if b then c.booleanTrue else c.booleanFalse

theorem truthOf?_sentinel (c : Config) (b : Bool) : c.truthOf? (c.sentinel b) = some b := by
  cases b
  · simp [truthOf?, sentinel, c.sentinels_ne.symm]
  · simp [truthOf?, sentinel]

/-- Texts of an environment variable that switch something on. -/
def isSwitchedOn (s : String) : Bool :=
  ["1", "true", "yes", "on"].contains (Text.lower (Text.strip s))

/-- The variable of a name that has to be there and not be empty. -/
def required (environment : Keyed String String) (name : String) : Except Fault String :=
  match Keyed.find? environment name with
  | some s => if s.isEmpty then .error (.badArgument (.variableMissing name)) else .ok s
  | none => .error (.badArgument (.variableMissing name))

def ofEnvironment (environment : Keyed String String) : Except Fault Config := do
  let dialectName ← required environment "CRUD_DIALECT"
  let schemaName ← required environment "CRUD_SCHEMA"
  let dialect ← Dialect.named dialectName
  let get (name fallback : String) := (Keyed.find? environment name).getD fallback
  make
    { dialect := dialect, schemaName := schemaName,
      catalogPath := get "CRUD_CATALOG_PATH" defaultCatalogPath,
      booleanTrue := get "CRUD_BOOLEAN_TRUE" "Y", booleanFalse := get "CRUD_BOOLEAN_FALSE" "N",
      debug := isSwitchedOn (get "CRUD_DEBUG" "") }

end Config

end RowAccess
