import RowAccess.Fault
import RowAccess.Json.Writer
import RowAccess.Schema.Catalog
import RowAccess.Text.Utf8

/-
  RowAccess/Schema/Folder.lean
  ============================
  **The catalog on disk.**  The catalog is one file in a folder that may be missing.  Reading a
  missing file gives the empty catalog.  Writing goes through a temporary file of a fresh name that
  takes the place of the old file in one step, so a write that fails leaves the folder as it was.
-/

namespace RowAccess

/-- What stands under a name in a folder. -/
inductive Entry where
  | file (bytes : List UInt8)
  | folder
  deriving DecidableEq, Repr

/-- A folder by its entries, or a folder that is missing. -/
abbrev Folder := Option (Keyed String Entry)

/-- Where the catalog is: the path as it was given, the folder and the name in it, and the mark in
the names of temporary files. -/
structure Place where
  given : String
  folder : String
  name : String
  mark : String
  deriving DecidableEq, Repr

namespace Place

/-- The segments of a path without those that change nothing. -/
def foldSegments (segments : List (List Char)) : List (List Char) :=
  (segments.foldl
    (fun done segment =>
      if segment.isEmpty || segment == ['.'] then done
      else if segment == ['.', '.'] then done.drop 1
      else segment :: done)
    []).reverse

def ofPath (path mark : String) : Place :=
  let cs := path.toList
  let root := if cs.head? = some '/' then "/" else ""
  let segments := (foldSegments (Text.cut '/' cs)).map String.ofList
  ⟨path, root ++ "/".intercalate segments.dropLast, segments.getLast?.getD "", mark⟩

def pathOf (p : Place) (name : String) : String :=
  if p.folder.isEmpty || p.folder == "/" then p.folder ++ name else p.folder ++ "/" ++ name

/-- The whole path of the catalog. -/
def path (p : Place) : String := p.pathOf p.name

/-- The first name after `mark` that no entry has.  The fuel exceeds the number of entries. -/
def freshName (p : Place) (entries : Keyed String Entry) : Nat → String → String
  | 0, mark => p.name ++ "." ++ mark ++ ".tmp"
  | fuel + 1, mark =>
    let name := p.name ++ "." ++ mark ++ ".tmp"
    if Keyed.has entries name then freshName p entries fuel (mark ++ "_") else name

/-- The name of a new temporary file. -/
def temporary (p : Place) (entries : Keyed String Entry) : String :=
  p.freshName entries (entries.length + 1) p.mark

end Place

/-! ## Reading -/

/-- The wording for a folder where a file is expected. -/
def isFolderText : String := "[Errno 21] Is a directory: "

/-- The wording for a path that is not there. -/
def missingText : String := "[Errno 2] No such file or directory: "

/-- Every line end as a line feed. -/
def plainLines : List Char → List Char
  | '\r' :: '\n' :: r => '\n' :: plainLines r
  | '\r' :: r => '\n' :: plainLines r
  | c :: r => c :: plainLines r
  | [] => []

/-- The document in a file, or the wording of what is wrong with it. -/
def documentOf (bytes : List UInt8) : Except String Value :=
  match Text.Utf8.decode bytes with
  | .error m => .error m.message
  | .ok cs =>
    let text := plainLines cs
    match Json.read text with
    | .error flaw => .error (flaw.message text)
    | .ok v => .ok v

namespace Folder

def entry? (f : Folder) (name : String) : Option Entry :=
  f.bind fun entries => Keyed.find? entries name

def load (p : Place) (f : Folder) : Except Fault Catalog :=
  let refuse (detail : String) : Except Fault Catalog :=
    .error (.catalog (.reading p.given detail))
  match f.entry? p.name with
  | none => .ok {}
  | some .folder => refuse (isFolderText ++ Text.quoted p.given)
  | some (.file bytes) =>
    match documentOf bytes with
    | .error detail => refuse detail
    | .ok v => Catalog.ofStored v

def bytesOf (c : Catalog) : Except Json.Unwritable (List UInt8) :=
  (Json.indented c.toStored).map fun s => Text.Utf8.encode s.toList

/-- Puts the bytes into the file by way of a temporary one.  Whatever fails after the temporary file
was made removes it again. -/
def replace (p : Place) (content : Except Json.Unwritable (List UInt8)) (f : Folder) :
    Except String Unit × Folder :=
  match f with
  | none => (.error (missingText ++ Text.quoted (p.pathOf (p.temporary []))), none)
  | some entries =>
    let temporary := p.temporary entries
    let started := Keyed.put entries temporary (.file [])
    match content with
    | .error u => (.error u.message, some (Keyed.drop started temporary))
    | .ok bytes =>
      let written := Keyed.put started temporary (.file bytes)
      match Keyed.find? written p.name with
      | some .folder =>
        (.error (isFolderText ++ Text.quoted (p.pathOf temporary) ++ " -> " ++ Text.quoted p.path),
          some (Keyed.drop written temporary))
      | _ => (.ok (), some (Keyed.put (Keyed.drop written temporary) p.name (.file bytes)))

def save (p : Place) (c : Catalog) (f : Folder) : Except Fault Unit × Folder :=
  match replace p (bytesOf c) f with
  | (.ok (), f) => (.ok (), f)
  | (.error detail, f) => (.error (.catalog (.writing p.path detail)), f)

end Folder

end RowAccess
