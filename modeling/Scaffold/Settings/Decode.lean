import Scaffold.Settings.Basic
import Scaffold.Settings.Reader

/-!
Settings from the table of a TOML document. Every section and every part of a section may be
left out and keeps its default; what is not a setting is ignored; a setting of the wrong kind
refuses the whole document. A section may also be a list, which gives its parts in order, and a
date, which gives none. What is ignored has to be readable all the same, unless it stands behind
the parts of a list.
-/

namespace Scaffold.Settings

/-- The parts that a section gives, by position and by name. -/
inductive Section where
  | named (entries : Entries)
  | listed (elements : List Value)

/-- The names of the sections. -/
def sectionNames : List String := ["paths", "output", "optional_fields", "imports"]

/-- The section that a value is. -/
def section? : Value → Option Section
  | .table _ entries => some (.named entries)
  | .array _ elements => some (.listed elements)
  | .date => some (.listed [])
  | _ => none

/-- Whether all of a document can be read that is looked at. Of a list that is a section only its
parts are. -/
def isReadable (document : Entries) : Bool :=
  document.all fun (name, value) =>
    match value with
    | .array _ _ => sectionNames.contains name || value.isReadable
    | _ => value.isReadable

/-- The section of a document with a given name. A section that is left out gives nothing. -/
def sectionOf? (document : Entries) (name : String) : Option Section :=
  match document.lookup name with
  | none => some (.listed [])
  | some value => section? value

/-- A part of a section, as `decode` takes it, or its default. -/
def Section.part? {α : Type} (parts : Section) (position : Nat) (name : String)
    (decode : Value → Option α) (standard : α) : Option α :=
  let given :=
    match parts with
    | .named entries => entries.lookup name
    | .listed elements => elements[position]?
  match given with
  | none => some standard
  | some value => decode value

/-- A text. -/
def text? : Value → Option String
  | .string text => some text
  | _ => none

/-- A number of one byte. -/
def byte? : Value → Option Nat
  | .integer value => if 0 ≤ value ∧ value ≤ 255 then some value.toNat else none
  | _ => none

/-- A truth value. -/
def boolean? : Value → Option Bool
  | .boolean value => some value
  | _ => none

/-- A list of texts. -/
def texts? : Value → Option (List String)
  | .array _ elements => elements.mapM text?
  | _ => none

/-- A table of lists of texts. -/
def lists? : Value → Option (List (String × List String))
  | .table _ entries => entries.mapM fun (key, value) => (texts? value).map fun texts => (key, texts)
  | _ => none

/-- The settings of a document. -/
def ofDocument? (document : Entries) : Option Settings := do
  let standard : Settings := {}
  let paths ← sectionOf? document "paths"
  let output ← sectionOf? document "output"
  let optional ← sectionOf? document "optional_fields"
  let imports ← sectionOf? document "imports"
  let path (position : Nat) (name standard : String) : Option String :=
    imports.part? position name text? standard
  return {
    schema := ← paths.part? 0 "schema" text? standard.schema
    modulesRoot := ← paths.part? 1 "modules_dir" text? standard.modulesRoot
    extension := ← output.part? 0 "file_extension" text? standard.extension
    indent := ← output.part? 1 "indent" byte? standard.indent
    useTabs := ← output.part? 2 "use_tabs" boolean? standard.useTabs
    optionalEverywhere := ← optional.part? 0 "global" texts? standard.optionalEverywhere
    optionalInModel := ← optional.part? 1 "models" lists? standard.optionalInModel
    imports := {
      baseRepository := ← path 0 "base_repository" standard.imports.baseRepository
      baseService := ← path 1 "base_service" standard.imports.baseService
      baseController := ← path 2 "base_controller" standard.imports.baseController
      databaseService := ← path 3 "database_service" standard.imports.databaseService
      prismaClient := ← path 4 "prisma_client" standard.imports.prismaClient
      decimal := ← path 5 "decimal" standard.imports.decimal } }

/-- The settings of the text of a settings file. -/
def ofText? (text : String) : Option Settings :=
  (read? text.toList).bind fun document =>
    if isReadable document then ofDocument? document else none

end Scaffold.Settings
