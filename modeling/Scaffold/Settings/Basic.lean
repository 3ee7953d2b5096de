import Scaffold.Artifact.Options
import Scaffold.Disk.Fault

/-!
Settings: where the schema is, where modules go, and how their files are written. They come from
a settings file, and the command line may override some of them. `Settings.options` checks them
and makes the options of code generation.
-/

namespace Scaffold

open Artifact (Options Indent ImportPaths Optionality)

/-- The settings of the program. -/
structure Settings where
  /-- The path of the schema. -/
  schema : String := "src/database/prisma/schema.prisma"
  /-- The directory that holds a directory for every module. -/
  modulesRoot : String := "src/modules"
  /-- The extension of generated files. Dots before it do not count. -/
  extension : String := "ts"
  /-- The spaces of one level of indentation. -/
  indent : Nat := 2
  /-- Whether tabs are used for indentation instead. -/
  useTabs : Bool := false
  /-- The fields that are optional in every model. -/
  optionalEverywhere : List String := Artifact.customaryOptional
  /-- The fields that are optional in one model, by its exact name. -/
  optionalInModel : List (String × List String) := []
  imports : ImportPaths := {}
deriving DecidableEq, Repr

namespace Settings

/-- A setting with a value that means nothing. -/
inductive InvalidSetting where
  /-- A width of indentation that is neither two nor four. -/
  | indent (given : Nat)
  /-- An extension of dots alone. -/
  | extension
deriving DecidableEq, Repr

/-- The name of an invalid setting. -/
def InvalidSetting.key : InvalidSetting → String
  | .indent _ => "output.indent"
  | .extension => "output.file_extension"

/-- What is wrong with the value of a setting. -/
def InvalidSetting.message : InvalidSetting → String
  | .indent given => s!"expected 2 or 4, got {given}"
  | .extension => "must not be empty"

/-- Why there are no settings. -/
inductive SettingsError where
  /-- There is no file at the path that was asked for. -/
  | missing (path : String)
  /-- The file cannot be read. -/
  | unreadable (path : String) (fault : Disk.Fault)
  /-- The file is no document of settings. -/
  | malformed (path : String)
  | invalid (setting : InvalidSetting)
deriving DecidableEq, Repr

/-- The wording of an error. That of a malformed file ends where an account of its text would
begin. -/
def SettingsError.message : SettingsError → String
  | .missing path => s!"Configuration file not found: {path}"
  | .unreadable path fault => s!"Failed to read config {path}: {fault.message}"
  | .malformed path => s!"Invalid TOML in {path}:"
  | .invalid setting =>
    s!"Invalid configuration value for '{setting.key}': {setting.message}"

/-- The settings that the command line overrides. -/
structure Overrides where
  schema : Option String := none
  modulesRoot : Option String := none
  extension : Option String := none
deriving DecidableEq, Repr

/-- The settings with what is overridden. -/
def override (settings : Settings) (overrides : Overrides) : Settings :=
  { settings with
    schema := overrides.schema.getD settings.schema
    modulesRoot := overrides.modulesRoot.getD settings.modulesRoot
    extension := overrides.extension.getD settings.extension }

/-- The indentation that the settings mean. -/
def indentation (settings : Settings) : Except InvalidSetting Indent :=
  if settings.useTabs then .ok .tab
  else if settings.indent = 2 then .ok .twoSpaces
  else if settings.indent = 4 then .ok .fourSpaces
  else .error (.indent settings.indent)

/-- The extension without the dots before it. -/
def bareExtension (settings : Settings) : Except InvalidSetting String :=
  let bare := settings.extension.toList.dropWhile fun c => c == '.'
  if bare.isEmpty then .error .extension else .ok (String.ofList bare)

/-- The fields that the settings force optional, gathered from nothing: first those of every model,
then list by list those of one model. -/
def optionality (settings : Settings) : Optionality :=
  (Optionality.none.addEverywhere settings.optionalEverywhere).addLists settings.optionalInModel

/-- The options of code generation. The indentation is checked before the extension. -/
def options (settings : Settings) : Except InvalidSetting Options := do
  let indent ← settings.indentation
  let extension ← settings.bareExtension
  return { optionality := settings.optionality, imports := settings.imports, indent, extension }

end Settings

end Scaffold
