import Scaffold.Settings.Basic

/-!
The command line: flags, options with a value, and at most one model name, in any order. Names
are written in full behind two hyphens, or as one letter behind one hyphen, where several
letters may stand together. Nothing may be given twice.

`Given.read` gathers the arguments from left to right, and a request for help or for the version
counts as soon as it is reached. `Given.command` then says what is to be done.
-/

namespace Scaffold.Console

/-! ### Names -/

/-- What is either given or not. -/
inductive Flag where
  | list
  | json
  | dryRun
  | init
  | force
  | verbose
  | help
  | version
deriving DecidableEq, Repr

/-- All flags, in no order that matters. -/
def Flag.all : List Flag := [.list, .json, .dryRun, .init, .force, .verbose, .help, .version]

/-- The name of a flag. -/
def Flag.name : Flag → String
  | .list => "list"
  | .json => "json"
  | .dryRun => "dry-run"
  | .init => "init"
  | .force => "force"
  | .verbose => "verbose"
  | .help => "help"
  | .version => "version"

/-- The letter of a flag, if it has one. -/
def Flag.letter? : Flag → Option Char
  | .list => some 'l'
  | .verbose => some 'v'
  | .help => some 'h'
  | .version => some 'V'
  | _ => none

/-- What is given with a value. -/
inductive Parameter where
  | schema
  | modulesRoot
  | extension
  | settingsFile
deriving DecidableEq, Repr

/-- All parameters, in no order that matters. -/
def Parameter.all : List Parameter := [.schema, .modulesRoot, .extension, .settingsFile]

/-- The name of a parameter. -/
def Parameter.name : Parameter → String
  | .schema => "schema"
  | .modulesRoot => "modules-dir"
  | .extension => "ext"
  | .settingsFile => "config"

/-- The letter of a parameter, if it has one. -/
def Parameter.letter? : Parameter → Option Char
  | .settingsFile => some 'c'
  | _ => none

/-- Whether a parameter is a path, which is never empty. -/
def Parameter.isPath : Parameter → Bool
  | .extension => false
  | _ => true

/-- What an argument with hyphens means. -/
inductive Meaning where
  | flag (flag : Flag)
  | parameter (parameter : Parameter)
deriving DecidableEq, Repr

/-- The meaning of a name. -/
def Meaning.ofName? (name : String) : Option Meaning :=
  ((Flag.all.find? fun flag => flag.name == name).map .flag).or
    ((Parameter.all.find? fun parameter => parameter.name == name).map .parameter)

/-- The meaning of a letter. -/
def Meaning.ofLetter? (letter : Char) : Option Meaning :=
  ((Flag.all.find? fun flag => flag.letter? == some letter).map .flag).or
    ((Parameter.all.find? fun parameter => parameter.letter? == some letter).map .parameter)

/-! ### Reading -/

/-- Why the reading of arguments ends before its time. -/
inductive Stop where
  /-- The arguments mean nothing. -/
  | misuse
  | help
  | version
deriving DecidableEq, Repr

/-- What has been given so far. -/
structure Given where
  flags : List Flag := []
  values : List (Parameter × String) := []
  model : Option String := none
deriving DecidableEq, Repr

namespace Given

/-- Whether a flag is given. -/
def has (given : Given) (flag : Flag) : Bool :=
  given.flags.contains flag

/-- The value of a parameter, if one is given. -/
def value? (given : Given) (parameter : Parameter) : Option String :=
  given.values.lookup parameter

/-- Gives a flag. -/
def raise (given : Given) : Flag → Except Stop Given
  | .help => .error .help
  | .version => .error .version
  | flag =>
    if given.has flag then .error .misuse
    else .ok { given with flags := flag :: given.flags }

/-- Gives a parameter its value. -/
def assign (given : Given) (parameter : Parameter) (value : String) : Except Stop Given :=
  if (given.value? parameter).isSome || (parameter.isPath && value.isEmpty) then .error .misuse
  else .ok { given with values := (parameter, value) :: given.values }

/-- Gives the model name. -/
def place (given : Given) (model : String) : Except Stop Given :=
  if given.model.isSome then .error .misuse else .ok { given with model := some model }

/-- Reads a name, and the value behind its equals sign if it has one. A parameter without a
value is returned: it waits for the next argument. -/
def readName (given : Given) (argument : List Char) : Except Stop (Given × Option Parameter) :=
  let name := argument.takeWhile fun c => c != '='
  match Meaning.ofName? (String.ofList name), argument.dropWhile fun c => c != '=' with
  | none, _ => .error .misuse
  | some (.flag flag), [] => (given.raise flag).map fun given => (given, none)
  | some (.flag _), _ => .error .misuse
  | some (.parameter parameter), [] => .ok (given, some parameter)
  | some (.parameter parameter), _ :: value =>
    (given.assign parameter (String.ofList value)).map fun given => (given, none)

/-- Reads letters. The letter of a parameter is the last one: its value stands behind it, with
or without an equals sign, or is the next argument. -/
def readLetters (given : Given) : List Char → Except Stop (Given × Option Parameter)
  | [] => .ok (given, none)
  | letter :: rest =>
    match Meaning.ofLetter? letter, rest with
    | none, _ => .error .misuse
    | some (.flag flag), rest => (given.raise flag).bind fun given => given.readLetters rest
    | some (.parameter parameter), [] => .ok (given, some parameter)
    | some (.parameter parameter), '=' :: value =>
      (given.assign parameter (String.ofList value)).map fun given => (given, none)
    | some (.parameter parameter), value =>
      (given.assign parameter (String.ofList value)).map fun given => (given, none)

/-- Reads arguments none of which is a name. -/
def readPlain (given : Given) : List String → Except Stop Given
  | [] => .ok given
  | argument :: rest => (given.place argument).bind fun given => given.readPlain rest

/-- Reads arguments, given the parameter that waits for its value. Two hyphens alone end the
names; one hyphen alone is no name. -/
def read (given : Given) (waiting : Option Parameter) : List String → Except Stop Given
  | [] => if waiting.isSome then .error .misuse else .ok given
  | argument :: rest =>
    match argument.toList, waiting with
    | ['-', '-'], none => given.readPlain rest
    | '-' :: _ :: _, some _ => .error .misuse
    | '-' :: '-' :: name, none =>
      (given.readName name).bind fun (given, waiting) => given.read waiting rest
    | '-' :: letter :: letters, none =>
      (given.readLetters (letter :: letters)).bind fun (given, waiting) => given.read waiting rest
    | _, some parameter => (given.assign parameter argument).bind fun given => given.read none rest
    | _, none => (given.place argument).bind fun given => given.read none rest

end Given

/-! ### Commands -/

/-- Where settings come from: the file asked for, if one is, and what overrides it. -/
structure Setup where
  file : Option String
  overrides : Settings.Overrides
deriving DecidableEq, Repr

/-- What is to be done. -/
inductive Command where
  | help
  | version
  /-- Nothing is asked for: tell what there is. -/
  | overview
  /-- Write a settings file, if asked for over an existing one. -/
  | writeSettings (path : Option String) (force : Bool)
  | list (setup : Setup) (asJson : Bool)
  | generate (setup : Setup) (model : String) (dryRun : Bool)
deriving DecidableEq, Repr

namespace Given

/-- The setup that is given. -/
def setup (given : Given) : Setup where
  file := given.value? .settingsFile
  overrides :=
    { schema := given.value? .schema
      modulesRoot := given.value? .modulesRoot
      extension := given.value? .extension }

/-- Whether more than one thing is asked for. -/
def isAmbiguous (given : Given) : Bool :=
  (given.has .list && given.model.isSome) || (given.has .init && given.model.isSome) ||
    (given.has .init && given.has .list)

/-- Whether anything is asked for. -/
def hasTask (given : Given) : Bool :=
  given.has .list || given.has .init || given.model.isSome

/-- The command that is given. Whether the list is JSON, or a file is overwritten, may be said
only where something is asked for. -/
def command? (given : Given) : Option Command :=
  if given.isAmbiguous || (!given.hasTask && (given.has .json || given.has .force)) then none
  else if given.has .init then
    some (.writeSettings (given.value? .settingsFile) (given.has .force))
  else
    match given.model with
    | some model => some (.generate given.setup model (given.has .dryRun))
    | none => some (if given.has .list then .list given.setup (given.has .json) else .overview)

end Given

/-- A command, and whether its steps are logged. -/
structure Invocation where
  command : Command
  verbose : Bool
deriving DecidableEq, Repr

/-- The invocation that the arguments of the program mean, if they mean one. -/
def Invocation.ofArguments? (arguments : List String) : Option Invocation :=
  match Given.read {} none arguments with
  | .error .misuse => none
  | .error .help => some ⟨.help, false⟩
  | .error .version => some ⟨.version, false⟩
  | .ok given => given.command?.map fun command => ⟨command, given.has .verbose⟩

end Scaffold.Console
