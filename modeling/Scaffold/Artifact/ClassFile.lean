import Scaffold.Artifact.Options

/-!
Generated source files. A file imports names and exports one class, which is decorated, may
extend another, and has members with an empty line between two of them. The parts are kept apart
(`Import`, `Parameter`, `Call`, `Method`, …) and only `ClassFile.render` makes text of them, line
by line.
-/

namespace Scaffold.Artifact

/-- A line of code at a level of indentation. -/
structure Line where
  depth : Nat
  text : String
deriving DecidableEq, Repr

/-- The empty line. -/
def Line.blank : Line := ⟨0, ""⟩

/-- The text of a line. An empty line is not indented. -/
def Line.render (indent : Indent) (line : Line) : String :=
  if line.text.isEmpty then "\n" else indent.levels line.depth ++ line.text ++ "\n"

/-- The text of some lines. -/
def renderLines (indent : Indent) (lines : List Line) : String :=
  String.join (lines.map fun line => line.render indent)

/-- A text in braces, with a space on either side. -/
def braced (inner : String) : String := "\x7b " ++ inner ++ " \x7d"

/-- A text in single quotes. -/
def quoted (inner : String) : String := "'" ++ inner ++ "'"

/-- The parts of an enumeration. -/
def commaSeparated (parts : List String) : String := ", ".intercalate parts

/-- A line that opens a block of code. -/
def opening (depth : Nat) (head : String) : Line := ⟨depth, head ++ " \x7b"⟩

/-- The line that closes a block of code. -/
def closing (depth : Nat) : Line := ⟨depth, "\x7d"⟩

/-- Names that a file imports, and the path it has them from. -/
structure Import where
  names : List String
  path : String
deriving DecidableEq, Repr

def Import.text (imported : Import) : String :=
  "import " ++ braced (commaSeparated imported.names) ++ " from " ++ quoted imported.path ++ ";"

/-- A parameter of a method. -/
structure Parameter where
  /-- The decorator before the name, or nothing. -/
  decorator : Option String := none
  name : String
  type : String
deriving DecidableEq, Repr

def Parameter.text (parameter : Parameter) : String :=
  match parameter.decorator with
  | none => parameter.name ++ ": " ++ parameter.type
  | some decorator => decorator ++ " " ++ parameter.name ++ ": " ++ parameter.type

/-- The parameters of a method as they stand between its parentheses. -/
def parameterList (parameters : List Parameter) : String :=
  commaSeparated (parameters.map Parameter.text)

/-- A call of a method. -/
structure Call where
  receiver : String
  method : String
  arguments : List String
deriving DecidableEq, Repr

def Call.text (call : Call) : String :=
  call.receiver ++ "." ++ call.method ++ "(" ++ commaSeparated call.arguments ++ ")"

/-- A method that returns the result of one call. -/
structure Method where
  /-- The decorators, one to a line. -/
  decorators : List String := []
  isAsync : Bool
  name : String
  parameters : List Parameter
  /-- The type of the promised result. -/
  result : String
  body : Call
deriving DecidableEq, Repr

def Method.lines (method : Method) : List Line :=
  let mark := if method.isAsync then "async " else ""
  method.decorators.map (Line.mk 1) ++
    [opening 1 (mark ++ method.name ++ "(" ++ parameterList method.parameters ++ "): Promise<" ++
        method.result ++ ">"),
      ⟨2, "return " ++ method.body.text ++ ";"⟩,
      closing 1]

/-- A constructor that injects one property. -/
structure Injection where
  /-- Whether the property is passed on to the base class. -/
  toBase : Bool
  name : String
  type : String
deriving DecidableEq, Repr

def Injection.lines (injection : Injection) : List Line :=
  let property := "readonly " ++ injection.name ++ ": " ++ injection.type
  if injection.toBase then
    [opening 1 ("constructor(protected " ++ property ++ ")"),
      ⟨2, "super(" ++ injection.name ++ ");"⟩,
      closing 1]
  else [⟨1, "constructor(private " ++ property ++ ") \x7b\x7d"⟩]

/-- A decorated property. -/
structure Property where
  /-- The decorators, one to a line. -/
  decorators : List String
  name : String
  isOptional : Bool
  type : String
deriving DecidableEq, Repr

def Property.lines (property : Property) : List Line :=
  let mark := if property.isOptional then "?" else ""
  property.decorators.map (Line.mk 1) ++ [⟨1, property.name ++ mark ++ ": " ++ property.type ++ ";"⟩]

/-- A member of a class. -/
inductive Member where
  | property (declared : Property)
  | injection (declared : Injection)
  | method (declared : Method)
  /-- Code and comments with no names of their own to bind. -/
  | fixed (text : List Line)
deriving DecidableEq, Repr

def Member.lines : Member → List Line
  | .property declared => declared.lines
  | .injection declared => declared.lines
  | .method declared => declared.lines
  | .fixed text => text

/-- A decorator of the class. -/
inductive Decorator where
  /-- A decorator with its argument, which may be empty. -/
  | plain (name argument : String)
  /-- A decorator with a table of lists. -/
  | table (name : String) (rows : List (String × List String))
deriving DecidableEq, Repr

def Decorator.lines : Decorator → List Line
  | .plain name argument => [⟨0, "@" ++ name ++ "(" ++ argument ++ ")"⟩]
  | .table name rows =>
    ⟨0, "@" ++ name ++ "(\x7b"⟩ ::
      (rows.map fun (key, items) => ⟨1, key ++ ": [" ++ commaSeparated items ++ "],"⟩) ++
      [⟨0, "\x7d)"⟩]

/-- The class that a class extends. -/
inductive Heritage where
  | nothing
  /-- A base class of the entity's type. -/
  | base (name entity : String)
  /-- All properties of another class, each optional. -/
  | partialOf (name : String)
deriving DecidableEq, Repr

def Heritage.text : Heritage → String
  | .nothing => ""
  | .base name entity => " extends " ++ name ++ "<" ++ entity ++ ">"
  | .partialOf name => " extends PartialType(" ++ name ++ ")"

/-- A file that exports one class. -/
structure ClassFile where
  imports : List Import
  decorators : List Decorator := []
  name : String
  heritage : Heritage := .nothing
  members : List Member := []
deriving DecidableEq, Repr

namespace ClassFile

/-- The lines of the class. A class without members is one line. -/
def classLines (file : ClassFile) : List Line :=
  let head := "export class " ++ file.name ++ file.heritage.text
  if file.members.isEmpty then [⟨0, head ++ " \x7b\x7d"⟩]
  else
    opening 0 head ::
      (List.intersperse [Line.blank] (file.members.map Member.lines)).flatten ++ [closing 0]

/-- All lines of the file. -/
def lines (file : ClassFile) : List Line :=
  file.imports.map (fun imported => ⟨0, imported.text⟩) ++ [Line.blank] ++
    file.decorators.flatMap Decorator.lines ++ file.classLines

/-- The text of the file. -/
def render (indent : Indent) (file : ClassFile) : String :=
  renderLines indent file.lines

end ClassFile

end Scaffold.Artifact
