import Scaffold.Text.Blank
import Scaffold.Text.Cut
import Scaffold.Text.LetterCase
import Scaffold.Text.Word
import Scaffold.Schema.Field

/-!
Field declarations: `name type attributes` on one line. `Declaration.ofLine?` cuts the line into
its three parts, `TypeToken.ofText` takes the markers off the type, and `Declaration.field`
reads the field that the parts describe.
-/

namespace Scaffold.Schema

open Text

/-- A type as it is written, taken apart: the bare type and its markers. -/
structure TypeToken where
  bare : List Char
  /-- Whether a marker `?` follows the type. -/
  isOptional : Bool
  /-- Whether a marker `[]` follows the type. -/
  isArray : Bool
deriving DecidableEq, Repr

/-- The type whose spelling is given backwards, so that its markers come first. They stand in
any order and number. -/
def TypeToken.ofReversed : List Char → TypeToken
  | '?' :: rest => { ofReversed rest with isOptional := true }
  | ']' :: '[' :: rest => { ofReversed rest with isArray := true }
  | bare => ⟨bare.reverse, false, false⟩

/-- The type of a given spelling. -/
def TypeToken.ofText (text : List Char) : TypeToken :=
  ofReversed text.reverse

/-- Whether a type name means another model: it begins with a capital and is no scalar. -/
def isRelationType (bare : List Char) : Bool :=
  bare.head?.any isUpper && (Scalar.ofName? (String.ofList bare)).isNone

/-- The three parts of a field declaration. -/
structure Declaration where
  name : List Char
  /-- The type as it is written, markers included. -/
  type : List Char
  /-- All that follows the type. -/
  rest : List Char
deriving DecidableEq, Repr

namespace Declaration

/-- The characters that end a type. -/
def endsType (c : Char) : Bool :=
  isBlank c || c == '@'

/-- The declaration on a line: a word, blank space, and a type, which blank space, an attribute
or the end of the line ends. The type without its markers has to be a word. -/
def ofLine? (line : List Char) : Option Declaration :=
  let name := line.takeWhile isWordChar
  let afterName := line.dropWhile isWordChar
  if name.isEmpty || !afterName.head?.any isBlank then none
  else
    let body := trimLeft afterName
    let type := body.takeWhile fun c => !endsType c
    let rest := body.dropWhile fun c => !endsType c
    if isWord (TypeToken.ofText type).bare then some ⟨name, type, rest⟩ else none

/-- The field that a declaration at a given line describes. An attribute counts wherever its
text stands after the type. -/
def field (declaration : Declaration) (line : Nat) : Field :=
  let type := TypeToken.ofText declaration.type
  { name := String.ofList declaration.name
    type := String.ofList type.bare
    isOptional := type.isOptional
    isId := occursIn "@id".toList declaration.rest
    isUnique := occursIn "@unique".toList declaration.rest
    hasDefault := occursIn "@default".toList declaration.rest
    isArray := type.isArray
    relation := if isRelationType type.bare then some (String.ofList type.bare) else none
    line }

end Declaration

/-- The field declared on a line, if the line declares one. -/
def Field.ofLine? (text : List Char) (line : Nat) : Option Field :=
  (Declaration.ofLine? text).map fun declaration => declaration.field line

end Scaffold.Schema
