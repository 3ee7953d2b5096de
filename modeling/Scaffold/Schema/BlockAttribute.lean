import Scaffold.Text.Blank
import Scaffold.Text.Cut
import Scaffold.Schema.Model

/-!
Block attributes. Of the lines that begin with two at signs only the composite identity is
read: a list of fields in brackets and, behind it, the argument that names the lookup key.
-/

namespace Scaffold.Schema

open Text

/-- Whether a line is a block attribute. -/
def isBlockAttribute : List Char → Bool
  | '@' :: '@' :: _ => true
  | _ => false

/-- The arguments of a composite identity, from behind the opening parenthesis. -/
def identityArguments? (text : List Char) : Option (List Char) :=
  (dropPrefix? "@@id".toList text).bind fun rest => dropPrefix? ['('] (trimLeft rest)

/-- The entries of the first list in brackets: what stands between the commas, trimmed, empty
entries left out. -/
def fieldList? (arguments : List Char) : Option (List String) :=
  (cutAt? '[' arguments).bind fun (_, inner) =>
    (cutAt? ']' inner).map fun (list, _) =>
      (((list.splitOn ',').map trim).filter fun entry => !entry.isEmpty).map String.ofList

/-- The key in an argument `name: "key"`. An empty key is none. -/
def keyOfArgument? (argument : List Char) : Option String :=
  (dropPrefix? "name".toList (trim argument)).bind fun rest =>
    (dropPrefix? [':'] (trimLeft rest)).bind fun value =>
      (dropPrefix? ['"'] (trimLeft value)).bind fun quoted =>
        (cutAt? '"' quoted).bind fun (key, _) =>
          if key.isEmpty then none else some (String.ofList key)

/-- The key that the arguments behind the first closing bracket declare. -/
def keyName? (arguments : List Char) : Option String :=
  (cutAt? ']' arguments).bind fun (_, behind) => (behind.splitOn ',').findSome? keyOfArgument?

/-- The composite identity that arguments describe, if they list a field. -/
def CompositeId.ofArguments? (arguments : List Char) : Option CompositeId :=
  (fieldList? arguments).bind fun fields => ofFields? fields (keyName? arguments)

end Scaffold.Schema
