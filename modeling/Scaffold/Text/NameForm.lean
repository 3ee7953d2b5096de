import Scaffold.Text.LetterCase

/-!
The forms that a declared name takes in generated code: `capitalize` for class names,
`uncapitalize` for properties and accessors, `hyphenate` for file names and routes.
-/

namespace Scaffold.Text

/-- The name with its first character in upper case and the rest as it was. -/
def capitalize (name : String) : String :=
  match name.toList with
  | [] => ""
  | c :: rest => String.ofList (upper c ++ rest)

/-- The name with its first character in lower case and the rest as it was. -/
def uncapitalize (name : String) : String :=
  match name.toList with
  | [] => ""
  | c :: rest => String.ofList (lower c ++ rest)

/-- The text with a hyphen at every step from an ASCII small letter to an ASCII capital.
`afterSmall` says whether a small letter stands before it. -/
def markHumps (afterSmall : Bool) : List Char → List Char
  | [] => []
  | c :: rest =>
    if afterSmall && c.isUpper then '-' :: c :: markHumps c.isLower rest
    else c :: markHumps c.isLower rest

/-- The name in lower case with a hyphen at every step from a small letter to a capital. A run
of capitals is not split. -/
def hyphenate (name : String) : String :=
  String.ofList (lowerText (markHumps false name.toList))

/-- The whole name in lower case. -/
def lowercase (name : String) : String :=
  String.ofList (lowerText name.toList)

end Scaffold.Text
