import Scaffold.Generation.Summary

/-!
The listing of a schema as JSON: a list of records, one item to a line, two spaces for each
level.
-/

namespace Scaffold.Console

open Generation (Summary)

/-- A hexadecimal digit. -/
def hexDigit (n : Nat) : Char :=
  if n < 10 then Char.ofNat ('0'.toNat + n) else Char.ofNat ('a'.toNat + (n - 10))

/-- A character of a JSON string. Quotes, backslashes and control characters are escaped. -/
def escapeJson : Char → List Char
  | '"' => ['\\', '"']
  | '\\' => ['\\', '\\']
  | '\x08' => ['\\', 'b']
  | '\x0c' => ['\\', 'f']
  | '\n' => ['\\', 'n']
  | '\r' => ['\\', 'r']
  | '\t' => ['\\', 't']
  | c =>
    if c.toNat < 0x20 then ['\\', 'u', '0', '0', hexDigit (c.toNat / 16), hexDigit (c.toNat % 16)]
    else [c]

/-- A text as a JSON string. -/
def jsonText (text : String) : String :=
  "\"" ++ String.ofList (text.toList.flatMap escapeJson) ++ "\""

/-- A truth value in JSON. -/
def jsonBoolean (value : Bool) : String :=
  if value then "true" else "false"

/-- The spaces before a line at some depth. -/
def jsonIndent (depth : Nat) : String :=
  String.ofList (List.replicate (2 * depth) ' ')

/-- Items between two brackets, at some depth. No items need no lines. -/
def jsonEnclosed (first last : String) (depth : Nat) (items : List String) : String :=
  if items.isEmpty then first ++ last
  else
    first ++ "\n" ++ ",\n".intercalate (items.map fun item => jsonIndent (depth + 1) ++ item) ++
      "\n" ++ jsonIndent depth ++ last

/-- A list in JSON. -/
def jsonList (depth : Nat) (items : List String) : String :=
  jsonEnclosed "[" "]" depth items

/-- A record in JSON. -/
def jsonRecord (depth : Nat) (members : List (String × String)) : String :=
  jsonEnclosed "\x7b" "\x7d" depth (members.map fun (key, value) => jsonText key ++ ": " ++ value)

/-- The members of an entry of the listing. The fields of a composite identity are listed only
where there is one. -/
def jsonMembers (summary : Summary) : List (String × String) :=
  let always :=
    [("name", jsonText summary.name),
      ("module", jsonText summary.moduleName),
      ("capability", jsonText summary.capability.label),
      ("hasTimestamps", jsonBoolean summary.hasTimestamps),
      ("hasSoftDelete", jsonBoolean summary.hasSoftDelete)]
  if summary.compositeFields.isEmpty then always
  else always ++ [("compositeIdFields", jsonList 2 (summary.compositeFields.map jsonText))]

/-- The listing of some models as JSON. -/
def jsonListing (summaries : List Summary) : String :=
  jsonList 0 (summaries.map fun summary => jsonRecord 1 (jsonMembers summary))

end Scaffold.Console
