import Scaffold.Settings.Atom
import Scaffold.Settings.Quoted

/-!
Reading a TOML document. `read?` takes the text to the entries of its root table, or refuses it.
Values nest, so the readers of values take a bound on their steps; the length of the text is
always enough. How deep values nest and how many parts a dotted key has is limited.
-/

namespace Scaffold.Settings

/-- The text behind blank space inside a line. -/
def skipSpace (text : List Char) : List Char := text.dropWhile isSpace

/-- The text behind blank space, line ends and comments. `inComment` says that a comment is
open. -/
def skipFill (inComment : Bool) : List Char → List Char
  | [] => []
  | c :: rest =>
    if c = '\n' || (c = '\r' && rest.head? = some '\n') then skipFill false rest
    else if inComment then if isPlain c then skipFill true rest else c :: rest
    else if isSpace c then skipFill false rest
    else if c = '#' then skipFill true rest
    else c :: rest

/-- The text behind the rest of a line, which may hold blank space and a comment only. -/
def endLine? (text : List Char) : Option (List Char) :=
  let behind :=
    match skipSpace text with
    | '#' :: comment => comment.dropWhile isPlain
    | rest => rest
  if behind.isEmpty || startsNewline behind then some (dropNewline behind) else none

/-- The characters of a key without quotes. -/
def isBareKeyChar (c : Char) : Bool := c.isAlphanum || c == '_' || c == '-'

/-- One key, and the text behind it. -/
def key? : List Char → Option (String × List Char)
  | '"' :: rest => (basic? rest).map fun (key, rest) => (String.ofList key, rest)
  | '\'' :: rest => (literal? rest).map fun (key, rest) => (String.ofList key, rest)
  | text =>
    let key := text.takeWhile isBareKeyChar
    if key.isEmpty then none else some (String.ofList key, text.dropWhile isBareKeyChar)

/-- A dotted key of at most as many parts as the bound, and the text behind it. -/
def parts? : Nat → List Char → Option (List String × List Char)
  | 0, _ => none
  | bound + 1, text =>
    (key? (skipSpace text)).bind fun (key, rest) =>
      match skipSpace rest with
      | '.' :: rest => (parts? bound rest).map fun (keys, rest) => (key :: keys, rest)
      | rest => some ([key], rest)

/-- How many parts a dotted key has at most. -/
def maxParts : Nat := 80

/-- How many lists and inline tables may stand inside each other. -/
def maxDepth : Nat := 80

/-- The keys of a dotted key, and the text behind it. -/
def dottedKey? (text : List Char) : Option (List String × List Char) := parts? maxParts text

/-- What separates a key, its equals sign and its value: blank space inside a line, and in an
inline table all that may separate its entries. -/
def skipGap (inBraces : Bool) (text : List Char) : List Char :=
  if inBraces then skipFill false text else skipSpace text

mutual

/-- A value, and the text behind it. The second number says how many more lists and inline
tables may nest in it. -/
def value? : Nat → Nat → List Char → Option (Value × List Char)
  | 0, _, _ => none
  | steps + 1, depth, text =>
    let asString (read : Option (List Char × List Char)) : Option (Value × List Char) :=
      read.map fun (text, rest) => (.string (String.ofList text), rest)
    match text with
    | '"' :: '"' :: '"' :: rest => asString (basicLines? false (dropNewline rest))
    | '"' :: rest => asString (basic? rest)
    | '\'' :: '\'' :: '\'' :: rest => asString (literalLines? (dropNewline rest))
    | '\'' :: rest => asString (literal? rest)
    | '[' :: rest =>
      if depth = 0 then none
      else
        (elements? steps (depth - 1) (skipFill false rest)).map fun (elements, rest) =>
          (.array false elements, rest)
    | '{' :: rest =>
      if depth = 0 then none
      else
        (inlineEntries? steps (depth - 1) [] (skipFill false rest)).map fun (entries, rest) =>
          (.table .inline entries, rest)
    | text =>
      let (atom, rest) := takeAtom text
      (atom? atom).map fun value => (value, rest)

/-- The elements of a list up to its closing bracket, and the text behind it. The last element
may be followed by a comma. -/
def elements? : Nat → Nat → List Char → Option (List Value × List Char)
  | 0, _, _ => none
  | steps + 1, depth, text =>
    match text with
    | ']' :: rest => some ([], rest)
    | text =>
      (value? steps depth text).bind fun (element, rest) =>
        match skipFill false rest with
        | ',' :: rest =>
          (elements? steps depth (skipFill false rest)).map fun (elements, rest) =>
            (element :: elements, rest)
        | ']' :: rest => some ([element], rest)
        | _ => none

/-- The entries of an inline table up to its closing brace, and the text behind it. The last
entry may be followed by a comma. -/
def inlineEntries? : Nat → Nat → Entries → List Char → Option (Entries × List Char)
  | 0, _, _, _ => none
  | steps + 1, depth, entries, text =>
    match text with
    | '}' :: rest => some (entries, rest)
    | text =>
      (assignment? steps depth true text).bind fun (path, value, rest) =>
        (entries.defineDotted? value path).bind fun entries =>
          match skipFill false rest with
          | ',' :: rest => inlineEntries? steps depth entries (skipFill false rest)
          | '}' :: rest => some (entries, rest)
          | _ => none

/-- A dotted key, an equals sign and a value, and the text behind them. -/
def assignment? : Nat → Nat → Bool → List Char → Option (List String × Value × List Char)
  | 0, _, _, _ => none
  | steps + 1, depth, inBraces, text =>
    (dottedKey? text).bind fun (path, rest) =>
      match skipGap inBraces rest with
      | '=' :: rest =>
        (value? steps depth (skipGap inBraces rest)).map fun (value, rest) => (path, value, rest)
      | _ => none

end

/-- A document that is being read: the root table, and the table that entries go to. -/
structure Draft where
  root : Entries
  current : List String

/-- The draft after the header of a table. -/
def Draft.enter? (draft : Draft) (path : List String) : Option Draft :=
  path.getLast?.bind fun key =>
    (draft.root.alter? false (Entries.defineHeader? key) path.dropLast).map fun root =>
      ⟨root, path⟩

/-- The draft after the header of a table in a list. -/
def Draft.append? (draft : Draft) (path : List String) : Option Draft :=
  path.getLast?.bind fun key =>
    (draft.root.alter? false (Entries.appendHeader? key) path.dropLast).map fun root =>
      ⟨root, path⟩

/-- The draft with one more entry in the current table. -/
def Draft.define? (draft : Draft) (path : List String) (value : Value) : Option Draft :=
  (draft.root.alter? false (fun entries => entries.defineDotted? value path) draft.current).map
    fun root => { draft with root }

/-- One header or entry, and the text behind it. -/
def Draft.line? (draft : Draft) (text : List Char) : Option (Draft × List Char) :=
  match text with
  | '[' :: '[' :: rest =>
    (dottedKey? rest).bind fun (path, rest) =>
      match rest with
      | ']' :: ']' :: rest => (draft.append? path).map fun draft => (draft, rest)
      | _ => none
  | '[' :: rest =>
    (dottedKey? rest).bind fun (path, rest) =>
      match rest with
      | ']' :: rest => (draft.enter? path).map fun draft => (draft, rest)
      | _ => none
  | text =>
    (assignment? (2 * text.length + 2) maxDepth false text).bind fun (path, value, rest) =>
      (draft.define? path value).map fun draft => (draft, rest)

/-- The draft after all lines of a text. -/
def Draft.lines? : Nat → Draft → List Char → Option Draft
  | 0, draft, text => if (skipFill false text).isEmpty then some draft else none
  | steps + 1, draft, text =>
    match skipFill false text with
    | [] => some draft
    | text =>
      (draft.line? text).bind fun (draft, rest) =>
        (endLine? rest).bind fun rest => lines? steps draft rest

/-- The root table of a document. A byte order mark in front of it is skipped. -/
def read? (text : List Char) : Option Entries :=
  let text := if text.head? = some '\ufeff' then text.tail else text
  (Draft.lines? text.length ⟨[], []⟩ text).map Draft.root

end Scaffold.Settings
