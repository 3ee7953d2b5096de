/-!
Quoted strings of a TOML document: on one line or several, with escapes or literal. Each reader
takes the text behind the opening quotes, and returns the string and the text behind the closing
ones.
-/

namespace Scaffold.Settings

/-- The characters that may stand in a comment or a string: no control characters but the
tab. -/
def isPlain (c : Char) : Bool :=
  c == '\t' || (0x20 ≤ c.toNat && c.toNat != 0x7F)

/-- Whether a text begins with the end of a line. -/
def startsNewline : List Char → Bool
  | '\n' :: _ => true
  | '\r' :: '\n' :: _ => true
  | _ => false

/-- Whether the character is blank space inside a line. -/
def isSpace (c : Char) : Bool := c == ' ' || c == '\t'

/-- The value of a hexadecimal digit. -/
def hexValue? (c : Char) : Option Nat :=
  if c.isDigit then some (c.toNat - '0'.toNat)
  else if 'a' ≤ c && c ≤ 'f' then some (c.toNat - 'a'.toNat + 10)
  else if 'A' ≤ c && c ≤ 'F' then some (c.toNat - 'A'.toNat + 10)
  else none

/-- The character of a hexadecimal code, if it is a character. -/
def charOfHex? (digits : List Char) : Option Char := do
  let code ← digits.foldlM (fun value c => (hexValue? c).map fun digit => value * 16 + digit) 0
  if code.isValidChar then some (Char.ofNat code) else none

/-- The character that an escape of one letter stands for. -/
def escape? : Char → Option Char
  | 'b' => some '\x08'
  | 't' => some '\t'
  | 'n' => some '\n'
  | 'f' => some '\x0c'
  | 'r' => some '\r'
  | 'e' => some '\x1b'
  | '"' => some '"'
  | '\\' => some '\\'
  | _ => none

/-- The string with one more character in front, if there is one. -/
def prepend (c : Option Char) (tail : Option (List Char × List Char)) :
    Option (List Char × List Char) :=
  match c, tail with
  | some c, some (text, rest) => some (c :: text, rest)
  | _, _ => none

/-- A string with escapes on one line. -/
def basic? : List Char → Option (List Char × List Char)
  | [] => none
  | '"' :: rest => some ([], rest)
  | '\\' :: 'x' :: a :: b :: rest => prepend (charOfHex? [a, b]) (basic? rest)
  | '\\' :: 'u' :: a :: b :: c :: d :: rest => prepend (charOfHex? [a, b, c, d]) (basic? rest)
  | '\\' :: 'U' :: a :: b :: c :: d :: e :: f :: g :: h :: rest =>
    prepend (charOfHex? [a, b, c, d, e, f, g, h]) (basic? rest)
  | '\\' :: c :: rest => prepend (escape? c) (basic? rest)
  | c :: rest => if isPlain c then prepend (some c) (basic? rest) else none

/-- A literal string on one line. -/
def literal? : List Char → Option (List Char × List Char)
  | [] => none
  | '\'' :: rest => some ([], rest)
  | c :: rest => if isPlain c then prepend (some c) (literal? rest) else none

/-- Whether a character may stand in a string of several lines. A carriage return may only be
part of the end of a line. -/
def isPlainOrNewline (c : Char) (rest : List Char) : Bool :=
  isPlain c || c == '\n' || (c == '\r' && rest.head? == some '\n')

/-- A string with escapes over several lines, from behind its first line end. Up to two quotes
may stand before the closing ones. A backslash at the end of a line takes away all blank space
up to the next character; `folding` says that this is going on. -/
def basicLines? (folding : Bool) : List Char → Option (List Char × List Char)
  | [] => none
  | '"' :: '"' :: '"' :: '"' :: '"' :: rest => some (['"', '"'], rest)
  | '"' :: '"' :: '"' :: '"' :: rest => some (['"'], rest)
  | '"' :: '"' :: '"' :: rest => some ([], rest)
  | '\\' :: 'x' :: a :: b :: rest => prepend (charOfHex? [a, b]) (basicLines? false rest)
  | '\\' :: 'u' :: a :: b :: c :: d :: rest =>
    prepend (charOfHex? [a, b, c, d]) (basicLines? false rest)
  | '\\' :: 'U' :: a :: b :: c :: d :: e :: f :: g :: h :: rest =>
    prepend (charOfHex? [a, b, c, d, e, f, g, h]) (basicLines? false rest)
  | '\\' :: c :: rest =>
    if startsNewline ((c :: rest).dropWhile isSpace) then basicLines? true (c :: rest)
    else prepend (escape? c) (basicLines? false rest)
  | c :: rest =>
    if !isPlainOrNewline c rest then none
    else if folding && (isSpace c || c == '\n' || c == '\r') then basicLines? true rest
    else prepend (some c) (basicLines? false rest)

/-- A literal string over several lines, from behind its first line end. -/
def literalLines? : List Char → Option (List Char × List Char)
  | [] => none
  | '\'' :: '\'' :: '\'' :: '\'' :: '\'' :: rest => some (['\'', '\''], rest)
  | '\'' :: '\'' :: '\'' :: '\'' :: rest => some (['\''], rest)
  | '\'' :: '\'' :: '\'' :: rest => some ([], rest)
  | c :: rest =>
    if isPlainOrNewline c rest then prepend (some c) (literalLines? rest) else none

/-- The text without the end of a line at its beginning. -/
def dropNewline : List Char → List Char
  | '\n' :: rest => rest
  | '\r' :: '\n' :: rest => rest
  | text => text

end Scaffold.Settings
