/-!
Blank space. `isBlank` is the Unicode property White_Space, which schema texts are trimmed and
split by; `trim` removes it at both ends and `words` splits at it.
-/

namespace Scaffold.Text

/-- The characters of the property White_Space: tab to carriage return, the space, next line,
no-break space, the Ogham space, the typographic spaces, the two separators, the narrow and the
mathematical space and the ideographic space. -/
def isBlank (c : Char) : Bool :=
  let code := c.toNat
  (0x9 ≤ code && code ≤ 0xD) || code == 0x20 || code == 0x85 || code == 0xA0 || code == 0x1680 ||
    (0x2000 ≤ code && code ≤ 0x200A) || code == 0x2028 || code == 0x2029 || code == 0x202F ||
    code == 0x205F || code == 0x3000

/-- The text without its leading blank space. -/
def trimLeft (text : List Char) : List Char :=
  text.dropWhile isBlank

/-- The text without its trailing blank space. -/
def trimRight (text : List Char) : List Char :=
  (trimLeft text.reverse).reverse

/-- The text without the blank space at its two ends. -/
def trim (text : List Char) : List Char :=
  trimRight (trimLeft text)

/-- The maximal runs of characters that are not blank. -/
def words (text : List Char) : List (List Char) :=
  (text.splitOnP isBlank).filter fun word => !word.isEmpty

end Scaffold.Text
