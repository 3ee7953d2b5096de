/-!
Words: the names and keywords of a schema. A word is a non-empty run of ASCII letters, ASCII
digits and underscores.
-/

namespace Scaffold.Text

/-- The characters that a word is made of: ASCII letters, ASCII digits and the underscore. -/
def isWordChar (c : Char) : Bool :=
  c.isAlphanum || c == '_'

/-- Whether the text is a word: it is not empty and all of it is made of word characters. -/
def isWord (text : List Char) : Bool :=
  !text.isEmpty && text.all isWordChar

theorem isWord_iff {text : List Char} :
    isWord text = true ↔ text ≠ [] ∧ ∀ c ∈ text, isWordChar c = true := by
  simp [isWord]

end Scaffold.Text
