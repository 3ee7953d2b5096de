/-!
Coloured text. A span is a text with a style; where colours are off it is the text alone.
-/

namespace Scaffold.Console

/-- How a text is set off. -/
inductive Style where
  | bold
  | dimmed
  | cyan
  | green
  | yellow
  | boldGreen
  | boldRed
deriving DecidableEq, Repr

/-- The parameters of the terminal's sequence for a style. -/
def Style.code : Style → String
  | .bold => "1"
  | .dimmed => "2"
  | .cyan => "36"
  | .green => "32"
  | .yellow => "33"
  | .boldGreen => "1;32"
  | .boldRed => "1;31"

/-- A text in one style, or in none. -/
structure Span where
  style : Option Style := none
  text : String
deriving DecidableEq, Repr

/-- A text that is not set off. -/
def plain (text : String) : Span := { text }

/-- A text that is set off. -/
def styled (style : Style) (text : String) : Span := { style := some style, text }

/-- The text of a span, with the sequences of its style if colours are on. -/
def Span.render (coloured : Bool) (span : Span) : String :=
  match span.style with
  | some style =>
    if coloured then "\x1b[" ++ style.code ++ "m" ++ span.text ++ "\x1b[0m" else span.text
  | none => span.text

/-- The text of several spans. -/
def renderSpans (coloured : Bool) (spans : List Span) : String :=
  String.join (spans.map (Span.render coloured))

end Scaffold.Console
