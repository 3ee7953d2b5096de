import Scaffold.Settings.Value

/-!
Atoms: the values of a TOML document that are written without quotes or brackets. Booleans,
integers in four bases, floats, dates and times.
-/

namespace Scaffold.Settings

/-- The characters of an atom. -/
def isAtomChar (c : Char) : Bool :=
  c.isAlphanum || c == '+' || c == '-' || c == '.' || c == '_' || c == ':'

/-- Whether the text is digits in groups, with one underscore between two groups. -/
def isGrouped (isDigit : Char → Bool) (text : List Char) : Bool :=
  (text.splitOn '_').all fun group => !group.isEmpty && group.all isDigit

/-- The value of a digit in bases up to sixteen. -/
def digitValue (c : Char) : Nat :=
  if c.isDigit then c.toNat - '0'.toNat else c.toLower.toNat - 'a'.toNat + 10

/-- The value of digits in a base. Underscores do not count. -/
def digitsValue (base : Nat) (text : List Char) : Nat :=
  (text.filter fun c => c != '_').foldl (fun value c => value * base + digitValue c) 0

def isHexDigit (c : Char) : Bool :=
  c.isDigit || ('a' ≤ c && c ≤ 'f') || ('A' ≤ c && c ≤ 'F')

def isOctalDigit (c : Char) : Bool := '0' ≤ c && c ≤ '7'

def isBinaryDigit (c : Char) : Bool := c == '0' || c == '1'

/-- Whether the text is a decimal number without sign. A zero stands first only alone. -/
def isDecimal (text : List Char) : Bool :=
  isGrouped Char.isDigit text && (text.length == 1 || text.head? != some '0')

/-- The text without its sign, and whether the sign is a minus. -/
def unsigned : List Char → Bool × List Char
  | '-' :: rest => (true, rest)
  | '+' :: rest => (false, rest)
  | text => (false, text)

/-- The value of an integer, which has room in 128 bits with or without a sign. -/
def boundedInteger (value : Int) : Value :=
  if -Int.ofNat (Nat.pow 2 127) ≤ value ∧ value < Int.ofNat (Nat.pow 2 128) then .integer value
  else .oversized

/-- The integer that an atom is. Only decimal integers have a sign. -/
def integer? (atom : List Char) : Option Int :=
  let based (base : Nat) (isDigit : Char → Bool) (digits : List Char) : Option Int :=
    if isGrouped isDigit digits then some (digitsValue base digits) else none
  match atom with
  | '0' :: 'x' :: digits => based 16 isHexDigit digits
  | '0' :: 'o' :: digits => based 8 isOctalDigit digits
  | '0' :: 'b' :: digits => based 2 isBinaryDigit digits
  | _ =>
    let (negative, digits) := unsigned atom
    if isDecimal digits then
      let value : Int := digitsValue 10 digits
      some (if negative then -value else value)
    else none

/-- The least number that is rounded to infinity where floats have 64 bits: half a step above
the largest float. -/
def floatLimit : Nat := Nat.pow 2 1024 - Nat.pow 2 970

/-- Whether digits with a power of ten are within the range of floats. The number of digits
before the decimal point decides, unless it is that of the limit. -/
def isInFloatRange (significand : List Char) (exponent : Int) : Bool :=
  let digits := (significand.filter fun c => c != '_').dropWhile fun c => c == '0'
  let value := digitsValue 10 digits
  let size : Int := digits.length + exponent
  if digits.isEmpty || size < 309 then true
  else if 309 < size then false
  else if 0 ≤ exponent then decide (value * Nat.pow 10 exponent.toNat < floatLimit)
  else decide (value < floatLimit * Nat.pow 10 (-exponent).toNat)

/-- The float that an atom is: a decimal with a fraction, an exponent or both, or one of the
special values. -/
def float? (atom : List Char) : Option Value :=
  let text := (unsigned atom).2
  let isE (c : Char) : Bool := c == 'e' || c == 'E'
  let mantissa := text.takeWhile fun c => !isE c
  let exponent := text.dropWhile fun c => !isE c
  let whole := mantissa.takeWhile fun c => c != '.'
  let fraction := mantissa.dropWhile fun c => c != '.'
  let exponentOk := exponent.isEmpty || isGrouped Char.isDigit (unsigned exponent.tail).2
  let fractionOk := fraction.isEmpty || isGrouped Char.isDigit fraction.tail
  let (negative, power) := unsigned exponent.tail
  let places : Int := (fraction.tail.filter fun c => c != '_').length
  let scale : Int := digitsValue 10 power
  if text == "inf".toList || text == "nan".toList then some .float
  else if isDecimal whole && fractionOk && exponentOk &&
      !(fraction.isEmpty && exponent.isEmpty) then
    some (if isInFloatRange (whole ++ fraction.tail)
      ((if negative then -scale else scale) - places) then .float else .oversized)
  else none

/-- The number that the text is, if it is exactly so many digits. -/
def fixedDigits? (count : Nat) (text : List Char) : Option Nat :=
  if text.length == count && text.all Char.isDigit then some (digitsValue 10 text) else none

/-- The days of a month. -/
def daysIn (year month : Nat) : Nat :=
  if month == 2 then
    if year % 4 == 0 && (year % 100 != 0 || year % 400 == 0) then 29 else 28
  else if [4, 6, 9, 11].contains month then 30
  else 31

/-- Whether the text is a day of the calendar. -/
def isDay (text : List Char) : Bool :=
  match text.splitOn '-' with
  | [year, month, day] =>
    match fixedDigits? 4 year, fixedDigits? 2 month, fixedDigits? 2 day with
    | some year, some month, some day =>
      1 ≤ month && month ≤ 12 && 1 ≤ day && day ≤ daysIn year month
    | _, _, _ => false
  | _ => false

/-- Whether the text is a number of two digits below a bound. -/
def isBelow (bound : Nat) (text : List Char) : Bool :=
  (fixedDigits? 2 text).any fun value => decide (value < bound)

/-- Whether the text is a time of the day. Seconds may have a fraction, and may be left out. -/
def isTime (text : List Char) : Bool :=
  match text.splitOn ':' with
  | [hour, minute] => isBelow 24 hour && isBelow 60 minute
  | [hour, minute, second] =>
    let fraction := second.drop 2
    isBelow 24 hour && isBelow 60 minute && isBelow 61 (second.take 2) &&
      (fraction.isEmpty ||
        (fraction.head? == some '.' && !fraction.tail.isEmpty && fraction.tail.all Char.isDigit))
  | _ => false

/-- Whether the text is a time of the day, perhaps with its offset from universal time. -/
def isOffsetTime (text : List Char) : Bool :=
  let isSign (c : Char) : Bool := c == '+' || c == '-'
  let time := text.takeWhile fun c => !isSign c
  let offset := (text.dropWhile fun c => !isSign c).tail
  match text.getLast? with
  | some 'Z' => isTime text.dropLast
  | some 'z' => isTime text.dropLast
  | _ =>
    if text.any isSign then
      isTime time && (match offset.splitOn ':' with
        | [hour, minute] => isBelow 24 hour && isBelow 60 minute
        | _ => false)
    else isTime text

/-- Whether an atom is a day, a time, or both. -/
def isDate (atom : List Char) : Bool :=
  let rest := atom.drop 10
  isTime atom || (isDay (atom.take 10) &&
    (rest.isEmpty || ([some 'T', some 't', some ' '].contains rest.head? && isOffsetTime rest.tail)))

/-- The value that an atom is. -/
def atom? (atom : List Char) : Option Value :=
  if atom == "true".toList then some (.boolean true)
  else if atom == "false".toList then some (.boolean false)
  else
    match integer? atom with
    | some value => some (boundedInteger value)
    | none => (float? atom).orElse fun _ => if isDate atom then some .date else none

/-- An atom at the beginning of a text, and the rest. A day and the time behind it, with one
space between them, are one atom. -/
def takeAtom (text : List Char) : List Char × List Char :=
  let first := text.takeWhile isAtomChar
  match text.dropWhile isAtomChar with
  | ' ' :: rest =>
    if isDay first && rest.head?.any Char.isDigit then
      (first ++ ' ' :: rest.takeWhile isAtomChar, rest.dropWhile isAtomChar)
    else (first, ' ' :: rest)
  | rest => (first, rest)

end Scaffold.Settings
