import Scaffold.Text.CaseTable

/-!
Letter case by the full Unicode mappings: `upper` and `lower` of one character, which may be
several characters, and `lowerText` of a whole text, where a sigma at the end of a word takes
its final form.
-/

namespace Scaffold.Text

/-- The upper case form of a character. -/
def upper (c : Char) : List Char :=
  if c.toNat < 0x80 then [c.toUpper]
  else
    match CaseTable.longUpper.lookup c.toNat with
    | some codes => codes.map Char.ofNat
    | none => [Char.ofNat ((CaseTable.counterpart? CaseTable.upperRuns c.toNat).getD c.toNat)]

/-- The lower case form of a character. The dotted capital I keeps its dot. -/
def lower (c : Char) : List Char :=
  if c.toNat < 0x80 then [c.toLower]
  else if c = '\u0130' then ['i', '\u0307']
  else [Char.ofNat ((CaseTable.counterpart? CaseTable.lowerRuns c.toNat).getD c.toNat)]

/-- The property `Uppercase`: capitals have a lower case form, title case digraphs apart, or
are among the capitals that have none. -/
def isUpper (c : Char) : Bool :=
  if c.toNat < 0x80 then c.isUpper
  else
    (lower c != [c] && !CaseTable.inRanges CaseTable.titleCase c.toNat) ||
      CaseTable.inRanges CaseTable.caselessCapitals c.toNat

/-- The property `Cased`. -/
def isCased (c : Char) : Bool :=
  if c.toNat < 0x80 then c.isAlpha else CaseTable.inRanges CaseTable.casedRanges c.toNat

/-- The property `Case_Ignorable`: characters that do not end a word for the final sigma. -/
def isCaseIgnorable (c : Char) : Bool :=
  if c.toNat < 0x80 then c == '\'' || c == '.' || c == ':' || c == '^' || c == '\x60'
  else CaseTable.inRanges CaseTable.ignorableRanges c.toNat

/-- Whether the first character that cannot be ignored is a cased one. -/
def meetsCased (text : List Char) : Bool :=
  (text.dropWhile isCaseIgnorable).head?.any isCased

/-- The lower case form of `text`, which follows the reverse of `before`. A capital sigma after
a cased letter and before none is the last of its word. -/
def lowerAfter (before : List Char) : List Char → List Char
  | [] => []
  | c :: rest =>
    let form :=
      if c = 'Σ' then [if meetsCased before && !meetsCased rest then 'ς' else 'σ'] else lower c
    form ++ lowerAfter (c :: before) rest

/-- The lower case form of a whole text. -/
def lowerText (text : List Char) : List Char :=
  lowerAfter [] text

/-- The lower case form of an ASCII text is that of its characters. -/
theorem lowerAfter_of_ascii {before text : List Char} (h : ∀ c ∈ text, c.toNat < 0x80) :
    lowerAfter before text = text.map Char.toLower := by
  induction text generalizing before with
  | nil => rfl
  | cons c rest ih =>
    have hc : c.toNat < 0x80 := h c (List.mem_cons_self ..)
    have hsigma : c ≠ 'Σ' := by
      rintro rfl
      revert hc
      decide
    rw [lowerAfter, ih fun d hd => h d (List.mem_cons_of_mem _ hd)]
    simp [hsigma, lower, hc]

theorem lowerText_of_ascii {text : List Char} (h : ∀ c ∈ text, c.toNat < 0x80) :
    lowerText text = text.map Char.toLower :=
  lowerAfter_of_ascii h

end Scaffold.Text
