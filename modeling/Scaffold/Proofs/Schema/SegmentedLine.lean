import Mathlib.Data.List.Basic
import Scaffold.Proofs.Schema.Concatenation
import Scaffold.Proofs.Schema.Lexing

/-!
Lines given by their parts: plain text and string literals in turn, and a comment behind them if
there is one (`SegmentedLine`). The lexer finds the first closing brace in the plain text of such a
line, however many literals there are and whatever stands in them and in the comment, and an open
block that is fed the line is closed by that brace or stays open without one
(`feed_segmented`).
-/

namespace Scaffold.Schema

open Text

/-! ### Parts of a line -/

/-- A character of a string literal as it is written: one that stands for itself, or one behind a
backslash. -/
inductive Glyph where
  | bare (c : Char) (stands_alone : c ≠ '"' ∧ c ≠ '\\')
  | escaped (c : Char)

/-- The text of a glyph. -/
def Glyph.text : Glyph → List Char
  | .bare c _ => [c]
  | .escaped c => ['\\', c]

/-- How a character is written in a literal: behind a backslash if it is a quote or a backslash. -/
def Glyph.ofChar (c : Char) : Glyph :=
  if h : c = '"' ∨ c = '\\' then .escaped c else .bare c (not_or.mp h)

/-- A string literal. -/
structure Literal where
  glyphs : List Glyph

namespace Literal

/-- What stands between the quotes. -/
def content (literal : Literal) : List Char :=
  literal.glyphs.flatMap Glyph.text

/-- The text of a literal. -/
def text (literal : Literal) : List Char :=
  '"' :: (literal.content ++ ['"'])

/-- The literal for a text. -/
def ofText (text : List Char) : Literal :=
  ⟨text.map Glyph.ofChar⟩

/-- Every text has a literal, in which its quotes and its backslashes are escaped. -/
theorem text_ofText (text : List Char) : (ofText text).text = '"' :: (escape text ++ ['"']) := by
  have hcontent : (ofText text).content = escape text := by
    rw [content, ofText, List.flatMap_map, escape]
    refine List.flatMap_congr fun c _ => ?_
    unfold Glyph.ofChar
    split
    · rfl
    · rfl
  rw [Literal.text, hcontent]

theorem isLiteral_content (literal : Literal) : isLiteral .quoted literal.content = true := by
  obtain ⟨glyphs⟩ := literal
  unfold content
  induction glyphs with
  | nil => rfl
  | cons glyph rest ih =>
    rw [List.flatMap_cons]
    cases glyph with
    | bare c stands_alone =>
      simpa [Glyph.text, isLiteral, LexMode.next, stands_alone.1, stands_alone.2] using ih
    | escaped c => simpa [Glyph.text, isLiteral, LexMode.next] using ih

end Literal

/-- Text in which neither a literal nor a comment begins. -/
structure PlainText where
  text : List Char
  no_quote : '"' ∉ text
  no_comment : ¬['/', '/'] <:+: text

/-- Plain text and the literal behind it. -/
structure Segment where
  plain : PlainText
  literal : Literal

/-- A line of segments, of plain text behind them, and of a comment if there is one. -/
structure SegmentedLine where
  segments : List Segment
  last : PlainText
  /-- What follows the two slashes. -/
  comment : Option (List Char)

/-! ### Marked text -/

/-- A text with whether its characters are plain. -/
def marks (isPlain : Bool) (text : List Char) : List (Char × Bool) :=
  text.map fun c => (c, isPlain)

/-- The characters of a segment, those of the literal marked as not plain. -/
def Segment.marked (segment : Segment) : List (Char × Bool) :=
  marks true segment.plain.text ++ marks false segment.literal.text

namespace SegmentedLine

variable (line : SegmentedLine)

/-- The comment with its slashes. -/
def commentText : List Char :=
  match line.comment with
  | none => []
  | some comment => '/' :: '/' :: comment

/-- The characters of a line, each with whether it lies in plain text. -/
def marked : List (Char × Bool) :=
  line.segments.flatMap Segment.marked ++
    (marks true line.last.text ++ marks false line.commentText)

/-- The text of a line. -/
def text : List Char :=
  line.marked.map Prod.fst

/-- The position of the first closing brace in plain text. -/
def bracePosition? : Option Nat :=
  line.marked.findIdx? fun mark => mark == ('}', true)

/-- The plain texts of a line. -/
def plainTexts : List PlainText :=
  line.segments.map Segment.plain ++ [line.last]

end SegmentedLine

@[simp] theorem map_fst_marks (isPlain : Bool) (text : List Char) :
    (marks isPlain text).map Prod.fst = text := by
  rw [marks, List.map_map]
  exact List.map_id' text

@[simp] theorem length_marks (isPlain : Bool) (text : List Char) :
    (marks isPlain text).length = text.length :=
  List.length_map _

/-- In plain text every closing brace counts. -/
theorem findIdx?_marks_true (text : List Char) :
    (marks true text).findIdx? (fun mark => mark == ('}', true)) =
      text.findIdx? fun c => c == '}' := by
  have hmark : ∀ c : Char, ((c, true) == ('}', true)) = (c == '}') :=
    fun c => Bool.and_true (c == '}')
  rw [marks, List.findIdx?_map, Function.comp_def]
  simp only [hmark]

theorem findIdx?_brace_eq_none_iff {text : List Char} :
    (text.findIdx? fun c => c == '}') = none ↔ '}' ∉ text := by
  rw [List.findIdx?_eq_none_iff]
  constructor
  · intro h hmem
    simpa using h _ hmem
  · intro h c hc
    rw [beq_eq_false_iff_ne]
    rintro rfl
    exact h hc

/-- In a literal or a comment none does. -/
theorem findIdx?_marks_false (text : List Char) :
    (marks false text).findIdx? (fun mark => mark == ('}', true)) = none := by
  simp [marks, List.findIdx?_eq_none_iff]

/-! ### Where the lexer finds a brace -/

/-- The position at which a text is cut. -/
def cutPosition? (mode : LexMode) (text : List Char) : Option Nat :=
  (cutAtBrace? mode text).map fun cut => cut.1.length

/-- The parts of a text that is cut are given by the position. -/
theorem cutAtBrace?_eq_map (mode : LexMode) (text : List Char) :
    cutAtBrace? mode text =
      (cutPosition? mode text).map fun i => (text.take i, text.drop (i + 1)) := by
  unfold cutPosition?
  cases hcut : cutAtBrace? mode text with
  | none => rfl
  | some cut =>
    obtain ⟨before, after⟩ := cut
    simp [cutAtBrace?_eq_some hcut]

theorem cutPosition?_cons {c : Char} (hquote : c ≠ '"') (hbrace : c ≠ '}') {rest : List Char}
    (hcomment : isComment (c :: rest) = false) :
    cutPosition? .plain (c :: rest) = (cutPosition? .plain rest).map fun i => i + 1 := by
  rw [cutPosition?, cutAtBrace?, if_neg fun h => hbrace h.2, if_neg (by simp [hcomment]),
    LexMode.next, if_neg hquote, cutPosition?, Option.map_map, Option.map_map]
  rfl

/-- A comment goes on to the end of the line. -/
theorem cutPosition?_of_isComment {text : List Char} (h : isComment text = true) :
    cutPosition? .plain text = none := by
  have hopen := closesBlock_of_isComment h
  rw [closesBlock, Option.isSome_eq_false_iff, Option.isNone_iff_eq_none] at hopen
  rw [cutPosition?, hopen, Option.map_none]

/-- In plain text the lexer finds the first brace, and behind it goes on with what follows. -/
theorem cutPosition?_plain_append {plain : List Char} (no_quote : '"' ∉ plain)
    (no_comment : ¬['/', '/'] <:+: plain) {more : List Char}
    (hmore : more.head? = some '/' → isComment more = true) :
    cutPosition? .plain (plain ++ more) =
      (plain.findIdx? fun c => c == '}').or
        ((cutPosition? .plain more).map fun i => i + plain.length) := by
  induction plain with
  | nil => simp
  | cons c rest ih =>
    have ih := ih (fun h => no_quote (List.mem_cons_of_mem _ h))
      (fun h => no_comment (h.trans (List.suffix_cons c rest).isInfix))
    have hquote : c ≠ '"' := fun h => no_quote (h ▸ List.mem_cons_self)
    by_cases hbrace : c = '}'
    · subst hbrace
      rw [List.cons_append, List.findIdx?_cons, if_pos (beq_self_eq_true '}'), cutPosition?,
        cutAtBrace?, if_pos ⟨rfl, rfl⟩]
      rfl
    rw [List.cons_append, List.findIdx?_cons, if_neg (by simpa using hbrace)]
    cases hcomment : isComment (c :: (rest ++ more)) with
    | false =>
      rw [cutPosition?_cons hquote hbrace hcomment, ih, Option.map_or, Option.map_map]
      rfl
    | true =>
      rw [cutPosition?_of_isComment hcomment]
      cases rest with
      | nil =>
        -- The plain text ends in a slash, so the comment begins one character early.
        cases more with
        | nil => exact absurd hcomment (by simp [isComment_eq, List.isPrefixOf])
        | cons d others =>
          rw [List.nil_append, isComment_cons_cons, Bool.and_eq_true, beq_iff_eq, beq_iff_eq]
            at hcomment
          rw [cutPosition?_of_isComment (hmore (congrArg some hcomment.2))]
          rfl
      | cons d others =>
        rw [List.cons_append, isComment_cons_cons, Bool.and_eq_true, beq_iff_eq, beq_iff_eq]
          at hcomment
        refine absurd (List.IsPrefix.isInfix ?_) no_comment
        rw [hcomment.1, hcomment.2]
        exact List.prefix_append ['/', '/'] others

/-- The lexer passes a literal by. -/
theorem cutPosition?_literal_append (literal : Literal) (more : List Char) :
    cutPosition? .plain (literal.text ++ more) =
      (cutPosition? .plain more).map fun i => i + literal.text.length := by
  have hsplit : literal.text ++ more = [] ++ '"' :: (literal.content ++ '"' :: more) := by
    simp [Literal.text]
  rw [hsplit, cutPosition?, cutAtBrace?_literal rfl literal.isLiteral_content, cutPosition?,
    Option.map_or, Option.map_map, Option.map_map, Option.map_map]
  refine congrArg (fun position => Option.map position (cutAtBrace? .plain more)) ?_
  funext cut
  simp [Literal.text]
  omega

namespace SegmentedLine

section

variable (last : PlainText) (comment : Option (List Char))

theorem text_nil : text ⟨[], last, comment⟩ = last.text ++ commentText ⟨[], last, comment⟩ := by
  simp [text, marked]

theorem bracePosition?_nil :
    bracePosition? ⟨[], last, comment⟩ = last.text.findIdx? fun c => c == '}' := by
  rw [bracePosition?, marked, List.flatMap_nil, List.nil_append, List.findIdx?_append,
    findIdx?_marks_true, findIdx?_marks_false, Option.map_none, Option.or_none]

variable (segment : Segment) (rest : List Segment)

theorem text_cons :
    text ⟨segment :: rest, last, comment⟩ =
      segment.plain.text ++ (segment.literal.text ++ text ⟨rest, last, comment⟩) := by
  simp [text, marked, Segment.marked, commentText]

/-- The first brace of a line is in its first piece of plain text, or it is the first one behind the
literal there, that much further on. -/
theorem bracePosition?_cons :
    bracePosition? ⟨segment :: rest, last, comment⟩ =
      (segment.plain.text.findIdx? fun c => c == '}').or
        (((bracePosition? ⟨rest, last, comment⟩).map fun i => i + segment.literal.text.length).map
          fun i => i + segment.plain.text.length) := by
  have hmarked : marked ⟨segment :: rest, last, comment⟩ =
      marks true segment.plain.text ++
        (marks false segment.literal.text ++ marked ⟨rest, last, comment⟩) := by
    simp [marked, Segment.marked, commentText]
  rw [bracePosition?, hmarked, List.findIdx?_append, findIdx?_marks_true, List.findIdx?_append,
    findIdx?_marks_false, Option.none_or, length_marks, length_marks]
  rfl

end

theorem cutPosition?_commentText (line : SegmentedLine) :
    cutPosition? .plain line.commentText = none := by
  unfold commentText
  cases line.comment with
  | none => rfl
  | some comment => exact cutPosition?_of_isComment rfl

theorem isComment_commentText {line : SegmentedLine} (h : line.commentText.head? = some '/') :
    isComment line.commentText = true := by
  unfold commentText at h ⊢
  cases hcomment : line.comment with
  | none =>
    rw [hcomment] at h
    cases h
  | some comment => rfl

/-- The lexer finds the first brace in plain text. -/
theorem cutPosition?_text (line : SegmentedLine) :
    cutPosition? .plain line.text = line.bracePosition? := by
  obtain ⟨segments, last, comment⟩ := line
  induction segments with
  | nil =>
    rw [text_nil, bracePosition?_nil,
      cutPosition?_plain_append last.no_quote last.no_comment isComment_commentText,
      cutPosition?_commentText, Option.map_none, Option.or_none]
  | cons segment rest ih =>
    have hquote : (segment.literal.text ++ text ⟨rest, last, comment⟩).head? = some '/' →
        isComment (segment.literal.text ++ text ⟨rest, last, comment⟩) = true := by
      intro h
      cases h
    rw [text_cons, bracePosition?_cons,
      cutPosition?_plain_append segment.plain.no_quote segment.plain.no_comment hquote,
      cutPosition?_literal_append, ih]

/-- A line without a closing brace in its plain text has none that counts. -/
theorem bracePosition?_eq_none_iff (line : SegmentedLine) :
    line.bracePosition? = none ↔ ∀ plain ∈ line.plainTexts, '}' ∉ plain.text := by
  obtain ⟨segments, last, comment⟩ := line
  induction segments with
  | nil =>
    rw [bracePosition?_nil, findIdx?_brace_eq_none_iff]
    simp [plainTexts]
  | cons segment rest ih =>
    rw [bracePosition?_cons, Option.or_eq_none_iff, Option.map_eq_none_iff, Option.map_eq_none_iff,
      findIdx?_brace_eq_none_iff]
    refine (and_congr_right fun _ => ih).trans ?_
    simp [plainTexts]

end SegmentedLine

/-! ### What a block does with the line -/

/-- A text and the text that is left of it when it is trimmed are cut at the same brace. -/
theorem cutAtBrace?_trim {text before after : List Char}
    (h : cutAtBrace? .plain text = some (before, after)) :
    ∃ trimmedBefore trimmedAfter,
      cutAtBrace? .plain (trim text) = some (trimmedBefore, trimmedAfter) ∧
        trim trimmedBefore = trim before := by
  obtain ⟨left, right, hleft, -, hsplit⟩ := exists_eq_append_trim text
  have hcloses : closesBlock (trim text) = true := by
    rw [closesBlock_trim, closesBlock, h]
    rfl
  obtain ⟨⟨trimmedBefore, trimmedAfter⟩, htrim⟩ := Option.isSome_iff_exists.mp hcloses
  refine ⟨trimmedBefore, trimmedAfter, htrim, ?_⟩
  rw [hsplit, cutAtBrace?_quiet_append fun c hc => isQuiet_of_isBlank (hleft c hc),
    cutAtBrace?_append htrim, Option.map_some, Option.some.injEq, Prod.mk.injEq] at h
  rw [← h.1, trim_append_left hleft]

/-- A block that is fed what is left of a text keeps the text, or what stands before the brace. -/
theorem Block.feed_trim (block : Block) (number : Nat) (text : List Char) :
    block.feed ⟨number, trim text⟩ =
      match cutPosition? .plain text with
      | none => .stillOpen (block.keep ⟨number, trim text⟩)
      | some i => .closed (block.keep ⟨number, trim (text.take i)⟩) := by
  have hparts := cutAtBrace?_eq_map .plain text
  cases hposition : cutPosition? .plain text with
  | none =>
    rw [hposition, Option.map_none] at hparts
    refine Block.feed_of_open ?_ block
    rw [closesBlock_trim, closesBlock, hparts]
    rfl
  | some i =>
    rw [hposition, Option.map_some] at hparts
    obtain ⟨before, after, hcut, hbefore⟩ := cutAtBrace?_trim hparts
    have hclosed : block.feed ⟨number, trim text⟩ = .closed (block.keep ⟨number, trim before⟩) :=
      Block.feed_of_closing hcut block
    rw [hclosed, hbefore]

/-- A line of plain text and string literals is cut at the first closing brace that lies in plain
text, and not at all if there is none there, whatever stands in the literals and in a comment behind
them. An open block that is fed the line is closed in the first case, and the trimmed text before the
brace is the last line of its body unless that text is empty; it stays open in the second, and all of
the trimmed line is the last of its body so far. Nothing else of the block changes. -/
theorem feed_segmented (line : SegmentedLine) :
    cutAtBrace? .plain line.text =
      (line.bracePosition?.map fun i => (line.text.take i, line.text.drop (i + 1))) ∧
    (line.bracePosition? = none ↔ ∀ plain ∈ line.plainTexts, '}' ∉ plain.text) ∧
    ∀ (block : Block) (number : Nat),
      block.feed ⟨number, trim line.text⟩ =
        match line.bracePosition? with
        | none =>
          .stillOpen { block with
            body := block.body ++
              if trim line.text = [] then [] else [⟨number, trim line.text⟩] }
        | some i =>
          .closed { block with
            body := block.body ++
              if trim (line.text.take i) = [] then [] else [⟨number, trim (line.text.take i)⟩] } := by
  refine ⟨?_, line.bracePosition?_eq_none_iff, fun block number => ?_⟩
  · rw [cutAtBrace?_eq_map, line.cutPosition?_text]
  · rw [block.feed_trim, line.cutPosition?_text]
    simp only [Block.keep_eq]

/-- A line with a brace in a literal, one in plain text and one in a comment. -/
def threeBraces : SegmentedLine where
  segments := [⟨⟨['m', ' '], by decide, by decide⟩, .ofText ['\x7d', '"', '\\']⟩]
  last := ⟨[' ', '\x7d', ' '], by decide, by decide⟩
  comment := some ['\x7d']

example : threeBraces.text = "m \"\x7d\\\"\\\\\" \x7d //\x7d".toList ∧
    threeBraces.bracePosition? = some 10 := by
  decide

end Scaffold.Schema
