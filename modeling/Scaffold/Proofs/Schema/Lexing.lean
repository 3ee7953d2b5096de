import Scaffold.Proofs.Schema.Block

/-!
What of a line is code. Along a line the lexer is in plain text or in a string literal, until a
comment begins (`modeAfter?`). Text of which all literals are terminated (`IsTerminated`) is cut at
the same brace if a comment follows (`cutAtBrace?_append_comment`), and what stands in a literal
(`isLiteral`) does not change where a line is cut (`cutAtBrace?_literal`).
-/

namespace Scaffold.Schema

open Text

/-- The mode behind a text, unless a comment begins in it. -/
def modeAfter? (mode : LexMode) : List Char → Option LexMode
  | [] => some mode
  | c :: rest =>
    if mode = .plain ∧ isComment (c :: rest) = true then none else modeAfter? (mode.next c) rest

/-- Whether all string literals of a text are terminated: it ends in plain text or in a comment. -/
def IsTerminated (text : List Char) : Prop :=
  ∀ mode ∈ modeAfter? .plain text, mode = .plain

instance (text : List Char) : Decidable (IsTerminated text) :=
  inferInstanceAs (Decidable (∀ mode ∈ modeAfter? .plain text, mode = .plain))

/-- Whether a text, read in a string, neither ends the string nor escapes what follows. -/
def isLiteral (mode : LexMode) : List Char → Bool
  | [] => mode == .quoted
  | c :: rest => mode.next c != .plain && isLiteral (mode.next c) rest

/-- The text with a backslash before each quote and each backslash. -/
def escape (text : List Char) : List Char :=
  text.flatMap fun c => if c = '"' ∨ c = '\\' then ['\\', c] else [c]

/-- Any text can stand in a string literal, if it is escaped. -/
theorem isLiteral_escape (text : List Char) : isLiteral .quoted (escape text) = true := by
  induction text with
  | nil => rfl
  | cons c rest ih =>
    unfold escape at ih ⊢
    rw [List.flatMap_cons]
    split
    next => simpa [isLiteral, LexMode.next] using ih
    next hc =>
      simp only [not_or] at hc
      simpa [isLiteral, LexMode.next, hc.1, hc.2] using ih

/-! ### Comments -/

/-- Behind a comment that has begun nothing is code. -/
theorem cutAtBrace?_append_of_comment {mode : LexMode} {text : List Char}
    (h : modeAfter? mode text = none) {more : List Char} (hmore : ∀ c ∈ more.head?, c ≠ '/') :
    cutAtBrace? mode (text ++ more) =
      (cutAtBrace? mode text).map fun cut => (cut.1, cut.2 ++ more) := by
  induction text generalizing mode with
  | nil => cases h
  | cons c rest ih =>
    rw [modeAfter?] at h
    have hcomment := isComment_append (c :: rest) hmore
    rw [List.cons_append] at hcomment ⊢
    rw [cutAtBrace?, cutAtBrace?, hcomment]
    split
    · rfl
    · split
      · rfl
      next hcode =>
        rw [if_neg hcode] at h
        rw [ih h, Option.map_map, Option.map_map]
        rfl

/-- A text is cut in its first part, or in its second part as it is read in the mode behind the
first. -/
theorem cutAtBrace?_append_of_mode {mode next : LexMode} {text : List Char}
    (h : modeAfter? mode text = some next) {more : List Char}
    (hmore : ∀ c ∈ more.head?, c ≠ '/') :
    cutAtBrace? mode (text ++ more) =
      ((cutAtBrace? mode text).map fun cut => (cut.1, cut.2 ++ more)).or
        ((cutAtBrace? next more).map fun cut => (text ++ cut.1, cut.2)) := by
  induction text generalizing mode with
  | nil =>
    obtain rfl := Option.some.inj h
    simp [cutAtBrace?]
  | cons c rest ih =>
    rw [modeAfter?] at h
    have hcomment := isComment_append (c :: rest) hmore
    rw [List.cons_append] at hcomment ⊢
    rw [cutAtBrace?, cutAtBrace?, hcomment]
    split
    · rfl
    · split
      next hcode =>
        rw [if_pos hcode] at h
        cases h
      next hcode =>
        rw [if_neg hcode] at h
        rw [ih h, Option.map_or, Option.map_map, Option.map_map, Option.map_map]
        rfl

/-- A comment behind terminated text has no part in where the text is cut. -/
theorem cutAtBrace?_append_comment {text : List Char} (h : IsTerminated text) {pad : List Char}
    (hpad : IsBlankText pad) (pad_ne_nil : pad ≠ []) (comment : List Char) :
    cutAtBrace? .plain (text ++ (pad ++ '/' :: '/' :: comment)) =
      (cutAtBrace? .plain text).map fun cut =>
        (cut.1, cut.2 ++ (pad ++ '/' :: '/' :: comment)) := by
  have hnone : cutAtBrace? .plain (pad ++ '/' :: '/' :: comment) = none := by
    rw [cutAtBrace?_quiet_append fun c hc => isQuiet_of_isBlank (hpad c hc), cutAtBrace?,
      if_neg (by simp), if_pos ⟨rfl, rfl⟩]
    rfl
  have hhead : ∀ c ∈ (pad ++ '/' :: '/' :: comment).head?, c ≠ '/' :=
    hpad.head?_append_ne pad_ne_nil (by decide) _
  cases hmode : modeAfter? .plain text with
  | none => exact cutAtBrace?_append_of_comment hmode hhead
  | some mode =>
    obtain rfl : mode = .plain := h mode hmode
    rw [cutAtBrace?_append_of_mode hmode hhead, hnone, Option.map_none, Option.or_none]

/-! ### Literals -/

/-- A literal ends at its quote, and what follows is read as plain text. -/
theorem cutAtBrace?_isLiteral {mode : LexMode} (hmode : mode ≠ .plain) {content : List Char}
    (h : isLiteral mode content = true) (rest : List Char) :
    cutAtBrace? mode (content ++ '"' :: rest) =
      (cutAtBrace? .plain rest).map fun cut => (content ++ '"' :: cut.1, cut.2) := by
  induction content generalizing mode with
  | nil =>
    obtain rfl : mode = .quoted := by simpa [isLiteral] using h
    simp [cutAtBrace?, LexMode.next]
  | cons c more ih =>
    rw [isLiteral, Bool.and_eq_true, bne_iff_ne] at h
    rw [List.cons_append, cutAtBrace?, if_neg fun hc => hmode hc.1, if_neg fun hc => hmode hc.1,
      ih h.1 h.2, Option.map_map]
    rfl

/-- Behind plain text without a comment, a line is cut before a literal or behind it, whatever
the literal holds. -/
theorem cutAtBrace?_literal {front : List Char} (h : modeAfter? .plain front = some .plain)
    {content : List Char} (hcontent : isLiteral .quoted content = true) (rest : List Char) :
    cutAtBrace? .plain (front ++ '"' :: (content ++ '"' :: rest)) =
      ((cutAtBrace? .plain front).map fun cut =>
        (cut.1, cut.2 ++ '"' :: (content ++ '"' :: rest))).or
        ((cutAtBrace? .plain rest).map fun cut =>
          (front ++ '"' :: (content ++ '"' :: cut.1), cut.2)) := by
  have hquote : cutAtBrace? .plain ('"' :: (content ++ '"' :: rest)) =
      (cutAtBrace? .plain rest).map fun cut => ('"' :: (content ++ '"' :: cut.1), cut.2) := by
    rw [cutAtBrace?, if_neg (by simp), if_neg (by simp [isComment]), LexMode.next, if_pos rfl,
      cutAtBrace?_isLiteral (by simp) hcontent, Option.map_map]
    rfl
  rw [cutAtBrace?_append_of_mode h (by simp), hquote, Option.map_map]
  rfl

theorem LexMode.eq_backslash_of_next {mode : LexMode} {c : Char} (h : mode.next c = .escaped) :
    c = '\\' := by
  cases mode with
  | plain =>
    rw [next] at h
    split at h
    · cases h
    · cases h
  | quoted =>
    rw [next] at h
    split at h
    · cases h
    · split at h
      next hc => exact hc
      next => cases h
  | escaped => cases h

/-- In a literal a backslash stands before every quote. -/
theorem getLast?_of_isLiteral {mode : LexMode} (hmode : mode ≠ .plain)
    {before after : List Char} (h : isLiteral mode (before ++ '"' :: after) = true) :
    mode = .escaped ∧ before = [] ∨ before.getLast? = some '\\' := by
  induction before generalizing mode with
  | nil =>
    rw [List.nil_append, isLiteral, Bool.and_eq_true, bne_iff_ne] at h
    cases mode with
    | plain => exact absurd rfl hmode
    | quoted => exact absurd rfl h.1
    | escaped => exact Or.inl ⟨rfl, rfl⟩
  | cons c rest ih =>
    rw [List.cons_append, isLiteral, Bool.and_eq_true, bne_iff_ne] at h
    right
    rcases ih h.1 h.2 with ⟨hnext, rfl⟩ | hlast
    · rw [LexMode.eq_backslash_of_next hnext]
      rfl
    · cases rest with
      | nil => cases hlast
      | cons d more => rwa [List.getLast?_cons_cons]

end Scaffold.Schema
