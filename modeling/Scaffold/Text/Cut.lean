/-!
Cutting a text: at its first occurrence of a character, after a given beginning, before a given
ending. Each cut loses nothing: what it returns, put back together, is the text
(`cutAt?_eq_some`, `dropPrefix?_eq_some_iff`, `dropSuffix?_eq_some_iff`).
-/

namespace Scaffold.Text

/-- The text before and after the first occurrence of `mark`, if it occurs. -/
def cutAt? (mark : Char) : List Char → Option (List Char × List Char)
  | [] => none
  | c :: rest =>
    if c = mark then some ([], rest)
    else (cutAt? mark rest).map fun cut => (c :: cut.1, cut.2)

/-- The text after the beginning `start`, if it begins so. -/
def dropPrefix? : List Char → List Char → Option (List Char)
  | [], text => some text
  | _ :: _, [] => none
  | s :: start, c :: rest => if s = c then dropPrefix? start rest else none

/-- The text before the ending `finish`, if it ends so. -/
def dropSuffix? (finish text : List Char) : Option (List Char) :=
  (dropPrefix? finish.reverse text.reverse).map List.reverse

/-- Whether `sought` occurs somewhere in the text. -/
def occursIn (sought : List Char) : List Char → Bool
  | [] => sought.isEmpty
  | c :: rest => sought.isPrefixOf (c :: rest) || occursIn sought rest

/-- A cut splits the text at the first occurrence of the character. -/
theorem cutAt?_eq_some {mark : Char} {text before after : List Char} :
    cutAt? mark text = some (before, after) ↔
      text = before ++ mark :: after ∧ mark ∉ before := by
  induction text generalizing before with
  | nil => simp [cutAt?]
  | cons c rest ih =>
    by_cases h : c = mark
    · subst h
      cases before with
      | nil => simp [cutAt?, eq_comm]
      | cons b before =>
        simp only [cutAt?, ↓reduceIte, Option.some.injEq, Prod.mk.injEq, List.cons_append,
          List.cons.injEq, List.mem_cons, not_or]
        grind
    · cases before with
      | nil => simp [cutAt?, h]
      | cons b before =>
        simp only [cutAt?, h, ↓reduceIte, Option.map_eq_some_iff, Prod.exists, Prod.mk.injEq,
          List.cons.injEq, List.cons_append, List.mem_cons, not_or]
        grind

/-- A text is cut at a character exactly when it holds it. -/
theorem cutAt?_eq_none_iff {mark : Char} {text : List Char} :
    cutAt? mark text = none ↔ mark ∉ text := by
  induction text with
  | nil => simp [cutAt?]
  | cons c rest ih =>
    by_cases h : c = mark
    · simp [cutAt?, h]
    · simp [cutAt?, h, ih, Ne.symm h]

theorem dropPrefix?_eq_some_iff {start text rest : List Char} :
    dropPrefix? start text = some rest ↔ text = start ++ rest := by
  induction start generalizing text with
  | nil => simp [dropPrefix?]
  | cons s start ih =>
    cases text with
    | nil => simp [dropPrefix?]
    | cons c text =>
      by_cases h : s = c
      · subst h
        simp [dropPrefix?, ih]
      · simp [dropPrefix?, h, eq_comm]

theorem dropSuffix?_eq_some_iff {finish text rest : List Char} :
    dropSuffix? finish text = some rest ↔ text = rest ++ finish := by
  simp only [dropSuffix?, Option.map_eq_some_iff, dropPrefix?_eq_some_iff]
  constructor
  · rintro ⟨back, h, rfl⟩
    simpa using congrArg List.reverse h
  · rintro rfl
    exact ⟨rest.reverse, by simp⟩

/-- A sought text occurs exactly when the text is something, the sought text, and something. -/
theorem occursIn_iff {sought text : List Char} :
    occursIn sought text = true ↔ ∃ before after, text = before ++ sought ++ after := by
  induction text with
  | nil => simp [occursIn]
  | cons c rest ih =>
    simp only [occursIn, Bool.or_eq_true, List.isPrefixOf_iff_prefix, ih]
    constructor
    · rintro (⟨after, h⟩ | ⟨before, after, rfl⟩)
      · exact ⟨[], after, by simpa using h.symm⟩
      · exact ⟨c :: before, after, by simp⟩
    · rintro ⟨before, after, h⟩
      cases before with
      | nil => exact Or.inl ⟨after, by simpa using h.symm⟩
      | cons b before =>
        simp only [List.cons_append, List.cons.injEq] at h
        exact Or.inr ⟨before, after, h.2⟩

end Scaffold.Text
