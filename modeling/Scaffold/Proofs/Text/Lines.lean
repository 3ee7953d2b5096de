import Scaffold.Text.Lines

/-!
Texts made of lines. Ending each line with a line feed is undone by reading the lines
(`lines_unlines`), and the lines of two texts put together are the lines of both, if the first
ends with its last line (`lines_append_newline`). Any text is such a text and the beginning of one
more line (`exists_lastLine`).
-/

namespace Scaffold.Text

/-- The text of some lines, each ended by a line feed. -/
def unlines (content : List (List Char)) : List Char :=
  content.flatMap fun line => line ++ ['\n']

@[simp] theorem unlines_nil : unlines [] = [] := rfl

@[simp] theorem unlines_cons (line : List Char) (rest : List (List Char)) :
    unlines (line :: rest) = line ++ '\n' :: unlines rest := by
  simp [unlines]

theorem unlines_append (first second : List (List Char)) :
    unlines (first ++ second) = unlines first ++ unlines second :=
  List.flatMap_append

/-- The first line of a text ends at the first line feed. -/
theorem lines_line {line : List Char} (h : '\n' ∉ line) (rest : List Char) :
    lines (line ++ '\n' :: rest) = line :: lines rest := by
  induction line with
  | nil => rfl
  | cons c more ih =>
    have hc : c ≠ '\n' := fun eq => h (by simp [eq])
    rw [List.cons_append, lines, if_neg hc, ih fun mem => h (List.mem_cons_of_mem _ mem)]

/-- A text of ended lines is read as these lines, empty ones included. -/
theorem lines_unlines {content : List (List Char)} (h : ∀ line ∈ content, '\n' ∉ line) :
    lines (unlines content) = content := by
  induction content with
  | nil => rfl
  | cons line rest ih =>
    rw [unlines_cons, lines_line (h line (List.mem_cons_self ..)),
      ih fun other mem => h other (List.mem_cons_of_mem _ mem)]

/-- A line feed divides the lines of a text, whatever stands on both sides of it. -/
theorem lines_append_newline (first second : List Char) :
    lines (first ++ '\n' :: second) = lines (first ++ ['\n']) ++ lines second := by
  induction first with
  | nil => rfl
  | cons c rest ih =>
    by_cases hc : c = '\n'
    · subst hc
      simp only [List.cons_append, lines_newline, ih]
    · rw [List.cons_append, List.cons_append, lines, if_neg hc, lines, if_neg hc, ih]
      -- A text that ends with a line feed has a line.
      cases hrest : lines (rest ++ ['\n']) with
      | nil =>
        have : lines (rest ++ ['\n']) ≠ [] := by
          cases rest with
          | nil => simp
          | cons d more =>
            rw [List.cons_append, lines]
            split
            · simp
            · split <;> simp
        exact absurd hrest this
      | cons line more => rfl

/-! ### Texts of whole lines -/

/-- A text of whole lines: it is empty, or ends with a line feed. -/
def EndsLine (text : List Char) : Prop :=
  ∀ c ∈ text.getLast?, c = '\n'

instance (text : List Char) : Decidable (EndsLine text) :=
  Option.decidableForallMem text.getLast?

/-- A text that ends its last line can be put in front of any other. -/
theorem lines_append {first : List Char} (h : EndsLine first) (second : List Char) :
    lines (first ++ second) = lines first ++ lines second := by
  rcases List.eq_nil_or_concat first with rfl | ⟨front, c, rfl⟩
  · rfl
  · obtain rfl : c = '\n' := h c (by simp)
    rw [List.concat_eq_append, List.append_assoc, List.singleton_append, lines_append_newline]

/-- A text is whole lines and what follows the last line feed. -/
theorem exists_lastLine (text : List Char) :
    ∃ front last, text = front ++ last ∧ EndsLine front ∧ '\n' ∉ last := by
  induction text with
  | nil => exact ⟨[], [], rfl, by decide, by simp⟩
  | cons c rest ih =>
    obtain ⟨front, last, rfl, hends, hlast⟩ := ih
    cases front with
    | cons d more =>
      refine ⟨c :: d :: more, last, rfl, ?_, hlast⟩
      unfold EndsLine at hends ⊢
      rwa [List.getLast?_cons_cons]
    | nil =>
      by_cases hc : c = '\n'
      · exact ⟨[c], last, rfl, by simp [EndsLine, hc], hlast⟩
      · refine ⟨[], c :: last, rfl, by simp [EndsLine], ?_⟩
        simp only [List.mem_cons, not_or]
        exact ⟨fun h => hc h.symm, hlast⟩

/-- The last line need not be ended. -/
theorem lines_of_newline_not_mem {line : List Char} (line_ne_nil : line ≠ []) (h : '\n' ∉ line) :
    lines line = [line] := by
  induction line with
  | nil => exact absurd rfl line_ne_nil
  | cons c rest ih =>
    simp only [List.mem_cons, not_or] at h
    rw [lines, if_neg (Ne.symm h.1)]
    cases rest with
    | nil => rfl
    | cons d more => rw [ih (by simp) h.2]

/-- What follows a line that is not ended goes on with this line. -/
theorem exists_lines_append {line : List Char} (line_ne_nil : line ≠ []) (h : '\n' ∉ line)
    (text : List Char) : ∃ tail rest, lines (line ++ text) = (line ++ tail) :: rest := by
  induction line with
  | nil => exact absurd rfl line_ne_nil
  | cons c more ih =>
    simp only [List.mem_cons, not_or] at h
    rw [List.cons_append, lines, if_neg (Ne.symm h.1)]
    cases more with
    | nil =>
      cases htext : lines ([] ++ text) with
      | nil => exact ⟨[], [], by simp⟩
      | cons tail rest => exact ⟨tail, rest, rfl⟩
    | cons d others =>
      obtain ⟨tail, rest, hlines⟩ := ih (by simp) h.2
      exact ⟨tail, rest, by rw [hlines]; rfl⟩

/-- Lines in front of a text leave its lines as they are. -/
theorem exists_lines_unlines_append (content : List (List Char)) (text : List Char) :
    ∃ front, lines (unlines content ++ text) = front ++ lines text := by
  induction content with
  | nil => exact ⟨[], rfl⟩
  | cons line rest ih =>
    obtain ⟨front, hfront⟩ := ih
    refine ⟨lines (line ++ ['\n']) ++ front, ?_⟩
    rw [unlines_cons, List.append_assoc, List.cons_append, lines_append_newline, hfront,
      List.append_assoc]

end Scaffold.Text
