/-!
The lines of a text. A line feed ends a line and nothing else does; the last line need not be
ended. A carriage return before the feed stays in the line: it is blank space, and goes when the
line is trimmed.
-/

namespace Scaffold.Text

/-- The lines of a text, without the line feeds that end them. -/
def lines : List Char → List (List Char)
  | [] => []
  | c :: rest =>
    if c = '\n' then [] :: lines rest
    else
      match lines rest with
      | [] => [[c]]
      | line :: more => (c :: line) :: more

@[simp] theorem lines_nil : lines [] = [] := rfl

@[simp] theorem lines_newline (rest : List Char) : lines ('\n' :: rest) = [] :: lines rest := rfl

/-- No line holds a line feed. -/
theorem newline_not_mem_of_mem_lines {text line : List Char} (h : line ∈ lines text) :
    '\n' ∉ line := by
  induction text generalizing line with
  | nil => simp at h
  | cons c rest ih =>
    unfold lines at h
    split at h
    next =>
      rcases List.mem_cons.mp h with rfl | h
      · simp
      · exact ih h
    next hc =>
      cases hrest : lines rest with
      | nil =>
        rw [hrest] at h
        obtain rfl := List.mem_singleton.mp h
        simpa using fun h => hc h.symm
      | cons first more =>
        rw [hrest] at h ih
        rcases List.mem_cons.mp h with rfl | h
        · have := ih (List.mem_cons_self ..)
          simp only [List.mem_cons, not_or]
          exact ⟨fun h => hc h.symm, this⟩
        · exact ih (List.mem_cons_of_mem _ h)

end Scaffold.Text
