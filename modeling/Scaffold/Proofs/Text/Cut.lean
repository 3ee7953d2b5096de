import Scaffold.Text.Cut
import Scaffold.Proofs.Text.Blank

/-!
Cutting texts that were put together: a cut at a mark finds the part before it (`cutAt?_append`),
a beginning is found where it was put (`dropPrefix?_append`), a run of characters ends where the
next part begins (`takeWhile_append_stop`), what holds no mark is found on one side of the mark
(`occursIn_append_cons`), and an enumeration with commas comes apart into its parts
(`splitOn_enumeration`).
-/

namespace Scaffold.Text

theorem cutAt?_append {mark : Char} {before : List Char} (h : mark ∉ before) (after : List Char) :
    cutAt? mark (before ++ mark :: after) = some (before, after) :=
  cutAt?_eq_some.mpr ⟨rfl, h⟩

theorem dropPrefix?_append (start rest : List Char) :
    dropPrefix? start (start ++ rest) = some rest :=
  dropPrefix?_eq_some_iff.mpr rfl

/-- A text that goes on with another character than the beginning does not begin so. -/
theorem dropPrefix?_eq_none {s c : Char} (h : s ≠ c) (start rest : List Char) :
    dropPrefix? (s :: start) (c :: rest) = none :=
  if_neg h

/-- A text that holds the mark is cut at the same place if it goes on. -/
theorem cutAt?_append_of_eq_some {mark : Char} {text before after : List Char}
    (h : cutAt? mark text = some (before, after)) (more : List Char) :
    cutAt? mark (text ++ more) = some (before, after ++ more) := by
  obtain ⟨htext, hbefore⟩ := cutAt?_eq_some.mp h
  rw [htext, List.append_assoc, List.cons_append]
  exact cutAt?_append hbefore (after ++ more)

/-- A text that does not hold the mark stands before the cut of what follows. -/
theorem cutAt?_append_of_not_mem {mark : Char} {text : List Char} (h : mark ∉ text)
    (more : List Char) :
    cutAt? mark (text ++ more) = (cutAt? mark more).map fun cut => (text ++ cut.1, cut.2) := by
  cases hmore : cutAt? mark more with
  | none =>
    have hnone := cutAt?_eq_none_iff.mp hmore
    rw [cutAt?_eq_none_iff.mpr (by simp [h, hnone])]
    rfl
  | some cut =>
    have hcut : cutAt? mark more = some (cut.1, cut.2) := hmore
    obtain ⟨rfl, hbefore⟩ := cutAt?_eq_some.mp hcut
    rw [← List.append_assoc, cutAt?_append (by simp [h, hbefore])]
    rfl

/-- A beginning that does not hold a mark stands before the mark, or is no beginning. -/
theorem dropPrefix?_append_cons {mark : Char} {start : List Char} (h : mark ∉ start)
    (text rest : List Char) :
    dropPrefix? start (text ++ mark :: rest) = (dropPrefix? start text).map (· ++ mark :: rest) := by
  induction start generalizing text with
  | nil => rfl
  | cons s start ih =>
    simp only [List.mem_cons, not_or] at h
    cases text with
    | nil => exact if_neg (Ne.symm h.1)
    | cons c text =>
      rw [List.cons_append, dropPrefix?, dropPrefix?]
      split
      · exact ih h.2 text
      · rfl

/-- A run ends where something does not belong to it. -/
theorem takeWhile_append_stop {α : Type} {p : α → Bool} {front rest : List α}
    (hfront : ∀ c ∈ front, p c = true) (hrest : ∀ c ∈ rest.head?, p c = false) :
    (front ++ rest).takeWhile p = front := by
  rw [List.takeWhile_append_of_pos hfront]
  cases rest with
  | nil => simp
  | cons c more => rw [List.takeWhile_cons_of_neg (by simp [hrest c (by simp)]), List.append_nil]

theorem dropWhile_append_stop {p : Char → Bool} {front rest : List Char}
    (hfront : ∀ c ∈ front, p c = true) (hrest : ∀ c ∈ rest.head?, p c = false) :
    (front ++ rest).dropWhile p = rest := by
  rw [List.dropWhile_append_of_pos hfront]
  cases rest with
  | nil => rfl
  | cons c more => rw [List.dropWhile_cons_of_neg (by simp [hrest c (by simp)])]

/-! ### Occurrences -/

/-- What does not hold a mark begins before the mark or not at all. -/
theorem isPrefixOf_append_cons {mark : Char} {sought : List Char} (h : mark ∉ sought)
    (text rest : List Char) :
    sought.isPrefixOf (text ++ mark :: rest) = sought.isPrefixOf text := by
  induction sought generalizing text with
  | nil => simp
  | cons s more ih =>
    cases text with
    | nil =>
      have hs : s ≠ mark := by rintro rfl; exact h (List.mem_cons_self ..)
      simp [List.isPrefixOf, hs]
    | cons c text =>
      simp [List.isPrefixOf, ih fun mem => h (List.mem_cons_of_mem _ mem)]

/-- What does not hold a mark is found before the mark or behind it. -/
theorem occursIn_append_cons {mark : Char} {sought : List Char} (h : mark ∉ sought)
    (text rest : List Char) :
    occursIn sought (text ++ mark :: rest) = (occursIn sought text || occursIn sought rest) := by
  induction text with
  | nil =>
    rw [List.nil_append, occursIn, occursIn]
    have hhere := isPrefixOf_append_cons h [] rest
    rw [List.nil_append] at hhere
    rw [hhere]
    cases sought with
    | nil => rfl
    | cons s more => rfl
  | cons c text ih =>
    have hhere := isPrefixOf_append_cons h (c :: text) rest
    rw [List.cons_append] at hhere ⊢
    rw [occursIn, occursIn, hhere, ih, Bool.or_assoc]

/-- What is not blank is not found in blank space. -/
theorem occursIn_of_isBlankText {sought : List Char} (sought_ne_nil : sought ≠ [])
    (hsought : ∀ c ∈ sought, isBlank c = false) {text : List Char} (h : IsBlankText text) :
    occursIn sought text = false := by
  obtain ⟨c, more, rfl⟩ := List.exists_cons_of_ne_nil sought_ne_nil
  induction text with
  | nil => rfl
  | cons d rest ih =>
    have hd : c ≠ d := by
      rintro rfl
      exact not_mem_of_isBlank (h c (List.mem_cons_self ..)) hsought (List.mem_cons_self ..)
    have hrest : IsBlankText rest := fun e he => h e (List.mem_cons_of_mem _ he)
    simp [occursIn, List.isPrefixOf, hd, ih hrest]

/-- Blank space behind a text holds nothing of what is sought. -/
theorem occursIn_append_blank {sought : List Char} (sought_ne_nil : sought ≠ [])
    (hsought : ∀ c ∈ sought, isBlank c = false) {pad : List Char} (hpad : IsBlankText pad)
    (text : List Char) : occursIn sought (text ++ pad) = occursIn sought text := by
  cases pad with
  | nil => rw [List.append_nil]
  | cons b more =>
    have hb : b ∉ sought := not_mem_of_isBlank (hpad b (List.mem_cons_self ..)) hsought
    have hmore : IsBlankText more := fun c hc => hpad c (List.mem_cons_of_mem _ hc)
    rw [occursIn_append_cons hb, occursIn_of_isBlankText sought_ne_nil hsought hmore,
      Bool.or_false]

theorem occursIn_nil {sought : List Char} (sought_ne_nil : sought ≠ []) :
    occursIn sought [] = false :=
  List.isEmpty_eq_false_iff.mpr sought_ne_nil

/-- Blank space in front of a text holds nothing of what is sought. -/
theorem occursIn_blank_append {sought : List Char} (sought_ne_nil : sought ≠ [])
    (hsought : ∀ c ∈ sought, isBlank c = false) {pad : List Char} (hpad : IsBlankText pad)
    (text : List Char) : occursIn sought (pad ++ text) = occursIn sought text := by
  induction pad with
  | nil => rfl
  | cons b more ih =>
    have hb : b ∉ sought := not_mem_of_isBlank (hpad b (List.mem_cons_self ..)) hsought
    have hsplit := occursIn_append_cons hb [] (more ++ text)
    rw [List.nil_append, occursIn_nil sought_ne_nil, Bool.false_or] at hsplit
    rw [List.cons_append, hsplit, ih fun c hc => hpad c (List.mem_cons_of_mem _ hc)]

/-- What is not blank is not found across blank space: it is found in what stands before it or in
what stands behind it. -/
theorem occursIn_append_of_isBlank {sought : List Char} (sought_ne_nil : sought ≠ [])
    (hsought : ∀ c ∈ sought, isBlank c = false) (front : List Char) {back : List Char}
    (hback : ∀ c ∈ back.head?, isBlank c = true) :
    occursIn sought (front ++ back) = (occursIn sought front || occursIn sought back) := by
  cases back with
  | nil => rw [List.append_nil, occursIn_nil sought_ne_nil, Bool.or_false]
  | cons b more =>
    have hb : isBlank b = true := hback b rfl
    have hpad : IsBlankText [b] := by simpa [IsBlankText] using hb
    have hmore := occursIn_blank_append sought_ne_nil hsought hpad more
    rw [occursIn_append_cons (not_mem_of_isBlank hb hsought), ← hmore, List.singleton_append]

/-! ### Parts that are read one by one -/

section Parts

variable {α β : Type} {read : β → Option α} {print : α → β} {parts : List α}

theorem mapM_map_eq_some (h : ∀ part ∈ parts, read (print part) = some part) :
    (parts.map print).mapM read = some parts := by
  induction parts with
  | nil => rfl
  | cons part rest ih =>
    rw [List.map_cons, List.mapM_cons, h part (List.mem_cons_self ..),
      ih fun other mem => h other (List.mem_cons_of_mem _ mem)]
    rfl

theorem filterMap_map_eq_self (h : ∀ part ∈ parts, read (print part) = some part) :
    (parts.map print).filterMap read = parts := by
  induction parts with
  | nil => rfl
  | cons part rest ih =>
    rw [List.map_cons, List.filterMap_cons_some (h part (List.mem_cons_self ..)),
      ih fun other mem => h other (List.mem_cons_of_mem _ mem)]

end Parts

/-! ### Enumerations -/

/-- The parts of an enumeration, with a comma and a space between two of them. -/
def enumeration (parts : List (List Char)) : List Char :=
  [',', ' '].intercalate parts

@[simp] theorem enumeration_nil : enumeration [] = [] := rfl

@[simp] theorem enumeration_singleton (part : List Char) : enumeration [part] = part :=
  List.intercalate_singleton

theorem enumeration_cons_cons (part next : List Char) (rest : List (List Char)) :
    enumeration (part :: next :: rest) = part ++ ',' :: ' ' :: enumeration (next :: rest) := by
  simp [enumeration, List.intercalate_cons_cons]

theorem mem_intercalate {separator : List Char} {parts : List (List Char)} {c : Char}
    (h : c ∈ separator.intercalate parts) : c ∈ separator ∨ ∃ part ∈ parts, c ∈ part := by
  induction parts with
  | nil => simp at h
  | cons part rest ih =>
    cases rest with
    | nil => exact Or.inr ⟨part, List.mem_cons_self .., by simpa using h⟩
    | cons next more =>
      rw [List.intercalate_cons_cons, List.mem_append, List.mem_append] at h
      rcases h with (h | h) | h
      · exact Or.inr ⟨part, List.mem_cons_self .., h⟩
      · exact Or.inl h
      · exact (ih h).imp_right fun ⟨found, mem, hc⟩ => ⟨found, List.mem_cons_of_mem _ mem, hc⟩

theorem mem_enumeration {parts : List (List Char)} {c : Char} (h : c ∈ enumeration parts) :
    c = ',' ∨ c = ' ' ∨ ∃ part ∈ parts, c ∈ part := by
  rcases mem_intercalate h with h | h
  · rcases List.mem_cons.mp h with rfl | h
    · exact Or.inl rfl
    · exact Or.inr (Or.inl (List.mem_singleton.mp h))
  · exact Or.inr (Or.inr h)

/-- Splitting an enumeration at its commas and trimming gives back its parts. -/
theorem splitOn_enumeration {parts : List (List Char)} (parts_ne_nil : parts ≠ [])
    (no_comma : ∀ part ∈ parts, ',' ∉ part) (trimmed : ∀ part ∈ parts, IsTrimmed part) :
    ((enumeration parts).splitOn ',').map trim = parts := by
  induction parts with
  | nil => exact absurd rfl parts_ne_nil
  | cons part rest ih =>
    have hpart := trim_eq_self (trimmed part (List.mem_cons_self ..))
    cases rest with
    | nil =>
      rw [enumeration_singleton, List.splitOn_eq_singleton (no_comma part (List.mem_cons_self ..))]
      simp [hpart]
    | cons next more =>
      have later := ih (by simp) (fun p hp => no_comma p (List.mem_cons_of_mem _ hp))
        (fun p hp => trimmed p (List.mem_cons_of_mem _ hp))
      -- The space behind the comma belongs to the first part of the rest, which is trimmed.
      have space : ((' ' :: enumeration (next :: more)).splitOn ',').map trim =
          ((enumeration (next :: more)).splitOn ',').map trim := by
        rw [List.splitOn_cons_eq_if_modifyHead, if_neg (by decide)]
        obtain ⟨first, others, hsplit⟩ :=
          List.exists_cons_of_ne_nil (List.splitOn_ne_nil ',' (enumeration (next :: more)))
        rw [hsplit, List.modifyHead_cons, List.map_cons, List.map_cons]
        rfl
      rw [enumeration_cons_cons,
        List.splitOn_append_cons_self_of_not_mem (no_comma part (List.mem_cons_self ..)),
        List.map_cons, hpart, space, later]

theorem enumeration_ne_nil {parts : List (List Char)} (parts_ne_nil : parts ≠ [])
    (part_ne_nil : ∀ part ∈ parts, part ≠ []) : enumeration parts ≠ [] := by
  obtain ⟨part, rest, rfl⟩ := List.exists_cons_of_ne_nil parts_ne_nil
  cases rest with
  | nil => simpa using part_ne_nil
  | cons next more => simp [enumeration_cons_cons]

theorem isTrimmed_enumeration {parts : List (List Char)} (part_ne_nil : ∀ part ∈ parts, part ≠ [])
    (trimmed : ∀ part ∈ parts, IsTrimmed part) : IsTrimmed (enumeration parts) := by
  induction parts with
  | nil => exact ⟨by simp, by simp⟩
  | cons part rest ih =>
    have hpart := trimmed part (List.mem_cons_self ..)
    obtain ⟨c, more, hfirst⟩ := List.exists_cons_of_ne_nil (part_ne_nil part (List.mem_cons_self ..))
    cases rest with
    | nil => rwa [enumeration_singleton]
    | cons next others =>
      have later := ih (fun p hp => part_ne_nil p (List.mem_cons_of_mem _ hp))
        (fun p hp => trimmed p (List.mem_cons_of_mem _ hp))
      rw [enumeration_cons_cons]
      constructor
      · have hhead := hpart.head
        rw [hfirst] at hhead ⊢
        simpa using hhead
      · have hsplit : part ++ ',' :: ' ' :: enumeration (next :: others) =
            part ++ [','] ++ [' '] ++ enumeration (next :: others) := by
          simp
        have hne : enumeration (next :: others) ≠ [] :=
          enumeration_ne_nil (by simp) fun p hp => part_ne_nil p (List.mem_cons_of_mem _ hp)
        rw [hsplit, getLast?_append_of_ne_nil hne]
        exact later.last

end Scaffold.Text
