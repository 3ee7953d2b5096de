import Scaffold.Text.Blank
import Scaffold.Text.Word

/-!
Blank space around a text. A text whose ends are not blank (`IsTrimmed`) is what trimming leaves
of it, whatever blank space is put on either side (`trim_pad`), and trimming always leaves such a
text (`isTrimmed_trim`). The words of a text come apart at every blank (`words_append_blank`).
-/

namespace Scaffold.Text

/-- What holds of the characters of a text is decided along the text, not over all characters. -/
instance (priority := high) decidableForallMem (p : Char → Prop) [DecidablePred p]
    (text : List Char) : Decidable (∀ c ∈ text, p c) :=
  List.decidableBAll p text

/-- What holds of the first or last character of a text, if there is one, is decided there. -/
instance (priority := high) decidableForallMemEnd (p : Char → Prop) [DecidablePred p]
    (last : Option Char) : Decidable (∀ c ∈ last, p c) :=
  Option.decidableForallMem last

/-- A text of nothing but blank space. -/
def IsBlankText (text : List Char) : Prop :=
  ∀ c ∈ text, isBlank c = true

instance (text : List Char) : Decidable (IsBlankText text) :=
  inferInstanceAs (Decidable (∀ c ∈ text, isBlank c = true))

theorem isBlankText_space : IsBlankText [' '] := by
  decide

theorem isBlankText_takeWhile (text : List Char) : IsBlankText (text.takeWhile isBlank) :=
  fun c hc => List.all_eq_true.mp List.all_takeWhile c hc

/-- A text that begins with blank space has blank space to begin with. -/
theorem takeWhile_isBlank_ne_nil {text : List Char} (h : text.head?.any isBlank = true) :
    text.takeWhile isBlank ≠ [] := by
  cases text with
  | nil => simp at h
  | cons c rest =>
    have hc : isBlank c = true := h
    simp [hc]

/-- A blank character does not stand in a text without blank space. -/
theorem not_mem_of_isBlank {b : Char} (hb : isBlank b = true) {text : List Char}
    (h : ∀ c ∈ text, isBlank c = false) : b ∉ text := by
  intro mem
  have hblank := h b mem
  rw [hb] at hblank
  cases hblank

/-- Blank space holds no other character. -/
theorem IsBlankText.not_mem {text : List Char} (h : IsBlankText text) {c : Char}
    (hc : isBlank c = false) : c ∉ text := by
  intro mem
  rw [h c mem] at hc
  cases hc

/-- What goes on with blank space goes on with no other character. -/
theorem IsBlankText.head?_append_ne {pad : List Char} (h : IsBlankText pad) (pad_ne_nil : pad ≠ [])
    {mark : Char} (hmark : isBlank mark = false) (more : List Char) :
    ∀ c ∈ (pad ++ more).head?, c ≠ mark := by
  obtain ⟨b, rest, rfl⟩ := List.exists_cons_of_ne_nil pad_ne_nil
  rintro c hc rfl
  obtain rfl : b = c := by simpa using hc
  exact h.not_mem hmark (List.mem_cons_self ..)

/-- A text with no blank space at its two ends. -/
structure IsTrimmed (text : List Char) : Prop where
  head : ∀ c ∈ text.head?, isBlank c = false
  last : ∀ c ∈ text.getLast?, isBlank c = false

/-! ### Characters of words -/

/-- Word characters lie between the digit zero and the small z. -/
theorem toNat_of_isWordChar {c : Char} (h : isWordChar c = true) :
    0x30 ≤ c.toNat ∧ c.toNat ≤ 0x7A := by
  have hupper : c.isUpper = decide (c.val ≥ 'A'.val ∧ c.val ≤ 'Z'.val) := rfl
  have hlower : c.isLower = (decide (c.val ≥ 'a'.val) && decide (c.val ≤ 'z'.val)) := rfl
  have halpha : c.isAlpha = (c.isUpper || c.isLower) := rfl
  simp only [isWordChar, Char.isAlphanum, halpha, hupper, hlower, Char.isDigit, Bool.or_eq_true,
    Bool.and_eq_true, decide_eq_true_eq, beq_iff_eq, UInt32.le_iff_toNat_le, ge_iff_le] at h
  change (((65 ≤ c.toNat ∧ c.toNat ≤ 90) ∨ (97 ≤ c.toNat ∧ c.toNat ≤ 122)) ∨
    (48 ≤ c.toNat ∧ c.toNat ≤ 57)) ∨ c = '_' at h
  rcases h with h | rfl
  · omega
  · decide

theorem isBlank_eq_false_of_isWordChar {c : Char} (h : isWordChar c = true) :
    isBlank c = false := by
  have code := toNat_of_isWordChar h
  simp only [isBlank, Bool.or_eq_false_iff, Bool.and_eq_false_iff, decide_eq_false_iff_not,
    beq_eq_false_iff_ne]
  omega

/-- No character of a word is blank. -/
theorem isBlank_eq_false_of_isWord {text : List Char} (h : isWord text = true) :
    ∀ c ∈ text, isBlank c = false :=
  fun c hc => isBlank_eq_false_of_isWordChar ((isWord_iff.mp h).2 c hc)

theorem isWord_takeWhile {text : List Char} (h : (text.takeWhile isWordChar).isEmpty = false) :
    isWord (text.takeWhile isWordChar) = true := by
  rw [isWord, h, List.all_takeWhile]
  rfl

/-- A character that is none of a word stands in no word. -/
theorem not_mem_of_isWord {text : List Char} {c : Char} (h : isWord text = true)
    (hc : isWordChar c = false) : c ∉ text := by
  intro mem
  have := (isWord_iff.mp h).2 c mem
  simp [hc] at this

/-! ### Trimming -/

@[simp] theorem trim_nil : trim [] = [] := rfl

/-- A text is the blank space that it begins with, and the rest. -/
theorem takeWhile_append_trimLeft (text : List Char) :
    text.takeWhile isBlank ++ trimLeft text = text :=
  List.takeWhile_append_dropWhile

theorem trimLeft_append {pad : List Char} (h : IsBlankText pad) (text : List Char) :
    trimLeft (pad ++ text) = trimLeft text :=
  List.dropWhile_append_of_pos h

theorem trimLeft_eq_self {text : List Char} (h : ∀ c ∈ text.head?, isBlank c = false) :
    trimLeft text = text := by
  cases text with
  | nil => rfl
  | cons c rest => exact List.dropWhile_cons_of_neg (by simp [h c (by simp)])

theorem trimRight_append {pad : List Char} (h : IsBlankText pad) (text : List Char) :
    trimRight (text ++ pad) = trimRight text := by
  have hreverse : IsBlankText pad.reverse := fun c hc => h c (List.mem_reverse.mp hc)
  rw [trimRight, trimRight, List.reverse_append, trimLeft_append hreverse]

theorem trimRight_eq_self {text : List Char} (h : ∀ c ∈ text.getLast?, isBlank c = false) :
    trimRight text = text := by
  rw [trimRight, trimLeft_eq_self (by simpa using h), List.reverse_reverse]

theorem trim_eq_self {text : List Char} (h : IsTrimmed text) : trim text = text := by
  rw [trim, trimLeft_eq_self h.head, trimRight_eq_self h.last]

/-- Blank space around a text is what trimming takes away. -/
theorem trim_pad {left right text : List Char} (hleft : IsBlankText left)
    (hright : IsBlankText right) (h : IsTrimmed text) : trim (left ++ text ++ right) = text := by
  rw [trim, List.append_assoc, trimLeft_append hleft]
  cases text with
  | nil =>
    rw [List.nil_append, ← List.append_nil right, trimLeft_append hright]
    rfl
  | cons c rest =>
    rw [trimLeft_eq_self (by simpa using h.head), trimRight_append hright,
      trimRight_eq_self h.last]

theorem trim_append_left {left : List Char} (hleft : IsBlankText left) (text : List Char) :
    trim (left ++ text) = trim text := by
  rw [trim, trim, trimLeft_append hleft]

/-- A run ends before a character that does not belong to it. -/
theorem takeWhile_append_cons {p : Char → Bool} {c : Char} (hc : p c = false)
    (before after : List Char) : (before ++ c :: after).takeWhile p = before.takeWhile p := by
  rw [List.takeWhile_append, List.takeWhile_cons_of_neg (by simp [hc]), List.append_nil]
  split
  next hlength => exact ((List.takeWhile_prefix p).eq_of_length hlength).symm
  next => rfl

theorem dropWhile_append_cons {p : Char → Bool} {c : Char} (hc : p c = false)
    (before after : List Char) :
    (before ++ c :: after).dropWhile p = before.dropWhile p ++ c :: after := by
  rw [List.dropWhile_append, List.dropWhile_cons_of_neg (by simp [hc])]
  split
  next hempty => rw [List.isEmpty_iff.mp hempty, List.nil_append]
  next => rfl

/-- Trimming at the left stops at the first character that is not blank. -/
theorem trimLeft_append_cons {c : Char} (hc : isBlank c = false) (before after : List Char) :
    trimLeft (before ++ c :: after) = trimLeft before ++ c :: after :=
  dropWhile_append_cons hc before after

/-- Trimming at the right stops at the last character that is not blank. -/
theorem trimRight_append_cons {c : Char} (hc : isBlank c = false) (before after : List Char) :
    trimRight (before ++ c :: after) = before ++ c :: trimRight after := by
  have split : (before ++ c :: after).reverse = after.reverse ++ c :: before.reverse := by simp
  rw [trimRight, trimRight, split, trimLeft, trimLeft, List.dropWhile_append,
    List.dropWhile_cons_of_neg (by simp [hc])]
  split
  next hempty => simp [List.isEmpty_iff.mp hempty]
  next => simp

/-- Trimming at the left takes away blank space that follows only if nothing stands before it. -/
theorem trimLeft_append_blank {pad : List Char} (h : IsBlankText pad) (text : List Char) :
    trimLeft (text ++ pad) = if (trimLeft text).isEmpty then [] else trimLeft text ++ pad := by
  rw [trimLeft, List.dropWhile_append, ← List.append_nil pad, List.dropWhile_append_of_pos h,
    List.append_nil]
  rfl

theorem trim_append_right {right : List Char} (hright : IsBlankText right) (text : List Char) :
    trim (text ++ right) = trim text := by
  rw [trim, trim, trimLeft_append_blank hright]
  split
  next hempty => rw [List.isEmpty_iff.mp hempty]
  next => exact trimRight_append hright _

/-- What trimming at the right takes away is blank. -/
theorem exists_trimRight_append (text : List Char) :
    ∃ right, IsBlankText right ∧ trimRight text ++ right = text := by
  refine ⟨(text.reverse.takeWhile isBlank).reverse, ?_, ?_⟩
  · intro c hc
    exact isBlankText_takeWhile text.reverse c (List.mem_reverse.mp hc)
  · rw [trimRight, trimLeft, ← List.reverse_append, List.takeWhile_append_dropWhile,
      List.reverse_reverse]

theorem trim_trimRight (text : List Char) : trim (trimRight text) = trim text := by
  obtain ⟨right, hright, happend⟩ := exists_trimRight_append text
  rw [← trim_append_right hright, happend]

theorem trim_eq_nil {text : List Char} (h : IsBlankText text) : trim text = [] := by
  simpa using trim_append_left h []

/-- What trimming keeps is a piece of the text. -/
theorem trim_isInfix (text : List Char) : trim text <:+: text := by
  obtain ⟨right, _, happend⟩ := exists_trimRight_append (trimLeft text)
  have front : trim text <+: trimLeft text := ⟨right, happend⟩
  exact front.isInfix.trans (List.dropWhile_suffix isBlank).isInfix

theorem head?_trimLeft (text : List Char) : ∀ c ∈ (trimLeft text).head?, isBlank c = false := by
  intro c hc
  have := List.head?_dropWhile_not isBlank text
  rw [← trimLeft, Option.mem_def.mp hc] at this
  simpa using this

theorem isTrimmed_trim (text : List Char) : IsTrimmed (trim text) := by
  constructor
  · intro c hc
    -- Cutting off at the back leaves the first character, or nothing.
    have sub : trim text <+: trimLeft text := by
      have suffix : trimLeft (trimLeft text).reverse <:+ (trimLeft text).reverse :=
        List.dropWhile_suffix isBlank
      simpa only [trim, trimRight, List.reverse_reverse] using suffix.reverse
    obtain ⟨back, hback⟩ := sub
    apply head?_trimLeft text c
    rw [← hback]
    cases htrim : trim text with
    | nil => simp [htrim] at hc
    | cons d rest => simpa [htrim] using hc
  · intro c hc
    rw [trim, trimRight, List.getLast?_reverse] at hc
    exact head?_trimLeft _ c hc

/-- Behind a trimmed text that goes on, only the end is trimmed. -/
theorem trim_append {text : List Char} (text_ne_nil : text ≠ []) (h : IsTrimmed text)
    (more : List Char) : trim (text ++ more) = text ++ trimRight more := by
  obtain ⟨front, last, rfl⟩ := (List.eq_nil_or_concat text).resolve_left text_ne_nil
  rw [List.concat_eq_append] at h ⊢
  have hlast : isBlank last = false := h.last last (by simp)
  have hhead : ∀ c ∈ (front ++ [last] ++ more).head?, isBlank c = false := by
    intro c hc
    apply h.head c
    cases front with
    | nil => exact hc
    | cons d rest => exact hc
  rw [trim, trimLeft_eq_self hhead, List.append_assoc, List.singleton_append,
    trimRight_append_cons hlast, List.append_assoc, List.singleton_append]

/-- A text is what is left of it, with blank space on both sides. -/
theorem exists_eq_append_trim (text : List Char) :
    ∃ left right, IsBlankText left ∧ IsBlankText right ∧ text = left ++ (trim text ++ right) := by
  obtain ⟨right, hright, happend⟩ := exists_trimRight_append (trimLeft text)
  refine ⟨text.takeWhile isBlank, right, isBlankText_takeWhile text, hright, ?_⟩
  rw [trim, happend, takeWhile_append_trimLeft]

/-- A text that goes on is trimmed to a text that goes on. -/
theorem trim_isPrefix_append (text more : List Char) : trim text <+: trim (text ++ more) := by
  obtain ⟨left, right, hleft, -, hsplit⟩ := exists_eq_append_trim text
  by_cases hnil : trim text = []
  · rw [hnil]
    exact List.nil_prefix
  · have hmore : text ++ more = left ++ (trim text ++ (right ++ more)) := by
      rw [← List.append_assoc (trim text), ← List.append_assoc, ← hsplit]
    rw [hmore, trim_append_left hleft, trim_append hnil (isTrimmed_trim text)]
    exact List.prefix_append ..

theorem isTrimmed_of_isWord {text : List Char} (h : isWord text = true) : IsTrimmed text :=
  ⟨fun c hc => isBlank_eq_false_of_isWord h c (List.mem_of_mem_head? hc),
    fun c hc => isBlank_eq_false_of_isWord h c (List.mem_of_mem_getLast? hc)⟩

/-- A text is trimmed whose two ends are known and not blank. -/
theorem isTrimmed_of_ends {first last : Char} {middle : List Char}
    (hfirst : isBlank first = false) (hlast : isBlank last = false) :
    IsTrimmed (first :: middle ++ [last]) := by
  constructor
  · simpa using hfirst
  · intro c hc
    rw [List.getLast?_concat, Option.mem_some_iff] at hc
    exact hc ▸ hlast

theorem getLast?_append_of_ne_nil {second : List Char} (h : second ≠ []) (first : List Char) :
    (first ++ second).getLast? = second.getLast? := by
  rw [List.getLast?_append, List.getLast?_eq_some_getLast h, Option.some_or]

/-- A text does not end with blank space if none of its parts does. -/
theorem last_append {first second : List Char} (hfirst : ∀ c ∈ first.getLast?, isBlank c = false)
    (hsecond : ∀ c ∈ second.getLast?, isBlank c = false) :
    ∀ c ∈ (first ++ second).getLast?, isBlank c = false := by
  intro c hc
  rw [List.getLast?_append] at hc
  cases hlast : second.getLast? with
  | none =>
    rw [hlast] at hc
    exact hfirst c hc
  | some d =>
    rw [hlast] at hc
    obtain rfl := Option.mem_some_iff.mp hc
    exact hsecond d hlast

theorem last_flatMap {α : Type} {part : α → List Char} {parts : List α}
    (h : ∀ a ∈ parts, ∀ c ∈ (part a).getLast?, isBlank c = false) :
    ∀ c ∈ (parts.flatMap part).getLast?, isBlank c = false := by
  induction parts with
  | nil => simp
  | cons a rest ih =>
    rw [List.flatMap_cons]
    exact last_append (h a (List.mem_cons_self ..)) (ih fun b hb => h b (List.mem_cons_of_mem _ hb))

/-! ### Words -/

@[simp] theorem words_nil : words [] = [] := rfl

theorem words_append_blank {c : Char} (hc : isBlank c = true) (first second : List Char) :
    words (first ++ c :: second) = words first ++ words second := by
  rw [words, List.splitOnP_append_cons first second hc, List.filter_append]
  rfl

theorem words_eq_nil {text : List Char} (h : IsBlankText text) : words text = [] := by
  induction text with
  | nil => rfl
  | cons c rest ih =>
    have := words_append_blank (h c (List.mem_cons_self ..)) [] rest
    rw [List.nil_append] at this
    rw [this, ih fun d hd => h d (List.mem_cons_of_mem _ hd)]
    rfl

theorem words_append_pad {pad : List Char} (h : IsBlankText pad) (text : List Char) :
    words (text ++ pad) = words text := by
  cases pad with
  | nil => rw [List.append_nil]
  | cons c rest =>
    have hrest : IsBlankText rest := fun d hd => h d (List.mem_cons_of_mem _ hd)
    rw [words_append_blank (h c (List.mem_cons_self ..)), words_eq_nil hrest, List.append_nil]

theorem words_pad_append {pad : List Char} (h : IsBlankText pad) (text : List Char) :
    words (pad ++ text) = words text := by
  induction pad with
  | nil => rfl
  | cons c rest ih =>
    have := words_append_blank (h c (List.mem_cons_self ..)) [] (rest ++ text)
    rw [List.nil_append] at this
    rw [List.cons_append, this, ih fun d hd => h d (List.mem_cons_of_mem _ hd)]
    rfl

theorem words_of_isWord {text : List Char} (h : isWord text = true) : words text = [text] := by
  rw [words, List.splitOnP_eq_singleton (isBlank_eq_false_of_isWord h)]
  simpa using (isWord_iff.mp h).1

theorem mem_splitOnP_of_mem {p : Char → Bool} {text : List Char} {c : Char} (hc : c ∈ text)
    (h : p c = false) : ∃ part ∈ text.splitOnP p, c ∈ part := by
  induction text with
  | nil => simp at hc
  | cons d rest ih =>
    rw [List.splitOnP_cons_eq_if_modifyHead]
    cases hd : p d with
    | true =>
      rcases List.mem_cons.mp hc with rfl | hc
      · simp [h] at hd
      · obtain ⟨part, hpart, mem⟩ := ih hc
        exact ⟨part, by simp [hpart], mem⟩
    | false =>
      obtain ⟨first, others, hsplit⟩ :=
        List.exists_cons_of_ne_nil (List.splitOnP_ne_nil p rest)
      rw [hsplit] at ih ⊢
      rw [if_neg (by simp), List.modifyHead_cons]
      rcases List.mem_cons.mp hc with rfl | hc
      · exact ⟨c :: first, List.mem_cons_self .., List.mem_cons_self ..⟩
      · obtain ⟨part, hpart, mem⟩ := ih hc
        rcases List.mem_cons.mp hpart with rfl | hpart
        · exact ⟨d :: part, List.mem_cons_self .., List.mem_cons_of_mem _ mem⟩
        · exact ⟨part, List.mem_cons_of_mem _ hpart, mem⟩

/-- What stands in a part stands in the text, and does not separate. -/
theorem mem_of_mem_splitOnP {p : Char → Bool} {text part : List Char} {c : Char}
    (hpart : part ∈ text.splitOnP p) (hc : c ∈ part) : c ∈ text ∧ p c = false := by
  induction text generalizing part with
  | nil =>
    obtain rfl : part = [] := by simpa using hpart
    cases hc
  | cons d rest ih =>
    have later : part ∈ rest.splitOnP p → c ∈ d :: rest ∧ p c = false := by
      intro hrest
      obtain ⟨mem, hp⟩ := ih hrest hc
      exact ⟨List.mem_cons_of_mem _ mem, hp⟩
    rw [List.splitOnP_cons_eq_if_modifyHead] at hpart
    cases hd : p d with
    | true =>
      rw [if_pos hd] at hpart
      rcases List.mem_cons.mp hpart with rfl | hpart
      · cases hc
      · exact later hpart
    | false =>
      obtain ⟨first, others, hsplit⟩ :=
        List.exists_cons_of_ne_nil (List.splitOnP_ne_nil p rest)
      rw [if_neg (by simp [hd]), hsplit, List.modifyHead_cons] at hpart
      rw [hsplit] at later ih
      rcases List.mem_cons.mp hpart with rfl | hpart
      · rcases List.mem_cons.mp hc with rfl | hc
        · exact ⟨List.mem_cons_self .., hd⟩
        · obtain ⟨mem, hp⟩ := ih (List.mem_cons_self ..) hc
          exact ⟨List.mem_cons_of_mem _ mem, hp⟩
      · exact later (List.mem_cons_of_mem _ hpart)

/-- What is not blank stands in a word. -/
theorem mem_words_of_mem {text : List Char} {c : Char} (hc : c ∈ text)
    (h : isBlank c = false) : ∃ word ∈ words text, c ∈ word := by
  obtain ⟨part, hpart, mem⟩ := mem_splitOnP_of_mem hc h
  exact ⟨part, List.mem_filter.mpr ⟨hpart, by simpa using List.ne_nil_of_mem mem⟩, mem⟩

/-- Two words with blank space between them and behind them are the words of the text. -/
theorem words_pair {first gap second right : List Char} (hfirst : isWord first = true)
    (hgap : IsBlankText gap) (gap_ne_nil : gap ≠ []) (hsecond : isWord second = true)
    (hright : IsBlankText right) :
    words (first ++ gap ++ second ++ right) = [first, second] := by
  obtain ⟨c, rest, rfl⟩ := List.exists_cons_of_ne_nil gap_ne_nil
  have hrest : IsBlankText rest := fun d hd => hgap d (List.mem_cons_of_mem _ hd)
  have split : first ++ (c :: rest) ++ second ++ right =
      first ++ c :: (rest ++ (second ++ right)) := by
    simp [List.append_assoc]
  rw [split, words_append_blank (hgap c (List.mem_cons_self ..)), words_of_isWord hfirst,
    words_pad_append hrest, words_append_pad hright, words_of_isWord hsecond]
  rfl

end Scaffold.Text
