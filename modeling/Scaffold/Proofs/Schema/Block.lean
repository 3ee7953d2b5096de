import Scaffold.Schema.Block
import Scaffold.Proofs.Text.Blank
import Scaffold.Proofs.Text.Cut

/-!
What one line does to a block. A text closes a block if it has a closing brace outside of strings
and comments (`closesBlock`); `Block.feed_of_open` and `Block.feed_of_closing` say what a block is
after a line that leaves it open and after one that closes it, and `header?_eq_some` reads the
header of a line. Numbered lines (`numbered`) let a walk be cut where the text is cut.
-/

namespace Scaffold.Schema

open Text

/-! ### Closing braces -/

/-- Whether a text has a closing brace outside of strings and comments. -/
def closesBlock (text : List Char) : Bool :=
  (cutAtBrace? .plain text).isSome

/-- A text is cut before a closing brace. -/
theorem cutAtBrace?_eq_some {mode : LexMode} {text before after : List Char}
    (h : cutAtBrace? mode text = some (before, after)) : text = before ++ '}' :: after := by
  induction text generalizing mode before with
  | nil => simp [cutAtBrace?] at h
  | cons c rest ih =>
    rw [cutAtBrace?] at h
    split at h
    next hbrace =>
      obtain ⟨rfl, rfl⟩ := Prod.mk.inj (Option.some.inj h)
      rw [hbrace.2, List.nil_append]
    next =>
      split at h
      · cases h
      · obtain ⟨⟨inner, behind⟩, hinner, heq⟩ := Option.map_eq_some_iff.mp h
        obtain ⟨rfl, rfl⟩ := Prod.mk.inj heq
        rw [ih hinner, List.cons_append]

/-- The characters that mean nothing to a walk in plain text. -/
def isQuiet (c : Char) : Bool :=
  c != '"' && c != '}' && c != '/'

theorem cutAtBrace?_cons_quiet {c : Char} (hc : isQuiet c = true) (rest : List Char) :
    cutAtBrace? .plain (c :: rest) =
      (cutAtBrace? .plain rest).map fun cut => (c :: cut.1, cut.2) := by
  simp only [isQuiet, Bool.and_eq_true, bne_iff_ne] at hc
  obtain ⟨⟨hquote, hbrace⟩, hslash⟩ := hc
  have hcomment : isComment (c :: rest) = false := by
    unfold isComment
    split
    next heq => exact absurd (List.cons.inj heq).1 hslash
    next => rfl
  rw [cutAtBrace?, if_neg (fun h => hbrace h.2), if_neg (by simp [hcomment]), LexMode.next,
    if_neg hquote]

/-- Quiet text before a text stays before the brace at which the text is cut. -/
theorem cutAtBrace?_quiet_append {quiet : List Char} (h : ∀ c ∈ quiet, isQuiet c = true)
    (rest : List Char) :
    cutAtBrace? .plain (quiet ++ rest) =
      (cutAtBrace? .plain rest).map fun cut => (quiet ++ cut.1, cut.2) := by
  induction quiet with
  | nil => simp
  | cons c more ih =>
    have later := ih fun d hd => h d (List.mem_cons_of_mem _ hd)
    rw [List.cons_append, cutAtBrace?_cons_quiet (h c (List.mem_cons_self ..)), later,
      Option.map_map]
    rfl

/-- Quiet text before a text does not change whether it closes a block. -/
theorem closesBlock_quiet_append {quiet : List Char} (h : ∀ c ∈ quiet, isQuiet c = true)
    (rest : List Char) : closesBlock (quiet ++ rest) = closesBlock rest := by
  rw [closesBlock, cutAtBrace?_quiet_append h, Option.isSome_map]
  rfl

theorem closesBlock_quiet {quiet : List Char} (h : ∀ c ∈ quiet, isQuiet c = true) :
    closesBlock quiet = false := by
  rw [← List.append_nil quiet, closesBlock_quiet_append h]
  rfl

/-- A walk that has begun in a string leaves it at the next quote. -/
theorem isSome_cutAtBrace?_string {content : List Char} (no_quote : '"' ∉ content)
    (no_backslash : '\\' ∉ content) (rest : List Char) :
    (cutAtBrace? .quoted (content ++ '"' :: rest)).isSome = closesBlock rest := by
  induction content with
  | nil => simp [cutAtBrace?, LexMode.next, closesBlock]
  | cons c more ih =>
    have hquote : c ≠ '"' := fun eq => no_quote (by simp [eq])
    have hbackslash : c ≠ '\\' := fun eq => no_backslash (by simp [eq])
    have later := ih (fun mem => no_quote (List.mem_cons_of_mem _ mem))
      (fun mem => no_backslash (List.mem_cons_of_mem _ mem))
    simpa [cutAtBrace?, LexMode.next, hquote, hbackslash] using later

/-- A string literal before a text does not change whether it closes a block. -/
theorem closesBlock_string_append {content : List Char} (no_quote : '"' ∉ content)
    (no_backslash : '\\' ∉ content) (rest : List Char) :
    closesBlock ('"' :: content ++ '"' :: rest) = closesBlock rest := by
  rw [closesBlock, List.cons_append, cutAtBrace?]
  simpa [LexMode.next, isComment] using isSome_cutAtBrace?_string no_quote no_backslash rest

theorem closesBlock_of_isComment {text : List Char} (h : isComment text = true) :
    closesBlock text = false := by
  cases text with
  | nil => rfl
  | cons c rest =>
    have hc : c ≠ '}' := by
      rintro rfl
      simp [isComment] at h
    rw [closesBlock, cutAtBrace?, if_neg (fun brace => hc brace.2), if_pos ⟨rfl, h⟩]
    rfl

theorem isQuiet_of_isWordChar {c : Char} (h : isWordChar c = true) :
    isQuiet c = true ∧ c ≠ '\n' := by
  have other : ∀ d, isWordChar d = false → c ≠ d := by
    rintro d hd rfl
    simp [hd] at h
  simp [isQuiet, other '"' (by decide), other '}' (by decide), other '/' (by decide),
    other '\n' (by decide)]

theorem isQuiet_of_isBlank {c : Char} (h : isBlank c = true) : isQuiet c = true := by
  have hmark : c ∉ ['"', '}', '/'] := not_mem_of_isBlank h (by decide)
  simpa [isQuiet, and_assoc] using hmark

theorem cutAtBrace?_eq_none {text : List Char} (h : '}' ∉ text) (mode : LexMode) :
    cutAtBrace? mode text = none := by
  induction text generalizing mode with
  | nil => rfl
  | cons c rest ih =>
    have hc : c ≠ '}' := by
      rintro rfl
      exact h (List.mem_cons_self ..)
    rw [cutAtBrace?, if_neg (fun brace => hc brace.2), ih fun mem => h (List.mem_cons_of_mem _ mem)]
    simp

theorem isComment_cons_cons (c d : Char) (rest : List Char) :
    isComment (c :: d :: rest) = (c == '/' && d == '/') := by
  unfold isComment
  split
  next heq =>
    simp only [List.cons.injEq] at heq
    simp [heq.1, heq.2.1]
  next hne =>
    symm
    simp only [Bool.and_eq_false_iff, beq_eq_false_iff_ne, ne_eq]
    by_cases hc : c = '/'
    · exact Or.inr fun hd => hne rest (by rw [hc, hd])
    · exact Or.inl hc

theorem isComment_eq (text : List Char) : isComment text = "//".toList.isPrefixOf text := by
  unfold isComment
  split
  next rest => simp [List.isPrefixOf]
  next hne =>
    symm
    rw [Bool.eq_false_iff]
    intro h
    obtain ⟨rest, rfl⟩ := List.isPrefixOf_iff_prefix.mp h
    exact hne rest rfl

/-- Text that does not go on with a slash is no comment because of what follows. -/
theorem isComment_append (text : List Char) {more : List Char} (h : ∀ c ∈ more.head?, c ≠ '/') :
    isComment (text ++ more) = isComment text := by
  cases more with
  | nil => rw [List.append_nil]
  | cons c rest =>
    have hc : c ∉ "//".toList := by simp [h c rfl]
    rw [isComment_eq, isComment_eq, isPrefixOf_append_cons hc]

theorem isSome_cutAtBrace?_append_blank {right : List Char} (h : IsBlankText right)
    (text : List Char) (mode : LexMode) :
    (cutAtBrace? mode (text ++ right)).isSome = (cutAtBrace? mode text).isSome := by
  induction text generalizing mode with
  | nil =>
    rw [List.nil_append, cutAtBrace?_eq_none (h.not_mem (by decide))]
    rfl
  | cons c rest ih =>
    have hhead : ∀ d ∈ right.head?, d ≠ '/' := by
      rintro d hd rfl
      exact h.not_mem (by decide) (List.mem_of_mem_head? hd)
    have hcomment := isComment_append (c :: rest) hhead
    rw [List.cons_append] at hcomment ⊢
    rw [cutAtBrace?, cutAtBrace?, hcomment]
    split
    · rfl
    · split
      · rfl
      · simp [ih]

theorem closesBlock_trimLeft (text : List Char) :
    closesBlock (trimLeft text) = closesBlock text := by
  have quiet : ∀ c ∈ text.takeWhile isBlank, isQuiet c = true := by
    intro c hc
    exact isQuiet_of_isBlank (isBlankText_takeWhile text c hc)
  have hsplit := closesBlock_quiet_append quiet (text.dropWhile isBlank)
  rw [List.takeWhile_append_dropWhile] at hsplit
  exact hsplit.symm

/-- Trimming a text does not change whether it closes a block. -/
theorem closesBlock_trim (text : List Char) : closesBlock (trim text) = closesBlock text := by
  obtain ⟨right, hright, happend⟩ := exists_trimRight_append (trimLeft text)
  rw [← closesBlock_trimLeft text, ← happend, trim]
  exact (isSome_cutAtBrace?_append_blank hright _ .plain).symm

/-! ### Feeding a block -/

/-- The block with a line in its body, unless the line is empty. -/
def Block.keep (block : Block) (line : SourceLine) : Block :=
  if line.text.isEmpty then block else block.push line

/-- What is kept of a line is the last of the body, and an empty line adds nothing to it. -/
theorem Block.keep_eq (block : Block) (line : SourceLine) :
    block.keep line =
      { block with body := block.body ++ if line.text = [] then [] else [line] } := by
  unfold keep
  cases htext : line.text with
  | nil => simp
  | cons c rest => simp [push]

theorem Block.feed_of_open {line : SourceLine} (h : closesBlock line.text = false)
    (block : Block) : block.feed line = .stillOpen (block.keep line) := by
  have hcut : cutAtBrace? .plain line.text = none := by simpa [closesBlock] using h
  unfold Block.feed Block.keep
  rw [hcut]
  split
  · rfl
  · split
    · rfl
    · rfl

/-- A line that closes a block leaves it with the trimmed text before the brace. -/
theorem Block.feed_of_closing {line : SourceLine} {before after : List Char}
    (h : cutAtBrace? .plain line.text = some (before, after)) (block : Block) :
    block.feed line = .closed (block.keep ⟨line.number, trim before⟩) := by
  have hempty : line.text.isEmpty = false := by
    cases htext : line.text with
    | nil => simp [htext, cutAtBrace?] at h
    | cons c rest => rfl
  have hcomment : isComment line.text = false := by
    cases hc : isComment line.text with
    | false => rfl
    | true =>
      have := closesBlock_of_isComment hc
      simp [closesBlock, h] at this
  unfold Block.feed Block.keep
  rw [hempty, hcomment, h]
  simp only [Bool.false_eq_true, if_false]
  split
  · rfl
  · rfl

/-! ### Headers -/

/-- Two words and an opening brace at the beginning of a line are its header. -/
theorem header?_eq_some {keyword gap name pad : List Char} (hkeyword : isWord keyword = true)
    (hgap : IsBlankText gap) (gap_ne_nil : gap ≠ []) (hname : isWord name = true)
    (hpad : IsBlankText pad) (number : Nat) (rest : List Char) :
    header? ⟨number, keyword ++ gap ++ name ++ pad ++ '{' :: rest⟩ =
      some (⟨String.ofList keyword, String.ofList name, number, []⟩, rest) := by
  have hbrace : '{' ∉ keyword ++ gap ++ name ++ pad := by
    simp only [List.mem_append, not_or]
    exact ⟨⟨⟨not_mem_of_isWord hkeyword (by decide), hgap.not_mem (by decide)⟩,
      not_mem_of_isWord hname (by decide)⟩, hpad.not_mem (by decide)⟩
  rw [header?, cutAt?_append hbrace]
  simp only [words_pair hkeyword hgap gap_ne_nil hname hpad, hkeyword, hname, Bool.and_self,
    if_true]

/-- A comment is no header. -/
theorem header?_of_isComment {line : SourceLine} (h : isComment line.text = true) :
    header? line = none := by
  unfold header?
  split
  · rfl
  next head rest hcut =>
    split
    next keyword name hwords =>
      -- The first word of what stands before the brace begins with a slash.
      have slash : ∃ more, keyword = '/' :: more := by
        obtain ⟨htext, _⟩ := cutAt?_eq_some.mp hcut
        cases head with
        | nil => simp [words_nil] at hwords
        | cons c more =>
          rw [htext] at h
          have hc : c = '/' := by
            unfold isComment at h
            split at h
            next heq => exact (List.cons.inj heq).1
            next => simp at h
          obtain ⟨first, others, hsplit⟩ :=
            List.exists_cons_of_ne_nil (List.splitOnP_ne_nil isBlank more)
          rw [hc, words, List.splitOnP_cons_eq_if_modifyHead, if_neg (by decide), hsplit,
            List.modifyHead_cons, List.filter_cons_of_pos (by simp)] at hwords
          exact ⟨first, (List.cons.inj hwords).1.symm⟩
      obtain ⟨more, rfl⟩ := slash
      have : isWord ('/' :: more) = false := by simp [isWord, isWordChar]
      simp [this]
    next => rfl

/-! ### Steps and walks -/

/-- A header opens its block, and what stands behind the brace is the first line of its body. -/
theorem step_of_header? {line : SourceLine} {block : Block} {rest : List Char}
    (h : header? line = some (block, rest)) :
    step none line = (block.feed ⟨line.number, trim rest⟩).outcome := by
  have hcomment : isComment line.text = false := by
    cases hc : isComment line.text with
    | false => rfl
    | true => rw [header?_of_isComment hc] at h; cases h
  have hempty : line.text.isEmpty = false := by
    cases htext : line.text with
    | nil => simp [header?, htext, cutAt?] at h
    | cons c rest => rfl
  simp [step, hcomment, hempty, h]

/-- A walk from a header goes on in its block, with what stands behind the brace as a line. -/
theorem walk_of_header? {line : SourceLine} {block : Block} {rest : List Char}
    (h : header? line = some (block, rest)) (content : List SourceLine) :
    walk none (line :: content) = walk (some block) (⟨line.number, trim rest⟩ :: content) := by
  rw [walk, walk, step_of_header? h]
  rfl

/-- The block with the lines that are not empty in its body. -/
def Block.keepAll (block : Block) (content : List SourceLine) : Block :=
  { block with body := block.body ++ content.filter fun line => !line.text.isEmpty }

@[simp] theorem Block.keepAll_nil (block : Block) : block.keepAll [] = block := by
  simp [keepAll]

theorem Block.keepAll_cons (block : Block) (line : SourceLine) (rest : List SourceLine) :
    block.keepAll (line :: rest) = (block.keep line).keepAll rest := by
  unfold keepAll keep
  cases h : line.text.isEmpty with
  | true => simp [h]
  | false => simp [h, push]

/-- Lines that close nothing stay in the block that is open. -/
theorem walk_open {content : List SourceLine} (h : ∀ line ∈ content, closesBlock line.text = false)
    (block : Block) : walk (some block) content = (some (block.keepAll content), []) := by
  induction content generalizing block with
  | nil => simp [walk]
  | cons line rest ih =>
    have hline := Block.feed_of_open (h line (List.mem_cons_self ..)) block
    simp [walk, step, hline, Fed.outcome, Block.keepAll_cons,
      ih fun other mem => h other (List.mem_cons_of_mem _ mem)]

/-- A line that closes the open block completes it. -/
theorem step_closing {line : SourceLine} {before after : List Char}
    (h : cutAtBrace? .plain line.text = some (before, after)) (block : Block) :
    step (some block) line =
      (none, some (.complete (block.keep ⟨line.number, trim before⟩))) := by
  simp [step, Block.feed_of_closing h, Fed.outcome]

/-- A walk through a block that its last line closes completes the block. -/
theorem walk_block {content : List SourceLine}
    (hopen : ∀ line ∈ content, closesBlock line.text = false) {line : SourceLine}
    {before after : List Char} (h : cutAtBrace? .plain line.text = some (before, after))
    (block : Block) :
    walk (some block) (content ++ [line]) =
      (none, [.complete ((block.keepAll content).keep ⟨line.number, trim before⟩)]) := by
  rw [walk_append, walk_open hopen, walk, step_closing h]
  rfl

/-- The scan of lines that leave no block open, and of more lines, is both scans. -/
theorem Scan.ofLines_append {first : List SourceLine} (h : (walk none first).1 = none)
    (second : List SourceLine) :
    Scan.ofLines (first ++ second) =
      ⟨(Scan.ofLines first).blocks ++ (Scan.ofLines second).blocks,
        (Scan.ofLines first).diagnostics ++ (Scan.ofLines second).diagnostics⟩ := by
  simp [Scan.ofLines, walk_append, h]

/-! ### Numbered lines -/

/-- Trimmed lines with their numbers, from a given number on. -/
def numbered (start : Nat) (content : List (List Char)) : List SourceLine :=
  (content.zipIdx start).map fun (line, number) => ⟨number, trim line⟩

theorem sourceLines_eq_numbered (source : List Char) :
    sourceLines source = numbered 1 (lines source) := rfl

@[simp] theorem numbered_nil (start : Nat) : numbered start [] = [] := rfl

@[simp] theorem numbered_cons (start : Nat) (line : List Char) (rest : List (List Char)) :
    numbered start (line :: rest) = ⟨start, trim line⟩ :: numbered (start + 1) rest := by
  simp [numbered]

theorem numbered_append (start : Nat) (first second : List (List Char)) :
    numbered start (first ++ second) =
      numbered start first ++ numbered (start + first.length) second := by
  simp [numbered, List.zipIdx_append]

theorem text_of_mem_numbered {start : Nat} {content : List (List Char)} {line : SourceLine}
    (h : line ∈ numbered start content) : ∃ text ∈ content, line.text = trim text := by
  obtain ⟨⟨text, number⟩, hmem, rfl⟩ := List.mem_map.mp h
  exact ⟨text, List.fst_mem_of_mem_zipIdx hmem, rfl⟩

/-- Blank space before the lines is trimmed away. -/
theorem numbered_margin {margin : List Char} (h : IsBlankText margin) (start : Nat)
    (content : List (List Char)) :
    numbered start (content.map (margin ++ ·)) = numbered start content := by
  induction content generalizing start with
  | nil => rfl
  | cons line rest ih => simp [trim_append_left h, ih]

end Scaffold.Schema
