import Scaffold.Schema.Document
import Scaffold.Proofs.Schema.Block

/-!
Open blocks. Blocks do not nest, so what a line means depends on whether the lines above leave a
block open, which can be told from these lines alone (`LeavesOpen`, `isSome_walk_iff`). What holds
of the block of a header and is kept by what lines add to a block holds of every block of a scan
(`walk_preserves`). A block that is open behind some lines goes on from a header among them
(`origin_of_open`), and the lines that follow close it or keep it open, its header unchanged
(`walk_continues`).
-/

namespace Scaffold.Schema

open Text

/-! ### Open blocks -/

/-- Lines that leave a block open: neither the text behind the brace of a header nor a later line
closes its block. -/
def LeavesOpen (content : List SourceLine) : Prop :=
  ∃ above header below block rest, content = above ++ header :: below ∧
    header? header = some (block, rest) ∧ closesBlock rest = false ∧
    ∀ line ∈ below, closesBlock line.text = false

/-- A line whose header leaves its block open. -/
def OpensBlock (line : SourceLine) : Prop :=
  ∃ block rest, header? line = some (block, rest) ∧ closesBlock rest = false

theorem leavesOpen_cons {line : SourceLine} {content : List SourceLine} :
    LeavesOpen (line :: content) ↔
      (OpensBlock line ∧ ∀ other ∈ content, closesBlock other.text = false) ∨
        LeavesOpen content := by
  constructor
  · rintro ⟨above, header, below, block, rest, hcontent, hheader, hrest, hbelow⟩
    cases above with
    | nil =>
      obtain ⟨rfl, rfl⟩ := List.cons.inj hcontent
      exact Or.inl ⟨⟨block, rest, hheader, hrest⟩, hbelow⟩
    | cons first above =>
      obtain ⟨_, rfl⟩ := List.cons.inj hcontent
      exact Or.inr ⟨above, header, below, block, rest, rfl, hheader, hrest, hbelow⟩
  · rintro (⟨⟨block, rest, hheader, hrest⟩, hbelow⟩ | h)
    · exact ⟨[], line, content, block, rest, rfl, hheader, hrest, hbelow⟩
    · obtain ⟨above, header, below, block, rest, rfl, hheader, hrest, hbelow⟩ := h
      exact ⟨line :: above, header, below, block, rest, rfl, hheader, hrest, hbelow⟩

/-- What a header is: two words before the first opening brace. -/
theorem eq_of_header? {line : SourceLine} {block : Block} {rest : List Char}
    (h : header? line = some (block, rest)) :
    ∃ head keyword name, line.text = head ++ '{' :: rest ∧ words head = [keyword, name] ∧
      isWord keyword = true ∧ isWord name = true ∧
      block = ⟨String.ofList keyword, String.ofList name, line.number, []⟩ := by
  unfold header? at h
  split at h
  · cases h
  next head after hcut =>
    split at h
    next keyword name hwords =>
      split at h
      next hword =>
        obtain ⟨rfl, rfl⟩ := Prod.mk.inj (Option.some.inj h)
        rw [Bool.and_eq_true] at hword
        exact ⟨head, keyword, name, (cutAt?_eq_some.mp hcut).1, hwords, hword.1, hword.2, rfl⟩
      next => cases h
    next => cases h

/-- A header closes a block in the text behind its brace or not at all. -/
theorem closesBlock_of_header? {line : SourceLine} {block : Block} {rest : List Char}
    (h : header? line = some (block, rest)) : closesBlock line.text = closesBlock rest := by
  obtain ⟨head, keyword, name, htext, hwords, hkeyword, hname, -⟩ := eq_of_header? h
  have quiet : ∀ c ∈ head ++ ['{'], isQuiet c = true := by
    intro c hc
    rcases List.mem_append.mp hc with hc | hc
    · cases hblank : isBlank c with
      | true => exact isQuiet_of_isBlank hblank
      | false =>
        obtain ⟨word, hword, mem⟩ := mem_words_of_mem hc hblank
        simp only [hwords, List.mem_cons, List.not_mem_nil, or_false] at hword
        rcases hword with rfl | rfl
        · exact (isQuiet_of_isWordChar ((isWord_iff.mp hkeyword).2 c mem)).1
        · exact (isQuiet_of_isWordChar ((isWord_iff.mp hname).2 c mem)).1
    · obtain rfl := List.mem_singleton.mp hc
      decide
  have split : line.text = (head ++ ['{']) ++ rest := by simp [htext]
  rw [split, closesBlock_quiet_append quiet]

theorem isSome_step_some {line : SourceLine} (block : Block) :
    (step (some block) line).1.isSome ↔ closesBlock line.text = false := by
  cases h : closesBlock line.text with
  | false => simp [step, Block.feed_of_open h, Fed.outcome]
  | true =>
    obtain ⟨⟨before, after⟩, hcut⟩ := Option.isSome_iff_exists.mp h
    simp [step_closing hcut]

theorem isSome_step_none {line : SourceLine} : (step none line).1.isSome ↔ OpensBlock line := by
  cases h : header? line with
  | none =>
    have hclosed : (step none line).1 = none := by
      unfold step
      simp only [h]
      split
      · rfl
      · rfl
    simp [hclosed, OpensBlock, h]
  | some opened =>
    obtain ⟨block, rest⟩ := opened
    have hstep : step none line = step (some block) ⟨line.number, trim rest⟩ := step_of_header? h
    rw [hstep, isSome_step_some, closesBlock_trim]
    constructor
    · exact fun hrest => ⟨block, rest, h, hrest⟩
    · rintro ⟨_, _, hother, hrest⟩
      rw [h] at hother
      obtain ⟨rfl, rfl⟩ := Prod.mk.inj (Option.some.inj hother)
      exact hrest

/-- A walk ends in a block when it begins in one that no line closes, or when the lines leave one
open. -/
theorem isSome_walk (openBlock : Option Block) (content : List SourceLine) :
    (walk openBlock content).1.isSome ↔
      (openBlock.isSome ∧ ∀ line ∈ content, closesBlock line.text = false) ∨
        LeavesOpen content := by
  induction content generalizing openBlock with
  | nil =>
    have : ¬ LeavesOpen [] := by
      rintro ⟨above, header, below, _, _, hcontent, _⟩
      simp at hcontent
    simp [walk, this]
  | cons line rest ih =>
    rw [walk, ih, leavesOpen_cons]
    cases openBlock with
    | none =>
      rw [isSome_step_none]
      simp
    | some block =>
      have hopens : OpensBlock line → closesBlock line.text = false := by
        rintro ⟨_, _, hheader, hrest⟩
        rw [closesBlock_of_header? hheader, hrest]
      rw [isSome_step_some]
      simp only [Option.isSome_some, List.mem_cons, forall_eq_or_imp, true_and]
      constructor
      · rintro (h | h)
        · exact Or.inl h
        · exact Or.inr (Or.inr h)
      · rintro (h | ⟨hline, hrest⟩ | h)
        · exact Or.inl h
        · exact Or.inl ⟨hopens hline, hrest⟩
        · exact Or.inr h

/-- A block is open behind some lines exactly when these lines leave one open. -/
theorem isSome_walk_iff {content : List SourceLine} :
    (walk none content).1.isSome ↔ LeavesOpen content := by
  simpa using isSome_walk none content

/-- Lines that leave no block open leave the walk outside of every block. -/
theorem walk_of_not_leavesOpen {content : List SourceLine} (h : ¬ LeavesOpen content) :
    (walk none content).1 = none := by
  rw [← isSome_walk_iff] at h
  simpa using h

instance (content : List SourceLine) : Decidable (LeavesOpen content) :=
  decidable_of_iff _ isSome_walk_iff

/-! ### What is kept of a line -/

/-- The line of the body that an open block keeps of a line: all of it, or what stands before the
brace that closes the block. -/
def SourceLine.kept (line : SourceLine) : SourceLine :=
  match cutAtBrace? .plain line.text with
  | none => line
  | some (before, _) => ⟨line.number, trim before⟩

theorem SourceLine.kept_of_open {line : SourceLine} (h : cutAtBrace? .plain line.text = none) :
    line.kept = line := by
  rw [kept, h]

theorem SourceLine.kept_of_closing {line : SourceLine} {before after : List Char}
    (h : cutAtBrace? .plain line.text = some (before, after)) :
    line.kept = ⟨line.number, trim before⟩ := by
  rw [kept, h]

theorem step_some_eq (block : Block) (line : SourceLine) :
    step (some block) line =
      if closesBlock line.text then (none, some (.complete (block.keep line.kept)))
      else (some (block.keep line.kept), none) := by
  cases hcut : cutAtBrace? .plain line.text with
  | none =>
    have hopen : closesBlock line.text = false := by simp [closesBlock, hcut]
    rw [SourceLine.kept_of_open hcut, if_neg (by simp [hopen])]
    simp [step, Block.feed_of_open hopen, Fed.outcome]
  | some cut =>
    have hsplit : cutAtBrace? .plain line.text = some (cut.1, cut.2) := hcut
    have hclosing : closesBlock line.text = true := by simp [closesBlock, hcut]
    rw [SourceLine.kept_of_closing hsplit, if_pos hclosing]
    exact step_closing hsplit block

/-- What is kept of a line in the body of a block: the line, or what stands behind the brace of a
header on it, and of that no more than what stands before the brace that closes the block. -/
def IsKeptOf (line entry : SourceLine) : Prop :=
  entry = line.kept ∨
    ∃ block rest, header? line = some (block, rest) ∧
      entry = SourceLine.kept ⟨line.number, trim rest⟩

/-- Nothing is added to a line that is kept. -/
theorem SourceLine.text_kept_isInfix (line : SourceLine) : line.kept.text <:+: line.text := by
  cases hcut : cutAtBrace? .plain line.text with
  | none =>
    have hkept : line.kept = line := kept_of_open hcut
    exact hkept.symm ▸ List.infix_refl line.text
  | some cut =>
    rw [kept_of_closing hcut, cutAtBrace?_eq_some hcut]
    exact (trim_isInfix cut.1).trans (List.prefix_append cut.1 _).isInfix

theorem IsKeptOf.text_isInfix {line entry : SourceLine} (h : IsKeptOf line entry) :
    entry.text <:+: line.text := by
  rcases h with rfl | ⟨block, rest, hheader, rfl⟩
  · exact line.text_kept_isInfix
  · obtain ⟨head, _, _, htext, _⟩ := eq_of_header? hheader
    have hrest : rest <:+: line.text := by
      rw [htext]
      exact ((List.suffix_cons '{' rest).trans (List.suffix_append head _)).isInfix
    exact ((SourceLine.text_kept_isInfix _).trans (trim_isInfix rest)).trans hrest

/-! ### Invariants of blocks -/

section Invariant

variable {holds : Block → Prop} {openBlock : Option Block}

/-- What holds of the block of a header, and of a block with what is kept of a line added to it,
holds of the block that the line leaves open or completes. -/
theorem step_preserves {line : SourceLine} (hopen : ∀ block ∈ openBlock, holds block)
    (hheader : ∀ block rest, header? line = some (block, rest) → holds block)
    (hkeep : ∀ block entry, IsKeptOf line entry → holds block → holds (block.keep entry)) :
    (∀ block ∈ (step openBlock line).1, holds block) ∧
      ∀ block, (step openBlock line).2 = some (.complete block) → holds block := by
  have hfed : ∀ (block : Block) (text : SourceLine), holds block → IsKeptOf line text.kept →
      (∀ next ∈ (step (some block) text).1, holds next) ∧
        ∀ next, (step (some block) text).2 = some (.complete next) → holds next := by
    intro block text hblock htext
    have hkept := hkeep block text.kept htext hblock
    rw [step_some_eq]
    split
    · refine ⟨by simp, fun next hnext => ?_⟩
      obtain rfl := Finding.complete.inj (Option.some.inj hnext)
      exact hkept
    · exact ⟨by simpa using hkept, by simp⟩
  cases openBlock with
  | some block => exact hfed block line (hopen block rfl) (Or.inl rfl)
  | none =>
    cases hopened : header? line with
    | some opened =>
      -- The text behind the brace of a header is fed to the block as a line of its own.
      obtain ⟨block, rest⟩ := opened
      have hstep : step none line = step (some block) ⟨line.number, trim rest⟩ :=
        step_of_header? hopened
      rw [hstep]
      exact hfed block _ (hheader block rest hopened) (Or.inr ⟨block, rest, hopened, rfl⟩)
    | none =>
      unfold step
      simp only [hopened]
      split
      · simp
      · simp

/-- An invariant of blocks holds of all that a walk leaves open or completes. -/
theorem walk_preserves {content : List SourceLine} (hopen : ∀ block ∈ openBlock, holds block)
    (hheader : ∀ line ∈ content, ∀ block rest, header? line = some (block, rest) → holds block)
    (hkeep : ∀ line ∈ content, ∀ block entry, IsKeptOf line entry → holds block →
      holds (block.keep entry)) :
    (∀ block ∈ (walk openBlock content).1, holds block) ∧
      ∀ block, .complete block ∈ (walk openBlock content).2 → holds block := by
  induction content generalizing openBlock with
  | nil => exact ⟨hopen, by simp [walk]⟩
  | cons line rest ih =>
    obtain ⟨hnext, hfound⟩ := step_preserves hopen (hheader line (List.mem_cons_self ..))
      (hkeep line (List.mem_cons_self ..))
    obtain ⟨hlast, hrest⟩ := ih hnext
      (fun other mem => hheader other (List.mem_cons_of_mem _ mem))
      fun other mem => hkeep other (List.mem_cons_of_mem _ mem)
    refine ⟨hlast, fun block hblock => ?_⟩
    rw [walk] at hblock
    rcases List.mem_append.mp hblock with hblock | hblock
    · exact hfound block (by simpa using hblock)
    · exact hrest block hblock

end Invariant

/-! ### Blocks that go on -/

/-- What a block is after some more lines: its header stays and its body grows. -/
structure Block.Continues (later earlier : Block) : Prop where
  keyword : later.keyword = earlier.keyword
  name : later.name = earlier.name
  line : later.line = earlier.line
  body : earlier.body <+: later.body

theorem Block.Continues.refl (block : Block) : block.Continues block :=
  ⟨rfl, rfl, rfl, List.prefix_refl _⟩

theorem Block.Continues.trans {later between earlier : Block} (h : later.Continues between)
    (h' : between.Continues earlier) : later.Continues earlier :=
  ⟨h.keyword.trans h'.keyword, h.name.trans h'.name, h.line.trans h'.line, h'.body.trans h.body⟩

theorem Block.continues_keep (block : Block) (line : SourceLine) :
    (block.keep line).Continues block := by
  unfold keep
  split
  · exact Continues.refl block
  · exact ⟨rfl, rfl, rfl, List.prefix_append ..⟩

end Scaffold.Schema
