import Scaffold.Proofs.Schema.Arguments
import Scaffold.Schema.Document

/-!
The grammar of composite identities: the attribute, its parenthesis, and in it the first list in
brackets, with an entry. A line of a body is read as a composite identity exactly when it is such a
text (`Entry.compositeId?_eq_some_iff`), and the identity of a model is that of the first such line
of its body (`Block.compositeId_model`).
-/

namespace Scaffold.Schema

open Text

/-! ### Entries -/

/-- Trimming takes away blank space alone. -/
theorem mem_trim {text : List Char} {c : Char} (h : c ∈ text) (hc : isBlank c = false) :
    c ∈ trim text := by
  obtain ⟨left, right, hleft, hright, htext⟩ := exists_eq_append_trim text
  rw [htext, List.mem_append, List.mem_append] at h
  rcases h with h | h | h
  · exact absurd h (hleft.not_mem hc)
  · exact h
  · exact absurd h (hright.not_mem hc)

theorem trim_eq_nil_iff {text : List Char} : trim text = [] ↔ IsBlankText text := by
  constructor
  · intro h c hc
    cases hblank : isBlank c with
    | true => rfl
    | false =>
      have hkept : c ∈ trim text := mem_trim hc hblank
      rw [h] at hkept
      cases hkept
  · exact trim_eq_nil

/-- A list has no entry exactly when it is commas and blank space. -/
theorem listEntries_eq_nil_iff {list : List Char} :
    listEntries list = [] ↔ ∀ c ∈ list, c = ',' ∨ isBlank c = true := by
  rw [listEntries, List.map_eq_nil_iff, List.filter_eq_nil_iff]
  constructor
  · intro h c hc
    by_cases hcomma : c = ','
    · exact Or.inl hcomma
    · obtain ⟨part, hpart, mem⟩ :=
        mem_splitOnP_of_mem (p := fun d => d == ',') hc (by simpa using hcomma)
      have hempty : trim part = [] := by simpa using h (trim part) (List.mem_map_of_mem hpart)
      exact Or.inr (trim_eq_nil_iff.mp hempty c mem)
  · intro h entry hentry
    obtain ⟨part, hpart, rfl⟩ := List.mem_map.mp hentry
    have hblank : IsBlankText part := by
      intro c hc
      obtain ⟨mem, hcomma⟩ := mem_of_mem_splitOnP hpart hc
      exact (h c mem).resolve_left (by simpa using hcomma)
    simp [trim_eq_nil hblank]

/-- A list has an entry as soon as it holds anything but commas and blank space. -/
theorem listEntries_ne_nil_iff {list : List Char} :
    listEntries list ≠ [] ↔ ∃ c ∈ list, c ≠ ',' ∧ isBlank c = false := by
  rw [Ne, listEntries_eq_nil_iff]
  simp

/-! ### Identities -/

/-- The text of a composite identity in its parts. -/
structure IdentityText where
  /-- What stands between the attribute and its parenthesis. -/
  gap : List Char
  /-- What stands in the parenthesis before the list. -/
  front : List Char
  /-- What stands in the brackets. -/
  list : List Char
  behind : List Char
  isBlank_gap : IsBlankText gap
  no_open : '[' ∉ front
  no_close : ']' ∉ list
  has_entry : ∃ c ∈ list, c ≠ ',' ∧ isBlank c = false

namespace IdentityText

/-- The arguments of the attribute. -/
def arguments (written : IdentityText) : List Char :=
  written.front ++ '[' :: (written.list ++ ']' :: written.behind)

/-- The text as a whole. -/
def text (written : IdentityText) : List Char :=
  "@@id".toList ++ (written.gap ++ '(' :: written.arguments)

theorem text_eq (written : IdentityText) :
    written.text = "@@id".toList ++ (written.gap ++ '(' :: written.arguments) :=
  rfl

/-- The fields that the text lists. -/
def entries (written : IdentityText) : List String :=
  listEntries written.list

theorem entries_ne_nil (written : IdentityText) : written.entries ≠ [] :=
  listEntries_ne_nil_iff.mpr written.has_entry

/-- The identity that the text describes. -/
def compositeId (written : IdentityText) : CompositeId where
  fields := written.entries
  key := keyName? written.arguments
  fields_ne_nil := written.entries_ne_nil

theorem identityArguments?_text (written : IdentityText) :
    identityArguments? written.text = some written.arguments := by
  have hopen : trimLeft (written.gap ++ '(' :: written.arguments) = '(' :: written.arguments := by
    rw [trimLeft_append written.isBlank_gap]
    exact trimLeft_eq_self (by simp [isBlank])
  rw [identityArguments?, text_eq, dropPrefix?_append, Option.bind_some, hopen]
  exact dropPrefix?_append ['('] written.arguments

/-- The first opening bracket begins the list and the first closing one behind it ends it. -/
theorem listText?_arguments (written : IdentityText) :
    listText? written.arguments = some written.list := by
  rw [listText?, arguments, cutAt?_append written.no_open, Option.bind_some,
    cutAt?_append written.no_close, Option.map_some]

theorem ofArguments?_arguments (written : IdentityText) :
    CompositeId.ofArguments? written.arguments = some written.compositeId := by
  rw [CompositeId.ofArguments?, fieldList?_eq, listText?_arguments, Option.map_some,
    Option.bind_some, CompositeId.ofFields?]
  exact dif_pos written.entries_ne_nil

/-- A text of this form is read as the identity that it describes. -/
theorem ofLine_text (written : IdentityText) (number : Nat) :
    Entry.ofLine ⟨number, written.text⟩ = .identity (some written.compositeId) := by
  have hcomment : isComment written.text = false := rfl
  have hattribute : isBlockAttribute written.text = true := rfl
  simp [Entry.ofLine, hcomment, hattribute, identityArguments?_text, ofArguments?_arguments]

/-- What is read as an identity has this form. -/
theorem exists_of_ofArguments? {text arguments : List Char} {composite : CompositeId}
    (htext : identityArguments? text = some arguments)
    (harguments : CompositeId.ofArguments? arguments = some composite) :
    ∃ written : IdentityText, written.text = text ∧ written.compositeId = composite := by
  obtain ⟨rest, hrest, hopen⟩ := Option.bind_eq_some_iff.mp htext
  obtain ⟨fields, hfields, hcomposite⟩ := Option.bind_eq_some_iff.mp harguments
  obtain ⟨⟨front, inner⟩, hfront, hlist⟩ := Option.bind_eq_some_iff.mp hfields
  obtain ⟨⟨list, behind⟩, hclose, rfl⟩ := Option.map_eq_some_iff.mp hlist
  obtain ⟨rfl, no_open⟩ := cutAt?_eq_some.mp hfront
  obtain ⟨rfl, no_close⟩ := cutAt?_eq_some.mp hclose
  change CompositeId.ofFields? (listEntries list) _ = some composite at hcomposite
  unfold CompositeId.ofFields? at hcomposite
  split at hcomposite
  next hne =>
    have has_entry := listEntries_ne_nil_iff.mp hne
    refine ⟨⟨rest.takeWhile isBlank, front, list, behind, isBlankText_takeWhile rest, no_open,
      no_close, has_entry⟩, ?_, Option.some.inj hcomposite⟩
    have hparenthesis := dropPrefix?_eq_some_iff.mp hopen
    rw [List.singleton_append] at hparenthesis
    rw [text_eq, arguments, ← hparenthesis, takeWhile_append_trimLeft]
    exact (dropPrefix?_eq_some_iff.mp hrest).symm
  next => cases hcomposite

end IdentityText

/-! ### Lines and bodies -/

/-- The identity of an entry is described by the text that its line is. -/
theorem Entry.compositeId?_eq_some_iff {line : SourceLine} {composite : CompositeId} :
    (ofLine line).compositeId? = some composite ↔
      ∃ written : IdentityText, written.text = line.text ∧ written.compositeId = composite := by
  constructor
  · intro h
    unfold ofLine at h
    split at h
    · cases h
    · split at h
      · split at h
        next arguments harguments => exact IdentityText.exists_of_ofArguments? harguments h
        next => cases h
      · split at h
        · cases h
        · cases h
  · rintro ⟨written, htext, rfl⟩
    have hline := written.ofLine_text line.number
    rw [htext] at hline
    rw [hline]
    rfl

/-- Whether a line is the text of a composite identity. -/
def IsIdentityLine (line : List Char) : Prop :=
  ∃ written : IdentityText, written.text = line

/-- Whether a line is an identity can be told from its text. -/
theorem Entry.isSome_compositeId? (line : SourceLine) :
    (ofLine line).compositeId?.isSome = true ↔ IsIdentityLine line.text := by
  rw [Option.isSome_iff_exists]
  constructor
  · rintro ⟨composite, hcomposite⟩
    obtain ⟨written, htext, -⟩ := compositeId?_eq_some_iff.mp hcomposite
    exact ⟨written, htext⟩
  · rintro ⟨written, htext⟩
    exact ⟨written.compositeId, compositeId?_eq_some_iff.mpr ⟨written, htext, rfl⟩⟩

instance : DecidablePred IsIdentityLine := fun line =>
  decidable_of_iff ((Entry.ofLine ⟨0, line⟩).compositeId?.isSome = true)
    (Entry.isSome_compositeId? ⟨0, line⟩)

/-- The texts of composite identities in the body of a block, in order. -/
def Block.identityLines (block : Block) : List (List Char) :=
  (block.body.map SourceLine.text).filter fun line => IsIdentityLine line

/-- The identity of a model is that of the first text of one in its body. -/
theorem Block.compositeId_model (block : Block) :
    (block.model.compositeId = none ↔ block.identityLines = []) ∧
      ∀ written : IdentityText, written.text ∈ block.identityLines.head? →
        block.model.compositeId = some written.compositeId := by
  change ((block.body.map Entry.ofLine).findSome? Entry.compositeId? = none ↔ _) ∧
    ∀ written : IdentityText, _ →
      (block.body.map Entry.ofLine).findSome? Entry.compositeId? = some written.compositeId
  unfold identityLines
  induction block.body with
  | nil => simp
  | cons line rest ih =>
    rw [List.map_cons, List.findSome?_cons, List.map_cons]
    by_cases hline : IsIdentityLine line.text
    · obtain ⟨written, htext⟩ := id hline
      have hfound : (Entry.ofLine line).compositeId? = some written.compositeId :=
        Entry.compositeId?_eq_some_iff.mpr ⟨written, htext, rfl⟩
      rw [List.filter_cons_of_pos (by simpa using hline), hfound]
      refine ⟨by simp, fun other hother => ?_⟩
      have hsame : other.text = line.text := by simpa [eq_comm] using hother
      have hread := Entry.compositeId?_eq_some_iff.mpr ⟨other, hsame, rfl⟩
      rw [hfound] at hread
      exact hread
    · have hnone : (Entry.ofLine line).compositeId? = none :=
        Option.not_isSome_iff_eq_none.mp (mt (Entry.isSome_compositeId? line).mp hline)
      rw [List.filter_cons_of_neg (by simpa using hline), hnone]
      exact ih

end Scaffold.Schema
