import Scaffold.Proofs.Schema.Draft
import Scaffold.Schema.Document

/-!
The grammar of field declarations: a name, blank space, a type with markers behind it, and then
blank space, an attribute or nothing. A line is read as a declaration exactly when it is such a text,
in the one way in which it is such a text (`FieldText.derives_iff`), so what a body declares can be
seen in its lines (`Block.mem_fields_iff`).
-/

namespace Scaffold.Schema

open Text

/-! ### Types and their markers -/

theorem TypeToken.ofReversed_markers (markers : List Marker) (reversed : List Char) :
    ofReversed ((markers.flatMap Marker.text).reverse ++ reversed) =
      { ofReversed reversed with
        isOptional := markers.contains .optional || (ofReversed reversed).isOptional
        isArray := markers.contains .array || (ofReversed reversed).isArray } := by
  induction markers generalizing reversed with
  | nil => simp
  | cons marker rest ih =>
    rw [List.flatMap_cons, List.reverse_append, List.append_assoc, ih]
    cases marker with
    | optional => simp [Marker.text, ofReversed]
    | array => simp [Marker.text, ofReversed]

theorem TypeToken.ofReversed_word {word : List Char} (h : isWord word = true) :
    ofReversed word.reverse = ⟨word, false, false⟩ := by
  have hchars : ∀ c ∈ word.reverse, isWordChar c = true :=
    fun c hc => (isWord_iff.mp h).2 c (List.mem_reverse.mp hc)
  unfold ofReversed
  split
  next rest heq => exact absurd (hchars '?' (by simp [heq])) (by decide)
  next rest heq => exact absurd (hchars ']' (by simp [heq])) (by decide)
  next => rw [List.reverse_reverse]

/-- A word with markers behind it is the type with these markers. -/
theorem TypeToken.ofText_markers {word : List Char} (h : isWord word = true)
    (markers : List Marker) :
    ofText (word ++ markers.flatMap Marker.text) =
      ⟨word, markers.contains .optional, markers.contains .array⟩ := by
  rw [ofText, List.reverse_append, ofReversed_markers, ofReversed_word h]
  simp

/-- No two sequences of markers are written alike: the first character tells the first marker. -/
theorem Marker.flatMap_text_injective :
    Function.Injective fun markers : List Marker => markers.flatMap text := by
  intro one
  induction one with
  | nil =>
    intro other h
    cases other with
    | nil => rfl
    | cons marker rest =>
      cases marker with
      | optional => simp [text] at h
      | array => simp [text] at h
  | cons marker rest ih =>
    intro other h
    have hhead := congrArg List.head? h
    cases other with
    | nil =>
      cases marker with
      | optional => simp [text] at h
      | array => simp [text] at h
    | cons next more =>
      obtain rfl : marker = next := by
        cases marker with
        | optional =>
          cases next with
          | optional => rfl
          | array => simp [text] at hhead
        | array =>
          cases next with
          | optional => simp [text] at hhead
          | array => rfl
      rw [ih (List.append_cancel_left h)]

/-- What is taken off a type are markers. -/
theorem TypeToken.exists_markers_reversed (reversed : List Char) :
    ∃ markers : List Marker,
      reversed = (markers.flatMap Marker.text).reverse ++ (ofReversed reversed).bare.reverse := by
  fun_induction ofReversed reversed with
  | case1 rest inner ih =>
    obtain ⟨markers, hmarkers⟩ := ih
    exact ⟨markers ++ [.optional], by simpa [Marker.text] using hmarkers⟩
  | case2 rest inner ih =>
    obtain ⟨markers, hmarkers⟩ := ih
    exact ⟨markers ++ [.array], by simpa [Marker.text] using hmarkers⟩
  | case3 bare => exact ⟨[], by simp⟩

/-- A type as it is written is the bare type with markers behind it. -/
theorem TypeToken.exists_markers (text : List Char) :
    ∃ markers : List Marker, text = (ofText text).bare ++ markers.flatMap Marker.text := by
  obtain ⟨markers, hmarkers⟩ := exists_markers_reversed text.reverse
  exact ⟨markers, by simpa [ofText] using congrArg List.reverse hmarkers⟩

/-- What is no marker is never taken off a type. -/
theorem TypeToken.mem_bare {c : Char} {text : List Char} (hc : c ∉ ['?', '[', ']'])
    (h : c ∈ text) : c ∈ (ofText text).bare := by
  obtain ⟨markers, hmarkers⟩ := exists_markers text
  rw [hmarkers] at h
  rcases List.mem_append.mp h with h | h
  · exact h
  · obtain ⟨marker, -, hmem⟩ := List.mem_flatMap.mp h
    cases marker with
    | optional =>
      obtain rfl := List.mem_singleton.mp hmem
      exact absurd (List.mem_cons_self ..) hc
    | array => exact absurd (List.mem_cons_of_mem _ hmem) hc

/-! ### Declarations -/

theorem isWordChar_eq_false_of_isBlank {c : Char} (h : isBlank c = true) :
    isWordChar c = false := by
  cases hc : isWordChar c with
  | false => rfl
  | true => simp [isBlank_eq_false_of_isWordChar hc] at h

/-- No character of a word ends a type. -/
theorem Declaration.endsType_of_isWord {text : List Char} (h : isWord text = true) :
    ∀ c ∈ text, endsType c = false := by
  intro c hc
  have hat : c ≠ '@' := by
    rintro rfl
    exact not_mem_of_isWord h (by decide) hc
  simp [endsType, isBlank_eq_false_of_isWord h c hc, hat]

theorem Declaration.endsType_of_marker (markers : List Marker) :
    ∀ c ∈ markers.flatMap Marker.text, endsType c = false := by
  intro c hc
  obtain ⟨marker, _, hc⟩ := List.mem_flatMap.mp hc
  cases marker with
  | optional =>
    obtain rfl := List.mem_singleton.mp hc
    decide
  | array =>
    simp only [Marker.text, List.mem_cons, List.not_mem_nil, or_false] at hc
    rcases hc with rfl | rfl
    · decide
    · decide

/-- The declaration of a name and of what follows it, up to the type trimmed. -/
def Declaration.ofBody? (name body : List Char) : Option Declaration :=
  if isWord (TypeToken.ofText (body.takeWhile fun c => !endsType c)).bare then
    some ⟨name, body.takeWhile fun c => !endsType c, body.dropWhile fun c => !endsType c⟩
  else none

theorem Declaration.ofLine?_eq (line : List Char) :
    ofLine? line =
      if (line.takeWhile isWordChar).isEmpty || !(line.dropWhile isWordChar).head?.any isBlank then
        none
      else ofBody? (line.takeWhile isWordChar) (trimLeft (line.dropWhile isWordChar)) := rfl

/-- Behind the name and blank space stands what is read as the type and the rest. -/
theorem Declaration.ofLine?_append {name gap : List Char} (hname : isWord name = true)
    (hgap : IsBlankText gap) (gap_ne_nil : gap ≠ []) (body : List Char) :
    ofLine? (name ++ (gap ++ body)) = ofBody? name (trimLeft body) := by
  obtain ⟨hne, hchars⟩ := isWord_iff.mp hname
  obtain ⟨b, more, rfl⟩ := List.exists_cons_of_ne_nil gap_ne_nil
  have hb : isBlank b = true := hgap b (List.mem_cons_self ..)
  have hstop : ∀ c ∈ (b :: more ++ body).head?, isWordChar c = false := by
    intro c hc
    obtain rfl : b = c := by simpa using hc
    exact isWordChar_eq_false_of_isBlank hb
  have hhead : (name.isEmpty || !(b :: more ++ body).head?.any isBlank) = false := by
    simp [hb, hne]
  rw [ofLine?_eq, takeWhile_append_stop hchars hstop, dropWhile_append_stop hchars hstop, hhead,
    if_neg Bool.false_ne_true, trimLeft_append hgap]

/-- A type goes up to what ends it. -/
theorem Declaration.ofBody?_append {type rest : List Char} (htype : ∀ c ∈ type, endsType c = false)
    (hrest : ∀ c ∈ rest.head?, endsType c = true) (name : List Char) :
    ofBody? name (type ++ rest) =
      if isWord (TypeToken.ofText type).bare then some ⟨name, type, rest⟩ else none := by
  have hall : ∀ c ∈ type, (!endsType c) = true := fun c hc => by simp [htype c hc]
  have hstop : ∀ c ∈ rest.head?, (!endsType c) = false := fun c hc => by simp [hrest c hc]
  rw [ofBody?, takeWhile_append_stop hall hstop, dropWhile_append_stop hall hstop]

/-- What is left of a body behind its type ends a type. -/
theorem Declaration.endsType_head_dropWhile (body : List Char) :
    ∀ c ∈ (body.dropWhile fun c => !endsType c).head?, endsType c = true := by
  intro c hc
  have hstop := List.head?_dropWhile_not (fun c => !endsType c) body
  rw [Option.mem_def.mp hc] at hstop
  simpa using hstop

/-- The text of a field declaration in its parts. -/
structure FieldText where
  name : Name
  gap : List Char
  type : Name
  /-- The markers behind the type, in any order and number. -/
  markers : List Marker
  rest : List Char
  isBlank_gap : IsBlankText gap
  gap_ne_nil : gap ≠ []
  /-- What follows the type ends it. -/
  rest_ends : ∀ c ∈ rest.head?, Declaration.endsType c = true

namespace FieldText

/-- The type as it is written. -/
def typeText (written : FieldText) : List Char :=
  written.type.text ++ written.markers.flatMap Marker.text

/-- The text as a whole. -/
def text (written : FieldText) : List Char :=
  written.name.text ++ (written.gap ++ (written.typeText ++ written.rest))

/-- The declaration that the text makes. -/
def declaration (written : FieldText) : Declaration :=
  ⟨written.name.text, written.typeText, written.rest⟩

theorem ofText_typeText (written : FieldText) :
    TypeToken.ofText written.typeText =
      ⟨written.type.text, written.markers.contains .optional, written.markers.contains .array⟩ :=
  TypeToken.ofText_markers written.type.isWord_text written.markers

theorem not_endsType_typeText (written : FieldText) :
    ∀ c ∈ written.typeText, Declaration.endsType c = false := by
  intro c hc
  rcases List.mem_append.mp hc with hc | hc
  · exact Declaration.endsType_of_isWord written.type.isWord_text c hc
  · exact Declaration.endsType_of_marker _ c hc

/-- The type begins with no blank space. -/
theorem trimLeft_body (written : FieldText) :
    trimLeft (written.typeText ++ written.rest) = written.typeText ++ written.rest := by
  refine trimLeft_eq_self fun c hc => ?_
  obtain ⟨first, more, hfirst⟩ :=
    List.exists_cons_of_ne_nil (isWord_iff.mp written.type.isWord_text).1
  obtain rfl : first = c := by simpa [typeText, hfirst] using hc
  exact isBlank_eq_false_of_isWord written.type.isWord_text first (by simp [hfirst])

/-- A text of this form is read as the declaration that it makes. -/
theorem ofLine?_text (written : FieldText) :
    Declaration.ofLine? written.text = some written.declaration := by
  rw [text, Declaration.ofLine?_append written.name.isWord_text written.isBlank_gap
    written.gap_ne_nil, trimLeft_body,
    Declaration.ofBody?_append written.not_endsType_typeText written.rest_ends, ofText_typeText,
    if_pos written.type.isWord_text]
  rfl

/-- A line that is read as a declaration has this form. -/
theorem exists_of_ofLine? {line : List Char} {declaration : Declaration}
    (h : Declaration.ofLine? line = some declaration) :
    ∃ written : FieldText, written.text = line ∧ written.declaration = declaration := by
  rw [Declaration.ofLine?_eq] at h
  split at h
  · cases h
  next hhead =>
    obtain ⟨hname_ne, hblank⟩ := not_or.mp (mt Bool.or_eq_true_iff.mpr hhead)
    unfold Declaration.ofBody? at h
    split at h
    next htype =>
      obtain rfl := Option.some.inj h
      have hname : isWord (line.takeWhile isWordChar) = true :=
        isWord_takeWhile (eq_false_of_ne_true hname_ne)
      have hgap : (line.dropWhile isWordChar).takeWhile isBlank ≠ [] :=
        takeWhile_isBlank_ne_nil (by simpa using hblank)
      obtain ⟨markers, hmarkers⟩ := TypeToken.exists_markers
        ((trimLeft (line.dropWhile isWordChar)).takeWhile fun c => !Declaration.endsType c)
      refine ⟨⟨⟨_, hname⟩, _, ⟨_, htype⟩, markers, _, isBlankText_takeWhile _, hgap,
        Declaration.endsType_head_dropWhile (trimLeft (line.dropWhile isWordChar))⟩, ?_, ?_⟩
      · rw [text, typeText, ← hmarkers, List.takeWhile_append_dropWhile]
        have hbody := takeWhile_append_trimLeft (line.dropWhile isWordChar)
        exact (congrArg (line.takeWhile isWordChar ++ ·) hbody).trans
          List.takeWhile_append_dropWhile
      · rw [declaration, typeText, ← hmarkers]
    next => cases h

/-- The field that the text declares on a given line. -/
def field (written : FieldText) (line : Nat) : Field :=
  written.declaration.field line

@[simp] theorem name_field (written : FieldText) (line : Nat) :
    (written.field line).name = written.name.string := rfl

/-- The fields that are read from a line are those of the texts that the line is. -/
theorem ofLine?_eq_some_iff {line : List Char} {number : Nat} {field : Field} :
    Field.ofLine? line number = some field ↔
      ∃ written : FieldText, written.text = line ∧ written.field number = field := by
  rw [Field.ofLine?, Option.map_eq_some_iff]
  constructor
  · rintro ⟨declaration, hline, rfl⟩
    obtain ⟨written, htext, rfl⟩ := exists_of_ofLine? hline
    exact ⟨written, htext, rfl⟩
  · rintro ⟨written, rfl, rfl⟩
    exact ⟨written.declaration, written.ofLine?_text, rfl⟩

/-- A text has no second decomposition: the grammar is not ambiguous. -/
theorem text_injective : Function.Injective text := by
  intro one other h
  have hdeclaration : one.declaration = other.declaration := by
    have hread := one.ofLine?_text
    rw [h, other.ofLine?_text] at hread
    exact (Option.some.inj hread).symm
  obtain ⟨hname, htype, hrest⟩ := Declaration.mk.inj hdeclaration
  have hgap : one.gap = other.gap := by
    unfold text at h
    rw [hname, htype, hrest] at h
    exact List.append_cancel_right (List.append_cancel_left h)
  have hbare : one.type.text = other.type.text := by
    have htoken := one.ofText_typeText
    rw [htype, other.ofText_typeText] at htoken
    exact (TypeToken.mk.inj htoken).1.symm
  have hmarkers : one.markers = other.markers := by
    unfold typeText at htype
    rw [hbare] at htype
    exact Marker.flatMap_text_injective (List.append_cancel_left htype)
  obtain ⟨⟨_, _⟩, _, ⟨_, _⟩, _, _, _, _, _⟩ := one
  obtain ⟨⟨_, _⟩, _, ⟨_, _⟩, _, _, _, _, _⟩ := other
  dsimp only at hname hgap hbare hmarkers hrest
  subst hname hgap hbare hmarkers hrest
  rfl

theorem exists_cons_text (written : FieldText) :
    ∃ c rest, written.text = c :: rest ∧ isWordChar c = true := by
  have hname := isWord_iff.mp written.name.isWord_text
  obtain ⟨c, rest, hfirst⟩ := List.exists_cons_of_ne_nil hname.1
  refine ⟨c, _, by rw [text, hfirst, List.cons_append], ?_⟩
  exact hname.2 c (by simp [hfirst])

/-- The field that a text declares has the name, the type and the markers of the text. -/
theorem field_eq (written : FieldText) (line : Nat) :
    (written.field line).name = written.name.string ∧
      (written.field line).type = written.type.string ∧
      ((written.field line).isOptional = true ↔ .optional ∈ written.markers) ∧
      ((written.field line).isArray = true ↔ .array ∈ written.markers) := by
  have htype := written.ofText_typeText
  simp [field, Declaration.field, declaration, htype, Name.string]

/-- A line is read as a declaration exactly when the grammar derives it. It then does so in one way,
and what is read are the parts of the line: its name, its type with the markers, and the rest. -/
theorem derives_iff (line : List Char) :
    ((Declaration.ofLine? line).isSome = true ↔ ∃ written : FieldText, written.text = line) ∧
    ∀ written : FieldText, written.text = line →
      (∀ other : FieldText, other.text = line → other = written) ∧
      Declaration.ofLine? line =
        some ⟨written.name.text, written.type.text ++ written.markers.flatMap Marker.text,
          written.rest⟩ ∧
      ∀ number, ∃ field, Field.ofLine? line number = some field ∧
        field.name = written.name.string ∧ field.type = written.type.string ∧
        (field.isOptional = true ↔ .optional ∈ written.markers) ∧
        (field.isArray = true ↔ .array ∈ written.markers) := by
  constructor
  · constructor
    · intro h
      obtain ⟨declaration, hline⟩ := Option.isSome_iff_exists.mp h
      obtain ⟨written, htext, -⟩ := exists_of_ofLine? hline
      exact ⟨written, htext⟩
    · rintro ⟨written, rfl⟩
      rw [written.ofLine?_text]
      rfl
  · rintro written rfl
    refine ⟨fun other h => text_injective h, written.ofLine?_text, fun number => ?_⟩
    exact ⟨written.field number, ofLine?_eq_some_iff.mpr ⟨written, rfl, rfl⟩,
      written.field_eq number⟩

/-- A declaration with a tab in its gap, both markers twice, and an attribute right behind them. -/
def tagsText : FieldText where
  name := ⟨"tags".toList, by decide⟩
  gap := ['\t', ' ']
  type := ⟨"Tag".toList, by decide⟩
  markers := [.array, .optional, .array, .optional]
  rest := "@unique".toList
  isBlank_gap := by decide
  gap_ne_nil := by decide
  rest_ends := by decide

theorem derives_iff_tags :
    tagsText.text = "tags\t Tag[]?[]?@unique".toList ∧
      ∃ field, Field.ofLine? "tags\t Tag[]?[]?@unique".toList 4 = some field ∧
        field.name = "tags" ∧ field.type = "Tag" ∧ field.isOptional = true ∧
        field.isArray = true := by
  have htext : tagsText.text = "tags\t Tag[]?[]?@unique".toList := by decide
  obtain ⟨-, -, hfields⟩ := (derives_iff "tags\t Tag[]?[]?@unique".toList).2 tagsText htext
  obtain ⟨field, hline, hname, htype, hoptional, harray⟩ := hfields 4
  exact ⟨htext, field, hline, hname, htype, hoptional.mpr (by decide), harray.mpr (by decide)⟩

end FieldText

/-! ### Bodies -/

/-- A line that can be read as a field is neither a comment nor a block attribute. -/
theorem Entry.ofLine_of_ofLine? {line : SourceLine} {field : Field}
    (h : Field.ofLine? line.text line.number = some field) : ofLine line = .declared field := by
  obtain ⟨written, htext, -⟩ := FieldText.ofLine?_eq_some_iff.mp h
  obtain ⟨c, rest, hfirst, hc⟩ := written.exists_cons_text
  rw [htext] at hfirst
  have hcomment : isComment line.text = false := by
    rw [hfirst]
    unfold isComment
    split
    next heq =>
      obtain ⟨rfl, _⟩ := List.cons.inj heq
      simp [isWordChar] at hc
    next => rfl
  have hattribute : isBlockAttribute line.text = false := by
    rw [hfirst]
    unfold isBlockAttribute
    split
    next heq =>
      obtain ⟨rfl, _⟩ := List.cons.inj heq
      simp [isWordChar] at hc
    next => rfl
  simp [ofLine, hcomment, hattribute, h]

/-- The field of an entry is the one that its line declares. -/
theorem Entry.ofLine?_of_field? {line : SourceLine} {field : Field}
    (h : (ofLine line).field? = some field) :
    Field.ofLine? line.text line.number = some field := by
  unfold ofLine at h
  split at h
  · cases h
  · split at h
    · split at h
      · cases h
      · cases h
    · split at h
      next found hfield =>
        obtain rfl := Option.some.inj h
        exact hfield
      next => cases h

/-- The fields of a model are those that the lines of its body declare. -/
theorem Block.mem_fields_iff {block : Block} {field : Field} :
    field ∈ block.model.fields ↔
      ∃ line ∈ block.body, Field.ofLine? line.text line.number = some field := by
  constructor
  · intro h
    obtain ⟨entry, hentry, hfield⟩ := List.mem_filterMap.mp h
    obtain ⟨line, hline, rfl⟩ := List.mem_map.mp hentry
    exact ⟨line, hline, Entry.ofLine?_of_field? hfield⟩
  · rintro ⟨line, hline, hfield⟩
    refine List.mem_filterMap.mpr ⟨.declared field, List.mem_map.mpr ⟨line, hline, ?_⟩, rfl⟩
    exact Entry.ofLine_of_ofLine? hfield

/-- A model has a field of a given name exactly when a line of its body is the text of one. -/
theorem Block.declares_model_iff {block : Block} {name : String} :
    block.model.declares name = true ↔
      ∃ line ∈ block.body, ∃ written : FieldText,
        line.text = written.text ∧ written.name.string = name := by
  simp only [Model.declares, List.any_eq_true, beq_iff_eq, mem_fields_iff,
    FieldText.ofLine?_eq_some_iff]
  constructor
  · rintro ⟨field, ⟨line, hline, written, htext, rfl⟩, hname⟩
    exact ⟨line, hline, written, htext.symm, hname⟩
  · rintro ⟨line, hline, written, htext, hname⟩
    exact ⟨written.field line.number, ⟨line, hline, written, htext.symm, rfl⟩, hname⟩

/-- The composite identity of a model is read from the arguments of a line of its body. -/
theorem Block.exists_arguments_of_compositeId {block : Block} {composite : CompositeId}
    (h : composite ∈ block.model.compositeId) :
    ∃ line ∈ block.body, ∃ arguments, identityArguments? line.text = some arguments ∧
      CompositeId.ofArguments? arguments = some composite := by
  obtain ⟨entry, hentry, hfound⟩ := List.exists_of_findSome?_eq_some h
  obtain ⟨line, hline, rfl⟩ := List.mem_map.mp hentry
  refine ⟨line, hline, ?_⟩
  unfold Entry.ofLine at hfound
  split at hfound
  · cases hfound
  · split at hfound
    · split at hfound
      next arguments harguments => exact ⟨arguments, harguments, hfound⟩
      next => cases hfound
    · split at hfound
      · cases hfound
      · cases hfound

end Scaffold.Schema
