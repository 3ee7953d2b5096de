import Scaffold.Proofs.Schema.Entry
import Scaffold.Proofs.Schema.WellRead

/-!
The shape of every model that is read, whatever the source. Names are identifiers, a field refers to
a model exactly when its type has the form of one, and what a composite identity lists is what can
stand between the commas of its list (`isWellFormed_of_mem_models`).
-/

namespace Scaffold.Schema

open Text

/-! ### Shapes -/

/-- A name of ASCII letters, ASCII digits and underscores. -/
structure IsIdentifier (text : String) : Prop where
  ne_empty : text ≠ ""
  chars : ∀ c ∈ text.toList, c.isAlphanum = true ∨ c = '_'

/-- A field whose type is bare and says what the field refers to. -/
structure Field.IsWellFormed (field : Field) : Prop where
  name : IsIdentifier field.name
  type : IsIdentifier field.type
  marker_not_mem : ∀ marker ∈ ['?', '[', ']'], marker ∉ field.type.toList
  relation_iff : ∀ target, field.relation = some target ↔
    target = field.type ∧ field.type.toList.head?.any Char.isUpper = true ∧
      field.type ∉ Scalar.all.map Scalar.name
  not_both : ¬(field.isRelation = true ∧ field.scalar?.isSome = true)

/-- What stands between two commas of a list in brackets. -/
structure IsListEntry (entry : String) : Prop where
  ne_empty : entry ≠ ""
  trimmed : IsTrimmed entry.toList
  no_comma : ',' ∉ entry.toList
  no_bracket : ']' ∉ entry.toList

/-- What stands between two double quotes. -/
structure IsLookupKey (key : String) : Prop where
  ne_empty : key ≠ ""
  no_quote : '"' ∉ key.toList

/-- A model whose parts have their shapes and whose flags agree with its fields. -/
structure Model.IsWellFormed (model : Model) : Prop where
  name : IsIdentifier model.name
  fields : ∀ field ∈ model.fields, field.IsWellFormed
  timestamps_iff : model.hasTimestamps = true ↔
    (∃ field ∈ model.fields, field.name = "createdAt") ∧
      ∃ field ∈ model.fields, field.name = "updatedAt"
  softDelete_iff : model.hasSoftDelete = true ↔ ∃ field ∈ model.fields, field.name = "deletedAt"
  identity : ∀ composite ∈ model.compositeId, composite.fields ≠ [] ∧
    ∀ entry ∈ composite.fields, IsListEntry entry
  key : ∀ key ∈ model.compositeId.bind CompositeId.key,
    model.compositeId.isSome = true ∧ IsLookupKey key

/-! ### Fields -/

theorem Scalar.mem_all (scalar : Scalar) : scalar ∈ all := by
  cases scalar with
  | string | int | boolean | dateTime => simp [all]
  | decimal | bigInt | json => simp [all]

theorem isIdentifier_of_isWord {text : String} (h : isWord text.toList = true) :
    IsIdentifier text := by
  obtain ⟨hne, hchars⟩ := isWord_iff.mp h
  constructor
  · rintro rfl
    exact hne rfl
  · exact fun c hc => by simpa [isWordChar] using hchars c hc

/-- What a field refers to depends on its type alone, and attributes have no part in it. -/
theorem Field.relation_field (declaration : Declaration) (line : Nat) :
    (declaration.field line).relation =
      if isRelationType (declaration.field line).type.toList then
        some (declaration.field line).type
      else none := by
  simp [Declaration.field]

/-- A field that refers to a model holds no scalar. -/
theorem Field.not_isRelation_and_scalar {field : Field}
    (h : ∀ target, field.relation = some target → field.type ∉ Scalar.all.map Scalar.name) :
    ¬(field.isRelation = true ∧ field.scalar?.isSome = true) := by
  rintro ⟨hrelation, hscalar⟩
  obtain ⟨target, htarget⟩ := Option.isSome_iff_exists.mp hrelation
  obtain ⟨scalar, hfound⟩ := Option.isSome_iff_exists.mp hscalar
  have hspelled : scalar.name = field.type := by
    unfold Field.scalar? Scalar.ofName? at hfound
    simpa using List.find?_some hfound
  exact h target htarget (hspelled ▸ List.mem_map_of_mem scalar.mem_all)

/-- The shape of a field is that of its declaration, whose name and type the scanner took for
words. -/
theorem Field.isWellFormed_of_ofLine? {text : List Char} {line : Nat} {field : Field}
    (h : Field.ofLine? text line = some field) : field.IsWellFormed := by
  obtain ⟨hname, htype⟩ := isWellRead_of_ofLine? h
  obtain ⟨declaration, -, rfl⟩ := Option.map_eq_some_iff.mp h
  have hrelation := relation_field declaration line
  rw [isRelationType_of_isWord htype, String.ofList_toList] at hrelation
  have hiff : ∀ target, (declaration.field line).relation = some target ↔
      target = (declaration.field line).type ∧
        (declaration.field line).type.toList.head?.any Char.isUpper = true ∧
          (declaration.field line).type ∉ Scalar.all.map Scalar.name := by
    intro target
    rw [hrelation, Option.ite_none_right_eq_some, Bool.and_eq_true, Bool.not_eq_true',
      List.contains_eq_mem, decide_eq_false_iff_not, Option.some.injEq, and_comm, eq_comm]
  refine ⟨isIdentifier_of_isWord hname, isIdentifier_of_isWord htype, fun marker hmarker => ?_,
    hiff, not_isRelation_and_scalar fun target htarget => ((hiff target).mp htarget).2.2⟩
  have table : ∀ marker ∈ ['?', '[', ']'], isWordChar marker = false := by decide
  exact not_mem_of_isWord htype (table marker hmarker)

theorem Model.declares_iff {model : Model} {name : String} :
    model.declares name = true ↔ ∃ field ∈ model.fields, field.name = name := by
  simp [declares]

/-! ### Composite identities -/

/-- An entry lies between two commas in front of the bracket that closes the list, and it is
trimmed; empty ones are dropped. -/
theorem isListEntry_of_mem_fieldList? {arguments : List Char} {fields : List String}
    (h : fieldList? arguments = some fields) : ∀ entry ∈ fields, IsListEntry entry := by
  obtain ⟨⟨_, inner⟩, -, h⟩ := Option.bind_eq_some_iff.mp h
  obtain ⟨⟨list, _⟩, hclose, rfl⟩ := Option.map_eq_some_iff.mp h
  intro entry hentry
  obtain ⟨text, htext, rfl⟩ := List.mem_map.mp hentry
  obtain ⟨htrimmed, hempty⟩ := List.mem_filter.mp htext
  obtain ⟨part, hpart, rfl⟩ := List.mem_map.mp htrimmed
  have piece : ∀ c ∈ trim part, c ∈ list ∧ (c == ',') = false :=
    fun c hc => mem_of_mem_splitOnP hpart ((trim_isInfix part).subset hc)
  refine ⟨fun heq => ?_, ?_, fun mem => ?_, fun mem => ?_⟩
  · simp [String.ofList_eq_empty_iff.mp heq] at hempty
  · rw [String.toList_ofList]
    exact isTrimmed_trim part
  · rw [String.toList_ofList] at mem
    exact absurd (piece ',' mem).2 (by decide)
  · rw [String.toList_ofList] at mem
    exact (cutAt?_eq_some.mp hclose).2 (piece ']' mem).1

/-- A key ends at the quote behind it, and nothing between two quotes is no key. -/
theorem isLookupKey_of_keyOfArgument? {argument : List Char} {key : String}
    (h : keyOfArgument? argument = some key) : IsLookupKey key := by
  obtain ⟨_, -, h⟩ := Option.bind_eq_some_iff.mp h
  obtain ⟨_, -, h⟩ := Option.bind_eq_some_iff.mp h
  obtain ⟨_, -, h⟩ := Option.bind_eq_some_iff.mp h
  obtain ⟨⟨text, _⟩, hend, h⟩ := Option.bind_eq_some_iff.mp h
  replace h : (if text.isEmpty then none else some (String.ofList text)) = some key := h
  split at h
  · cases h
  next hempty =>
    obtain rfl := Option.some.inj h
    constructor
    · intro heq
      simp [String.ofList_eq_empty_iff.mp heq] at hempty
    · rw [String.toList_ofList]
      exact (cutAt?_eq_some.mp hend).2

/-- What a composite identity holds is cut out between the marks of its arguments. -/
theorem CompositeId.shape_of_ofArguments? {arguments : List Char} {composite : CompositeId}
    (h : ofArguments? arguments = some composite) :
    (∀ entry ∈ composite.fields, IsListEntry entry) ∧ ∀ key ∈ composite.key, IsLookupKey key := by
  obtain ⟨fields, hfields, h⟩ := Option.bind_eq_some_iff.mp h
  unfold ofFields? at h
  split at h
  next hne =>
    obtain rfl := Option.some.inj h
    refine ⟨isListEntry_of_mem_fieldList? hfields, fun key hkey => ?_⟩
    obtain ⟨_, -, hkey⟩ := Option.bind_eq_some_iff.mp hkey
    obtain ⟨argument, -, hargument⟩ := List.exists_of_findSome?_eq_some hkey
    exact isLookupKey_of_keyOfArgument? hargument
  next => cases h

/-! ### Models -/

/-- Every model of every source is well-formed. -/
theorem isWellFormed_of_mem_models {source : String} {model : Model}
    (h : model ∈ (Document.ofSource source).models) : model.IsWellFormed := by
  have hread := isWellRead_of_mem_models h
  obtain ⟨block, -, rfl⟩ := List.mem_map.mp h
  have hshape : ∀ composite ∈ block.model.compositeId,
      (∀ entry ∈ composite.fields, IsListEntry entry) ∧
        ∀ key ∈ composite.key, IsLookupKey key := by
    intro composite hcomposite
    obtain ⟨_, -, arguments, -, hfound⟩ := Block.exists_arguments_of_compositeId hcomposite
    exact CompositeId.shape_of_ofArguments? hfound
  constructor
  case name => exact isIdentifier_of_isWord hread.name
  case fields =>
    intro field hfield
    obtain ⟨_, -, hline⟩ := Block.mem_fields_iff.mp hfield
    exact Field.isWellFormed_of_ofLine? hline
  case timestamps_iff =>
    rw [Model.hasTimestamps, Bool.and_eq_true, Model.declares_iff, Model.declares_iff]
    rfl
  case softDelete_iff => exact Model.declares_iff
  case identity =>
    exact fun composite hcomposite => ⟨composite.fields_ne_nil, (hshape composite hcomposite).1⟩
  case key =>
    intro key hkey
    obtain ⟨composite, hcomposite, hkey⟩ := Option.bind_eq_some_iff.mp hkey
    exact ⟨Option.isSome_iff_exists.mpr ⟨composite, hcomposite⟩,
      (hshape composite hcomposite).2 key hkey⟩

/-- A schema of one model with markers, a relation and a named identity. -/
def seatSchema : String :=
  "model Seat \x7b\n  row Row[]?\n  @@id([row, , no ], name: \"at\")\n\x7d\n"

/-- The model of `seatSchema`. -/
def seat : Model where
  name := "Seat"
  fields := [⟨"row", "Row", true, false, false, false, true, some "Row", 2⟩]
  compositeId := some ⟨["row", "no"], some "at", List.cons_ne_nil _ _⟩

theorem isWellFormed_seat :
    seat ∈ (Document.ofSource seatSchema).models ∧ seat.IsWellFormed := by
  have hmodels : (Document.ofSource seatSchema).models = [seat] := by decide +kernel
  have hmem : seat ∈ (Document.ofSource seatSchema).models := by simp [hmodels]
  exact ⟨hmem, isWellFormed_of_mem_models hmem⟩

end Scaffold.Schema
