import Scaffold.Proofs.Schema.Enclosure
import Scaffold.Proofs.Schema.FieldText

/-!
What holds of every model that is read from a source, whatever the source: names and types are
words, and nothing holds a line feed (`isWellRead_of_mem_models`).
-/

namespace Scaffold.Schema

open Text

/-- A block whose name is a word and whose body lines are lines. -/
structure Block.IsWellRead (block : Block) : Prop where
  name : isWord block.name.toList = true
  body : ∀ line ∈ block.body, '\n' ∉ line.text

/-- A field whose name and type are words. -/
structure Field.IsWellRead (field : Field) : Prop where
  name : isWord field.name.toList = true
  type : isWord field.type.toList = true

/-- A composite identity on one line. -/
structure CompositeId.IsWellRead (composite : CompositeId) : Prop where
  fields : ∀ entry ∈ composite.fields, '\n' ∉ entry.toList
  key : ∀ key ∈ composite.key, '\n' ∉ key.toList

/-- A model of words and lines. -/
structure Model.IsWellRead (model : Model) : Prop where
  name : isWord model.name.toList = true
  fields : ∀ field ∈ model.fields, field.IsWellRead
  compositeId : ∀ composite ∈ model.compositeId, composite.IsWellRead

/-! ### Blocks -/

theorem Block.IsWellRead.keep {block : Block} (h : block.IsWellRead) {line : SourceLine}
    (hline : '\n' ∉ line.text) : (block.keep line).IsWellRead := by
  unfold Block.keep
  split
  · exact h
  · refine ⟨h.name, fun other hother => ?_⟩
    rcases List.mem_append.mp hother with hother | hother
    · exact h.body other hother
    · obtain rfl := List.mem_singleton.mp hother
      exact hline

theorem isWellRead_of_header? {line : SourceLine} {block : Block} {rest : List Char}
    (h : header? line = some (block, rest)) : block.IsWellRead := by
  obtain ⟨_, _, name, _, _, _, hname, rfl⟩ := eq_of_header? h
  exact ⟨by simpa using hname, by simp⟩

/-- Names of blocks are words by their headers, and no line feed comes in with a body. -/
theorem walk_isWellRead {content : List SourceLine} (hcontent : ∀ line ∈ content, '\n' ∉ line.text)
    {block : Block} (h : .complete block ∈ (walk none content).2) : block.IsWellRead :=
  (walk_preserves (by simp) (fun _ _ _ _ => isWellRead_of_header?)
    fun line hline _ _ hentry hblock =>
      hblock.keep fun mem => hcontent line hline (hentry.text_isInfix.subset mem)).2 block h

/-- No line of a source holds a line feed. -/
theorem newline_not_mem_sourceLines {source : List Char} {line : SourceLine}
    (h : line ∈ sourceLines source) : '\n' ∉ line.text := by
  rw [sourceLines_eq_numbered] at h
  obtain ⟨text, htext, heq⟩ := text_of_mem_numbered h
  rw [heq]
  exact fun mem => newline_not_mem_of_mem_lines htext ((trim_isInfix text).subset mem)

theorem isWellRead_of_mem_blocks {source : List Char} {block : Block}
    (h : block ∈ (Scan.ofSource source).blocks) : block.IsWellRead := by
  obtain ⟨finding, hfinding, hblock⟩ := List.mem_filterMap.mp h
  cases finding with
  | problem diagnostic => cases hblock
  | complete found =>
    obtain rfl := Option.some.inj hblock
    exact walk_isWellRead (fun _ => newline_not_mem_sourceLines) hfinding

/-! ### Entries -/

theorem isWellRead_of_ofLine? {text : List Char} {line : Nat} {field : Field}
    (h : Field.ofLine? text line = some field) : field.IsWellRead := by
  obtain ⟨written, -, rfl⟩ := FieldText.ofLine?_eq_some_iff.mp h
  constructor
  · simpa [Name.string] using written.name.isWord_text
  · simpa [FieldText.field, Declaration.field, FieldText.declaration, written.ofText_typeText]
      using written.type.isWord_text

/-- The entries of a list are pieces of the arguments. -/
theorem mem_of_mem_fieldList? {arguments : List Char} {fields : List String}
    (h : fieldList? arguments = some fields) {entry : String} (hentry : entry ∈ fields) {c : Char}
    (hc : c ∈ entry.toList) : c ∈ arguments := by
  obtain ⟨⟨_, inner⟩, hopen, h⟩ := Option.bind_eq_some_iff.mp h
  obtain ⟨⟨list, _⟩, hclose, rfl⟩ := Option.map_eq_some_iff.mp h
  obtain ⟨text, htext, rfl⟩ := List.mem_map.mp hentry
  obtain ⟨part, hpart, rfl⟩ := List.mem_map.mp (List.mem_filter.mp htext).1
  rw [String.toList_ofList] at hc
  have hlist : c ∈ list := (mem_of_mem_splitOnP hpart ((trim_isInfix part).subset hc)).1
  rw [(cutAt?_eq_some.mp hopen).1, (cutAt?_eq_some.mp hclose).1]
  simp [hlist]

/-- The key is a piece of the argument that declares it. -/
theorem mem_of_mem_keyOfArgument? {argument : List Char} {key : String}
    (h : keyOfArgument? argument = some key) {c : Char} (hc : c ∈ key.toList) : c ∈ argument := by
  obtain ⟨rest, hname, h⟩ := Option.bind_eq_some_iff.mp h
  obtain ⟨value, hcolon, h⟩ := Option.bind_eq_some_iff.mp h
  obtain ⟨inner, hquote, h⟩ := Option.bind_eq_some_iff.mp h
  obtain ⟨⟨text, _⟩, hend, h⟩ := Option.bind_eq_some_iff.mp h
  replace h : (if text.isEmpty then none else some (String.ofList text)) = some key := h
  have left : ∀ text : List Char, ∀ d ∈ trimLeft text, d ∈ text :=
    fun text d hd => (List.dropWhile_suffix isBlank).subset hd
  split at h
  · cases h
  · obtain rfl := Option.some.inj h
    rw [String.toList_ofList] at hc
    have hinner : c ∈ inner := by simp [(cutAt?_eq_some.mp hend).1, hc]
    have hvalue : c ∈ value :=
      left value c (by simp [dropPrefix?_eq_some_iff.mp hquote, hinner])
    have hrest : c ∈ rest := left rest c (by simp [dropPrefix?_eq_some_iff.mp hcolon, hvalue])
    have htrim : c ∈ trim argument := by
      rw [dropPrefix?_eq_some_iff.mp hname]
      exact List.mem_append_right _ hrest
    exact (trim_isInfix argument).subset htrim

theorem mem_of_mem_keyName? {arguments : List Char} {key : String}
    (h : keyName? arguments = some key) {c : Char} (hc : c ∈ key.toList) : c ∈ arguments := by
  obtain ⟨⟨_, behind⟩, hclose, h⟩ := Option.bind_eq_some_iff.mp h
  obtain ⟨argument, hargument, hkey⟩ := List.exists_of_findSome?_eq_some h
  have mem := (mem_of_mem_splitOnP hargument (mem_of_mem_keyOfArgument? hkey hc)).1
  rw [(cutAt?_eq_some.mp hclose).1]
  simp [mem]

/-- What a composite identity holds is cut out of its line. -/
theorem CompositeId.isWellRead_of_ofArguments? {arguments : List Char} (hline : '\n' ∉ arguments)
    {composite : CompositeId} (h : ofArguments? arguments = some composite) :
    composite.IsWellRead := by
  obtain ⟨fields, hfields, h⟩ := Option.bind_eq_some_iff.mp h
  unfold ofFields? at h
  split at h
  next hne =>
    obtain rfl := Option.some.inj h
    constructor
    · exact fun entry hentry mem => hline (mem_of_mem_fieldList? hfields hentry mem)
    · exact fun key hkey mem => hline (mem_of_mem_keyName? hkey mem)
  next => cases h

/-- What an attribute has for arguments is the end of its line. -/
theorem isSuffix_of_identityArguments? {text arguments : List Char}
    (h : identityArguments? text = some arguments) : arguments <:+ text := by
  obtain ⟨rest, hrest, hopen⟩ := Option.bind_eq_some_iff.mp h
  have hleft : trimLeft rest <:+ text := by
    rw [dropPrefix?_eq_some_iff.mp hrest]
    exact (List.dropWhile_suffix isBlank).trans (List.suffix_append ..)
  rw [dropPrefix?_eq_some_iff.mp hopen] at hleft
  exact (List.suffix_append ..).trans hleft

/-! ### Models -/

/-- Every model of every source is made of words and lines. -/
theorem isWellRead_of_mem_models {source : String} {model : Model}
    (h : model ∈ (Document.ofSource source).models) : model.IsWellRead := by
  obtain ⟨block, hblock, rfl⟩ := List.mem_map.mp h
  have hread := isWellRead_of_mem_blocks (List.mem_filter.mp hblock).1
  constructor
  · exact hread.name
  · intro field hfield
    obtain ⟨line, -, hline⟩ := Block.mem_fields_iff.mp hfield
    exact isWellRead_of_ofLine? hline
  · intro composite hcomposite
    obtain ⟨line, hmem, arguments, harguments, hfound⟩ :=
      Block.exists_arguments_of_compositeId hcomposite
    refine CompositeId.isWellRead_of_ofArguments? (fun mem => ?_) hfound
    exact hread.body line hmem ((isSuffix_of_identityArguments? harguments).subset mem)

end Scaffold.Schema
