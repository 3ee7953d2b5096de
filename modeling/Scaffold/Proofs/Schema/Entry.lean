import Scaffold.Proofs.Schema.FieldText

/-!
Reading back the declarations of a draft: a field with its markers and attributes
(`Entry.ofLine_field`) and a composite identity (`Entry.ofLine_identity`).
-/

namespace Scaffold.Schema

open Text

/-! ### Attributes -/

/-- What begins with an at sign does not begin before the first one. -/
theorem occursIn_skip {quiet : List Char} (h : '@' ∉ quiet) (sought rest : List Char) :
    occursIn ('@' :: sought) (quiet ++ rest) = occursIn ('@' :: sought) rest := by
  induction quiet with
  | nil => rfl
  | cons c more ih =>
    have hc : '@' ≠ c := by rintro rfl; exact h (List.mem_cons_self ..)
    simp [occursIn, hc, ih fun mem => h (List.mem_cons_of_mem _ mem)]

/-- Every attribute is an at sign and its name, which holds none. -/
theorem Attribute.exists_text (given : Attribute) :
    ∃ name, given.text = '@' :: name ∧ '@' ∉ name := by
  cases given with
  | id => exact ⟨['i', 'd'], rfl, by decide⟩
  | unique => exact ⟨['u', 'n', 'i', 'q', 'u', 'e'], rfl, by decide⟩
  | default value hvalue =>
    refine ⟨"default(".toList ++ value ++ [')'], rfl, ?_⟩
    have : '@' ∉ value := fun mem => absurd (hvalue '@' mem) (by decide)
    simp [this]

/-- An attribute is found among the written ones when one of them begins with it. -/
theorem occursIn_attributes {sought : List Char} (h : ' ' ∉ sought)
    (attributes : List Attribute) :
    occursIn ('@' :: sought) (attributes.flatMap fun given => ' ' :: given.text) =
      attributes.any fun given => ('@' :: sought).isPrefixOf given.text := by
  induction attributes with
  | nil => rfl
  | cons given rest ih =>
    obtain ⟨name, htext, hname⟩ := given.exists_text
    have hsought : ' ' ∉ '@' :: sought := by simp [h]
    have here : ('@' :: sought).isPrefixOf
          ('@' :: (name ++ rest.flatMap fun given => ' ' :: given.text)) =
        ('@' :: sought).isPrefixOf ('@' :: name) := by
      cases rest with
      | nil => simp
      | cons next more =>
        exact isPrefixOf_append_cons hsought ('@' :: name) _
    have later := occursIn_skip hname sought (rest.flatMap fun given => ' ' :: given.text)
    have space : ('@' == ' ') = false := rfl
    rw [List.flatMap_cons, List.any_cons, htext, ← ih, ← later, ← here, List.cons_append,
      List.cons_append, occursIn, occursIn, List.isPrefixOf_cons_cons, space, Bool.false_and,
      Bool.false_or]

theorem Attribute.isPrefixOf_id (given : Attribute) :
    "@id".toList.isPrefixOf given.text = given.isId := by
  cases given with
  | id => rfl
  | unique => rfl
  | default value hvalue => rfl

theorem Attribute.isPrefixOf_unique (given : Attribute) :
    "@unique".toList.isPrefixOf given.text = given.isUnique := by
  cases given with
  | id => rfl
  | unique => rfl
  | default value hvalue => rfl

theorem Attribute.isPrefixOf_default (given : Attribute) :
    "@default".toList.isPrefixOf given.text = given.isDefault := by
  cases given with
  | id => rfl
  | unique => rfl
  | default value hvalue => rfl

/-! ### Fields -/

theorem head?_attributesText (draft : FieldDraft) : ∀ c ∈ draft.attributesText.head?, c = ' ' := by
  intro c hc
  unfold FieldDraft.attributesText at hc
  cases hattributes : draft.attributes with
  | nil => simp [hattributes] at hc
  | cons given rest => simpa [hattributes, eq_comm] using hc

/-- The declaration of a draft in its parts. -/
def FieldDraft.written (draft : FieldDraft) : FieldText where
  name := draft.name
  gap := [' ']
  type := draft.type
  markers := draft.markers
  rest := draft.attributesText
  isBlank_gap := by decide
  gap_ne_nil := List.cons_ne_nil ' ' []
  rest_ends := by
    intro c hc
    rw [head?_attributesText draft c hc]
    decide

theorem FieldDraft.text_written (draft : FieldDraft) : draft.written.text = draft.text := by
  simp [FieldText.text, FieldText.typeText, written, FieldDraft.text, markersText]

/-- The declaration comes apart into the three parts that were put together. -/
theorem Declaration.ofLine?_text (draft : FieldDraft) :
    ofLine? draft.text =
      some ⟨draft.name.text, draft.type.text ++ draft.markersText, draft.attributesText⟩ := by
  rw [← draft.text_written]
  exact draft.written.ofLine?_text

theorem isUpper_of_isWordChar {c : Char} (h : isWordChar c = true) : Text.isUpper c = c.isUpper := by
  have code := toNat_of_isWordChar h
  rw [Text.isUpper, if_pos (by omega)]

/-- A word is a relation type when it begins with a capital and spells no scalar. -/
theorem isRelationType_of_isWord {bare : List Char} (h : isWord bare = true) :
    isRelationType bare = (bare.head?.any Char.isUpper &&
      !(Scalar.all.map Scalar.name).contains (String.ofList bare)) := by
  have hupper : bare.head?.any Text.isUpper = bare.head?.any Char.isUpper := by
    cases htext : bare with
    | nil => rfl
    | cons c rest => exact isUpper_of_isWordChar ((isWord_iff.mp h).2 c (by simp [htext]))
  have hscalar : (Scalar.ofName? (String.ofList bare)).isNone =
      !(Scalar.all.map Scalar.name).contains (String.ofList bare) := by
    rw [Scalar.ofName?, Bool.eq_iff_iff]
    simp
  rw [isRelationType, hupper, hscalar]

/-- A field is read as it was meant. -/
theorem Field.ofLine?_text (draft : FieldDraft) (line : Nat) :
    ofLine? draft.text line = some (draft.field line) := by
  have htype := TypeToken.ofText_markers draft.type.isWord_text draft.markers
  have hid : occursIn "@id".toList draft.attributesText = draft.attributes.any Attribute.isId := by
    refine (@occursIn_attributes ['i', 'd'] (by decide) draft.attributes).trans ?_
    exact congrArg draft.attributes.any (funext Attribute.isPrefixOf_id)
  have hunique : occursIn "@unique".toList draft.attributesText =
      draft.attributes.any Attribute.isUnique := by
    refine (@occursIn_attributes "unique".toList (by decide) draft.attributes).trans ?_
    exact congrArg draft.attributes.any (funext Attribute.isPrefixOf_unique)
  have hdefault : occursIn "@default".toList draft.attributesText =
      draft.attributes.any Attribute.isDefault := by
    refine (@occursIn_attributes "default".toList (by decide) draft.attributes).trans ?_
    exact congrArg draft.attributes.any (funext Attribute.isPrefixOf_default)
  rw [ofLine?, Declaration.ofLine?_text, Option.map_some, Declaration.field, FieldDraft.field]
  simp only [FieldDraft.markersText, htype, hid, hunique, hdefault,
    isRelationType_of_isWord draft.type.isWord_text]
  rfl

theorem Entry.ofLine_field (draft : FieldDraft) (number : Nat) :
    ofLine ⟨number, draft.text⟩ = .declared (draft.field number) :=
  ofLine_of_ofLine? (Field.ofLine?_text draft number)

/-! ### Composite identities -/

/-- What stands in an enumeration of names: commas, spaces and word characters. -/
theorem IdentityDraft.mem_list {draft : IdentityDraft} {c : Char} (h : c ∈ draft.list) :
    c = ',' ∨ c = ' ' ∨ isWordChar c = true := by
  rcases mem_enumeration h with h | h | ⟨part, hpart, mem⟩
  · exact Or.inl h
  · exact Or.inr (Or.inl h)
  · obtain ⟨name, _, rfl⟩ := List.mem_map.mp hpart
    exact Or.inr (Or.inr ((isWord_iff.mp name.isWord_text).2 c mem))

theorem IdentityDraft.not_mem_list (draft : IdentityDraft) : ']' ∉ draft.list := by
  intro mem
  rcases mem_list mem with h | h | h
  · cases h
  · cases h
  · exact absurd h (by decide)

/-- The list in brackets is read where it stands. -/
theorem IdentityDraft.fieldList?_list (draft : IdentityDraft) {before : List Char}
    (h : '[' ∉ before) (behind : List Char) :
    fieldList? (before ++ '[' :: (draft.list ++ ']' :: behind)) =
      some (draft.fields.map Name.string) := by
  have hsplit : (draft.list.splitOn ',').map trim = draft.fields.map Name.text := by
    refine splitOn_enumeration (by simpa using draft.fields_ne_nil) ?_ ?_
    · intro part hpart
      obtain ⟨name, _, rfl⟩ := List.mem_map.mp hpart
      exact not_mem_of_isWord name.isWord_text (by decide)
    · intro part hpart
      obtain ⟨name, _, rfl⟩ := List.mem_map.mp hpart
      exact isTrimmed_of_isWord name.isWord_text
  have hfilter : (draft.fields.map Name.text).filter (fun entry => !entry.isEmpty) =
      draft.fields.map Name.text := by
    refine List.filter_eq_self.mpr fun part hpart => ?_
    obtain ⟨name, _, rfl⟩ := List.mem_map.mp hpart
    simpa using (isWord_iff.mp name.isWord_text).1
  simp only [fieldList?, cutAt?_append h, Option.bind_some, cutAt?_append draft.not_mem_list,
    Option.map_some, hsplit, hfilter, List.map_map]
  rfl

/-- The key is looked for behind the first closing bracket. -/
theorem keyName?_append {before : List Char} (h : ']' ∉ before) (behind : List Char) :
    keyName? (before ++ ']' :: behind) = (behind.splitOn ',').findSome? keyOfArgument? := by
  rw [keyName?, cutAt?_append h, Option.bind_some]

/-- The key is read from the argument that was written for it. -/
theorem keyOfArgument?_text (key : KeyDraft) :
    keyOfArgument? (" name: \"".toList ++ key.text ++ "\")".toList) =
      some (String.ofList key.text) := by
  have htrim : trim (" name: \"".toList ++ key.text ++ "\")".toList) =
      "name".toList ++ ':' :: ' ' :: '"' :: (key.text ++ '"' :: [')']) := by
    have hends : IsTrimmed ('n' :: ("ame: \"".toList ++ key.text ++ ['"']) ++ [')']) :=
      isTrimmed_of_ends (by decide) (by decide)
    have := (trim_append_left isBlankText_space _).trans (trim_eq_self hends)
    simpa [List.append_assoc] using this
  have hempty : key.text.isEmpty = false := by simpa using key.text_ne_nil
  have hcolon : trimLeft (':' :: ' ' :: '"' :: (key.text ++ '"' :: [')'])) =
      ':' :: ' ' :: '"' :: (key.text ++ '"' :: [')']) := rfl
  have hquote : trimLeft (' ' :: '"' :: (key.text ++ '"' :: [')'])) =
      '"' :: (key.text ++ '"' :: [')']) := rfl
  rw [keyOfArgument?, htrim, dropPrefix?_append, Option.bind_some, hcolon]
  simp only [dropPrefix?, if_true, Option.bind_some, hquote, cutAt?_append key.no_quote, hempty]
  rfl

theorem identityArguments?_append (arguments : List Char) :
    identityArguments? ("@@id(".toList ++ arguments) = some arguments := rfl

theorem IdentityDraft.identityArguments?_text (draft : IdentityDraft) :
    ∃ before behind, '[' ∉ before ∧ ']' ∉ before ∧
      identityArguments? draft.text = some (before ++ '[' :: (draft.list ++ ']' :: behind)) ∧
      (behind.splitOn ',').findSome? keyOfArgument? =
        draft.key.map fun key => String.ofList key.text := by
  unfold text
  cases hkey : draft.key with
  | none =>
    refine ⟨[], [')'], by simp, by simp, ?_, by decide⟩
    exact identityArguments?_append ('[' :: (draft.list ++ [']', ')']))
  | some key =>
    refine ⟨"fields: ".toList, ',' :: (" name: \"".toList ++ key.text ++ "\")".toList),
      by decide, by decide, ?_, ?_⟩
    · have htext : "@@id(fields: [".toList ++ draft.list ++ "], name: \"".toList ++ key.text ++
          "\")".toList = "@@id(".toList ++ ("fields: ".toList ++ '[' :: (draft.list ++
            ']' :: ',' :: (" name: \"".toList ++ key.text ++ "\")".toList))) := by
        simp
      exact (congrArg identityArguments? htext).trans (identityArguments?_append _)
    · have no_comma : ',' ∉ " name: \"".toList ++ key.text ++ "\")".toList := by
        simp [key.no_comma]
      have hnil : keyOfArgument? [] = none := rfl
      rw [List.splitOn_cons_eq_if_modifyHead, if_pos (by decide),
        List.splitOn_eq_singleton no_comma, List.findSome?_cons, hnil, List.findSome?_cons,
        keyOfArgument?_text]
      rfl

/-- A composite identity is read as it was meant. -/
theorem Entry.ofLine_identity (draft : IdentityDraft) (number : Nat) :
    ofLine ⟨number, draft.text⟩ = .identity (some draft.compositeId) := by
  obtain ⟨before, behind, no_open, no_close, harguments, hkey⟩ := draft.identityArguments?_text
  have hattribute : isBlockAttribute draft.text = true ∧ isComment draft.text = false := by
    unfold IdentityDraft.text
    cases draft.key with
    | none => exact ⟨rfl, rfl⟩
    | some key => exact ⟨rfl, rfl⟩
  have hfields : fieldList? (before ++ '[' :: (draft.list ++ ']' :: behind)) =
      some (draft.fields.map Name.string) :=
    draft.fieldList?_list no_open behind
  have hname : keyName? (before ++ '[' :: (draft.list ++ ']' :: behind)) =
      draft.key.map fun key => String.ofList key.text := by
    have hbracket : ']' ∉ before ++ '[' :: draft.list := by
      simp [no_close, draft.not_mem_list]
    have := keyName?_append hbracket behind
    rw [List.append_assoc, List.cons_append] at this
    rw [this, hkey]
  have hne : draft.fields.map Name.string ≠ [] := by simpa using draft.fields_ne_nil
  have hcomposite : CompositeId.ofArguments? (before ++ '[' :: (draft.list ++ ']' :: behind)) =
      some draft.compositeId := by
    rw [CompositeId.ofArguments?, hfields, Option.bind_some, CompositeId.ofFields?, dif_pos hne,
      hname]
    rfl
  simp [ofLine, hattribute, harguments, hcomposite]

end Scaffold.Schema
