import Scaffold.Proofs.Artifact.Payload
import Scaffold.Proofs.Schema.Interleaving

/-!
Fields that are declared twice. Every field declaration in the body of a model is recorded and none
is reported, whatever is declared before it (`names_model`, `not_isFieldLine_of_report`). So the
fields of a model bear different names exactly if no two declarations of its body do, and then so do
the properties of the object that creates an entity and the fields that a rich repository searches,
as both are read from the text of their files (`nodup_names_iff`).
-/

namespace Scaffold.Schema

open Text

/-! ### Declared names -/

/-- The name that a field declaration begins with. -/
def declaredName (line : List Char) : String :=
  String.ofList (line.takeWhile isWordChar)

theorem Declaration.name_of_ofLine? {line : List Char} {declaration : Declaration}
    (h : ofLine? line = some declaration) : declaration.name = line.takeWhile isWordChar := by
  unfold ofLine? at h
  simp only at h
  split at h
  · cases h
  · split at h
    · rw [← Option.some.inj h]
    · cases h

theorem map_name_ofLine? {line : List Char} (h : IsFieldLine line) (number : Nat) :
    (Field.ofLine? line number).map Field.name = some (declaredName line) := by
  obtain ⟨written, rfl⟩ := h
  rw [Field.ofLine?, written.ofLine?_text, declaredName,
    ← Declaration.name_of_ofLine? written.ofLine?_text]
  rfl

namespace Block

variable (block : Block)

/-- The fields of a model bear the names that the field declarations of its body begin with, in
order, also where a name is declared before. -/
theorem names_model : block.model.fields.map Field.name = block.fieldLines.map declaredName := by
  have hfields := congrArg (List.map (Option.map Field.name)) block.fields_model
  rw [List.map_map, List.map_map] at hfields
  apply (List.map_inj_right fun _ _ heq => Option.some.inj heq).mp
  rw [fieldLines, List.filter_map, List.map_map, List.map_map, List.map_map]
  refine hfields.trans (List.map_congr_left fun line hline => ?_)
  exact map_name_ofLine? (of_decide_eq_true (List.mem_filter.mp hline).2) line.number

/-- One more line is not reported if it declares a field. -/
theorem report?_of_isFieldLine {line : SourceLine} (h : IsFieldLine line.text) :
    block.report? line = none := by
  obtain ⟨field, hfield⟩ := Option.isSome_iff_exists.mp ((Entry.isSome_field? line).mpr h)
  rw [report?, Entry.ofLine_of_ofLine? (Entry.ofLine?_of_field? hfield)]
  rfl

/-- No field declaration is reported. -/
theorem not_isFieldLine_of_report {diagnostic : Diagnostic} (h : diagnostic ∈ block.diagnostics) :
    ¬IsFieldLine diagnostic.text.toList := by
  obtain ⟨keyword, name, header, body⟩ := block
  induction body using List.reverseRecOn with
  | nil => cases h
  | append_singleton body line ih =>
    have hpush : (⟨keyword, name, header, body ++ [line]⟩ : Block) =
        (⟨keyword, name, header, body⟩ : Block).push line := rfl
    rw [hpush, diagnostics_push, List.mem_append] at h
    rcases h with h | h
    · exact ih h
    · rw [Option.mem_toList] at h
      intro hline
      obtain ⟨problem, -, rfl⟩ := Option.map_eq_some_iff.mp h
      rw [String.toList_ofList] at hline
      rw [report?_of_isFieldLine _ hline] at h
      cases h

end Block

end Scaffold.Schema

namespace Scaffold.Artifact

open Text
open Schema (Document Field IsFieldLine Model Scan declaredName)

/-! ### Searched fields -/

/-- The list that a line returns. -/
def returnedList? (line : List Char) : Option (List Char) :=
  (dropPrefix? "return [".toList line).bind (dropSuffix? "];".toList)

/-- The text in single quotes. -/
def unquoted? (part : List Char) : Option String :=
  ((dropPrefix? ['\''] part).bind (dropSuffix? ['\''])).map String.ofList

/-- The texts in an enumeration of texts in single quotes. -/
def quotedParts? (text : List Char) : Option (List String) :=
  if trim text = [] then some [] else ((text.splitOn ',').map trim).mapM unquoted?

/-- The names in the first list that a class returns. -/
def searchedNames? (content : String) : Option (List String) :=
  ((classBody content).findSome? returnedList?).bind quotedParts?

theorem toList_quoted (text : String) :
    (quoted text).toList = ['\''] ++ (text.toList ++ ['\'']) := by
  simp [quoted]

theorem unquoted?_quoted (text : String) : unquoted? (quoted text).toList = some text := by
  rw [toList_quoted, unquoted?, dropPrefix?_append, Option.bind_some, dropSuffix?_append,
    Option.map_some, String.ofList_toList]

/-- Words in single quotes are found in their enumeration. -/
theorem quotedParts?_commaSeparated {names : List String}
    (h : ∀ name ∈ names, isWord name.toList = true) :
    quotedParts? (commaSeparated (names.map quoted)).toList = some names := by
  have hparts : (names.map quoted).map String.toList = names.map fun name => (quoted name).toList :=
    List.map_map
  have hne : ∀ part ∈ (names.map quoted).map String.toList, part ≠ [] := by
    rw [hparts]
    exact List.forall_mem_map.mpr fun name _ => by simp [toList_quoted]
  have htrimmed : ∀ part ∈ (names.map quoted).map String.toList, IsTrimmed part := by
    rw [hparts]
    refine List.forall_mem_map.mpr fun name _ => ?_
    rw [toList_quoted]
    exact isTrimmed_of_ends (by decide) (by decide)
  have hcomma : ∀ part ∈ (names.map quoted).map String.toList, ',' ∉ part := by
    rw [hparts]
    refine List.forall_mem_map.mpr fun name hname => ?_
    have hword : ',' ∉ name.toList := not_mem_of_isWord (h name hname) (by decide)
    simp [toList_quoted, hword]
  rw [toList_commaSeparated, quotedParts?, trim_eq_self (isTrimmed_enumeration hne htrimmed)]
  by_cases hnil : names = []
  · subst hnil
    rfl
  · have hsome : (names.map quoted).map String.toList ≠ [] := by simpa using hnil
    rw [if_neg (enumeration_ne_nil hsome hne), splitOn_enumeration hsome hcomma htrimmed, hparts]
    exact mapM_map_eq_some fun name _ => unquoted?_quoted name

/-- The fields that a rich repository searches: texts, but for relations and the times of an
entity's life. -/
def searched (model : Model) : List Field :=
  model.fields.filter fun field =>
    field.scalar? == some .string && !field.isRelation && !field.isLifecycleMarker

theorem searchFields_eq (model : Model) :
    searchFields model = ((searched model).map Field.name).map quoted := by
  rw [List.map_map]
  rfl

/-- A line that does not begin with an `r` returns no list. -/
theorem returnedList?_eq_none {line : List Char} (h : line.head? ≠ some 'r') :
    returnedList? line = none := by
  cases line with
  | nil => rfl
  | cons c rest =>
    have hc : 'r' ≠ c := fun heq => h (by rw [heq]; rfl)
    have hnone : dropPrefix? "return [".toList (c :: rest) = none :=
      dropPrefix?_eq_none hc "eturn [".toList rest
    rw [returnedList?, hnone, Option.bind_none]

theorem findSome?_returnedList? {front : List (List Char)} {line list : List Char}
    (hfront : ∀ other ∈ front, other.head? ≠ some 'r') (hline : returnedList? line = some list)
    (back : List (List Char)) : (front ++ line :: back).findSome? returnedList? = some list := by
  have hnone : front.findSome? returnedList? = none :=
    List.findSome?_eq_none_iff.mpr fun other hother => returnedList?_eq_none (hfront other hother)
  rw [List.findSome?_append, hnone, Option.none_or, List.findSome?_cons, hline]

/-- A text is trimmed if neither its first nor its last character is blank. -/
theorem trim_of_ends {text : String} {first last : Char} (hhead : text.toList.head? = some first)
    (hlast : text.toList.getLast? = some last)
    (hends : isBlank first = false ∧ isBlank last = false) :
    trim text.toList = text.toList := by
  refine trim_eq_self ⟨fun c hc => ?_, fun c hc => ?_⟩
  · rw [hhead, Option.mem_some_iff] at hc
    exact hc ▸ hends.1
  · rw [hlast, Option.mem_some_iff] at hc
    exact hc ▸ hends.2

/-- The lines of a rich repository above the one that returns the fields to search. -/
def linesAboveSearch (model : Model) : List Line :=
  ⟨1, "protected model = this.prisma." ++ (Symbols.ofName model.name).accessor ++ ";"⟩ ::
    Line.blank ::
      (Injection.lines { toBase := true, name := "prisma", type := "DatabaseService" } ++
        [Line.blank, opening 1 "protected getSearchFields(): string[]"])

theorem head?_linesAboveSearch (model : Model) :
    ∀ line ∈ trimmedTexts (linesAboveSearch model), line.head? ≠ some 'r' := by
  have hhead : ("protected model = this.prisma." ++ (Symbols.ofName model.name).accessor ++
      ";").toList.head? = some 'p' := by simp
  have hlast : ("protected model = this.prisma." ++ (Symbols.ofName model.name).accessor ++
      ";").toList.getLast? = some ';' := by simp [List.getLast?_cons]
  rw [trimmedTexts, linesAboveSearch, List.map_cons, List.forall_mem_cons,
    trim_of_ends hhead hlast (by decide), hhead]
  decide

/-- The first list that a rich repository returns holds the quoted names of the fields to search. -/
theorem findSome?_classBody_repository {model : Model} (h : model.IsWellRead)
    (hrich : model.capability = .rich) (options : Options) :
    (classBody (file options model .repository).content).findSome? returnedList? =
      some (commaSeparated (searchFields model)).toList := by
  have hmembers : (classFile options model .repository).members = richRepositoryMembers model := by
    rw [classFile, repository, hrich]
  have hbody : trimmedTexts (classFile options model .repository).below =
      trimmedTexts (linesAboveSearch model) ++
        trim ("return [" ++ commaSeparated (searchFields model) ++ "];").toList ::
          [trim (closing 1).text.toList, ['\x7d']] := by
    rw [trimmedTexts_below hmembers]
    rfl
  have hhead : ("return [" ++ commaSeparated (searchFields model) ++ "];").toList.head? =
      some 'r' := by simp
  have hlast : ("return [" ++ commaSeparated (searchFields model) ++ "];").toList.getLast? =
      some ';' := by simp [List.getLast?_cons]
  rw [file, classBody_render (classFile_hasPlainClass h .repository), hbody]
  refine findSome?_returnedList? (head?_linesAboveSearch model) ?_ _
  rw [trim_of_ends hhead hlast (by decide), String.toList_append, String.toList_append,
    List.append_assoc, returnedList?, dropPrefix?_append, Option.bind_some, dropSuffix?_append]

theorem searchedNames?_repository {model : Model} (h : model.IsWellRead)
    (hrich : model.capability = .rich) (options : Options) :
    searchedNames? (file options model .repository).content =
      some ((searched model).map Field.name) := by
  have hwords : ∀ name ∈ (searched model).map Field.name, isWord name.toList = true :=
    List.forall_mem_map.mpr fun field hfield => (h.fields field (List.mem_filter.mp hfield).1).name
  rw [searchedNames?, findSome?_classBody_repository h hrich, Option.bind_some, searchFields_eq,
    quotedParts?_commaSeparated hwords]

/-! ### Different names -/

/-- The names of the properties of the object that creates an entity are those of the payload. -/
theorem exists_properties_createDto {model : Model} (h : model.IsWellRead) (options : Options) :
    ∃ properties, propertiesOf? (file options model .createDto).content = some properties ∧
      properties.map Property.name = (payload model).map Field.name := by
  refine ⟨_, propertiesOf?_createDto options h, ?_⟩
  rw [List.map_map]
  rfl

/-- The fields of a model bear the names that are declared in its body, line by line; no line that
declares one is reported. So they bear different names exactly if no two lines declare the same
name. The properties of the object that creates an entity bear the names of the payload, and a rich
repository names the fields that it searches, so these too are different if the declared ones
are. -/
theorem nodup_names_iff {source : String} {model : Model}
    (hmodel : model ∈ (Document.ofSource source).models) (options : Options) :
    ∃ block ∈ (Scan.ofSource source.toList).blocks, block.isModel = true ∧ block.model = model ∧
      (∀ diagnostic ∈ block.diagnostics, ¬IsFieldLine diagnostic.text.toList) ∧
      model.fields.map Field.name = block.fieldLines.map declaredName ∧
      ((model.fields.map Field.name).Nodup ↔ (block.fieldLines.map declaredName).Nodup) ∧
      (∃ properties, propertiesOf? (file options model .createDto).content = some properties ∧
        properties.map Property.name = (payload model).map Field.name ∧
        ((block.fieldLines.map declaredName).Nodup → (properties.map Property.name).Nodup)) ∧
      (model.capability = .rich → ∃ names,
        searchedNames? (file options model .repository).content = some names ∧
        names = (searched model).map Field.name ∧
        ((block.fieldLines.map declaredName).Nodup → names.Nodup)) := by
  have hread := Schema.isWellRead_of_mem_models hmodel
  obtain ⟨block, hblock, rfl⟩ := List.mem_map.mp hmodel
  obtain ⟨hscanned, hkeyword⟩ := List.mem_filter.mp hblock
  have hnames := block.names_model
  have hsome : ∀ fields, List.Sublist fields block.model.fields →
      (block.fieldLines.map declaredName).Nodup → (fields.map Field.name).Nodup := by
    intro fields hfields hnodup
    rw [← hnames] at hnodup
    exact hnodup.sublist (hfields.map Field.name)
  obtain ⟨properties, hproperties, hpropertyNames⟩ := exists_properties_createDto hread options
  refine ⟨block, hscanned, hkeyword, rfl, fun diagnostic => block.not_isFieldLine_of_report, hnames,
    by rw [hnames], ⟨properties, hproperties, hpropertyNames, ?_⟩, fun hrich => ?_⟩
  · rw [hpropertyNames]
    exact hsome _ List.filter_sublist
  · exact ⟨_, searchedNames?_repository hread hrich options, rfl, hsome _ List.filter_sublist⟩

/-- A schema of one model, given the name of a field behind another one that is called `title`. -/
def postSchema (name : String) : String :=
  "model Post \x7b\n  id Int @id\n  title String\n  " ++ name ++ " String?\n" ++
    "  createdAt DateTime\n  updatedAt DateTime\n  deletedAt DateTime?\n\x7d\n"

/-- The model of that schema. -/
def post (name : String) : Model where
  name := "Post"
  fields := [⟨"id", "Int", false, true, false, false, false, none, 2⟩,
    ⟨"title", "String", false, false, false, false, false, none, 3⟩,
    ⟨name, "String", true, false, false, false, false, none, 4⟩,
    ⟨"createdAt", "DateTime", false, false, false, false, false, none, 5⟩,
    ⟨"updatedAt", "DateTime", false, false, false, false, false, none, 6⟩,
    ⟨"deletedAt", "DateTime", true, false, false, false, false, none, 7⟩]
  compositeId := none

theorem nodup_names_iff_post :
    ((post "body").fields.map Field.name).Nodup ∧
      (∃ properties, propertiesOf? (file {} (post "body") .createDto).content = some properties ∧
        properties.map Property.name = ["title", "body"] ∧ (properties.map Property.name).Nodup) ∧
      ∃ names, searchedNames? (file {} (post "body") .repository).content = some names ∧
        names = ["title", "body"] ∧ names.Nodup := by
  have hmodels : (Document.ofSource (postSchema "body")).models = [post "body"] := by decide +kernel
  have hmodel : post "body" ∈ (Document.ofSource (postSchema "body")).models := by simp [hmodels]
  obtain ⟨block, -, -, -, -, -, hnodup, ⟨properties, hproperties, hpayload, hdifferent⟩, hrich⟩ :=
    nodup_names_iff hmodel {}
  obtain ⟨names, hnames, hsearched, hsearchedDifferent⟩ := hrich (by decide)
  have hfields : ((post "body").fields.map Field.name).Nodup := by decide
  have hdeclared := hnodup.mp hfields
  exact ⟨hfields, ⟨properties, hproperties, hpayload.trans (by decide), hdifferent hdeclared⟩,
    names, hnames, hsearched.trans (by decide), hsearchedDifferent hdeclared⟩

/-- A name that is declared twice is recorded twice, without a report, and so the object that
creates an entity declares a property twice and the repository searches a field twice. -/
theorem not_forall_nodup_names :
    ((Document.ofSource (postSchema "title")).models = [post "title"] ∧
      (Document.ofSource (postSchema "title")).diagnostics = [] ∧
      (∃ properties, propertiesOf? (file {} (post "title") .createDto).content = some properties ∧
        properties.map Property.name = ["title", "title"]) ∧
      searchedNames? (file {} (post "title") .repository).content = some ["title", "title"]) ∧
    ¬ ∀ source : String, ∀ model ∈ (Document.ofSource source).models,
      (model.fields.map Field.name).Nodup := by
  have hmodels : (Document.ofSource (postSchema "title")).models = [post "title"] := by
    decide +kernel
  have hdiagnostics : (Document.ofSource (postSchema "title")).diagnostics = [] := by decide +kernel
  have hmodel : post "title" ∈ (Document.ofSource (postSchema "title")).models := by simp [hmodels]
  have hread := Schema.isWellRead_of_mem_models hmodel
  obtain ⟨properties, hproperties, hpayload⟩ := exists_properties_createDto hread {}
  have hsearched := searchedNames?_repository hread (by decide) {}
  refine ⟨⟨hmodels, hdiagnostics, ⟨properties, hproperties, hpayload.trans (by decide)⟩,
    hsearched.trans (by decide)⟩, fun hall => ?_⟩
  exact absurd (hall _ _ hmodel) (by decide)

end Scaffold.Artifact
