import Scaffold.Proofs.Artifact.Layers
import Scaffold.Proofs.Schema.IdentityText
import Scaffold.Proofs.Schema.WellFormed

/-!
The names in a composite identity. What its list holds between two commas is taken as the name of a
field, whatever it is: the names are identifiers exactly when the list is made of words, commas and
blank space, with no more than one word between two commas (`isIdentifier_compositeFields_iff`). If
they are, then so is all that the code of a basic model makes of them: parameters, segments of a
route, and the key of a query.
-/

namespace Scaffold.Schema

open Text

/-! ### Plain lists -/

theorem isIdentifier_iff {text : String} : IsIdentifier text ↔ isWord text.toList = true := by
  constructor
  · intro h
    refine isWord_iff.mpr ⟨fun hnil => h.ne_empty (String.toList_eq_nil_iff.mp hnil), fun c hc => ?_⟩
    simpa [isWordChar] using h.chars c hc
  · exact isIdentifier_of_isWord

/-- What stands between two commas of a list: one word at most, and blank space around it. -/
def IsPlainPart (part : List Char) : Prop :=
  IsBlankText part ∨ ∃ left word right, IsBlankText left ∧ isWord word = true ∧
    IsBlankText right ∧ part = left ++ (word ++ right)

/-- A list with no more than a word between two commas. -/
def IsPlainList (list : List Char) : Prop :=
  ∀ part ∈ list.splitOn ',', IsPlainPart part

theorem isPlainPart_iff {part : List Char} :
    IsPlainPart part ↔ trim part = [] ∨ isWord (trim part) = true := by
  constructor
  · rintro (hblank | ⟨left, word, right, hleft, hword, hright, rfl⟩)
    · exact Or.inl (trim_eq_nil hblank)
    · rw [← List.append_assoc, trim_pad hleft hright (isTrimmed_of_isWord hword)]
      exact Or.inr hword
  · rintro (hempty | hword)
    · exact Or.inl (trim_eq_nil_iff.mp hempty)
    · obtain ⟨left, right, hleft, hright, hpart⟩ := exists_eq_append_trim part
      exact Or.inr ⟨left, trim part, right, hleft, hword, hright, hpart⟩

/-- The entries of a list are identifiers exactly when the list is plain. -/
theorem forall_isIdentifier_listEntries {list : List Char} :
    (∀ entry ∈ listEntries list, IsIdentifier entry) ↔ IsPlainList list := by
  constructor
  · intro h part hpart
    rw [isPlainPart_iff]
    by_cases hempty : trim part = []
    · exact Or.inl hempty
    · have hentry : String.ofList (trim part) ∈ listEntries list :=
        List.mem_map_of_mem (List.mem_filter.mpr ⟨List.mem_map_of_mem hpart, by simpa using hempty⟩)
      have hword := isIdentifier_iff.mp (h _ hentry)
      rw [String.toList_ofList] at hword
      exact Or.inr hword
  · intro h entry hentry
    obtain ⟨text, htext, rfl⟩ := List.mem_map.mp hentry
    obtain ⟨htrimmed, hempty⟩ := List.mem_filter.mp htext
    obtain ⟨part, hpart, rfl⟩ := List.mem_map.mp htrimmed
    have hword := (isPlainPart_iff.mp (h part hpart)).resolve_left (by simpa using hempty)
    rw [isIdentifier_iff, String.toList_ofList]
    exact hword

/-- The fields of a model's identity are identifiers exactly when the first text of an identity in
its body has a plain list. -/
theorem Block.forall_isIdentifier_iff (block : Block) :
    (∀ entry ∈ block.model.compositeFields, IsIdentifier entry) ↔
      ∀ written : IdentityText, written.text ∈ block.identityLines.head? →
        IsPlainList written.list := by
  obtain ⟨hnone, hsome⟩ := block.compositeId_model
  have hfields : ∀ written : IdentityText, written.text ∈ block.identityLines.head? →
      block.model.compositeFields = listEntries written.list := by
    intro written hfirst
    rw [Model.compositeFields, hsome written hfirst]
    rfl
  constructor
  · intro h written hfirst
    rw [hfields written hfirst] at h
    exact forall_isIdentifier_listEntries.mp h
  · intro h
    cases hlines : block.identityLines with
    | nil =>
      rw [Model.compositeFields, hnone.mpr hlines]
      exact List.forall_mem_nil _
    | cons line rest =>
      have hline : line ∈ block.identityLines := hlines ▸ List.mem_cons_self ..
      obtain ⟨written, rfl⟩ : IsIdentityLine line := by
        simpa using (List.mem_filter.mp hline).2
      have hfirst : written.text ∈ block.identityLines.head? := by simp [hlines]
      rw [hfields written hfirst]
      exact forall_isIdentifier_listEntries.mpr (h written hfirst)

end Scaffold.Schema

namespace Scaffold.Artifact

open Text
open Schema (CompositeId Document IdentityText IsIdentifier IsPlainList Model Scan)

/-! ### Keys of queries -/

/-- The key that a query looks an entity up by: what its condition begins with. -/
def whereKey? (arguments : String) : Option String :=
  (dropPrefix? "\x7b where: \x7b ".toList arguments.toList).map fun rest =>
    String.ofList (rest.takeWhile fun c => c != ':' && c != ' ')

/-- The key of a model that declares none: the names of its identity in one word. -/
def joinedKey (model : Model) : String :=
  "_".intercalate (keyFields model)

theorem isWord_joinedKey {model : Model} (h : ∀ name ∈ keyFields model, isWord name.toList = true) :
    isWord (joinedKey model).toList = true := by
  obtain ⟨first, rest, hnames⟩ := List.exists_cons_of_ne_nil (keyFields_ne_nil model)
  have hfirst : first.toList ≠ [] := (isWord_iff.mp (h first (hnames ▸ List.mem_cons_self ..))).1
  rw [joinedKey, String.toList_intercalate]
  refine isWord_iff.mpr ⟨?_, fun c hc => ?_⟩
  · rw [hnames]
    cases rest with
    | nil => simpa using hfirst
    | cons next more => simp [List.intercalate_cons_cons]
  · rcases mem_intercalate hc with hc | ⟨part, hpart, hc⟩
    · rw [List.mem_singleton.mp hc]
      rfl
    · obtain ⟨name, hname, rfl⟩ := List.mem_map.mp hpart
      exact (isWord_iff.mp (h name hname)).2 c hc

/-- A condition begins with the key that it looks up. -/
theorem whereKey?_condition {model : Model} (h : ∀ name ∈ keyFields model, isWord name.toList = true)
    (hkey : model.compositeId.bind CompositeId.key = none) (behind : String) :
    whereKey? (commaSeparated [braced ("where: " ++ whereClause model.identity ++ behind)]) =
      some (joinedKey model) := by
  have hcolon : ':' ∉ (joinedKey model).toList := not_mem_of_isWord (isWord_joinedKey h) rfl
  have hspace : ' ' ∉ (joinedKey model).toList := not_mem_of_isWord (isWord_joinedKey h) rfl
  have hstop : ∀ c ∈ (joinedKey model).toList, (c != ':' && c != ' ') = true := by
    intro c hc
    rw [Bool.and_eq_true, bne_iff_ne, bne_iff_ne]
    exact ⟨fun heq => hcolon (heq ▸ hc), fun heq => hspace (heq ▸ hc)⟩
  have hclause : ∃ c rest, (c != ':' && c != ' ') = false ∧
      (whereClause model.identity).toList =
        "\x7b ".toList ++ ((joinedKey model).toList ++ c :: rest) := by
    unfold Model.identity joinedKey keyFields
    cases hcomposite : model.compositeId with
    | none => exact ⟨' ', ['\x7d'], rfl, rfl⟩
    | some composite =>
      have hnone : composite.key = none := by simpa [hcomposite] using hkey
      refine ⟨':', (" " ++ braced (commaSeparated composite.fields) ++ " \x7d").toList, rfl, ?_⟩
      simp [whereClause, lookupKey, hnone, braced]
  obtain ⟨c, rest, hc, hclause⟩ := hclause
  have harguments :
      (commaSeparated [braced ("where: " ++ whereClause model.identity ++ behind)]).toList =
        "\x7b where: \x7b ".toList ++ ((joinedKey model).toList ++ c ::
          (rest ++ (behind.toList ++ " \x7d".toList))) := by
    rw [toList_commaSeparated]
    simp [braced, hclause]
  rw [whereKey?, harguments, dropPrefix?_append, Option.map_some,
    takeWhile_append_stop hstop (by simpa using hc), String.ofList_toList]

/-! ### Plain code -/

/-- The texts of three layers, in which all that stands for an identity is an identifier. Three
methods of each layer are about one entity. -/
structure SpeaksPlainly (repository service controller : String) : Prop where
  keyed : ∀ content ∈ [repository, service, controller],
    ((methodsOf content).filter fun view => numericNames view.parameters ≠ []).length = 3
  parameters : ∀ content ∈ [repository, service, controller], ∀ view ∈ methodsOf content,
    ∀ name ∈ numericNames view.parameters, IsIdentifier name
  routes : ∀ view ∈ methodsOf controller,
    (numericNames view.parameters ≠ [] → (routeNames? view.decorators).isSome = true) ∧
      ∀ names ∈ routeNames? view.decorators, ∀ name ∈ names, IsIdentifier name
  taken : ∀ view ∈ methodsOf controller, ∀ name ∈ paramNames view.parameters, IsIdentifier name
  keys : ∀ view ∈ methodsOf repository,
    (numericNames view.parameters ≠ [] → (whereKey? view.arguments).isSome = true) ∧
      ∀ key ∈ whereKey? view.arguments, IsIdentifier key
  conditions : ∀ view ∈ methodsOf repository,
    ∀ names ∈ whereNames? view.arguments, ∀ name ∈ names, IsIdentifier name

section Plain

variable {model : Model}

theorem length_keyed_repositoryMethods (model : Model) :
    (((repositoryMethods model).map Method.view).filter
      fun view => numericNames view.parameters ≠ []).length = 3 := by
  have hdata : numericNames [{ name := "data", type := "any" }] = [] :=
    numericNames_singleton (by decide)
  simp [repositoryMethods, numericNames_append, numericNames_identity, hdata,
    keyFields_ne_nil]

theorem length_keyed_serviceMethods (hmodel : model.IsWellRead) :
    (((serviceMethods model).map Method.view).filter
      fun view => numericNames view.parameters ≠ []).length = 3 := by
  have hcreate : numericNames
      [{ name := "createDto", type := (Symbols.ofName model.name).createDto }] = [] :=
    numericNames_singleton (className_ne_identityType hmodel .createDto)
  simp [serviceMethods, numericNames_append, numericNames_identity, hcreate,
    keyFields_ne_nil]

theorem length_keyed_endpoints (hmodel : model.IsWellRead) :
    (((endpoints model).map Method.view).filter
      fun view => numericNames view.parameters ≠ []).length = 3 := by
  have hcreate : numericNames [bodyParameter "createDto" (Symbols.ofName model.name).createDto] = [] :=
    numericNames_singleton (className_ne_identityType hmodel .createDto)
  simp [endpoints, numericNames_append, numericNames_route, hcreate,
    keyFields_ne_nil]

/-- A query for one entity begins with the key of the model, and no other query has a key. -/
theorem whereKey?_repositoryMethods (h : ∀ name ∈ keyFields model, isWord name.toList = true)
    (hkey : model.compositeId.bind CompositeId.key = none) :
    ∀ method ∈ repositoryMethods model,
      (numericNames method.parameters = [] ∧ whereKey? method.view.arguments = none) ∨
        whereKey? method.view.arguments = some (joinedKey model) := by
  have hquery : whereKey? (commaSeparated [braced ("where: " ++ whereClause model.identity)]) =
      some (joinedKey model) := by
    have := whereKey?_condition h hkey ""
    rwa [String.append_empty] at this
  have hdata : numericNames [{ name := "data", type := "any" }] = [] :=
    numericNames_singleton (by decide)
  simp only [repositoryMethods, List.forall_mem_cons]
  refine ⟨Or.inl ?_, Or.inr hquery, Or.inl ?_, Or.inr ?_, Or.inr hquery, List.forall_mem_nil _⟩
  · exact ⟨rfl, (by decide : whereKey? (commaSeparated []) = none)⟩
  · exact ⟨hdata, (by decide : whereKey? (commaSeparated [braced "data"]) = none)⟩
  · exact whereKey?_condition h hkey ", data"

/-- The code of a basic model that declares no key speaks of entities in identifiers if its identity
is one of identifiers. -/
theorem speaksPlainly_files (hmodel : model.IsWellRead) (hbasic : model.capability = .basic)
    (hfields : ∀ entry ∈ model.compositeFields, IsIdentifier entry)
    (hkey : model.compositeId.bind CompositeId.key = none) (options : Options) :
    SpeaksPlainly (file options model .repository).content (file options model .service).content
      (file options model .controller).content := by
  have h := isWord_keyFields fun entry hentry => Schema.isIdentifier_iff.mp (hfields entry hentry)
  have hidentifiers : ∀ name ∈ keyFields model, IsIdentifier name :=
    fun name hname => Schema.isIdentifier_iff.mpr (h name hname)
  have hrepository := @methodsOf_repository options model hmodel hbasic h
  have hservice := @methodsOf_service options model hmodel hbasic h
  have hcontroller := @methodsOf_controller options model hmodel hbasic h
  -- Each place that names the identity names all of it or nothing.
  have hnumeric : ∀ {names : List String}, names = keyFields model ∨ names = [] →
      ∀ name ∈ names, IsIdentifier name := by
    rintro names (rfl | rfl)
    · exact hidentifiers
    · exact List.forall_mem_nil _
  constructor
  case keyed =>
    simp only [List.forall_mem_cons]
    rw [hrepository, hservice, hcontroller]
    exact ⟨length_keyed_repositoryMethods model, length_keyed_serviceMethods hmodel,
      length_keyed_endpoints hmodel, List.forall_mem_nil _⟩
  case parameters =>
    simp only [List.forall_mem_cons]
    rw [hrepository, hservice, hcontroller]
    refine ⟨?_, ?_, ?_, List.forall_mem_nil _⟩
    · refine List.forall_mem_map.mpr fun method hmethod => hnumeric ?_
      exact (repository_keys h method hmethod).imp (fun keyed => keyed.2.1) fun other => other.2.1
    · refine List.forall_mem_map.mpr fun method hmethod => hnumeric ?_
      exact (service_keys hmodel h method hmethod).imp (fun keyed => keyed.2.1) fun other => other.2
    · refine List.forall_mem_map.mpr fun method hmethod => hnumeric ?_
      exact (controller_keys hmodel h method hmethod).imp (fun keyed => keyed.2.1)
        fun other => other.2.1
  case routes =>
    rw [hcontroller]
    refine List.forall_mem_map.mpr fun method hmethod => ?_
    rcases controller_keys hmodel h method hmethod with keyed | other
    · obtain ⟨-, -, -, -, hroute⟩ := keyed
      rw [Method.view_decorators, hroute]
      exact ⟨fun _ => rfl, fun names hnames => Option.some.inj hnames ▸ hidentifiers⟩
    · obtain ⟨-, hnone, -, hroute⟩ := other
      rw [Method.view_decorators, hroute]
      exact ⟨fun hne => absurd hnone hne, fun names hnames => by cases hnames⟩
  case taken =>
    rw [hcontroller]
    refine List.forall_mem_map.mpr fun method hmethod => hnumeric ?_
    exact (controller_keys hmodel h method hmethod).imp (fun keyed => keyed.2.2.2.1)
      fun other => other.2.2.1
  case keys =>
    rw [hrepository]
    refine List.forall_mem_map.mpr fun method hmethod => ?_
    rcases whereKey?_repositoryMethods h hkey method hmethod with ⟨hnone, hquery⟩ | hquery
    · rw [hquery]
      exact ⟨fun hne => absurd hnone hne, fun key hkey => by cases hkey⟩
    · rw [hquery]
      refine ⟨fun _ => rfl, fun key hkey => ?_⟩
      obtain rfl := Option.some.inj hkey
      exact Schema.isIdentifier_iff.mpr (isWord_joinedKey h)
  case conditions =>
    rw [hrepository]
    refine List.forall_mem_map.mpr fun method hmethod names hnames => ?_
    rcases repository_keys h method hmethod with ⟨-, -, hquery⟩ | ⟨-, -, hquery⟩
    · rw [hquery] at hnames
      exact Option.some.inj hnames ▸ hidentifiers
    · rw [hquery] at hnames
      cases hnames

/-- The fields of a composite identity are identifiers exactly when the list that they are read from
is plain, and then so is all that the code of a basic model without a declared key makes of them. -/
theorem isIdentifier_compositeFields_iff {source : String}
    (hmem : model ∈ (Document.ofSource source).models) :
    (∃ block ∈ (Scan.ofSource source.toList).blocks, block.isModel = true ∧ block.model = model ∧
      ((∀ entry ∈ model.compositeFields, IsIdentifier entry) ↔
        ∀ written : IdentityText, written.text ∈ block.identityLines.head? →
          IsPlainList written.list)) ∧
    ((∀ entry ∈ model.compositeFields, IsIdentifier entry) → model.capability = .basic →
      model.compositeId.bind CompositeId.key = none → ∀ options : Options,
        SpeaksPlainly (file options model .repository).content (file options model .service).content
          (file options model .controller).content) := by
  constructor
  · obtain ⟨block, hblock, rfl⟩ := List.mem_map.mp hmem
    obtain ⟨hblock, hdeclares⟩ := List.mem_filter.mp hblock
    exact ⟨block, hblock, hdeclares, rfl, block.forall_isIdentifier_iff⟩
  · exact fun hfields hbasic hkey options =>
      speaksPlainly_files (Schema.isWellRead_of_mem_models hmem) hbasic hfields hkey options

end Plain

theorem isIdentifier_compositeFields_iff_orderItem :
    (∃ block ∈ (Scan.ofSource orderItemSchema.toList).blocks,
      block.isModel = true ∧ block.model = orderItem ∧
        ((∀ entry ∈ orderItem.compositeFields, IsIdentifier entry) ↔
          ∀ written : IdentityText, written.text ∈ block.identityLines.head? →
            IsPlainList written.list)) ∧
    SpeaksPlainly (file {} orderItem .repository).content (file {} orderItem .service).content
      (file {} orderItem .controller).content := by
  have hmodels : (Document.ofSource orderItemSchema).models = [orderItem] := by decide
  have hmem : orderItem ∈ (Document.ofSource orderItemSchema).models := by simp [hmodels]
  have hfields : ∀ entry ∈ orderItem.compositeFields, IsIdentifier entry := by
    intro entry hentry
    have hword : ∀ name ∈ orderItem.compositeFields, isWord name.toList = true := by decide
    exact Schema.isIdentifier_iff.mpr (hword entry hentry)
  obtain ⟨hlist, hcode⟩ := isIdentifier_compositeFields_iff hmem
  exact ⟨hlist, hcode hfields rfl rfl {}⟩

/-- A schema of a model whose identity has arguments for one of its fields. -/
def pageSchema : String :=
  "model Page \x7b\n  title String\n  code Int\n  @@id([title(length: 100, sort: Desc), code])\n\x7d\n"

/-- The model of `pageSchema`: two fields are listed, and three are read. -/
def page : Model where
  name := "Page"
  fields :=
    [⟨"title", "String", false, false, false, false, false, none, 2⟩,
      ⟨"code", "Int", false, false, false, false, false, none, 3⟩]
  compositeId := some ⟨["title(length: 100", "sort: Desc)", "code"], none, List.cons_ne_nil _ _⟩

/-- The names in a list are not checked, and the line of a list that is not plain is not reported. -/
theorem not_forall_isIdentifier_compositeFields :
    ¬ ∀ source : String, (Document.ofSource source).diagnostics = [] →
      ∀ model ∈ (Document.ofSource source).models,
        ∀ entry ∈ model.compositeFields, IsIdentifier entry := by
  intro h
  have hread : Document.ofSource pageSchema = ⟨[page], []⟩ := by decide +kernel
  have hpage := h pageSchema (by rw [hread])
  rw [hread] at hpage
  have hentry : "title(length: 100" ∈ page.compositeFields := List.mem_cons_self ..
  have hidentifier := hpage page (List.mem_singleton.mpr rfl) _ hentry
  exact absurd (hidentifier.chars '(' (by decide)) (by decide)

end Scaffold.Artifact
