import Mathlib.Data.List.Nodup
import Scaffold.Proofs.Artifact.Layers

/-!
The names of parameters. Each method of a basic model takes the identity and, behind it, what is to
be written. Its call passes on all of that by name and in order (`PassesOn`), so the names are to
be told apart. They are if no field of the identity is named like what stands behind it, which is
`data` in a repository and `updateDto` in a service and in a controller (`hygienic_iff`).
-/

namespace Scaffold.Artifact

open Text
open Schema (Document Model)

/-! ### Names in signatures and calls -/

/-- The names of the parameters of each method of a class. -/
def parameterNames (content : String) : List (List String) :=
  (methodsOf content).map fun view => view.parameters.map Parameter.name

/-- Whether each method of a class takes its parameters by different names. -/
def IsHygienic (content : String) : Prop :=
  ∀ names ∈ parameterNames content, names.Nodup

/-- The variable that ends an object, as the name of a property and its value at once. -/
def shorthand? (arguments : String) : Option String :=
  (dropSuffix? " \x7d".toList arguments.toList).bind fun object =>
    ((words object).getLast?.filter isWord).map String.ofList

/-- The variables of a query: the fields of its condition, and what ends its object. -/
def queriedNames (arguments : String) : List String :=
  (whereNames? arguments).getD [] ++ (shorthand? arguments).toList

/-- The texts of three layers in which each call passes on what its method takes. -/
structure PassesOn (repository service controller : String) : Prop where
  repository : ∀ view ∈ methodsOf repository,
    queriedNames view.arguments = view.parameters.map Parameter.name
  service : ∀ view ∈ methodsOf service,
    namesIn view.arguments.toList = view.parameters.map Parameter.name
  controller : ∀ view ∈ methodsOf controller,
    namesIn view.arguments.toList = view.parameters.map Parameter.name

/-- An argument that ends in a word before its brace hands on the variable of that name. -/
theorem shorthand?_of_isWord {front : List Char} {name arguments : String}
    (hname : isWord name.toList = true)
    (h : arguments.toList = front ++ ' ' :: name.toList ++ " \x7d".toList) :
    shorthand? arguments = some name := by
  rw [shorthand?, h, dropSuffix?_append, Option.bind_some, words_append_blank (by decide),
    words_of_isWord hname, List.getLast?_concat, Option.filter_some, if_pos hname, Option.map_some,
    String.ofList_toList]

/-- An argument that ends in a nested condition hands on nothing besides it. -/
theorem shorthand?_of_brace {front : List Char} {arguments : String}
    (h : arguments.toList = front ++ ' ' :: ['\x7d'] ++ " \x7d".toList) :
    shorthand? arguments = none := by
  have hbrace : words ['\x7d'] = [['\x7d']] := by decide
  rw [shorthand?, h, dropSuffix?_append, Option.bind_some, words_append_blank (by decide), hbrace,
    List.getLast?_concat]
  rfl

section Signatures

variable {options : Options} {model : Model}

theorem names_identityParameters (model : Model) :
    (identityParameters model.identity).map Parameter.name = keyFields model := by
  rw [← identityNames_eq, identityParameters, List.map_map]
  exact List.map_id _

/-- A route names its parameters like the method behind it. -/
theorem names_routeParameters (model : Model) :
    (routeParameters model.identity).map Parameter.name = keyFields model := by
  rw [← identityNames_eq, routeParameters, List.map_map]
  exact List.map_id _

/-! The names in the signatures of the three classes. -/

/-- In a repository the data stand behind the identity in the method that updates, and nowhere
else. -/
theorem parameterNames_repository (hmodel : model.IsWellRead) (hbasic : model.capability = .basic)
    (h : ∀ name ∈ keyFields model, isWord name.toList = true) :
    parameterNames (file options model .repository).content =
      [[], keyFields model, ["data"], keyFields model ++ ["data"], keyFields model] := by
  rw [parameterNames, methodsOf_repository hmodel hbasic h]
  simp [repositoryMethods, names_identityParameters]

theorem parameterNames_service (hmodel : model.IsWellRead) (hbasic : model.capability = .basic)
    (h : ∀ name ∈ keyFields model, isWord name.toList = true) :
    parameterNames (file options model .service).content =
      [[], keyFields model, ["createDto"], keyFields model ++ ["updateDto"], keyFields model] := by
  rw [parameterNames, methodsOf_service hmodel hbasic h]
  simp [serviceMethods, names_identityParameters]

/-- The endpoints come in another order than the methods of the service, under the same names. -/
theorem parameterNames_controller (hmodel : model.IsWellRead) (hbasic : model.capability = .basic)
    (h : ∀ name ∈ keyFields model, isWord name.toList = true) :
    parameterNames (file options model .controller).content =
      [["createDto"], [], keyFields model, keyFields model ++ ["updateDto"], keyFields model] := by
  rw [parameterNames, methodsOf_controller hmodel hbasic h]
  simp [endpoints, bodyParameter, names_routeParameters]

theorem nodup_concat_iff {names : List String} (hnames : names.Nodup) (last : String) :
    (names ++ [last]).Nodup ↔ last ∉ names := by
  rw [← List.concat_eq_append, List.nodup_concat]
  exact and_iff_left hnames

/-- All methods but the one that updates take the identity or one thing alone. -/
theorem isHygienic_repository_iff (hmodel : model.IsWellRead) (hbasic : model.capability = .basic)
    (h : ∀ name ∈ keyFields model, isWord name.toList = true) (hnodup : (keyFields model).Nodup) :
    IsHygienic (file options model .repository).content ↔ "data" ∉ keyFields model := by
  rw [IsHygienic, parameterNames_repository hmodel hbasic h, ← nodup_concat_iff hnodup]
  simp [hnodup]

theorem isHygienic_service_iff (hmodel : model.IsWellRead) (hbasic : model.capability = .basic)
    (h : ∀ name ∈ keyFields model, isWord name.toList = true) (hnodup : (keyFields model).Nodup) :
    IsHygienic (file options model .service).content ↔ "updateDto" ∉ keyFields model := by
  rw [IsHygienic, parameterNames_service hmodel hbasic h, ← nodup_concat_iff hnodup]
  simp [hnodup]

theorem isHygienic_controller_iff (hmodel : model.IsWellRead) (hbasic : model.capability = .basic)
    (h : ∀ name ∈ keyFields model, isWord name.toList = true) (hnodup : (keyFields model).Nodup) :
    IsHygienic (file options model .controller).content ↔ "updateDto" ∉ keyFields model := by
  rw [IsHygienic, parameterNames_controller hmodel hbasic h, ← nodup_concat_iff hnodup]
  simp [hnodup]

/-! ### Calls -/

/-- A condition ends in a brace, whatever the identity is. -/
theorem exists_whereClause_eq (model : Model) :
    ∃ front, (whereClause model.identity).toList = front ++ ' ' :: ['\x7d'] := by
  unfold Model.identity
  cases model.compositeId with
  | none => exact ⟨"\x7b id".toList, by simp [whereClause, braced]⟩
  | some composite =>
    refine ⟨("\x7b " ++ lookupKey composite.fields composite.key ++ ": " ++
      braced (commaSeparated composite.fields)).toList, ?_⟩
    simp [whereClause, braced]

/-- A query is about the variables that its method takes. -/
theorem queriedNames_repositoryMethods (h : ∀ name ∈ keyFields model, isWord name.toList = true) :
    ∀ method ∈ repositoryMethods model,
      queriedNames method.view.arguments = method.parameters.map Parameter.name := by
  have hparameters := names_identityParameters model
  have hquery : queriedNames (commaSeparated [braced ("where: " ++ whereClause model.identity)]) =
      keyFields model := by
    have hwhere := @whereNames?_condition model h "" (by decide)
    rw [String.append_empty] at hwhere
    obtain ⟨front, hfront⟩ := exists_whereClause_eq model
    have hend : shorthand? (commaSeparated [braced ("where: " ++ whereClause model.identity)]) =
        none := by
      refine @shorthand?_of_brace ("\x7b where: ".toList ++ front) _ ?_
      rw [toList_commaSeparated]
      simp [braced, hfront]
    rw [queriedNames, hwhere, hend]
    exact List.append_nil _
  have hupdate : queriedNames (commaSeparated
      [braced ("where: " ++ whereClause model.identity ++ ", data")]) = keyFields model ++ ["data"] := by
    have hwhere := @whereNames?_condition model h ", data" (by decide)
    have hend : shorthand? (commaSeparated
        [braced ("where: " ++ whereClause model.identity ++ ", data")]) = some "data" := by
      refine @shorthand?_of_isWord ("\x7b where: " ++ whereClause model.identity ++ ",").toList "data"
        _ (by decide) ?_
      rw [toList_commaSeparated]
      simp [braced]
    rw [queriedNames, hwhere, hend]
    rfl
  simp only [repositoryMethods, List.forall_mem_cons]
  refine ⟨?_, ?_, ?_, ?_, ?_, List.forall_mem_nil _⟩
  · exact (by decide : queriedNames (commaSeparated []) = [])
  · exact hquery.trans hparameters.symm
  · exact (by decide : queriedNames (commaSeparated [braced "data"]) = ["data"])
  · rw [List.map_append, hparameters]
    exact hupdate
  · exact hquery.trans hparameters.symm

/-- A method that calls another one with its parameters shows their names as the arguments. -/
theorem namesIn_view_of_eq {method : Method} (hreadable : method.IsReadable)
    (h : method.body.arguments = method.parameters.map Parameter.name) :
    namesIn method.view.arguments.toList = method.view.parameters.map Parameter.name := by
  have hwords : ∀ argument ∈ method.body.arguments, isWord argument.toList = true := by
    rw [h]
    exact List.forall_mem_map.mpr fun parameter hmem => (hreadable.parameters parameter hmem).name
  rw [namesIn_view hwords, h, Method.view_parameters]

/-- A service hands its parameters to the repository as they are. -/
theorem arguments_serviceMethods (model : Model) : ∀ method ∈ serviceMethods model,
    method.body.arguments = method.parameters.map Parameter.name := by
  simp [serviceMethods, identityArguments_eq, names_identityParameters]

/-- So does a controller to the service. -/
theorem arguments_endpoints (model : Model) : ∀ method ∈ endpoints model,
    method.body.arguments = method.parameters.map Parameter.name := by
  simp [endpoints, bodyParameter, identityArguments_eq, names_routeParameters]

/-- Queries pick the parameters out of their conditions, and the layers above list them as
arguments. -/
theorem passesOn_files (hmodel : model.IsWellRead) (hbasic : model.capability = .basic)
    (h : ∀ name ∈ keyFields model, isWord name.toList = true) (options : Options) :
    PassesOn (file options model .repository).content (file options model .service).content
      (file options model .controller).content := by
  constructor
  case repository =>
    rw [methodsOf_repository hmodel hbasic h]
    exact List.forall_mem_map.mpr (queriedNames_repositoryMethods h)
  case service =>
    rw [methodsOf_service hmodel hbasic h]
    refine List.forall_mem_map.mpr fun method hmethod => ?_
    exact namesIn_view_of_eq (isReadable_serviceMethods hmodel h method hmethod)
      (arguments_serviceMethods model method hmethod)
  case controller =>
    rw [methodsOf_controller hmodel hbasic h]
    refine List.forall_mem_map.mpr fun method hmethod => ?_
    exact namesIn_view_of_eq (isReadable_endpoints hmodel h method hmethod)
      (arguments_endpoints model method hmethod)

end Signatures

/-! ### Identities of declared fields -/

section Declared

variable {model : Model}

/-- Fields that are declared have words as names, which is what the reading of the files needs. -/
theorem isWord_of_declares (hmodel : model.IsWellRead)
    (hdeclared : ∀ name ∈ model.compositeFields, model.declares name = true) :
    ∀ name ∈ keyFields model, isWord name.toList = true := by
  refine isWord_keyFields fun name hname => ?_
  obtain ⟨field, hfield, heq⟩ := List.any_eq_true.mp (hdeclared name hname)
  rw [← beq_iff_eq.mp heq]
  exact (hmodel.fields field hfield).1

theorem nodup_keyFields (hdistinct : model.compositeFields.Nodup) : (keyFields model).Nodup := by
  unfold Model.compositeFields at hdistinct
  unfold keyFields
  cases hcomposite : model.compositeId with
  | none => simp
  | some composite =>
    rw [hcomposite] at hdistinct
    exact hdistinct

/-- The two lists differ in `id`, which stands in for an identity that is not composite. -/
theorem mem_keyFields_iff {name : String} (hname : name ≠ "id") :
    name ∈ keyFields model ↔ name ∈ model.compositeFields := by
  unfold keyFields Model.compositeFields
  cases model.compositeId with
  | none => simp [hname]
  | some composite => exact Iff.rfl

/-- The methods of a basic model with an identity of different declared fields take their parameters
by different names exactly when no field of the identity is named like what stands behind it, and
their calls pass on what they take. -/
theorem hygienic_iff {source : String} (hmem : model ∈ (Document.ofSource source).models)
    (hbasic : model.capability = .basic) (hdistinct : model.compositeFields.Nodup)
    (hdeclared : ∀ name ∈ model.compositeFields, model.declares name = true) (options : Options) :
    (IsHygienic (file options model .repository).content ↔ "data" ∉ model.compositeFields) ∧
    (IsHygienic (file options model .service).content ↔ "updateDto" ∉ model.compositeFields) ∧
    (IsHygienic (file options model .controller).content ↔ "updateDto" ∉ model.compositeFields) ∧
    PassesOn (file options model .repository).content (file options model .service).content
      (file options model .controller).content := by
  have hmodel := Schema.isWellRead_of_mem_models hmem
  have h := isWord_of_declares hmodel hdeclared
  have hnodup := nodup_keyFields hdistinct
  have hdata : "data" ∈ keyFields model ↔ "data" ∈ model.compositeFields :=
    mem_keyFields_iff (by simp)
  have hupdateDto : "updateDto" ∈ keyFields model ↔ "updateDto" ∈ model.compositeFields :=
    mem_keyFields_iff (by simp)
  refine ⟨?_, ?_, ?_, passesOn_files hmodel hbasic h options⟩
  · exact (isHygienic_repository_iff hmodel hbasic h hnodup).trans (not_congr hdata)
  · exact (isHygienic_service_iff hmodel hbasic h hnodup).trans (not_congr hupdateDto)
  · exact (isHygienic_controller_iff hmodel hbasic h hnodup).trans (not_congr hupdateDto)

end Declared

/-- A schema of a model that is told apart by its `data` among others. -/
def samplingSchema : String :=
  "model Sampling \x7b\n  at Int\n  data Int\n  @@id([at, data])\n\x7d\n"

/-- The model of `samplingSchema`. -/
def sampling : Model where
  name := "Sampling"
  fields :=
    [⟨"at", "Int", false, false, false, false, false, none, 2⟩,
      ⟨"data", "Int", false, false, false, false, false, none, 3⟩]
  compositeId := some ⟨["at", "data"], none, List.cons_ne_nil _ _⟩

theorem sampling_mem_models : sampling ∈ (Document.ofSource samplingSchema).models := by
  have hmodels : (Document.ofSource samplingSchema).models = [sampling] := by decide
  simp [hmodels]

theorem hygienic_iff_sampling :
    ¬ IsHygienic (file {} sampling .repository).content ∧
      IsHygienic (file {} sampling .service).content ∧
      IsHygienic (file {} sampling .controller).content := by
  obtain ⟨hrepository, hservice, hcontroller, -⟩ :=
    hygienic_iff sampling_mem_models rfl (by decide) (by decide) {}
  refine ⟨fun h => ?_, ?_, ?_⟩
  · exact absurd (hrepository.mp h) (by decide)
  · exact hservice.mpr (by decide)
  · exact hcontroller.mpr (by decide)

/-- A repository whose identity has a field `data` takes two parameters of that name. -/
theorem not_forall_hygienic :
    ¬ ∀ (source : String) (model : Model), model ∈ (Document.ofSource source).models →
      model.capability = .basic → model.compositeFields.Nodup →
      (∀ name ∈ model.compositeFields, model.declares name = true) → ∀ options : Options,
        IsHygienic (file options model .repository).content ∧
          IsHygienic (file options model .service).content ∧
          IsHygienic (file options model .controller).content := by
  intro h
  have hmodel := Schema.isWellRead_of_mem_models sampling_mem_models
  have hrepository := (h samplingSchema sampling sampling_mem_models rfl (by decide) (by decide) {}).1
  rw [isHygienic_repository_iff hmodel rfl (by decide) (by decide)] at hrepository
  exact hrepository (by decide)

end Scaffold.Artifact
