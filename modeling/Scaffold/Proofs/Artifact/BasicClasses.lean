import Scaffold.Proofs.Artifact.Emitted
import Scaffold.Proofs.Artifact.MethodView

/-!
The three classes of a basic model can be read back (`isBasic_repository`, `isBasic_service`,
`isBasic_controller`): each is an injection and methods, if the names of its identity are words.
-/

namespace Scaffold.Artifact

open Text
open Schema (Model)

/-! ### The identity of a model -/

/-- The names that tell the entities of a model apart. -/
def keyFields (model : Model) : List String :=
  match model.compositeId with
  | none => ["id"]
  | some composite => composite.fields

/-- The name of the method that looks up an entity. -/
def lookupMethod (model : Model) : String :=
  match model.compositeId with
  | none => "findById"
  | some _ => "findByCompositeId"

/-- The parameters that single out an entity are named after the fields that tell entities apart. -/
theorem identityNames_eq (model : Model) : identityNames model.identity = keyFields model := by
  unfold Model.identity keyFields
  cases model.compositeId with
  | none => rfl
  | some composite => rfl

/-- What the repository calls its look-up depends only on whether the identity is composite. -/
theorem finder_eq (model : Model) : finder model.identity = lookupMethod model := by
  unfold Model.identity lookupMethod
  cases model.compositeId with
  | none => rfl
  | some composite => rfl

/-- There is always something to look an entity up by: the parser accepts no empty list. -/
theorem keyFields_ne_nil (model : Model) : keyFields model ≠ [] := by
  unfold keyFields
  cases model.compositeId with
  | none => simp
  | some composite => exact composite.fields_ne_nil

theorem isWord_lookupMethod (model : Model) : isWord (lookupMethod model).toList = true := by
  unfold lookupMethod
  cases model.compositeId with
  | none => exact (by decide : isWord "findById".toList = true)
  | some composite => exact (by decide : isWord "findByCompositeId".toList = true)

theorem isWord_finder (model : Model) : isWord (finder model.identity).toList = true := by
  rw [finder_eq]
  exact isWord_lookupMethod model

/-- Without a composite identity an entity is looked up by `id`, so only listed fields are asked to
be words. The parser does not check those: `@@id([a-b])` lists a field that is none. -/
theorem isWord_keyFields {model : Model}
    (h : ∀ name ∈ model.compositeFields, isWord name.toList = true) :
    ∀ name ∈ keyFields model, isWord name.toList = true := by
  unfold Model.compositeFields at h
  unfold keyFields
  cases hcomposite : model.compositeId with
  | none => decide
  | some composite =>
    rw [hcomposite] at h
    exact h

/-! ### Methods that can be read back -/

section Readable

variable {model : Model}

/-- The type of these parameters is fixed and they have no decorators: their names decide. -/
theorem isReadable_identityParameters (h : ∀ name ∈ keyFields model, isWord name.toList = true) :
    ∀ parameter ∈ identityParameters model.identity, parameter.IsReadable := by
  unfold identityParameters
  rw [identityNames_eq]
  intro parameter hparameter
  obtain ⟨name, hname, rfl⟩ := List.mem_map.mp hparameter
  exact ⟨by simp, h name hname, (by decide : isWord identityType.toList = true)⟩

/-- The decorator of a route parameter quotes the name, so its closing bracket is found again only
when the name has none. -/
theorem isReadable_routeParameters (h : ∀ name ∈ keyFields model, isWord name.toList = true) :
    ∀ parameter ∈ routeParameters model.identity, parameter.IsReadable := by
  unfold routeParameters
  rw [identityNames_eq]
  intro parameter hparameter
  obtain ⟨name, hname, rfl⟩ := List.mem_map.mp hparameter
  have hdecoration : IsDecoration ("@Param(" ++ quoted name ++ ", ParseIntPipe)") := by
    have hopen : '(' ∉ name.toList := not_mem_of_isWord (h name hname) (by decide)
    have hclose : ')' ∉ name.toList := not_mem_of_isWord (h name hname) (by decide)
    refine ⟨"Param".toList, (quoted name ++ ", ParseIntPipe").toList, by simp, by decide, ?_, ?_⟩
    · simp [quoted, hopen]
    · simp [quoted, hclose]
  exact ⟨by simpa using hdecoration, h name hname, (by decide : isWord identityType.toList = true)⟩

theorem isReadable_bodyParameter {name type : String} (hname : isWord name.toList = true)
    (htype : isWord type.toList = true) : (bodyParameter name type).IsReadable := by
  have hdecoration : IsDecoration "@Body()" :=
    ⟨"Body".toList, [], by simp, by decide, by simp, by simp⟩
  exact ⟨by simpa [bodyParameter] using hdecoration, hname, htype⟩

/-- Each method of a repository makes one call on the client of its model, and the reader finds
where the call begins by its bracket: no part before it may have one. -/
theorem isReadable_repositoryMethods (hmodel : model.IsWellRead)
    (h : ∀ name ∈ keyFields model, isWord name.toList = true) :
    ∀ method ∈ repositoryMethods model, method.IsReadable := by
  have hresult : ')' ∉ model.name.toList := not_mem_of_isWord hmodel.name (by decide)
  have hclient : '(' ∉ ("this.prisma." ++ (Symbols.ofName model.name).accessor).toList := by
    have : '(' ∉ (Symbols.ofName model.name).accessor.toList :=
      not_mem_of_isWord (Symbols.areWords_ofName hmodel.name).accessor (by decide)
    simp [this]
  have hparameters := isReadable_identityParameters h
  have hdata : Parameter.IsReadable { name := "data", type := "any" } :=
    ⟨by simp, (by decide : isWord "data".toList = true), (by decide : isWord "any".toList = true)⟩
  have hfinder := isWord_finder model
  simp only [repositoryMethods, List.forall_mem_cons]
  refine ⟨?_, ?_, ?_, ?_, ?_, List.forall_mem_nil _⟩
  · exact ⟨by simp, (by decide : isWord "findAll".toList = true), by simp, by simp [hresult],
      hclient, (by decide : '(' ∉ "findMany".toList)⟩
  · exact ⟨by simp, hfinder, hparameters, by simp [hresult], hclient,
      (by decide : '(' ∉ "findUnique".toList)⟩
  · exact ⟨by simp, (by decide : isWord "create".toList = true), by simpa using hdata, hresult,
      hclient, (by decide : '(' ∉ "create".toList)⟩
  · exact ⟨by simp, (by decide : isWord "update".toList = true), forall_mem_concat hparameters hdata,
      hresult, hclient, (by decide : '(' ∉ "update".toList)⟩
  · exact ⟨by simp, (by decide : isWord "delete".toList = true), hparameters, hresult, hclient,
      (by decide : '(' ∉ "delete".toList)⟩

/-- A service has the methods of its repository, with data transfer objects where that takes any
data. -/
theorem isReadable_serviceMethods (hmodel : model.IsWellRead)
    (h : ∀ name ∈ keyFields model, isWord name.toList = true) :
    ∀ method ∈ serviceMethods model, method.IsReadable := by
  have hwords := Symbols.areWords_ofName hmodel.name
  have hresult : ')' ∉ model.name.toList := not_mem_of_isWord hmodel.name (by decide)
  have hrepository : '(' ∉ ("this." ++ (Symbols.ofName model.name).repositoryProperty).toList := by
    have : '(' ∉ (Symbols.ofName model.name).accessor.toList :=
      not_mem_of_isWord hwords.accessor (by decide)
    simp [Symbols.repositoryProperty, this]
  have hparameters := isReadable_identityParameters h
  have hcreate : Parameter.IsReadable
      { name := "createDto", type := (Symbols.ofName model.name).createDto } :=
    ⟨by simp, (by decide : isWord "createDto".toList = true), hwords.isWord_className .createDto⟩
  have hupdate : Parameter.IsReadable
      { name := "updateDto", type := (Symbols.ofName model.name).updateDto } :=
    ⟨by simp, (by decide : isWord "updateDto".toList = true), hwords.isWord_className .updateDto⟩
  have hfinder := isWord_finder model
  have hcallee : '(' ∉ (finder model.identity).toList := not_mem_of_isWord hfinder (by decide)
  simp only [serviceMethods, List.forall_mem_cons]
  refine ⟨?_, ?_, ?_, ?_, ?_, List.forall_mem_nil _⟩
  · exact ⟨by simp, (by decide : isWord "findAll".toList = true), by simp, by simp [hresult],
      hrepository, (by decide : '(' ∉ "findAll".toList)⟩
  · exact ⟨by simp, hfinder, hparameters, by simp [hresult], hrepository, hcallee⟩
  · exact ⟨by simp, (by decide : isWord "create".toList = true), by simpa using hcreate, hresult,
      hrepository, (by decide : '(' ∉ "create".toList)⟩
  · exact ⟨by simp, (by decide : isWord "update".toList = true),
      forall_mem_concat hparameters hupdate, hresult, hrepository,
      (by decide : '(' ∉ "update".toList)⟩
  · exact ⟨by simp, (by decide : isWord "delete".toList = true), hparameters, hresult, hrepository,
      (by decide : '(' ∉ "delete".toList)⟩

/-- What a decorator of a method is to be read: it begins with its mark, and is trimmed. -/
theorem isDecorator_of_ends {text : String} {middle : List Char}
    (h : text.toList = '@' :: middle ++ [')']) :
    text.toList.head? = some '@' ∧ IsTrimmed text.toList := by
  rw [h]
  exact ⟨rfl, isTrimmed_of_ends (by decide) (by decide)⟩

/-- Texts shown in the documentation are quoted inside the call, so they may hold anything; it is
the verb alone that has to be a decorator. -/
theorem isDecorator_endpointDecorators {verb summary description : String} {status : Nat}
    (hverb : verb.toList.head? = some '@' ∧ IsTrimmed verb.toList) :
    ∀ decorator ∈ endpointDecorators verb summary status description,
      decorator.toList.head? = some '@' ∧ IsTrimmed decorator.toList := by
  simp only [endpointDecorators, List.forall_mem_cons]
  refine ⟨hverb, ?_, ?_, List.forall_mem_nil _⟩
  · refine @isDecorator_of_ends _
      ("ApiOperation(" ++ braced ("summary: " ++ quoted summary)).toList ?_
    simp
  · refine @isDecorator_of_ends _ ("ApiResponse(" ++ braced ("status: " ++ toString status ++
      ", description: " ++ quoted description)).toList ?_
    simp

/-- An endpoint is read back with its route, as a method under decorators. -/
theorem isReadable_endpoints (hmodel : model.IsWellRead)
    (h : ∀ name ∈ keyFields model, isWord name.toList = true) :
    ∀ method ∈ endpoints model, method.IsReadable := by
  have hwords := Symbols.areWords_ofName hmodel.name
  have hresult : ')' ∉ model.name.toList := not_mem_of_isWord hmodel.name (by decide)
  have hservice : '(' ∉ ("this." ++ (Symbols.ofName model.name).serviceProperty).toList := by
    have : '(' ∉ (Symbols.ofName model.name).accessor.toList :=
      not_mem_of_isWord hwords.accessor (by decide)
    simp [Symbols.serviceProperty, this]
  have hparameters := isReadable_routeParameters h
  have hcreate : (bodyParameter "createDto" (Symbols.ofName model.name).createDto).IsReadable :=
    isReadable_bodyParameter (by decide) (hwords.isWord_className .createDto)
  have hupdate : (bodyParameter "updateDto" (Symbols.ofName model.name).updateDto).IsReadable :=
    isReadable_bodyParameter (by decide) (hwords.isWord_className .updateDto)
  have hfinder := isWord_finder model
  have hcallee : '(' ∉ (finder model.identity).toList := not_mem_of_isWord hfinder (by decide)
  have hroute : ∀ verb rest : String, verb.toList = '@' :: rest.toList →
      (verb ++ ("(" ++ quoted (route model.identity) ++ ")")).toList.head? = some '@' ∧
        IsTrimmed (verb ++ ("(" ++ quoted (route model.identity) ++ ")")).toList := by
    intro verb rest hverb
    refine @isDecorator_of_ends _ (rest ++ "(" ++ quoted (route model.identity)).toList ?_
    simp [hverb]
  simp only [endpoints, List.forall_mem_cons]
  refine ⟨?_, ?_, ?_, ?_, ?_, List.forall_mem_nil _⟩
  · exact ⟨isDecorator_endpointDecorators (@isDecorator_of_ends _ "Post(".toList (by simp)),
      (by decide : isWord "create".toList = true), by simpa using hcreate, hresult, hservice,
      (by decide : '(' ∉ "create".toList)⟩
  · exact ⟨isDecorator_endpointDecorators (@isDecorator_of_ends _ "Get(".toList (by simp)),
      (by decide : isWord "findAll".toList = true), by simp, by simp [hresult], hservice,
      (by decide : '(' ∉ "findAll".toList)⟩
  · exact ⟨isDecorator_endpointDecorators (hroute "@Get" "Get" (by simp)),
      (by decide : isWord "findOne".toList = true), hparameters, by simp [hresult], hservice,
      hcallee⟩
  · exact ⟨isDecorator_endpointDecorators (hroute "@Patch" "Patch" (by simp)),
      (by decide : isWord "update".toList = true), forall_mem_concat hparameters hupdate, hresult,
      hservice, (by decide : '(' ∉ "update".toList)⟩
  · exact ⟨isDecorator_endpointDecorators (hroute "@Delete" "Delete" (by simp)),
      (by decide : isWord "remove".toList = true), hparameters, hresult, hservice,
      (by decide : '(' ∉ "delete".toList)⟩

end Readable

/-! ### The classes of a basic model -/

section Basic

variable {options : Options} {model : Model}

/-- Nothing is asked of the options, which change the imports of a basic class and not its
members. -/
theorem isBasic_repository (hmodel : model.IsWellRead) (hbasic : model.capability = .basic)
    (h : ∀ name ∈ keyFields model, isWord name.toList = true) :
    (repository options model).IsBasic
      { toBase := false, name := "prisma", type := "DatabaseService" } (repositoryMethods model) where
  toHasPlainClass := @classFile_hasPlainClass options model hmodel .repository
  members_eq := by simp [repository, hbasic]
  toBase := rfl
  injected := (by decide : isWord "prisma".toList = true)
  type := (by decide : isWord "DatabaseService".toList = true)
  methods := isReadable_repositoryMethods hmodel h

/-- The service holds the repository under the accessor of the model, a word as the name of the
model is one. -/
theorem isBasic_service (hmodel : model.IsWellRead) (hbasic : model.capability = .basic)
    (h : ∀ name ∈ keyFields model, isWord name.toList = true) :
    (service options model).IsBasic
      { toBase := false
        name := (Symbols.ofName model.name).repositoryProperty
        type := (Symbols.ofName model.name).repository } (serviceMethods model) where
  toHasPlainClass := @classFile_hasPlainClass options model hmodel .service
  members_eq := by simp [service, hbasic]
  toBase := rfl
  injected := by
    rw [Symbols.repositoryProperty, String.toList_append]
    exact isWord_append (Symbols.areWords_ofName hmodel.name).accessor (by decide)
  type := (Symbols.areWords_ofName hmodel.name).isWord_className .repository
  methods := isReadable_serviceMethods hmodel h

/-- The controller holds the service, and the layers above it are reached by routes. -/
theorem isBasic_controller (hmodel : model.IsWellRead) (hbasic : model.capability = .basic)
    (h : ∀ name ∈ keyFields model, isWord name.toList = true) :
    (controller options model).IsBasic
      { toBase := false
        name := (Symbols.ofName model.name).serviceProperty
        type := (Symbols.ofName model.name).service } (endpoints model) where
  toHasPlainClass := @classFile_hasPlainClass options model hmodel .controller
  members_eq := by simp [controller, hbasic]
  toBase := rfl
  injected := by
    rw [Symbols.serviceProperty, String.toList_append]
    exact isWord_append (Symbols.areWords_ofName hmodel.name).accessor (by decide)
  type := (Symbols.areWords_ofName hmodel.name).isWord_className .service
  methods := isReadable_endpoints hmodel h

/-! The methods of the three files are read back from their text. -/

theorem methodsOf_repository (hmodel : model.IsWellRead) (hbasic : model.capability = .basic)
    (h : ∀ name ∈ keyFields model, isWord name.toList = true) :
    methodsOf (file options model .repository).content = (repositoryMethods model).map Method.view :=
  methodsOf_render (isBasic_repository hmodel hbasic h) options.indent

theorem methodsOf_service (hmodel : model.IsWellRead) (hbasic : model.capability = .basic)
    (h : ∀ name ∈ keyFields model, isWord name.toList = true) :
    methodsOf (file options model .service).content = (serviceMethods model).map Method.view :=
  methodsOf_render (isBasic_service hmodel hbasic h) options.indent

theorem methodsOf_controller (hmodel : model.IsWellRead) (hbasic : model.capability = .basic)
    (h : ∀ name ∈ keyFields model, isWord name.toList = true) :
    methodsOf (file options model .controller).content = (endpoints model).map Method.view :=
  methodsOf_render (isBasic_controller hmodel hbasic h) options.indent

end Basic

end Scaffold.Artifact
