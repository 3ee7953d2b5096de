import Scaffold.Proofs.Artifact.BasicClasses
import Scaffold.Proofs.Artifact.Identity

/-!
The layers of a basic model agree (`layers_agree`), whatever its identity and the options are.
What the controller calls, the service declares, and what the service calls, the repository
declares, with as many parameters and with the identity in the same order; and wherever a method
speaks of an identity, it names the same fields in the same order.
-/

namespace Scaffold.Artifact

open Text
open Schema (Document Model)

/-! ### Calls -/

/-- Arguments for some parameters: as many, and each numeric parameter gets what it is named for. -/
structure Fits (parameters : List Parameter) (arguments : List String) : Prop where
  length_eq : arguments.length = parameters.length
  order : ∀ pair ∈ parameters.zip arguments, pair.1.type = identityType → pair.2 = pair.1.name

theorem Fits.nil : Fits [] [] :=
  ⟨rfl, List.forall_mem_nil _⟩

/-- Arguments are matched with parameters from the left, so parts that fit do so side by side. -/
theorem Fits.append {first second : List Parameter} {arguments more : List String}
    (hfirst : Fits first arguments) (hsecond : Fits second more) :
    Fits (first ++ second) (arguments ++ more) := by
  constructor
  · rw [List.length_append, List.length_append, hfirst.length_eq, hsecond.length_eq]
  · rw [List.zip_append hfirst.length_eq.symm]
    intro pair hpair
    rcases List.mem_append.mp hpair with hpair | hpair
    · exact hfirst.order pair hpair
    · exact hsecond.order pair hpair

/-- What is no part of an identity may have another name on either side of a call. -/
theorem Fits.payload {parameter : Parameter} (h : parameter.type ≠ identityType) (argument : String) :
    Fits [parameter] [argument] := by
  constructor
  · rfl
  · intro pair hpair htype
    obtain rfl := List.mem_singleton.mp hpair
    exact absurd htype h

/-- The identity is handed on under the names that it is taken by. -/
theorem fits_identityParameters (identity : Schema.Identity) :
    Fits (identityParameters identity) (identityArguments identity) := by
  unfold identityParameters identityArguments
  constructor
  · simp
  · intro pair hpair _
    generalize identityNames identity = names at hpair
    induction names with
    | nil => cases hpair
    | cons name rest ih =>
      rcases List.mem_cons.mp hpair with rfl | hpair
      · rfl
      · exact ih hpair

/-- The method of which a method returns the result. -/
def MethodView.called (view : MethodView) : Option String :=
  (cutAtLast? '.' view.callee.toList).map fun (_, name) => String.ofList name

/-- A method that calls another one of an injected property. -/
structure MethodView.CallsThrough (caller : MethodView) (property : String) (declared : MethodView) :
    Prop where
  callee : caller.callee = "this." ++ property ++ "." ++ declared.name
  arguments : Fits declared.parameters (namesIn caller.arguments.toList)

/-- A class all of whose methods call a method of the class that it is injected. -/
def CallsInto (caller callee : String) : Prop :=
  ∃ property type, injected? caller = some (property, type) ∧ declaredClass? callee = some type ∧
    ∀ view ∈ methodsOf caller, ∃ declared ∈ methodsOf callee, view.CallsThrough property declared

/-- Arguments that are words are told apart in the text of a call. -/
theorem namesIn_view {method : Method}
    (h : ∀ argument ∈ method.body.arguments, isWord argument.toList = true) :
    namesIn method.view.arguments.toList = method.body.arguments := by
  have hblank : IsBlankText [] := by simp [IsBlankText]
  have := namesIn_commaSeparated h hblank hblank
  rwa [List.nil_append, List.append_nil] at this

/-- A call is found again in the text of its method if its arguments are words; that it fits the
method called is seen before there is any text. -/
theorem callsThrough_view {caller declared : Method} {property : String}
    (hreceiver : caller.body.receiver = "this." ++ property)
    (hmethod : caller.body.method = declared.name)
    (harguments : ∀ argument ∈ caller.body.arguments, isWord argument.toList = true)
    (hfits : Fits declared.parameters caller.body.arguments) :
    caller.view.CallsThrough property declared.view := by
  constructor
  · simp [Method.view, hreceiver, hmethod]
  · rw [namesIn_view harguments]
    exact hfits

/-- The method called is named behind the last dot, past what it is called on. -/
theorem called_view {method : Method} (h : isWord method.body.method.toList = true) :
    method.view.called = some method.body.method := by
  have hdot : '.' ∉ method.body.method.toList := not_mem_of_isWord h (by decide)
  have htext : method.view.callee.toList =
      method.body.receiver.toList ++ '.' :: method.body.method.toList := by
    simp [Method.view]
  rw [MethodView.called, htext, cutAtLast?_append hdot]
  simp

/-! ### Agreement -/

/-- The methods that a basic class offers to the layer above. -/
def offered (model : Model) : List String :=
  ["findAll", lookupMethod model, "create", "update", "delete"]

/-- Those of them that are about one entity. -/
def keyed (model : Model) : List String :=
  [lookupMethod model, "update", "delete"]

/-- The arguments with which a method passes on its numeric parameters, which come first. -/
def MethodView.forwarded (view : MethodView) : List String :=
  (namesIn view.arguments.toList).take (numericNames view.parameters).length

/-- What the texts of three layers have in common. A method about one entity names its key fields
in every place where it speaks of the entity, and other methods have no such place. -/
structure LayersAgree (model : Model) (repository service controller : String) : Prop where
  service_calls : CallsInto service repository
  controller_calls : CallsInto controller service
  repository_methods : (methodsOf repository).map MethodView.name = offered model
  service_methods : (methodsOf service).map MethodView.name = offered model
  service_called : (methodsOf service).map MethodView.called = (offered model).map some
  controller_called : (methodsOf controller).map MethodView.called =
    ["create", "findAll", lookupMethod model, "update", "delete"].map some
  repository_keys : ∀ view ∈ methodsOf repository,
    (view.name ∈ keyed model ∧ numericNames view.parameters = keyFields model ∧
      whereNames? view.arguments = some (keyFields model)) ∨
    (view.name ∉ keyed model ∧ numericNames view.parameters = [] ∧
      whereNames? view.arguments = none)
  service_keys : ∀ view ∈ methodsOf service,
    (view.name ∈ keyed model ∧ numericNames view.parameters = keyFields model ∧
      view.forwarded = keyFields model) ∨
    (view.name ∉ keyed model ∧ numericNames view.parameters = [])
  controller_keys : ∀ view ∈ methodsOf controller,
    (view.called ∈ (keyed model).map some ∧ numericNames view.parameters = keyFields model ∧
      view.forwarded = keyFields model ∧ paramNames view.parameters = keyFields model ∧
      routeNames? view.decorators = some (keyFields model)) ∨
    (view.called ∉ (keyed model).map some ∧ numericNames view.parameters = [] ∧
      paramNames view.parameters = [] ∧ routeNames? view.decorators = none)

section Keys

variable {model : Model}

/-- The look-up has one of two names, so a method of another name than these and the two others that
are about one entity is not among them. -/
theorem not_mem_keyed {name : String} (h : name ∉ ["findById", "findByCompositeId", "update", "delete"]) :
    name ∉ keyed model := by
  unfold keyed lookupMethod
  simp only [List.mem_cons, List.not_mem_nil, or_false, not_or] at h ⊢
  obtain ⟨hsingle, hcomposite, hupdate, hdelete⟩ := h
  cases model.compositeId with
  | none => exact ⟨hsingle, hupdate, hdelete⟩
  | some composite => exact ⟨hcomposite, hupdate, hdelete⟩

theorem exists_toList_whereClause (model : Model) : ∃ front behind : List Char, '\x7b' ∉ behind ∧
    (whereClause model.identity).toList = front ++ '\x7b' ::
      ([' '] ++ (commaSeparated (keyFields model)).toList ++ [' '] ++ '\x7d' :: behind) := by
  unfold Model.identity keyFields
  cases model.compositeId with
  | none => exact ⟨[], [], by simp, by decide⟩
  | some composite =>
    refine ⟨("\x7b " ++ lookupKey composite.fields composite.key ++ ": ").toList, " \x7d".toList,
      by decide, ?_⟩
    simp [whereClause, braced]

/-- A condition names the key fields in its innermost braces, even if they stand in those of a
lookup key, and with or without data behind them. -/
theorem whereNames?_condition (h : ∀ name ∈ keyFields model, isWord name.toList = true)
    {behind : String} (hbehind : '\x7b' ∉ behind.toList) :
    whereNames? (commaSeparated [braced ("where: " ++ whereClause model.identity ++ behind)]) =
      some (keyFields model) := by
  obtain ⟨front, tail, htail, hclause⟩ := exists_toList_whereClause model
  refine @whereNames?_of_toList _ h _ front (tail ++ behind.toList ++ " \x7d".toList) ?_ ?_
  · simp [htail, hbehind]
  · rw [toList_commaSeparated]
    simp [braced, hclause]

/-! The key fields are what each form of the identity reads back as. -/

theorem numericNames_identity (model : Model) :
    numericNames (identityParameters model.identity) = keyFields model := by
  rw [numericNames_identityParameters, identityNames_eq]

theorem numericNames_route (model : Model) :
    numericNames (routeParameters model.identity) = keyFields model := by
  rw [numericNames_routeParameters, identityNames_eq]

theorem identityArguments_eq (model : Model) : identityArguments model.identity = keyFields model :=
  identityNames_eq model

theorem isWord_identityArguments (h : ∀ name ∈ keyFields model, isWord name.toList = true) :
    ∀ argument ∈ identityArguments model.identity, isWord argument.toList = true := by
  rwa [identityArguments_eq]

/-- No class of the module is called `number`. -/
theorem className_ne_identityType (hmodel : model.IsWellRead) (kind : Kind) :
    (Symbols.ofName model.name).className kind ≠ identityType := by
  intro heq
  have hlong := (Symbols.areWords_ofName hmodel.name).length_className kind
  rw [heq] at hlong
  exact absurd hlong (by decide)

/-- A parameter that is handed a class of the module besides the identity is not numeric. -/
theorem numericNames_concat (hmodel : model.IsWellRead) (kind : Kind) {parameters : List Parameter}
    (hparameters : numericNames parameters = keyFields model) (decorator : Option String)
    (name : String) :
    numericNames (parameters ++ [⟨decorator, name, (Symbols.ofName model.name).className kind⟩]) =
      keyFields model := by
  rw [numericNames_append, hparameters,
    numericNames_singleton (className_ne_identityType hmodel kind), List.append_nil]

/-- In a repository the identity is taken as numbers and asked for in a condition. Data stand
besides it in two methods and are no part of it in either. -/
theorem repository_keys (h : ∀ name ∈ keyFields model, isWord name.toList = true) :
    ∀ method ∈ repositoryMethods model,
      (method.name ∈ keyed model ∧ numericNames method.parameters = keyFields model ∧
        whereNames? method.view.arguments = some (keyFields model)) ∨
      (method.name ∉ keyed model ∧ numericNames method.parameters = [] ∧
        whereNames? method.view.arguments = none) := by
  have hparameters := numericNames_identity model
  have hdata : numericNames [{ name := "data", type := "any" }] = [] :=
    numericNames_singleton (by decide)
  have hquery : whereNames? (commaSeparated [braced ("where: " ++ whereClause model.identity)]) =
      some (keyFields model) := by
    have := @whereNames?_condition model h "" (by decide)
    rwa [String.append_empty] at this
  have hupdate : whereNames? (commaSeparated
      [braced ("where: " ++ whereClause model.identity ++ ", data")]) = some (keyFields model) :=
    whereNames?_condition h (by decide)
  simp only [repositoryMethods, List.forall_mem_cons]
  refine ⟨Or.inr ?_, Or.inl ?_, Or.inr ?_, Or.inl ?_, Or.inl ?_, List.forall_mem_nil _⟩
  · exact ⟨not_mem_keyed (by decide), rfl, (by decide : whereNames? (commaSeparated []) = none)⟩
  · exact ⟨by simp [finder_eq, keyed], hparameters, hquery⟩
  · exact ⟨not_mem_keyed (by decide), hdata,
      (by decide : whereNames? (commaSeparated [braced "data"]) = none)⟩
  · refine ⟨by simp [keyed], ?_, hupdate⟩
    rw [numericNames_append, hparameters, hdata, List.append_nil]
  · exact ⟨by simp [keyed], hparameters, hquery⟩

/-- A method whose numeric parameters are its first arguments forwards them. -/
theorem forwarded_view {method : Method} {names : List String} (rest : List String)
    (hparameters : numericNames method.parameters = names)
    (hwords : ∀ argument ∈ method.body.arguments, isWord argument.toList = true)
    (harguments : method.body.arguments = names ++ rest) : method.view.forwarded = names := by
  rw [MethodView.forwarded, namesIn_view hwords, harguments, Method.view_parameters, hparameters]
  exact List.take_left

/-- A service takes the identity as the repository does, and hands it on first. -/
theorem service_keys (hmodel : model.IsWellRead)
    (h : ∀ name ∈ keyFields model, isWord name.toList = true) :
    ∀ method ∈ serviceMethods model,
      (method.name ∈ keyed model ∧ numericNames method.parameters = keyFields model ∧
        method.view.forwarded = keyFields model) ∨
      (method.name ∉ keyed model ∧ numericNames method.parameters = []) := by
  have hparameters := numericNames_identity model
  have hupdate := numericNames_concat hmodel .updateDto hparameters none "updateDto"
  have harguments := identityArguments_eq model
  have hwords := isWord_identityArguments h
  simp only [serviceMethods, List.forall_mem_cons]
  refine ⟨Or.inr ?_, Or.inl ?_, Or.inr ?_, Or.inl ?_, Or.inl ?_, List.forall_mem_nil _⟩
  · exact ⟨not_mem_keyed (by decide), rfl⟩
  · exact ⟨by simp [finder_eq, keyed], hparameters,
      forwarded_view [] hparameters hwords (by simp [harguments])⟩
  · exact ⟨not_mem_keyed (by decide),
      numericNames_singleton (className_ne_identityType hmodel .createDto)⟩
  · exact ⟨by simp [keyed], hupdate, forwarded_view ["updateDto"] hupdate
      (forall_mem_concat hwords (by decide)) (by simp [harguments])⟩
  · exact ⟨by simp [keyed], hparameters,
      forwarded_view [] hparameters hwords (by simp [harguments])⟩

/-- The documentation of an endpoint holds no route. -/
theorem findSome?_endpointDecorators (verb summary : String) (status : Nat) (description : String) :
    (endpointDecorators verb summary status description).findSome? quotedArgument? =
      quotedArgument? verb := by
  have hoperation : quotedArgument?
      ("@ApiOperation(" ++ braced ("summary: " ++ quoted summary) ++ ")") = none :=
    @quotedArgument?_eq_none "@ApiOperation".toList
      (braced ("summary: " ++ quoted summary) ++ ")").toList (by decide) _ (by simp) (by simp [braced])
  have hresponse : quotedArgument? ("@ApiResponse(" ++ braced ("status: " ++ toString status ++
      ", description: " ++ quoted description) ++ ")") = none :=
    @quotedArgument?_eq_none "@ApiResponse".toList (braced ("status: " ++ toString status ++
      ", description: " ++ quoted description) ++ ")").toList (by decide) _ (by simp) (by simp [braced])
  rw [endpointDecorators, List.findSome?_cons, List.findSome?_cons, hoperation, List.findSome?_cons,
    hresponse]
  cases quotedArgument? verb with
  | none => rfl
  | some argument => rfl

/-- Route and verb share a decorator, from which the segments of the route are read. -/
theorem routeNames?_endpointDecorators (h : ∀ name ∈ keyFields model, isWord name.toList = true)
    {verb : String} (hverb : '(' ∉ verb.toList) (summary : String) (status : Nat)
    (description : String) :
    routeNames? (endpointDecorators (verb ++ ("(" ++ quoted (route model.identity) ++ ")")) summary
      status description) = some (keyFields model) := by
  have hroute : route model.identity = "/".intercalate ((keyFields model).map fun name => ":" ++ name) := by
    rw [route, identityNames_eq]
  have hquote : '\'' ∉ (route model.identity).toList := by
    rw [hroute]
    refine not_mem_intercalate (by decide) (List.forall_mem_map.mpr fun name hname => ?_)
    have : '\'' ∉ name.toList := not_mem_of_isWord (h name hname) (by decide)
    simp [this]
  have hargument : quotedArgument? (verb ++ ("(" ++ quoted (route model.identity) ++ ")")) =
      some (route model.identity) := by
    rw [@quotedArgument?_quoted _ _ [')'] hverb hquote _ (by simp [quoted]), String.ofList_toList]
  refine routeNames?_of_findSome? (keyFields_ne_nil model) h ?_
  rw [findSome?_endpointDecorators, hargument, hroute]

theorem routeNames?_eq_none {verb : String} (hverb : quotedArgument? verb = none) (summary : String)
    (status : Nat) (description : String) :
    routeNames? (endpointDecorators verb summary status description) = none := by
  rw [routeNames?, findSome?_endpointDecorators, hverb]
  rfl

/-- A controller names the identity once more, in the segments of the route that it is taken
from. -/
theorem controller_keys (hmodel : model.IsWellRead)
    (h : ∀ name ∈ keyFields model, isWord name.toList = true) :
    ∀ method ∈ endpoints model,
      (method.body.method ∈ keyed model ∧ numericNames method.parameters = keyFields model ∧
        method.view.forwarded = keyFields model ∧ paramNames method.parameters = keyFields model ∧
        routeNames? method.decorators = some (keyFields model)) ∨
      (method.body.method ∉ keyed model ∧ numericNames method.parameters = [] ∧
        paramNames method.parameters = [] ∧ routeNames? method.decorators = none) := by
  have hparameters := numericNames_route model
  have hupdate := numericNames_concat hmodel .updateDto hparameters (some "@Body()") "updateDto"
  have hparams : paramNames (routeParameters model.identity) = keyFields model := by
    rw [paramNames_routeParameters, identityNames_eq]
    rwa [identityNames_eq]
  have harguments := identityArguments_eq model
  have hwords := isWord_identityArguments h
  simp only [endpoints, List.forall_mem_cons]
  refine ⟨Or.inr ?_, Or.inr ?_, Or.inl ?_, Or.inl ?_, Or.inl ?_, List.forall_mem_nil _⟩
  · exact ⟨not_mem_keyed (by decide),
      numericNames_singleton (className_ne_identityType hmodel .createDto),
      paramNames_bodyParameter _ _, routeNames?_eq_none (by decide) _ _ _⟩
  · exact ⟨not_mem_keyed (by decide), rfl, rfl, routeNames?_eq_none (by decide) _ _ _⟩
  · exact ⟨by simp [finder_eq, keyed], hparameters,
      forwarded_view [] hparameters hwords (by simp [harguments]), hparams,
      routeNames?_endpointDecorators h (by decide) _ _ _⟩
  · refine ⟨by simp [keyed], hupdate, forwarded_view ["updateDto"] hupdate
      (forall_mem_concat hwords (by decide)) (by simp [harguments]), ?_,
      routeNames?_endpointDecorators h (by decide) _ _ _⟩
    rw [paramNames_append, hparams, paramNames_bodyParameter, List.append_nil]
  · exact ⟨by simp [keyed], hparameters,
      forwarded_view [] hparameters hwords (by simp [harguments]), hparams,
      routeNames?_endpointDecorators h (by decide) _ _ _⟩

end Keys

section Calls

variable {options : Options} {model : Model}

/-- Each method of the service calls the method of the repository that has its name. -/
theorem service_callsThrough
    (h : ∀ name ∈ keyFields model, isWord name.toList = true) {declared : List Method}
    (hdeclared : ∀ method ∈ repositoryMethods model, method ∈ declared) :
    ∀ method ∈ serviceMethods model, ∃ target ∈ declared,
      method.view.CallsThrough (Symbols.ofName model.name).repositoryProperty target.view := by
  have hidentity := fits_identityParameters model.identity
  have hwords := isWord_identityArguments h
  have hdata : Fits [{ name := "data", type := "any" }] ["createDto"] := .payload (by decide) _
  have hdata' : Fits [{ name := "data", type := "any" }] ["updateDto"] := .payload (by decide) _
  simp only [repositoryMethods, List.forall_mem_cons] at hdeclared
  obtain ⟨hfindAll, hfinder, hcreate, hupdate, hdelete, _⟩ := hdeclared
  simp only [serviceMethods, List.forall_mem_cons]
  refine ⟨?_, ?_, ?_, ?_, ?_, List.forall_mem_nil _⟩
  · exact ⟨_, hfindAll, callsThrough_view rfl rfl (List.forall_mem_nil _) .nil⟩
  · exact ⟨_, hfinder, callsThrough_view rfl rfl hwords hidentity⟩
  · exact ⟨_, hcreate, callsThrough_view rfl rfl
      (by decide : ∀ argument ∈ ["createDto"], isWord argument.toList = true) hdata⟩
  · exact ⟨_, hupdate, callsThrough_view rfl rfl (forall_mem_concat hwords (by decide))
      (hidentity.append hdata')⟩
  · exact ⟨_, hdelete, callsThrough_view rfl rfl hwords hidentity⟩

/-- Each endpoint calls a method of the service. -/
theorem controller_callsThrough (hmodel : model.IsWellRead)
    (h : ∀ name ∈ keyFields model, isWord name.toList = true) {declared : List Method}
    (hdeclared : ∀ method ∈ serviceMethods model, method ∈ declared) :
    ∀ method ∈ endpoints model, ∃ target ∈ declared,
      method.view.CallsThrough (Symbols.ofName model.name).serviceProperty target.view := by
  have hidentity := fits_identityParameters model.identity
  have hwords := isWord_identityArguments h
  have hcreateDto : Fits [{ name := "createDto", type := (Symbols.ofName model.name).createDto }]
      ["createDto"] :=
    .payload (className_ne_identityType hmodel .createDto) _
  have hupdateDto : Fits [{ name := "updateDto", type := (Symbols.ofName model.name).updateDto }]
      ["updateDto"] :=
    .payload (className_ne_identityType hmodel .updateDto) _
  simp only [serviceMethods, List.forall_mem_cons] at hdeclared
  obtain ⟨hfindAll, hfinder, hcreate, hupdate, hdelete, _⟩ := hdeclared
  simp only [endpoints, List.forall_mem_cons]
  refine ⟨?_, ?_, ?_, ?_, ?_, List.forall_mem_nil _⟩
  · exact ⟨_, hcreate, callsThrough_view rfl rfl
      (by decide : ∀ argument ∈ ["createDto"], isWord argument.toList = true) hcreateDto⟩
  · exact ⟨_, hfindAll, callsThrough_view rfl rfl (List.forall_mem_nil _) .nil⟩
  · exact ⟨_, hfinder, callsThrough_view rfl rfl hwords hidentity⟩
  · exact ⟨_, hupdate, callsThrough_view rfl rfl (forall_mem_concat hwords (by decide))
      (hidentity.append hupdateDto)⟩
  · exact ⟨_, hdelete, callsThrough_view rfl rfl hwords hidentity⟩

end Calls

section Layers

variable {source : String} {model : Model}

/-- A basic class calls into another if it is injected that class and its methods call the
other's. -/
theorem callsInto_render {caller callee : ClassFile} {injection other : Injection}
    {methods declared : List Method} (hcaller : caller.IsBasic injection methods)
    (hcallee : callee.IsBasic other declared) (htype : injection.type = callee.name)
    (hcalls : ∀ method ∈ methods, ∃ target ∈ declared,
      method.view.CallsThrough injection.name target.view) (indent : Indent) :
    CallsInto (caller.render indent) (callee.render indent) := by
  refine ⟨injection.name, injection.type, injected?_render hcaller indent, ?_, ?_⟩
  · rw [declaredClass?_render hcallee.toHasPlainClass, htype]
  · rw [methodsOf_render hcaller, methodsOf_render hcallee]
    refine List.forall_mem_map.mpr fun method hmethod => ?_
    obtain ⟨target, htarget, hthrough⟩ := hcalls method hmethod
    exact ⟨target.view, List.mem_map_of_mem htarget, hthrough⟩

/-- Methods call what their bodies say, as far as these are words. -/
theorem map_called {methods : List Method} {names : List String}
    (hwords : ∀ name ∈ names, isWord name.toList = true)
    (h : methods.map (fun method => method.body.method) = names) :
    (methods.map Method.view).map MethodView.called = names.map some := by
  rw [← h, List.map_map, List.map_map]
  refine List.map_congr_left fun method hmethod => ?_
  have hmem : method.body.method ∈ names := h ▸ List.mem_map_of_mem hmethod
  exact called_view (hwords _ hmem)

/-- The layers of a basic model agree on its methods and on the names that make up its identity. -/
theorem layers_agree (hmem : model ∈ (Document.ofSource source).models)
    (hbasic : model.capability = .basic)
    (hidentifiers : ∀ name ∈ model.compositeFields, isWord name.toList = true) (options : Options) :
    LayersAgree model (file options model .repository).content (file options model .service).content
      (file options model .controller).content := by
  have hmodel := Schema.isWellRead_of_mem_models hmem
  have h := isWord_keyFields hidentifiers
  have hrepository := @isBasic_repository options model hmodel hbasic h
  have hservice := @isBasic_service options model hmodel hbasic h
  have hcontroller := @isBasic_controller options model hmodel hbasic h
  have hrepositoryMethods := @methodsOf_repository options model hmodel hbasic h
  have hserviceMethods := @methodsOf_service options model hmodel hbasic h
  have hcontrollerMethods := @methodsOf_controller options model hmodel hbasic h
  have hlookup := isWord_lookupMethod model
  have hoffered : ∀ name ∈ offered model, isWord name.toList = true :=
    List.forall_mem_cons.mpr ⟨by decide, List.forall_mem_cons.mpr ⟨hlookup, by decide⟩⟩
  have hcalled : ∀ name ∈ ["create", "findAll", lookupMethod model, "update", "delete"],
      isWord name.toList = true :=
    List.forall_mem_cons.mpr ⟨by decide, List.forall_mem_cons.mpr
      ⟨by decide, List.forall_mem_cons.mpr ⟨hlookup, by decide⟩⟩⟩
  have hendpoints : (endpoints model).map (fun method => method.body.method) =
      ["create", "findAll", lookupMethod model, "update", "delete"] := by
    rw [← finder_eq]
    rfl
  constructor
  · exact callsInto_render hservice hrepository rfl
      (service_callsThrough h fun _ hmethod => hmethod) options.indent
  · exact callsInto_render hcontroller hservice rfl
      (controller_callsThrough hmodel h fun _ hmethod => hmethod) options.indent
  · rw [hrepositoryMethods, offered, ← finder_eq]
    rfl
  · rw [hserviceMethods, offered, ← finder_eq]
    rfl
  · rw [hserviceMethods]
    refine map_called hoffered ?_
    rw [offered, ← finder_eq]
    rfl
  · rw [hcontrollerMethods]
    exact map_called hcalled hendpoints
  · rw [hrepositoryMethods]
    exact List.forall_mem_map.mpr (repository_keys h)
  · rw [hserviceMethods]
    exact List.forall_mem_map.mpr (service_keys hmodel h)
  · rw [hcontrollerMethods]
    refine List.forall_mem_map.mpr fun method hmethod => ?_
    have hword : isWord method.body.method.toList = true :=
      hcalled _ (hendpoints ▸ List.mem_map_of_mem hmethod)
    rw [called_view hword]
    simpa using controller_keys hmodel h method hmethod

end Layers

/-- A schema of a model with a composite identity. -/
def orderItemSchema : String :=
  "model OrderItem \x7b\n  orderId Int\n  productId Int\n  @@id([orderId, productId])\n\x7d\n"

/-- The model of `orderItemSchema`. -/
def orderItem : Model where
  name := "OrderItem"
  fields :=
    [⟨"orderId", "Int", false, false, false, false, false, none, 2⟩,
      ⟨"productId", "Int", false, false, false, false, false, none, 3⟩]
  compositeId := some ⟨["orderId", "productId"], none, by simp⟩

/-- The layers of a model with two key fields agree on both. -/
theorem layers_agree_orderItem :
    keyFields orderItem = ["orderId", "productId"] ∧
      LayersAgree orderItem (file {} orderItem .repository).content
        (file {} orderItem .service).content (file {} orderItem .controller).content := by
  have hmodels : (Document.ofSource orderItemSchema).models = [orderItem] := by decide
  have hmem : orderItem ∈ (Document.ofSource orderItemSchema).models := by simp [hmodels]
  exact ⟨rfl, layers_agree hmem (by decide) (by decide) {}⟩

end Scaffold.Artifact
