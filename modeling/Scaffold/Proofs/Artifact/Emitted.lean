import Scaffold.Proofs.Artifact.Origin

/-!
The six files of a module are plain (`classFile_isPlain`), for every model that is read from a
source and for all options whose import paths are free of quotes and line feeds.
-/

namespace Scaffold.Artifact

open Text
open Schema (Model)

/-! ### Identities -/

section Identity

variable {model : Model}

/-- The listed fields may be no words, but they come from one line of the schema. -/
theorem oneLine_identityNames (h : model.IsWellRead) :
    ∀ name ∈ identityNames model.identity, OneLine name := by
  unfold Model.identity
  cases hcomposite : model.compositeId with
  | none => decide
  | some composite => exact (h.compositeId composite hcomposite).fields

theorem oneLine_whereClause (h : model.IsWellRead) : OneLine (whereClause model.identity) := by
  have hnames := oneLine_commaSeparated (oneLine_identityNames h)
  unfold Model.identity at hnames ⊢
  cases hcomposite : model.compositeId with
  | none => decide
  | some composite =>
    obtain ⟨hfields, hkey⟩ := h.compositeId composite hcomposite
    have hlookup : OneLine (lookupKey composite.fields composite.key) := by
      unfold lookupKey
      cases hdeclared : composite.key with
      | some key => exact hkey key hdeclared
      | none => exact oneLine_intercalate (by decide) hfields
    rw [hcomposite] at hnames
    change OneLine (braced (lookupKey composite.fields composite.key ++ ": " ++
      braced (commaSeparated composite.fields)))
    have hlist : OneLine (commaSeparated composite.fields) := hnames
    simp +decide [hlookup, hlist]

/-- The route of an entity is made of these names and fixed punctuation. -/
theorem oneLine_route (h : model.IsWellRead) : OneLine (route model.identity) := by
  refine oneLine_intercalate (by decide) fun part hpart => ?_
  obtain ⟨name, hname, rfl⟩ := List.mem_map.mp hpart
  have hone := oneLine_identityNames h name hname
  simp +decide [hone]

theorem oneLine_finder (model : Model) : OneLine (finder model.identity) := by
  cases model.identity with
  | single => decide
  | composite fields key => exact (by decide : OneLine "findByCompositeId")

theorem isOneLine_identityParameters (h : model.IsWellRead) :
    ∀ parameter ∈ identityParameters model.identity, parameter.IsOneLine := by
  intro parameter hparameter
  obtain ⟨name, hname, rfl⟩ := List.mem_map.mp hparameter
  exact ⟨by simp, oneLine_identityNames h name hname, (by decide : OneLine identityType)⟩

/-- The decorator of a route parameter repeats its name. -/
theorem isOneLine_routeParameters (h : model.IsWellRead) :
    ∀ parameter ∈ routeParameters model.identity, parameter.IsOneLine := by
  intro parameter hparameter
  obtain ⟨name, hname, rfl⟩ := List.mem_map.mp hparameter
  have hone := oneLine_identityNames h name hname
  exact ⟨by simp +decide [hone], hone, (by decide : OneLine identityType)⟩

end Identity

/-! ### Methods -/

theorem forall_mem_concat {α : Type} {p : α → Prop} {front : List α} {last : α}
    (hfront : ∀ a ∈ front, p a) (hlast : p last) : ∀ a ∈ front ++ [last], p a := by
  intro a ha
  rcases List.mem_append.mp ha with ha | ha
  · exact hfront a ha
  · exact List.mem_singleton.mp ha ▸ hlast

section Methods

variable {model : Model}

/-- The texts that vary are the name of the model, the property of the client and the identity. -/
theorem isOneLine_repositoryMethods (h : model.IsWellRead) :
    ∀ method ∈ repositoryMethods model, method.IsOneLine := by
  have hname := oneLine_of_isWord h.name
  have hlist : OneLine (model.name ++ "[]") := by simp +decide [hname]
  have hoption : OneLine (model.name ++ " | null") := by simp +decide [hname]
  have hclient : OneLine ("this.prisma." ++ (Symbols.ofName model.name).accessor) := by
    simp +decide [oneLine_of_isWord (Symbols.areWords_ofName h.name).accessor]
  have hparameters := isOneLine_identityParameters h
  have hdata : Parameter.IsOneLine { name := "data", type := "any" } :=
    ⟨by simp, (by decide : OneLine "data"), (by decide : OneLine "any")⟩
  have hwhere := oneLine_whereClause h
  have hcondition : OneLine (braced ("where: " ++ whereClause model.identity)) := by
    simp +decide [hwhere]
  have hupdate : OneLine (braced ("where: " ++ whereClause model.identity ++ ", data")) := by
    simp +decide [hwhere]
  intro method hmethod
  simp only [repositoryMethods, List.mem_cons, List.not_mem_nil, or_false] at hmethod
  rcases hmethod with rfl | rfl | rfl | rfl | rfl
  · exact ⟨by simp, (by decide : OneLine "findAll"), by simp, hlist, hclient,
      (by decide : OneLine "findMany"), by simp⟩
  · exact ⟨by simp, oneLine_finder model, hparameters, hoption, hclient,
      (by decide : OneLine "findUnique"), by simpa using hcondition⟩
  · exact ⟨by simp, (by decide : OneLine "create"), by simpa using hdata, hname, hclient,
      (by decide : OneLine "create"), (by decide : ∀ argument ∈ [braced "data"], OneLine argument)⟩
  · exact ⟨by simp, (by decide : OneLine "update"), forall_mem_concat hparameters hdata, hname,
      hclient, (by decide : OneLine "update"), by simpa using hupdate⟩
  · exact ⟨by simp, (by decide : OneLine "delete"), hparameters, hname, hclient,
      (by decide : OneLine "delete"), by simpa using hcondition⟩

/-- A service names its data transfer objects where the repository has `any`. -/
theorem isOneLine_serviceMethods (h : model.IsWellRead) :
    ∀ method ∈ serviceMethods model, method.IsOneLine := by
  have hwords := Symbols.areWords_ofName h.name
  have hname := oneLine_of_isWord h.name
  have hlist : OneLine (model.name ++ "[]") := by simp +decide [hname]
  have hoption : OneLine (model.name ++ " | null") := by simp +decide [hname]
  have hrepository : OneLine ("this." ++ (Symbols.ofName model.name).repositoryProperty) := by
    simp +decide [Symbols.repositoryProperty, oneLine_of_isWord hwords.accessor]
  have hparameters := isOneLine_identityParameters h
  have harguments := oneLine_identityNames h
  have hcreate : Parameter.IsOneLine
      { name := "createDto", type := (Symbols.ofName model.name).createDto } :=
    ⟨by simp, (by decide : OneLine "createDto"), oneLine_of_isWord (hwords.isWord_className .createDto)⟩
  have hupdate : Parameter.IsOneLine
      { name := "updateDto", type := (Symbols.ofName model.name).updateDto } :=
    ⟨by simp, (by decide : OneLine "updateDto"), oneLine_of_isWord (hwords.isWord_className .updateDto)⟩
  have hfinder := oneLine_finder model
  intro method hmethod
  simp only [serviceMethods, List.mem_cons, List.not_mem_nil, or_false] at hmethod
  rcases hmethod with rfl | rfl | rfl | rfl | rfl
  · exact ⟨by simp, (by decide : OneLine "findAll"), by simp, hlist, hrepository,
      (by decide : OneLine "findAll"), by simp⟩
  · exact ⟨by simp, hfinder, hparameters, hoption, hrepository, hfinder, harguments⟩
  · exact ⟨by simp, (by decide : OneLine "create"), by simpa using hcreate, hname, hrepository,
      (by decide : OneLine "create"), (by decide : ∀ argument ∈ ["createDto"], OneLine argument)⟩
  · exact ⟨by simp, (by decide : OneLine "update"), forall_mem_concat hparameters hupdate, hname,
      hrepository, (by decide : OneLine "update"), forall_mem_concat harguments (by decide)⟩
  · exact ⟨by simp, (by decide : OneLine "delete"), hparameters, hname, hrepository,
      (by decide : OneLine "delete"), harguments⟩

theorem isOneLine_endpointDecorators {verb summary description : String} (hverb : OneLine verb)
    (verb_ne_nil : verb.toList ≠ []) (hsummary : OneLine summary) {status : Nat}
    (hstatus : OneLine status.repr) (hdescription : OneLine description) :
    ∀ decorator ∈ endpointDecorators verb summary status description,
      OneLine decorator ∧ decorator.toList ≠ [] := by
  intro decorator hdecorator
  simp only [endpointDecorators, List.mem_cons, List.not_mem_nil, or_false] at hdecorator
  rcases hdecorator with rfl | rfl | rfl
  · exact ⟨hverb, verb_ne_nil⟩
  · exact ⟨by simp +decide [hsummary], by simp⟩
  · exact ⟨by simp +decide [hstatus, hdescription], by simp⟩

/-- Endpoints also carry texts for their documentation, made from the name of the model as a
phrase. -/
theorem isOneLine_endpoints (h : model.IsWellRead) :
    ∀ method ∈ endpoints model, method.IsOneLine := by
  have hwords := Symbols.areWords_ofName h.name
  have hname := oneLine_of_isWord h.name
  have hphrase := oneLine_of_isWord hwords.phrase
  have hlist : OneLine (model.name ++ "[]") := by simp +decide [hname]
  have hoption : OneLine (model.name ++ " | null") := by simp +decide [hname]
  have hservice : OneLine ("this." ++ (Symbols.ofName model.name).serviceProperty) := by
    simp +decide [Symbols.serviceProperty, oneLine_of_isWord hwords.accessor]
  have hparameters := isOneLine_routeParameters h
  have harguments := oneLine_identityNames h
  have hcreate : (bodyParameter "createDto" (Symbols.ofName model.name).createDto).IsOneLine :=
    ⟨by simp +decide [bodyParameter], (by decide : OneLine "createDto"),
      oneLine_of_isWord (hwords.isWord_className .createDto)⟩
  have hupdate : (bodyParameter "updateDto" (Symbols.ofName model.name).updateDto).IsOneLine :=
    ⟨by simp +decide [bodyParameter], (by decide : OneLine "updateDto"),
      oneLine_of_isWord (hwords.isWord_className .updateDto)⟩
  have hfinder := oneLine_finder model
  have hroute := oneLine_route h
  have hlookup : OneLine (lookupPhrase model.identity) := by
    cases model.identity with
    | single => decide
    | composite fields key => exact (by decide : OneLine "by composite id")
  intro method hmethod
  simp only [endpoints, List.mem_cons, List.not_mem_nil, or_false] at hmethod
  rcases hmethod with rfl | rfl | rfl | rfl | rfl
  · refine ⟨?_, (by decide : OneLine "create"), by simpa using hcreate, hname, hservice,
      (by decide : OneLine "create"), (by decide : ∀ argument ∈ ["createDto"], OneLine argument)⟩
    exact isOneLine_endpointDecorators (by decide) (by decide) (by simp +decide [hphrase]) (by decide)
      (by simp +decide [hphrase])
  · refine ⟨?_, (by decide : OneLine "findAll"), by simp, hlist, hservice,
      (by decide : OneLine "findAll"), by simp⟩
    exact isOneLine_endpointDecorators (by decide) (by decide) (by simp +decide [hphrase]) (by decide)
      (by simp +decide [hphrase])
  · refine ⟨?_, (by decide : OneLine "findOne"), hparameters, hoption, hservice, hfinder,
      harguments⟩
    exact isOneLine_endpointDecorators (by simp +decide [hroute]) (by simp)
      (by simp +decide [hphrase, hlookup]) (by decide) (by simp +decide [hphrase])
  · refine ⟨?_, (by decide : OneLine "update"), forall_mem_concat hparameters hupdate, hname,
      hservice, (by decide : OneLine "update"), forall_mem_concat harguments (by decide)⟩
    exact isOneLine_endpointDecorators (by simp +decide [hroute]) (by simp)
      (by simp +decide [hphrase]) (by decide) (by simp +decide [hphrase])
  · refine ⟨?_, (by decide : OneLine "remove"), hparameters, hname, hservice,
      (by decide : OneLine "delete"), harguments⟩
    exact isOneLine_endpointDecorators (by simp +decide [hroute]) (by simp)
      (by simp +decide [hphrase]) (by decide) (by simp +decide [hphrase])

end Methods

/-! ### Files -/

section Files

variable {options : Options} {model : Model}

/-- A generated type is one of a few fixed ones, whatever type the schema has. -/
theorem oneLine_generatedType (field : Schema.Field) : OneLine field.generatedType := by
  unfold Schema.Field.generatedType Schema.generatedTypeOf
  cases Schema.Scalar.ofName? field.type with
  | none => decide
  | some scalar =>
    cases scalar with
    | string => decide
    | int => decide
    | boolean => decide
    | dateTime => decide
    | decimal => decide
    | bigInt => decide
    | json => decide

theorem oneLine_validation (validator : Schema.Validator) (eachElement : Bool) :
    OneLine (validation validator eachElement) ∧ (validation validator eachElement).toList ≠ [] := by
  have table : ∀ eachElement, ∀ validator ∈ Schema.Validator.all,
      OneLine (validation validator eachElement) := by
    decide
  exact ⟨table eachElement validator validator.mem_all, by simp [validation]⟩

/-- A property has a line for each of its decorators and one for its declaration. Of these texts
only the name of the field is free, and that is a word. -/
theorem isInner_payloadProperty (h : model.IsWellRead) {field : Schema.Field}
    (hfield : field ∈ model.fields) :
    ∀ line ∈ (payloadProperty options model field).lines, line.IsInner := by
  refine Property.isInner ?_ (oneLine_of_isWord (h.fields field hfield).name) ?_
  · intro decorator hdecorator
    simp only [payloadProperty, List.mem_append, List.mem_map] at hdecorator
    rcases hdecorator with (hdecorator | hdecorator) | ⟨validator, _, rfl⟩
    · revert decorator
      cases mayBeLeftOut options model field with
      | true => decide
      | false => decide
    · revert decorator
      cases field.isArray with
      | true => decide
      | false => decide
    · exact oneLine_validation validator field.isArray
  · have htype := oneLine_generatedType field
    unfold payloadProperty
    cases field.isArray with
    | true => simp +decide [htype]
    | false => simp +decide [htype]

/-- Lines of fixed code that stand in a class. -/
theorem isInner_of_mem {text : List Line}
    (h : ∀ line ∈ text, 0 < line.depth ∧ line.text.toList ≠ [] ∧ OneLine line.text) :
    ∀ line ∈ text, line.IsInner := by
  intro line hline
  obtain ⟨hdepth, hne, hone⟩ := h line hline
  exact ⟨hdepth, hne, hone⟩

theorem isInner_validationSketch {head remark : String} (hhead : OneLine head)
    (hremark : OneLine remark) : ∀ line ∈ validationSketch head remark, line.IsInner := by
  refine isInner_of_mem fun line hline => ?_
  simp only [validationSketch, List.mem_cons, List.not_mem_nil, or_false] at hline
  rcases hline with rfl | rfl | rfl
  · exact ⟨Nat.one_pos, by simp, by simp +decide [hhead]⟩
  · exact ⟨Nat.one_pos, by simp, by simp +decide [hremark]⟩
  · exact ⟨Nat.one_pos, by simp, by decide⟩

/-- The repository of a rich model lists the fields that its search looks at. -/
theorem isInner_richRepositoryMembers (h : model.IsWellRead) :
    ∀ member ∈ richRepositoryMembers model, ∀ line ∈ member.lines, line.IsInner := by
  have haccessor := oneLine_of_isWord (Symbols.areWords_ofName h.name).accessor
  have hsearch : OneLine (commaSeparated (searchFields model)) := by
    refine oneLine_commaSeparated fun part hpart => ?_
    obtain ⟨field, hfield, rfl⟩ := List.mem_map.mp hpart
    have hread := h.fields field (List.mem_filter.mp hfield).1
    simp [oneLine_of_isWord hread.name]
  intro member hmember
  simp only [richRepositoryMembers, List.mem_cons, List.not_mem_nil, or_false] at hmember
  rcases hmember with rfl | rfl | rfl
  · rw [Member.lines_fixed]
    refine isInner_of_mem fun line hline => ?_
    obtain rfl := List.mem_singleton.mp hline
    exact ⟨Nat.one_pos, by simp, by simp +decide [haccessor]⟩
  · rw [Member.lines_injection]
    exact Injection.isInner (by decide) (by decide)
  · rw [Member.lines_fixed]
    refine isInner_of_mem fun line hline => ?_
    simp only [List.mem_cons, List.not_mem_nil, or_false] at hline
    rcases hline with rfl | rfl | rfl
    · exact ⟨Nat.one_pos, by simp [opening], by decide⟩
    · exact ⟨Nat.two_pos, by simp, by simp +decide [hsearch]⟩
    · exact ⟨Nat.one_pos, by simp [closing], by decide⟩

/-- What is free in the service of a rich model is the name of the model, also in its sketches of
validations. -/
theorem isInner_richServiceMembers (h : model.IsWellRead) :
    ∀ member ∈ richServiceMembers model, ∀ line ∈ member.lines, line.IsInner := by
  have hname := oneLine_of_isWord h.name
  have hrepository := oneLine_of_isWord
    ((Symbols.areWords_ofName h.name).isWord_className .repository)
  intro member hmember
  simp only [richServiceMembers, List.mem_cons, List.not_mem_nil, or_false] at hmember
  rcases hmember with rfl | rfl | rfl | rfl
  · rw [Member.lines_fixed]
    refine isInner_of_mem fun line hline => ?_
    obtain rfl := List.mem_singleton.mp hline
    exact ⟨Nat.one_pos, by simp, by simp +decide [hname]⟩
  · rw [Member.lines_injection]
    exact Injection.isInner (by decide : OneLine "repository") hrepository
  · rw [Member.lines_fixed]
    intro line hline
    rcases List.mem_cons.mp hline with rfl | hline
    · exact ⟨Nat.one_pos, by simp, by decide⟩
    · exact isInner_validationSketch (by simp +decide [hname]) (by decide) line hline
  · rw [Member.lines_fixed]
    exact isInner_validationSketch (by simp +decide [hname]) (by decide)

theorem isInner_richControllerMembers (h : model.IsWellRead) :
    ∀ member ∈ richControllerMembers model, ∀ line ∈ member.lines, line.IsInner := by
  have hname := oneLine_of_isWord h.name
  have hservice := oneLine_of_isWord ((Symbols.areWords_ofName h.name).isWord_className .service)
  intro member hmember
  simp only [richControllerMembers, List.mem_cons, List.not_mem_nil, or_false] at hmember
  rcases hmember with rfl | rfl | rfl
  · rw [Member.lines_fixed]
    refine isInner_of_mem fun line hline => ?_
    obtain rfl := List.mem_singleton.mp hline
    exact ⟨Nat.one_pos, by simp, by simp +decide [hname]⟩
  · rw [Member.lines_injection]
    exact Injection.isInner (by decide : OneLine "service") hservice
  · rw [Member.lines_fixed]
    refine isInner_of_mem fun line hline => ?_
    obtain rfl := List.mem_singleton.mp hline
    exact ⟨Nat.one_pos, by simp, by decide⟩

/-- A basic class is an injection and methods. -/
theorem isInner_basicMembers {injection : Injection} {methods : List Method}
    (hname : OneLine injection.name) (htype : OneLine injection.type)
    (hmethods : ∀ method ∈ methods, method.IsOneLine) :
    ∀ member ∈ Member.injection injection :: methods.map .method,
      ∀ line ∈ member.lines, line.IsInner := by
  intro member hmember
  rcases List.mem_cons.mp hmember with rfl | hmember
  · rw [Member.lines_injection]
    exact Injection.isInner hname htype
  · obtain ⟨method, hmethod, rfl⟩ := List.mem_map.mp hmember
    rw [Member.lines_method]
    exact (hmethods method hmethod).isInner

/-- The members of a class lie within its braces: none of their lines is empty, broken or at depth
zero, and so none of them can be taken for the end of the class. -/
theorem isInner_members (h : model.IsWellRead) (kind : Kind) :
    ∀ member ∈ (classFile options model kind).members, ∀ line ∈ member.lines, line.IsInner := by
  have hwords := Symbols.areWords_ofName h.name
  cases kind with
  | createDto =>
    intro member hmember
    obtain ⟨field, hfield, rfl⟩ := List.mem_map.mp hmember
    rw [Member.lines_property]
    exact isInner_payloadProperty h (List.mem_filter.mp hfield).1
  | updateDto => simp [classFile, updateDto]
  | wiring => simp [classFile, wiring]
  | repository =>
    unfold classFile repository
    cases model.capability with
    | rich => exact isInner_richRepositoryMembers h
    | basic =>
      exact isInner_basicMembers (by decide : OneLine "prisma") (by decide : OneLine "DatabaseService")
        (isOneLine_repositoryMethods h)
  | service =>
    unfold classFile service
    cases model.capability with
    | rich => exact isInner_richServiceMembers h
    | basic =>
      exact isInner_basicMembers
        (by simp +decide [Symbols.repositoryProperty, oneLine_of_isWord hwords.accessor])
        (oneLine_of_isWord (hwords.isWord_className .repository)) (isOneLine_serviceMethods h)
  | controller =>
    unfold classFile controller
    cases model.capability with
    | rich => exact isInner_richControllerMembers h
    | basic =>
      exact isInner_basicMembers
        (by simp +decide [Symbols.serviceProperty, oneLine_of_isWord hwords.accessor])
        (oneLine_of_isWord (hwords.isWord_className .service)) (isOneLine_endpoints h)

/-- Classes are decorated with names of other classes and with the stem of the model. -/
theorem isPlain_decorators (h : model.IsWellRead) (kind : Kind) :
    ∀ decorator ∈ (classFile options model kind).decorators, decorator.IsPlain := by
  have hwords := Symbols.areWords_ofName h.name
  have hclass : ∀ kind, OneLine ((Symbols.ofName model.name).className kind) :=
    fun kind => oneLine_of_isWord (hwords.isWord_className kind)
  have hinjectable : (Decorator.plain "Injectable" "").IsPlain :=
    ⟨(by decide : OneLine "Injectable"), (by decide : OneLine "")⟩
  cases kind with
  | createDto => simp [classFile, createDto]
  | updateDto => simp [classFile, updateDto]
  | repository => simpa [classFile, repository] using hinjectable
  | service => simpa [classFile, service] using hinjectable
  | controller =>
    have hstem : OneLine (quoted (Symbols.ofName model.name).stem) := by
      simp [hwords.isPlainPath_stem.2]
    have htags : (Decorator.plain "ApiTags" (quoted (Symbols.ofName model.name).stem)).IsPlain :=
      ⟨(by decide : OneLine "ApiTags"), hstem⟩
    have hroute : (Decorator.plain "Controller" (quoted (Symbols.ofName model.name).stem)).IsPlain :=
      ⟨(by decide : OneLine "Controller"), hstem⟩
    simpa [classFile, controller] using ⟨htags, hroute⟩
  | wiring =>
    intro decorator hdecorator
    obtain rfl := List.mem_singleton.mp hdecorator
    refine ⟨(by decide : OneLine "Module"), fun row hrow => ?_⟩
    simp only [List.mem_cons, List.not_mem_nil, or_false] at hrow
    rcases hrow with rfl | rfl | rfl
    · exact ⟨(by decide : OneLine "controllers"),
        List.forall_mem_singleton.mpr (hclass .controller)⟩
    · exact ⟨(by decide : OneLine "providers"),
        List.forall_mem_cons.mpr ⟨hclass .service, List.forall_mem_singleton.mpr (hclass .repository)⟩⟩
    · exact ⟨(by decide : OneLine "exports"), List.forall_mem_singleton.mpr (hclass .service)⟩

/-- A class extends at most one class, which is named after the model or is made from one that
is. -/
theorem oneLine_heritage (h : model.IsWellRead) (kind : Kind) :
    OneLine (classFile options model kind).heritage.text := by
  have hname := oneLine_of_isWord h.name
  have hcreate := oneLine_of_isWord ((Symbols.areWords_ofName h.name).isWord_className .createDto)
  cases kind with
  | createDto => exact (by decide : OneLine "")
  | updateDto =>
    change OneLine (Heritage.partialOf ((Symbols.ofName model.name).className .createDto)).text
    simp +decide [hcreate]
  | wiring => exact (by decide : OneLine "")
  | repository =>
    unfold classFile repository
    cases model.capability with
    | rich => simp +decide [hname]
    | basic => exact (by decide : OneLine "")
  | service =>
    unfold classFile service
    cases model.capability with
    | rich => simp +decide [hname]
    | basic => exact (by decide : OneLine "")
  | controller =>
    unfold classFile controller
    cases model.capability with
    | rich => simp +decide [hname]
    | basic => exact (by decide : OneLine "")

/-- The classes of all files of a module are plain, whatever the options. -/
theorem classFile_hasPlainClass (h : model.IsWellRead) (kind : Kind) :
    (classFile options model kind).HasPlainClass where
  decorators := isPlain_decorators h kind
  name := by
    rw [classFile_name]
    exact (Symbols.areWords_ofName h.name).isWord_className kind
  heritage := oneLine_heritage h kind
  members := isInner_members h kind

/-- All files of a module are plain. -/
theorem classFile_isPlain (h : model.IsWellRead) (hpaths : options.imports.ArePlain) (kind : Kind) :
    (classFile options model kind).IsPlain where
  toHasPlainClass := classFile_hasPlainClass h kind
  imports := fun imported himported =>
    (origin_of_mem_imports h kind imported himported).isPlain h hpaths

end Files

end Scaffold.Artifact
