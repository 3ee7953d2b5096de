import Mathlib.Data.List.Basic
import Scaffold.Proofs.Artifact.Emitted
import Scaffold.Proofs.Artifact.PropertyView
import Scaffold.Proofs.Schema.WellFormed

/-!
The object that creates an entity, read from its text. Its properties show the fields that a client
hands over, one for one and in order (`createDto_shows_payload`), and it imports exactly what its
properties are decorated and typed with (`createDto_imports_use`).
-/

namespace Scaffold.Artifact

open Text
open Schema (Document Model Scalar Validator)

/-! ### Decorators -/

/-- The decorators of a property: whether it may be left out, whether it is an array, and by which
type it is validated. -/
def payloadDecorators (isOptional isArray : Bool) (validator : Option Validator) : List String :=
  (if isOptional then ["@ApiPropertyOptional()", "@IsOptional()"]
    else ["@ApiProperty()", "@IsNotEmpty()"]) ++
  (if isArray then ["@IsArray()"] else []) ++
  validator.toList.map fun validator => validation validator isArray

/-- What holds of all validators is decided one by one. -/
instance decidableForallValidator (p : Validator → Prop) [DecidablePred p] :
    Decidable (∀ validator, p validator) :=
  decidable_of_iff (∀ validator ∈ Validator.all, p validator)
    ⟨fun h validator => h validator validator.mem_all, fun h validator _ => h validator⟩

/-- A property is validated by its type in one of finitely many ways, or not at all. -/
instance decidableForallValidator? (p : Option Validator → Prop) [DecidablePred p] :
    Decidable (∀ validator, p validator) :=
  decidable_of_iff (p none ∧ ∀ validator, p (some validator))
    ⟨fun h validator => by cases validator with
      | none => exact h.1
      | some validator => exact h.2 validator,
    fun h => ⟨h none, fun validator => h (some validator)⟩⟩

/-- Every decorator is written as a call, with its parentheses. -/
theorem payloadDecorators_ends : ∀ isOptional isArray validator,
    ∀ decorator ∈ payloadDecorators isOptional isArray validator,
      decorator.toList.head? = some '@' ∧ decorator.toList.getLast? = some ')' := by
  decide +kernel

/-- Each of the fixed decorators stands for one of the two flags. -/
theorem mem_payloadDecorators : ∀ isOptional isArray validator,
    let decorators := payloadDecorators isOptional isArray validator
    ("@ApiPropertyOptional()" ∈ decorators ↔ isOptional = true) ∧
      ("@IsOptional()" ∈ decorators ↔ isOptional = true) ∧
      ("@ApiProperty()" ∈ decorators ↔ isOptional = false) ∧
      ("@IsNotEmpty()" ∈ decorators ↔ isOptional = false) ∧
      ("@IsArray()" ∈ decorators ↔ isArray = true) := by
  decide

/-- A validator stands on each element of an array. -/
theorem validation_mem_payloadDecorators : ∀ isOptional isArray validator sought,
    "@" ++ Validator.decorator sought ++ (if isArray then "(\x7b each: true \x7d)" else "()") ∈
      payloadDecorators isOptional isArray validator ↔ validator = some sought := by
  decide

/-- The decorators that stand for a type or for an array, in the order of imports. -/
def checkNames : List String := ["IsString", "IsNumber", "IsBoolean", "IsDateString", "IsArray"]

/-- The decorators that say whether a property may be left out. -/
def presenceNames : List String :=
  ["IsOptional", "IsNotEmpty", "ApiProperty", "ApiPropertyOptional"]

theorem decoratorName_mem : ∀ isOptional isArray validator,
    ∀ decorator ∈ payloadDecorators isOptional isArray validator,
      decoratorName decorator ∈ presenceNames ++ checkNames := by
  decide +kernel

/-- By their names the decorators tell the validator and whether the property is an array. -/
theorem contains_decoratorName : ∀ isOptional isArray validator,
    let names := (payloadDecorators isOptional isArray validator).map decoratorName
    (∀ sought, names.contains (Validator.decorator sought) = (validator == some sought)) ∧
      names.contains "IsArray" = isArray := by
  decide +kernel

/-- No two validators have the same decorator. -/
theorem find?_validator : ∀ validator,
    (Validator.all.find? fun sought => validator == some sought) = validator := by
  decide

/-! ### Properties -/

section Property

variable (options : Options) (model : Model) (field : Schema.Field)

theorem decorators_payloadProperty :
    (payloadProperty options model field).decorators =
      payloadDecorators (mayBeLeftOut options model field) field.isArray field.validator? := rfl

/-- The type of a field is that of some scalar: where there is none, all is accepted. -/
theorem exists_generatedType_eq :
    ∃ scalar ∈ Scalar.all, field.generatedType = scalar.generatedType := by
  unfold Schema.Field.generatedType Schema.generatedTypeOf
  cases Scalar.ofName? field.type with
  | none => exact ⟨.json, Scalar.mem_all _, rfl⟩
  | some scalar => exact ⟨scalar, scalar.mem_all, rfl⟩

theorem isWord_generatedType : isWord field.generatedType.toList = true := by
  have table : ∀ scalar ∈ Scalar.all, isWord scalar.generatedType.toList = true := by decide
  obtain ⟨scalar, hscalar, heq⟩ := exists_generatedType_eq field
  rw [heq, table scalar hscalar]

theorem type_payloadProperty :
    (payloadProperty options model field).type.toList =
      field.generatedType.toList ++ if field.isArray then ['[', ']'] else [] := by
  unfold payloadProperty
  cases field.isArray with
  | true => simp
  | false => simp

/-- A property can be read back as soon as the name of its field is a word. -/
theorem isReadable_payloadProperty (hname : isWord field.name.toList = true) :
    (payloadProperty options model field).IsReadable where
  decorators := by
    intro decorator hdecorator
    rw [decorators_payloadProperty] at hdecorator
    obtain ⟨hhead, hlast⟩ := payloadDecorators_ends _ _ _ decorator hdecorator
    exact ⟨hhead, ⟨by simp +decide [hhead], by simp +decide [hlast]⟩⟩
  name := hname
  type := by
    have hword := isWord_generatedType field
    rw [type_payloadProperty]
    cases field.isArray with
    | true =>
      obtain ⟨c, more, hcons⟩ := List.exists_cons_of_ne_nil (isWord_iff.mp hword).1
      have hc := isBlank_eq_false_of_isWord hword c (by simp [hcons])
      have hends := @isTrimmed_of_ends c ']' (more ++ ['[']) hc (by decide)
      simpa [hcons] using hends
    | false => simpa using isTrimmed_of_isWord hword

theorem dropSuffix?_type :
    dropSuffix? ['[', ']'] (payloadProperty options model field).type.toList =
      if field.isArray then some field.generatedType.toList else none := by
  rw [type_payloadProperty]
  cases field.isArray with
  | true => exact dropSuffix?_append _ _
  | false =>
    have hbracket : ']' ∉ field.generatedType.toList :=
      not_mem_of_isWord (isWord_generatedType field) (by decide)
    simp only [Bool.false_eq_true, if_false, List.append_nil]
    exact dropSuffix?_eq_none (by decide) fun heq => hbracket (List.mem_of_getLast? heq)

/-- What a property shows are the parts of its field. -/
theorem view_payloadProperty :
    (payloadProperty options model field).view =
      { name := field.name
        isOptional := mayBeLeftOut options model field
        type := field.generatedType
        isArray := field.isArray
        validator := field.validator? } := by
  have hvalidator : (Validator.all.find? fun sought =>
      (payloadProperty options model field).uses sought.decorator) = field.validator? := by
    unfold Property.uses
    rw [decorators_payloadProperty]
    simp only [(contains_decoratorName _ _ _).1, find?_validator]
  have htype := type_payloadProperty options model field
  unfold Property.view
  rw [hvalidator, dropSuffix?_type]
  cases harray : field.isArray with
  | true => simp [payloadProperty]
  | false =>
    rw [harray] at htype
    simp [payloadProperty, harray]

/-- The decorators of a property say what its declaration says. -/
theorem isDecorated_payloadProperty : (payloadProperty options model field).IsDecorated := by
  have hview := view_payloadProperty options model field
  obtain ⟨hapiOptional, hoptional, hapi, hnotEmpty, harray⟩ :=
    mem_payloadDecorators (mayBeLeftOut options model field) field.isArray field.validator?
  constructor
  case apiPropertyOptional => exact hapiOptional
  case isOptional => exact hoptional
  case apiProperty => exact hapi
  case isNotEmpty => exact hnotEmpty
  case isArray =>
    rw [hview]
    exact harray
  case validator =>
    intro validator
    rw [hview]
    exact (validation_mem_payloadDecorators _ _ _ validator).symm

end Property

/-! ### The object as a whole -/

/-- What the object that creates an entity is to show: the fields of the model in their order, but
for relations, identities and the times of an entity's life. A field may be left out if it is
declared so, has a default, or is forced. -/
def payloadViews (options : Options) (model : Model) : List PropertyView :=
  (model.fields.filter fun field => field.relation.isNone && !field.isId &&
      !(["createdAt", "updatedAt", "deletedAt"].contains field.name)).map fun field =>
    { name := field.name
      isOptional := field.isOptional || field.hasDefault ||
        options.optionality.forces model.name field.name
      type := field.generatedType
      isArray := field.isArray
      validator := field.validator? }

section CreateDto

variable (options : Options) {model : Model}

/-- The properties of the object are read back from its text. -/
theorem propertiesOf?_createDto (h : model.IsWellRead) :
    propertiesOf? (file options model .createDto).content =
      some ((payload model).map (payloadProperty options model)) := by
  have hreadable : ∀ property ∈ (payload model).map (payloadProperty options model),
      property.IsReadable := by
    intro property hproperty
    obtain ⟨field, hfield, rfl⟩ := List.mem_map.mp hproperty
    have hread := h.fields field (List.mem_filter.mp hfield).1
    exact isReadable_payloadProperty options model field hread.name
  have hmembers : (classFile options model .createDto).members =
      ((payload model).map (payloadProperty options model)).map Member.property :=
    (List.map_map ..).symm
  rw [file, propertiesOf?_render (classFile_hasPlainClass h .createDto) hmembers hreadable]

theorem map_view_payloadProperty :
    ((payload model).map (payloadProperty options model)).map Property.view =
      payloadViews options model := by
  have hpayload : payload model = model.fields.filter fun field => field.relation.isNone &&
      !field.isId && !(["createdAt", "updatedAt", "deletedAt"].contains field.name) := by
    refine List.filter_congr fun field _ => ?_
    rw [Schema.Field.isRelation, Option.not_isSome]
    rfl
  rw [List.map_map, hpayload]
  exact List.map_congr_left fun field _ => view_payloadProperty options model field

end CreateDto

/-- The object that creates an entity is a faithful image of the payload. Its text reads back as
properties which show, in order, what they are to show of the fields; their decorators agree with
their declarations. So two models have equal objects only if they are to show the same. -/
theorem createDto_shows_payload {source : String} {model : Model}
    (hmodel : model ∈ (Document.ofSource source).models) (options : Options) :
    ∃ properties, propertiesOf? (file options model .createDto).content = some properties ∧
      properties.map Property.view = payloadViews options model ∧
      (∀ property ∈ properties, property.IsDecorated) ∧
      ∀ (otherSource : String) (other : Model), other ∈ (Document.ofSource otherSource).models →
        (file options other .createDto).content = (file options model .createDto).content →
          payloadViews options other = payloadViews options model := by
  have hread := propertiesOf?_createDto options (Schema.isWellRead_of_mem_models hmodel)
  refine ⟨_, hread, map_view_payloadProperty options, ?_, ?_⟩
  · intro property hproperty
    obtain ⟨field, -, rfl⟩ := List.mem_map.mp hproperty
    exact isDecorated_payloadProperty options model field
  · intro otherSource other hother hsame
    have hotherRead := propertiesOf?_createDto options (Schema.isWellRead_of_mem_models hother)
    rw [hsame, hread] at hotherRead
    rw [← map_view_payloadProperty, ← map_view_payloadProperty, Option.some.inj hotherRead]

/-- A schema of one model with an identity, a relation, a decimal array, and a field that is
customarily optional. -/
def wareSchema : String :=
  "model Ware \x7b\n  id Int @id\n  price Decimal[]\n  sku String\n  maker Maker?\n\x7d\n"

/-- The model of `wareSchema`. -/
def ware : Model where
  name := "Ware"
  fields := [⟨"id", "Int", false, true, false, false, false, none, 2⟩,
    ⟨"price", "Decimal", false, false, false, false, true, none, 3⟩,
    ⟨"sku", "String", false, false, false, false, false, none, 4⟩,
    ⟨"maker", "Maker", true, false, false, false, false, some "Maker", 5⟩]
  compositeId := none

theorem ware_mem_models : ware ∈ (Document.ofSource wareSchema).models := by
  have hmodels : (Document.ofSource wareSchema).models = [ware] := by decide +kernel
  simp [hmodels]

/-- A schema of the same payload in a model without identity and relation. -/
def plainWareSchema : String := "model Ware \x7b\n  price Decimal[]\n  sku String?\n\x7d\n"

/-- The model of `plainWareSchema`. -/
def plainWare : Model where
  name := "Ware"
  fields := [⟨"price", "Decimal", false, false, false, false, true, none, 2⟩,
    ⟨"sku", "String", true, false, false, false, false, none, 3⟩]
  compositeId := none

theorem plainWare_mem_models : plainWare ∈ (Document.ofSource plainWareSchema).models := by
  have hmodels : (Document.ofSource plainWareSchema).models = [plainWare] := by decide +kernel
  simp [hmodels]

theorem createDto_shows_payload_ware :
    (∃ properties, propertiesOf? (file {} ware .createDto).content = some properties ∧
      properties.map Property.view =
        [⟨"price", false, "Decimal", true, some .isNumber⟩,
          ⟨"sku", true, "string", false, some .isString⟩]) ∧
      payloadViews {} plainWare = payloadViews {} ware := by
  obtain ⟨properties, hread, hviews, -, hother⟩ := createDto_shows_payload ware_mem_models {}
  refine ⟨⟨properties, hread, ?_⟩, hother plainWareSchema plainWare plainWare_mem_models ?_⟩
  · rw [hviews]
    decide
  · have hclass : createDto {} plainWare = createDto {} ware := by decide
    exact congrArg (ClassFile.render .twoSpaces) hclass

/-! ### Imports -/

/-- A property is of a decimal type exactly when its field is of that scalar. -/
theorem isDecimal_payloadProperty (options : Options) (model : Model) (field : Schema.Field) :
    (payloadProperty options model field).type = "Decimal" ∨
        (payloadProperty options model field).type = "Decimal[]" ↔
      field.scalar? = some .decimal := by
  have table : ∀ scalar ∈ Scalar.all, ∀ isArray : Bool,
      (scalar.generatedType ++ (if isArray then "[]" else "") = "Decimal" ∨
          scalar.generatedType ++ (if isArray then "[]" else "") = "Decimal[]") ↔
        scalar.generatedType = "Decimal" := by
    decide
  have hdecimal : field.generatedType = "Decimal" ↔ field.scalar? = some .decimal := by
    unfold Schema.Field.generatedType Schema.generatedTypeOf Schema.Field.scalar?
    cases Scalar.ofName? field.type with
    | none => decide
    | some scalar => cases scalar <;> decide
  obtain ⟨scalar, hscalar, heq⟩ := exists_generatedType_eq field
  rw [← hdecimal, payloadProperty, heq]
  exact table scalar hscalar field.isArray

section Imports

variable (options : Options) (model : Model)

/-- The names that are imported for the types and the arrays of a payload. -/
def checkedNames : List String :=
  (usedValidators (payload model)).map Validator.decorator ++
    if (payload model).any Schema.Field.isArray then ["IsArray"] else []

/-- The import for the decimal types of a payload. -/
def decimalImports : List Import :=
  if (payload model).any fun field => field.scalar? == some .decimal then
    [⟨["Decimal"], options.imports.decimal⟩]
  else []

theorem createDtoImports_eq :
    createDtoImports options model =
      ⟨["IsOptional", "IsNotEmpty"] ++ checkedNames model, "class-validator"⟩ ::
        ⟨["ApiProperty", "ApiPropertyOptional"], "@nestjs/swagger"⟩ ::
          decimalImports options model := by
  simp [createDtoImports, checkedNames, decimalImports]

theorem any_uses_validator (validator : Validator) :
    ((payload model).map (payloadProperty options model)).any
        (Property.uses · validator.decorator) =
      ((payload model).filterMap Schema.Field.validator?).contains validator := by
  have huses : ∀ field, (payloadProperty options model field).uses validator.decorator =
      (field.validator? == some validator) := by
    intro field
    rw [Property.uses, decorators_payloadProperty]
    exact (contains_decoratorName _ _ _).1 validator
  rw [Bool.eq_iff_iff, List.any_map]
  simp [huses]

theorem any_uses_isArray :
    ((payload model).map (payloadProperty options model)).any (Property.uses · "IsArray") =
      (payload model).any Schema.Field.isArray := by
  have huses : ∀ field, (payloadProperty options model field).uses "IsArray" = field.isArray := by
    intro field
    rw [Property.uses, decorators_payloadProperty]
    exact (contains_decoratorName _ _ _).2
  rw [List.any_map]
  simp [Function.comp_def, huses]

/-- What is imported for types and arrays is what properties use, in the order of imports. -/
theorem checkedNames_eq :
    checkedNames model = checkNames.filter fun name =>
      ((payload model).map (payloadProperty options model)).any (Property.uses · name) := by
  have hnames : checkNames = Validator.all.map Validator.decorator ++ ["IsArray"] := rfl
  rw [hnames, List.filter_append, List.filter_map, List.filter_cons, List.filter_nil,
    any_uses_isArray]
  simp only [Function.comp_def, any_uses_validator]
  rfl

/-- Of the names that are imported, those of checks are listed in a fixed order and once each. -/
theorem filter_names_createDtoImports :
    ((createDtoImports options model).flatMap Import.names).filter checkNames.contains =
      checkedNames model := by
  have hchecked : (checkedNames model).filter checkNames.contains = checkedNames model := by
    refine List.filter_eq_self.mpr fun name hname => ?_
    rw [checkedNames_eq options] at hname
    exact List.contains_iff_mem.mpr (List.mem_filter.mp hname).1
  have hdecimal : ((decimalImports options model).flatMap Import.names).filter checkNames.contains =
      [] := by
    unfold decimalImports
    split
    · change ["Decimal"].filter checkNames.contains = []
      decide
    · rfl
  have hmissing : ["IsOptional", "IsNotEmpty"].filter checkNames.contains = [] ∧
      ["ApiProperty", "ApiPropertyOptional"].filter checkNames.contains = [] := by
    decide
  rw [createDtoImports_eq, List.flatMap_cons, List.flatMap_cons, List.filter_append,
    List.filter_append, List.filter_append, hmissing.1, hmissing.2, hchecked, hdecimal]
  simp

/-- The first two imports have all decorators of all properties. -/
theorem exists_import_of_mem_decorators {property : Property} {decorator : String}
    (hproperty : property ∈ (payload model).map (payloadProperty options model))
    (hdecorator : decorator ∈ property.decorators) :
    ∃ imported ∈ (createDtoImports options model).take 2,
      decoratorName decorator ∈ imported.names := by
  have huses : property.uses (decoratorName decorator) = true :=
    List.contains_iff_mem.mpr (List.mem_map_of_mem hdecorator)
  have hknown : decoratorName decorator ∈ presenceNames ++ checkNames := by
    obtain ⟨field, -, rfl⟩ := List.mem_map.mp hproperty
    exact decoratorName_mem _ _ _ decorator hdecorator
  rw [createDtoImports_eq]
  simp only [List.take_succ_cons, List.take_zero, List.mem_cons, List.not_mem_nil, or_false,
    exists_eq_or_imp, exists_eq_left, List.mem_append]
  rcases List.mem_append.mp hknown with hpresence | hcheck
  · have table : ∀ name ∈ presenceNames, name ∈ ["IsOptional", "IsNotEmpty"] ∨
        name ∈ ["ApiProperty", "ApiPropertyOptional"] := by
      decide
    rcases table _ hpresence with hfirst | hsecond
    · exact Or.inl (Or.inl (by simpa using hfirst))
    · exact Or.inr (by simpa using hsecond)
  · rw [checkedNames_eq options]
    exact Or.inl (Or.inr (List.mem_filter.mpr ⟨hcheck, List.any_eq_true.mpr ⟨_, hproperty, huses⟩⟩))

/-- `Decimal` is imported from its configured path alone, and only when a field of the payload is
one. -/
theorem exists_decimal_import_iff :
    (∃ imported ∈ createDtoImports options model, "Decimal" ∈ imported.names) ↔
      ∃ field ∈ payload model, field.scalar? = some .decimal := by
  have hfirst : "Decimal" ∉ ["IsOptional", "IsNotEmpty"] ++ checkedNames model := by
    intro hmem
    rcases List.mem_append.mp hmem with hmem | hmem
    · exact absurd hmem (by decide)
    · rw [checkedNames_eq options] at hmem
      exact absurd (List.mem_filter.mp hmem).1 (by decide)
  have hsecond : "Decimal" ∉ ["ApiProperty", "ApiPropertyOptional"] := by decide
  rw [createDtoImports_eq, List.exists_mem_cons_iff, List.exists_mem_cons_iff, or_iff_right hfirst,
    or_iff_right hsecond, decimalImports]
  split
  next h => simpa using h
  next h => simpa using h

theorem exists_decimal_property_iff :
    (∃ property ∈ (payload model).map (payloadProperty options model),
        property.type = "Decimal" ∨ property.type = "Decimal[]") ↔
      ∃ field ∈ payload model, field.scalar? = some .decimal := by
  simp only [List.mem_map, exists_exists_and_eq_and, isDecimal_payloadProperty]

variable {options model}

theorem importsOf_createDto (hplain : (classFile options model .createDto).IsPlain) :
    importsOf (file options model .createDto).content = createDtoImports options model := by
  rw [file, ClassFile.importsOf_render hplain]
  rfl

/-- The first two imports stand on the first two lines. -/
theorem take_lines_createDto (hplain : (classFile options model .createDto).IsPlain) :
    (lines (file options model .createDto).content.toList).take 2 =
      ((createDtoImports options model).take 2).map fun imported => imported.text.toList := by
  have hlength : 2 ≤ (classFile options model .createDto).imports.length := by
    change 2 ≤ (createDtoImports options model).length
    simp [createDtoImports_eq]
  rw [file, ClassFile.lines_render hplain, List.map_take]
  exact List.take_append_of_le_length (by simpa using hlength)

end Imports

/-- The object that creates an entity imports what its properties are made with. Each decorator of
a property is imported on the first two lines; of those for types and arrays the used ones are
imported and no others, each once and in their order; and decimals are imported exactly when there
are any. -/
theorem createDto_imports_use {source : String} {model : Model}
    (hmodel : model ∈ (Document.ofSource source).models) {options : Options}
    (hpaths : options.imports.ArePlain) :
    ∃ properties, propertiesOf? (file options model .createDto).content = some properties ∧
      (∀ property ∈ properties, ∀ decorator ∈ property.decorators,
        ∃ line ∈ (lines (file options model .createDto).content.toList).take 2,
          ∃ imported, Import.ofLine? line = some imported ∧
            decoratorName decorator ∈ imported.names) ∧
      ((importsOf (file options model .createDto).content).flatMap Import.names).filter
          checkNames.contains =
        checkNames.filter (fun name => properties.any (Property.uses · name)) ∧
      ((∃ imported ∈ importsOf (file options model .createDto).content,
          "Decimal" ∈ imported.names) ↔
        ∃ property ∈ properties, property.type = "Decimal" ∨ property.type = "Decimal[]") := by
  have h := Schema.isWellRead_of_mem_models hmodel
  have hplain := classFile_isPlain h hpaths .createDto
  refine ⟨_, propertiesOf?_createDto options h, ?_, ?_, ?_⟩
  · intro property hproperty decorator hdecorator
    obtain ⟨imported, himported, hname⟩ :=
      exists_import_of_mem_decorators options model hproperty hdecorator
    refine ⟨imported.text.toList, ?_, imported, ?_, hname⟩
    · rw [take_lines_createDto hplain]
      exact List.mem_map_of_mem himported
    · exact Import.ofLine?_text (hplain.imports imported (List.mem_of_mem_take himported))
  · rw [importsOf_createDto hplain, filter_names_createDtoImports, checkedNames_eq options]
  · rw [importsOf_createDto hplain, exists_decimal_import_iff, exists_decimal_property_iff]

theorem createDto_imports_use_ware :
    ((importsOf (file {} ware .createDto).content).flatMap Import.names).filter
        checkNames.contains = ["IsString", "IsNumber", "IsArray"] ∧
      ∃ imported ∈ importsOf (file {} ware .createDto).content, "Decimal" ∈ imported.names := by
  have hpaths : (Options.imports {}).ArePlain := by decide
  obtain ⟨properties, hread, -, hchecks, hdecimal⟩ := createDto_imports_use ware_mem_models hpaths
  rw [propertiesOf?_createDto {} (Schema.isWellRead_of_mem_models ware_mem_models)] at hread
  obtain rfl := Option.some.inj hread
  constructor
  · rw [hchecks]
    decide +kernel
  · refine hdecimal.mpr ⟨payloadProperty {} ware
      ⟨"price", "Decimal", false, false, false, false, true, none, 3⟩, ?_, ?_⟩
    · exact List.mem_map_of_mem (by decide)
    · exact Or.inr (by decide)

end Scaffold.Artifact
