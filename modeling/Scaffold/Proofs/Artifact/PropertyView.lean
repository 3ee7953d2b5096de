import Scaffold.Proofs.Artifact.ClassBody
import Scaffold.Proofs.Text.Outer
import Scaffold.Schema.Scalar

/-!
Properties, read from the lines of a class. The reader is strict: below the head of the class every
line has to decorate a property, to declare one, to be empty between two of them, or to close the
class. A class of nothing but properties reads back as these properties (`propertiesOf?_render`).
What a property shows (`PropertyView`) is found in its declaration and in the names of its decorators.
-/

namespace Scaffold.Artifact

open Text
open Schema (Validator)

/-! ### Reading lines -/

/-- The property that a line declares below some decorators. -/
def Property.ofDeclaration? (decorators : List String) (line : List Char) : Option Property :=
  (dropSuffix? [';'] line).bind fun declaration =>
    (cutAt? ':' declaration).map fun (name, type) =>
      match dropSuffix? ['?'] name with
      | some bare => ⟨decorators, String.ofList bare, true, String.ofList (trim type)⟩
      | none => ⟨decorators, String.ofList name, false, String.ofList (trim type)⟩

/-- The properties in the lines of a class up to the line that closes it, given the decorators above
the first line. -/
def properties? (decorators : List String) : List (List Char) → Option (List Property)
  | [] => none
  | line :: rest =>
    if line = ['\x7d'] then if rest = [] ∧ decorators = [] then some [] else none
    else if line = [] ∧ decorators = [] then properties? [] rest
    else if line.head? = some '@' then properties? (decorators ++ [String.ofList line]) rest
    else
      (Property.ofDeclaration? decorators line).bind fun property =>
        (properties? [] rest).map fun more => property :: more

/-- The properties of a class. Behind the head of a class without members stands nothing. -/
def propertiesOf? (content : String) : Option (List Property) :=
  if classBody content = [] then some [] else properties? [] (classBody content)

/-! ### Declarations -/

/-- A property that can be read back. -/
structure Property.IsReadable (property : Property) : Prop where
  decorators : ∀ decorator ∈ property.decorators,
    decorator.toList.head? = some '@' ∧ IsTrimmed decorator.toList
  name : isWord property.name.toList = true
  type : IsTrimmed property.type.toList

/-- The line that declares a property. -/
def Property.declarer (property : Property) : String :=
  property.name ++ (if property.isOptional then "?" else "") ++ ": " ++ property.type ++ ";"

/-- A mark behind the name is the only sign that a property may be left out, and words have none. -/
theorem Property.ofDeclaration?_declarer {property : Property} (h : property.IsReadable) :
    ofDeclaration? property.decorators property.declarer.toList = some property := by
  obtain ⟨decorators, name, isOptional, type⟩ := property
  obtain ⟨-, hname, htype⟩ := h
  have htrim : trim (' ' :: type.toList) = type.toList := by
    have := @trim_append_left [' '] (by decide) type.toList
    rw [List.singleton_append] at this
    rw [this, trim_eq_self htype]
  have hcolon : ':' ∉ name.toList := not_mem_of_isWord hname (by decide)
  have hmark : '?' ∉ name.toList := not_mem_of_isWord hname (by decide)
  cases isOptional with
  | true =>
    have htext : (declarer ⟨decorators, name, true, type⟩).toList =
        (name.toList ++ ['?']) ++ ':' :: ' ' :: type.toList ++ [';'] := by
      simp [declarer]
    have hfront : ':' ∉ name.toList ++ ['?'] := by simp [hcolon]
    rw [htext, ofDeclaration?, dropSuffix?_append, Option.bind_some, cutAt?_append hfront]
    simp [dropSuffix?_append, htrim]
  | false =>
    have htext : (declarer ⟨decorators, name, false, type⟩).toList =
        name.toList ++ ':' :: ' ' :: type.toList ++ [';'] := by
      simp [declarer]
    have hnone : dropSuffix? ['?'] name.toList = none :=
      dropSuffix?_eq_none (by decide) fun heq => hmark (List.mem_of_getLast? heq)
    rw [htext, ofDeclaration?, dropSuffix?_append, Option.bind_some, cutAt?_append hcolon]
    simp [hnone, htrim]

theorem Property.map_lines (property : Property) :
    property.lines.map Line.text = property.decorators ++ [property.declarer] := by
  simp [lines, declarer, Function.comp_def]

/-- A declaration begins with its name and ends with a semicolon. -/
theorem Property.exists_declarer_eq {property : Property} (h : property.IsReadable) :
    ∃ c middle, property.declarer.toList = c :: middle ++ [';'] ∧ isWordChar c = true := by
  obtain ⟨hne, hchars⟩ := isWord_iff.mp h.name
  obtain ⟨c, more, hname⟩ := List.exists_cons_of_ne_nil hne
  refine ⟨c, more ++ ((if property.isOptional then "?" else "") ++ ": " ++ property.type).toList, ?_,
    hchars c (by simp [hname])⟩
  simp [declarer, hname]

theorem Property.isTrimmed_declarer {property : Property} (h : property.IsReadable) :
    IsTrimmed property.declarer.toList := by
  obtain ⟨c, middle, htext, hc⟩ := exists_declarer_eq h
  rw [htext]
  exact isTrimmed_of_ends (isBlank_eq_false_of_isWordChar hc) (by decide)

/-- A property is its decorators and its declaration, trimmed already. -/
theorem Property.trimmedTexts_lines {property : Property} (h : property.IsReadable) :
    trimmedTexts property.lines =
      property.decorators.map String.toList ++ [property.declarer.toList] := by
  have hdecorators : (property.decorators.map fun decorator => trim decorator.toList) =
      property.decorators.map String.toList :=
    List.map_congr_left fun decorator hmem => trim_eq_self (h.decorators decorator hmem).2
  have htexts : trimmedTexts property.lines =
      (property.lines.map Line.text).map fun text => trim text.toList := by
    simp [trimmedTexts, Function.comp_def]
  rw [htexts, map_lines, List.map_append, hdecorators]
  simp [trim_eq_self (isTrimmed_declarer h)]

/-! ### Classes -/

/-- Decorators are collected until the declaration that they stand above. -/
theorem properties?_decorators {decorators : List String}
    (h : ∀ decorator ∈ decorators, decorator.toList.head? = some '@') (above : List String)
    (rest : List (List Char)) :
    properties? above (decorators.map String.toList ++ rest) =
      properties? (above ++ decorators) rest := by
  induction decorators generalizing above with
  | nil => simp
  | cons decorator more ih =>
    obtain ⟨hhead, hmore⟩ := List.forall_mem_cons.mp h
    have hclosing : decorator.toList ≠ ['\x7d'] := fun heq => by simp [heq] at hhead
    have hempty : ¬(decorator.toList = [] ∧ above = []) := fun ⟨heq, _⟩ => by simp [heq] at hhead
    rw [List.map_cons, List.cons_append, properties?, if_neg hclosing, if_neg hempty, if_pos hhead,
      ih hmore]
    simp

/-- The lines of a property are read as this property. -/
theorem properties?_property {property : Property} (h : property.IsReadable)
    (rest : List (List Char)) :
    properties? [] (trimmedTexts property.lines ++ rest) =
      (properties? [] rest).map fun more => property :: more := by
  obtain ⟨c, middle, htext, hc⟩ := Property.exists_declarer_eq h
  have hclosing : property.declarer.toList ≠ ['\x7d'] := fun heq => by
    obtain ⟨rfl, -⟩ := List.cons.inj (htext.symm.trans heq)
    exact absurd hc (by decide)
  have hempty : ¬(property.declarer.toList = [] ∧ property.decorators = []) := fun ⟨heq, _⟩ => by
    simp [htext] at heq
  have hhead : property.declarer.toList.head? ≠ some '@' := fun heq => by
    obtain rfl : c = '@' := by simpa [htext] using heq
    exact absurd hc (by decide)
  rw [Property.trimmedTexts_lines h, List.append_assoc,
    properties?_decorators fun decorator hmem => (h.decorators decorator hmem).1,
    List.nil_append, List.singleton_append, properties?, if_neg hclosing, if_neg hempty,
    if_neg hhead, Property.ofDeclaration?_declarer h, Option.bind_some]

/-- By induction on the properties, each below an empty line. -/
theorem properties?_members {properties : List Property} (h : ∀ property ∈ properties,
    property.IsReadable) :
    properties? [] ((properties.flatMap fun property => [] :: trimmedTexts property.lines) ++
      [['\x7d']]) = some properties := by
  induction properties with
  | nil => rfl
  | cons property rest ih =>
    obtain ⟨hproperty, hrest⟩ := List.forall_mem_cons.mp h
    rw [List.flatMap_cons, List.append_assoc, List.cons_append, properties?, if_neg (by decide),
      if_pos ⟨rfl, rfl⟩, properties?_property hproperty, ih hrest, Option.map_some]

/-- A class of nothing but properties is read back as these properties, whatever the file
imports. -/
theorem propertiesOf?_render {file : ClassFile} {properties : List Property}
    (h : file.HasPlainClass) (hmembers : file.members = properties.map .property)
    (hread : ∀ property ∈ properties, property.IsReadable) (indent : Indent) :
    propertiesOf? (file.render indent) = some properties := by
  rw [propertiesOf?, classBody_render h]
  cases properties with
  | nil =>
    have hbelow : file.below = [] := by simp [ClassFile.below, hmembers]
    rw [hbelow, trimmedTexts, List.map_nil, if_pos rfl]
  | cons first rest =>
    obtain ⟨hfirst, hrest⟩ := List.forall_mem_cons.mp hread
    have hbody : trimmedTexts file.below = trimmedTexts first.lines ++
        ((rest.flatMap fun property => [] :: trimmedTexts property.lines) ++ [['\x7d']]) := by
      rw [trimmedTexts_below hmembers, List.flatMap_map, Member.lines_property]
      rfl
    rw [hbody, if_neg (by simp), properties?_property hfirst, properties?_members hrest,
      Option.map_some]

/-! ### What a property shows -/

/-- What a client sees of a property. -/
structure PropertyView where
  name : String
  isOptional : Bool
  /-- The type of the property, or of each of its elements. -/
  type : String
  isArray : Bool
  /-- The decorator that validates the property by its type, if there is one. -/
  validator : Option Validator
deriving DecidableEq, Repr

/-- The name of a decorator, without the at sign and what stands in parentheses. -/
def decoratorName (decorator : String) : String :=
  String.ofList ((decorator.toList.drop 1).takeWhile isWordChar)

/-- Whether the property has a decorator of a given name. -/
def Property.uses (property : Property) (name : String) : Bool :=
  (property.decorators.map decoratorName).contains name

/-- What is seen of a property: its declaration, and by which type it is validated. -/
def Property.view (property : Property) : PropertyView where
  name := property.name
  isOptional := property.isOptional
  type := String.ofList ((dropSuffix? ['[', ']'] property.type.toList).getD property.type.toList)
  isArray := (dropSuffix? ['[', ']'] property.type.toList).isSome
  validator := Validator.all.find? fun validator => property.uses validator.decorator

/-- A property whose decorators agree with its declaration: it may be left out or not, an array is
decorated as one, and its type is validated on each element. -/
structure Property.IsDecorated (property : Property) : Prop where
  apiPropertyOptional : "@ApiPropertyOptional()" ∈ property.decorators ↔ property.isOptional = true
  isOptional : "@IsOptional()" ∈ property.decorators ↔ property.isOptional = true
  apiProperty : "@ApiProperty()" ∈ property.decorators ↔ property.isOptional = false
  isNotEmpty : "@IsNotEmpty()" ∈ property.decorators ↔ property.isOptional = false
  isArray : "@IsArray()" ∈ property.decorators ↔ property.view.isArray = true
  validator : ∀ validator, property.view.validator = some validator ↔
    "@" ++ validator.decorator ++
      (if property.view.isArray then "(\x7b each: true \x7d)" else "()") ∈ property.decorators

end Scaffold.Artifact
