import Scaffold.Proofs.Artifact.ClassBody
import Scaffold.Proofs.Text.Outer

/-!
Methods, read from the lines of a class. What is read of a method (`MethodView`) are its
decorators, its name, its parameters, and the call whose result it returns. The lines of a class
that is an injection and methods read back as that injection and these methods
(`injected?_render`, `methodsOf_render`).
-/

namespace Scaffold.Artifact

open Text

/-! ### Reading lines -/

/-- What the text of a method shows. -/
structure MethodView where
  decorators : List String
  name : String
  parameters : List Parameter
  /-- What is called for the result. -/
  callee : String
  /-- What stands between the parentheses of the call. -/
  arguments : String
deriving DecidableEq, Repr

/-- What the text of a method is to show. -/
def Method.view (method : Method) : MethodView where
  decorators := method.decorators
  name := method.name
  parameters := method.parameters
  callee := method.body.receiver ++ "." ++ method.body.method
  arguments := commaSeparated method.body.arguments

@[simp] theorem Method.view_decorators (method : Method) :
    method.view.decorators = method.decorators := rfl

@[simp] theorem Method.view_name (method : Method) : method.view.name = method.name := rfl

@[simp] theorem Method.view_parameters (method : Method) :
    method.view.parameters = method.parameters := rfl

/-- A parameter with its name and its type, behind its decorator. -/
def Parameter.ofDeclaration? (decorator : Option String) (text : List Char) : Option Parameter :=
  (cutAt? ':' text).map fun (name, type) =>
    ⟨decorator, String.ofList (trim name), String.ofList (trim type)⟩

/-- The parameter that a text declares. A decorator ends at its closing parenthesis. -/
def Parameter.ofText? (text : List Char) : Option Parameter :=
  if text.head? = some '@' then
    (cutAt? ')' text).bind fun (front, declaration) =>
      ofDeclaration? (some (String.ofList (front ++ [')']))) declaration
  else ofDeclaration? none text

/-- The parameters between two parentheses. -/
def parameters? (text : List Char) : Option (List Parameter) :=
  if text = [] then some []
  else ((splitOuter 0 text).map trim).mapM Parameter.ofText?

/-- The name and the parameters of the method that a line opens. -/
def signature? (line : List Char) : Option (String × List Parameter) :=
  (dropSuffix? "> \x7b".toList line).bind fun head =>
    (cutAt? '(' head).bind fun (front, rest) =>
      (words front).getLast?.bind fun name =>
        (cutAtLast? ')' rest).bind fun (list, _) =>
          (parameters? list).map fun parameters => (String.ofList name, parameters)

/-- The call whose result a line returns: what is called, and with which arguments. -/
def returned? (line : List Char) : Option (String × String) :=
  (dropPrefix? "return ".toList line).bind fun rest =>
    (dropSuffix? ");".toList rest).bind fun call =>
      (cutAt? '(' call).map fun (callee, arguments) =>
        (String.ofList callee, String.ofList arguments)

/-- The methods in some lines, given the decorators above. A method is a line that opens it and a
line that returns the result of a call. -/
def methodViews (decorators : List String) : List (List Char) → List MethodView
  | [] => []
  | line :: rest =>
    if line.head? = some '@' then methodViews (decorators ++ [String.ofList line]) rest
    else
      ((signature? line).bind fun (name, parameters) =>
        (rest.head?.bind returned?).map fun (callee, arguments) =>
          ⟨decorators, name, parameters, callee, arguments⟩).toList ++ methodViews [] rest

/-- The name and the type of the property that a constructor on one line injects. -/
def injection? (line : List Char) : Option (String × String) :=
  (dropPrefix? "constructor(private readonly ".toList line).bind fun rest =>
    (dropSuffix? ") \x7b\x7d".toList rest).bind fun declaration =>
      (cutAt? ':' declaration).map fun (name, type) =>
        (String.ofList name, String.ofList (trim type))

/-! ### Parameters -/

/-- A decorator with its arguments in parentheses. -/
def IsDecoration (text : String) : Prop :=
  ∃ name inner, text.toList = '@' :: (name ++ '(' :: (inner ++ [')'])) ∧ isWord name = true ∧
    '(' ∉ inner ∧ ')' ∉ inner

/-- A parameter that can be read back. -/
structure Parameter.IsReadable (parameter : Parameter) : Prop where
  decorator : ∀ decorator ∈ parameter.decorator, IsDecoration decorator
  name : isWord parameter.name.toList = true
  type : isWord parameter.type.toList = true

/-- The first colon ends the name, as a word has none; blank space on both sides is trimmed away. -/
theorem Parameter.ofDeclaration?_text {pad : List Char} (hpad : IsBlankText pad) {name type : String}
    (hname : isWord name.toList = true) (htype : isWord type.toList = true)
    (decorator : Option String) :
    ofDeclaration? decorator (pad ++ (name.toList ++ ':' :: ' ' :: type.toList)) =
      some ⟨decorator, name, type⟩ := by
  have hcolon : ':' ∉ pad ++ name.toList := by
    intro mem
    rcases List.mem_append.mp mem with mem | mem
    · exact absurd (hpad ':' mem) (by decide)
    · exact not_mem_of_isWord hname (by decide) mem
  have htrimName : trim (pad ++ name.toList) = name.toList := by
    rw [trim_append_left hpad, trim_eq_self (isTrimmed_of_isWord hname)]
  have htrimType : trim (' ' :: type.toList) = type.toList := by
    have := @trim_append_left [' '] (by decide) type.toList
    rw [List.singleton_append] at this
    rw [this, trim_eq_self (isTrimmed_of_isWord htype)]
  rw [ofDeclaration?, ← List.append_assoc, cutAt?_append hcolon]
  simp [htrimName, htrimType]

/-- Reading undoes writing, for a parameter with a decorator or without. -/
theorem Parameter.ofText?_text {parameter : Parameter} (h : parameter.IsReadable) :
    ofText? parameter.text.toList = some parameter := by
  obtain ⟨decorator, name, type⟩ := parameter
  obtain ⟨hdecorator, hname, htype⟩ := h
  cases decorator with
  | none =>
    have htext : (text ⟨none, name, type⟩).toList =
        [] ++ (name.toList ++ ':' :: ' ' :: type.toList) := by
      simp
    have hhead : ([] ++ (name.toList ++ ':' :: ' ' :: type.toList)).head? ≠ some '@' := by
      obtain ⟨c, more, hcons⟩ := List.exists_cons_of_ne_nil (isWord_iff.mp hname).1
      have hat : '@' ∉ name.toList := not_mem_of_isWord hname (by decide)
      rw [hcons] at hat ⊢
      simp only [List.nil_append, List.cons_append, List.head?_cons, ne_eq, Option.some.injEq]
      rintro rfl
      exact hat (List.mem_cons_self ..)
    rw [htext, ofText?, if_neg hhead]
    exact ofDeclaration?_text (by simp [IsBlankText]) hname htype none
  | some decorator =>
    obtain ⟨front, inner, hfront, hword, _, hclose⟩ := hdecorator decorator rfl
    have htext : (text ⟨some decorator, name, type⟩).toList = ('@' :: (front ++ '(' :: inner)) ++
        ')' :: ([' '] ++ (name.toList ++ ':' :: ' ' :: type.toList)) := by
      simp [hfront]
    have hcut : ')' ∉ '@' :: (front ++ '(' :: inner) := by
      have hname : ')' ∉ front := not_mem_of_isWord hword (by decide)
      simp [hname, hclose]
    have hback : String.ofList ('@' :: (front ++ '(' :: inner) ++ [')']) = decorator := by
      rw [← String.ofList_toList (s := decorator), hfront]
      simp
    rw [htext, ofText?, if_pos (by simp), cutAt?_append hcut, Option.bind_some]
    simp only [hback]
    exact ofDeclaration?_text (by decide) hname htype (some decorator)

/-- A parameter is not split in an enumeration. -/
theorem Parameter.leads_text {parameter : Parameter} (h : parameter.IsReadable) :
    Leads parameter.text.toList 0 0 := by
  obtain ⟨decorator, name, type⟩ := parameter
  obtain ⟨hdecorator, hname, htype⟩ := h
  have plain : ∀ {text : List Char}, isWord text = true → '(' ∉ text ∧ ')' ∉ text ∧ ',' ∉ text :=
    fun hword => ⟨not_mem_of_isWord hword (by decide), not_mem_of_isWord hword (by decide),
      not_mem_of_isWord hword (by decide)⟩
  obtain ⟨hopen, hclose, hcomma⟩ := plain hname
  obtain ⟨hopen', hclose', hcomma'⟩ := plain htype
  have hdeclared : ∀ pad : List Char, '(' ∉ pad → ')' ∉ pad → ',' ∉ pad →
      Leads (pad ++ (name.toList ++ ':' :: ' ' :: type.toList)) 0 0 := by
    intro pad hpad hpad' hpad''
    refine leads_plain ?_ ?_ (Or.inr ?_)
    · simp [hpad, hopen, hopen']
    · simp [hpad', hclose, hclose']
    · simp [hpad'', hcomma, hcomma']
  cases decorator with
  | none => simpa using hdeclared [] (by simp) (by simp) (by simp)
  | some decorator =>
    obtain ⟨front, inner, hfront, hword, hinner, hinner'⟩ := hdecorator decorator rfl
    obtain ⟨hopenFront, hcloseFront, hcommaFront⟩ := plain hword
    have hstart : Leads ('@' :: front) 0 0 := by
      refine leads_plain ?_ ?_ (Or.inr ?_)
      · simp [hopenFront]
      · simp [hcloseFront]
      · simp [hcommaFront]
    have hall := (hstart.append (leads_parentheses hinner hinner')).append
      (hdeclared [' '] (by decide) (by decide) (by decide))
    simpa [hfront] using hall

/-- A word begins and ends a bare parameter; a decorated one begins with its mark. -/
theorem Parameter.isTrimmed_text {parameter : Parameter} (h : parameter.IsReadable) :
    IsTrimmed parameter.text.toList := by
  obtain ⟨decorator, name, type⟩ := parameter
  obtain ⟨hdecorator, hname, htype⟩ := h
  have hlast : ∀ front : List Char, (front ++ type.toList).getLast? = type.toList.getLast? :=
    getLast?_append_of_ne_nil (isWord_iff.mp htype).1
  cases decorator with
  | none =>
    constructor
    · obtain ⟨c, more, hcons⟩ := List.exists_cons_of_ne_nil (isWord_iff.mp hname).1
      have hhead := (isTrimmed_of_isWord hname).head
      rw [hcons] at hhead
      simpa [hcons] using hhead
    · have hlast := hlast (name.toList ++ ": ".toList)
      simp only [text_bare, String.toList_append, hlast]
      exact (isTrimmed_of_isWord htype).last
  | some decorator =>
    obtain ⟨front, inner, hfront, _⟩ := hdecorator decorator rfl
    constructor
    · simp [hfront, isBlank]
    · have hlast := hlast (decorator.toList ++ " ".toList ++ name.toList ++ ": ".toList)
      simp only [text_decorated, String.toList_append, hlast]
      exact (isTrimmed_of_isWord htype).last

theorem Parameter.text_ne_nil (parameter : Parameter) : parameter.text.toList ≠ [] := by
  obtain ⟨decorator, name, type⟩ := parameter
  cases decorator with
  | none => simp
  | some decorator => simp

/-- Reading undoes writing for lists of parameters: the empty text stands for the empty list alone,
as no parameter is written as nothing. -/
theorem parameters?_parameterList {parameters : List Parameter}
    (h : ∀ parameter ∈ parameters, parameter.IsReadable) :
    parameters? (parameterList parameters).toList = some parameters := by
  have htext : (parameterList parameters).toList =
      enumeration (parameters.map fun parameter => parameter.text.toList) := by
    rw [parameterList, toList_commaSeparated, List.map_map]
    rfl
  rw [htext, parameters?]
  cases hparameters : parameters with
  | nil => rfl
  | cons parameter rest =>
    rw [← hparameters]
    have htexts : parameters.map (fun parameter => parameter.text.toList) ≠ [] := by
      simp [hparameters]
    have hne := enumeration_ne_nil htexts
      (List.forall_mem_map.mpr fun parameter _ => parameter.text_ne_nil)
    have hsplit := splitOuter_enumeration htexts
      (List.forall_mem_map.mpr fun parameter hmem => Parameter.leads_text (h parameter hmem))
      (List.forall_mem_map.mpr fun parameter hmem => Parameter.isTrimmed_text (h parameter hmem))
    rw [if_neg hne, hsplit]
    exact mapM_map_eq_some fun parameter hmem => Parameter.ofText?_text (h parameter hmem)

/-! ### Methods -/

/-- A method that can be read back. -/
structure Method.IsReadable (method : Method) : Prop where
  decorators : ∀ decorator ∈ method.decorators,
    decorator.toList.head? = some '@' ∧ IsTrimmed decorator.toList
  name : isWord method.name.toList = true
  parameters : ∀ parameter ∈ method.parameters, parameter.IsReadable
  result : ')' ∉ method.result.toList
  receiver : '(' ∉ method.body.receiver.toList
  callee : '(' ∉ method.body.method.toList

/-- The line that opens a method. -/
def Method.opener (method : Method) : String :=
  (if method.isAsync then "async " else "") ++ method.name ++ "(" ++
    parameterList method.parameters ++ "): Promise<" ++ method.result ++ ">" ++ " \x7b"

/-- The line that returns the result of a method. -/
def Method.returner (method : Method) : String :=
  "return " ++ method.body.text ++ ";"

/-- Below its decorators a method is three lines, the last of which closes it. -/
theorem Method.map_lines (method : Method) :
    method.lines.map Line.text = method.decorators ++ [method.opener, method.returner, "\x7d"] := by
  simp [lines, opener, returner, opening, closing, Function.comp_def]

/-- The name is the last word before the first parenthesis, past `async` if that is there; the list
ends at the last parenthesis, since parameters may have parentheses of their own. -/
theorem signature?_opener {method : Method} (h : method.IsReadable) :
    signature? method.opener.toList = some (method.name, method.parameters) := by
  have hfront : '(' ∉ (if method.isAsync then "async " else "").toList ++ method.name.toList := by
    have hname : '(' ∉ method.name.toList := not_mem_of_isWord h.name (by decide)
    cases method.isAsync with
    | true => simp [hname]
    | false => simp [hname]
  have hwords : (words ((if method.isAsync then "async " else "").toList ++
      method.name.toList)).getLast? = some method.name.toList := by
    cases method.isAsync with
    | true =>
      have := @words_pair "async".toList [' '] method.name.toList [] (by decide) (by decide)
        (by decide) h.name (by simp [IsBlankText])
      rw [List.append_nil] at this
      exact congrArg List.getLast? this
    | false => simp [words_of_isWord h.name]
  have hresult : ')' ∉ ": Promise<".toList ++ method.result.toList := by
    simp [h.result]
  have hsuffix : dropSuffix? "> \x7b".toList method.opener.toList =
      some ((if method.isAsync then "async " else "").toList ++ method.name.toList ++
        '(' :: ((parameterList method.parameters).toList ++
          ')' :: (": Promise<".toList ++ method.result.toList))) := by
    rw [dropSuffix?_eq_some_iff]
    simp [Method.opener]
  rw [signature?, hsuffix, Option.bind_some, cutAt?_append hfront]
  simp only [Option.bind_some, hwords, cutAtLast?_append hresult,
    parameters?_parameterList h.parameters, Option.map_some, String.ofList_toList]

/-- The call is between `return` and the end of the line, and its arguments are read as one text. -/
theorem returned?_returner {method : Method} (h : method.IsReadable) :
    returned? method.returner.toList = some (method.view.callee, method.view.arguments) := by
  have hcallee : '(' ∉ method.view.callee.toList := by
    simp [Method.view, h.receiver, h.callee]
  have hprefix : dropPrefix? "return ".toList method.returner.toList =
      some (method.view.callee.toList ++ '(' :: method.view.arguments.toList ++ ");".toList) := by
    rw [dropPrefix?_eq_some_iff]
    simp [Method.returner, Method.view, Call.text]
  rw [returned?, hprefix, Option.bind_some, dropSuffix?_append, Option.bind_some,
    cutAt?_append hcallee]
  simp

/-- A line that neither decorates nor opens a method. -/
def IsPassedOver (line : List Char) : Prop :=
  line.head? ≠ some '@' ∧ line.getLast? ≠ some '{'

instance (line : List Char) : Decidable (IsPassedOver line) :=
  inferInstanceAs (Decidable (_ ∧ _))

/-- Only decorators and lines that end in a brace matter to the reader. A line of another kind also
ends the run of decorators above it. -/
theorem methodViews_passedOver {line : List Char} (h : IsPassedOver line) (decorators : List String)
    (rest : List (List Char)) : methodViews decorators (line :: rest) = methodViews [] rest := by
  have hsignature : signature? line = none := by
    rw [signature?, dropSuffix?_eq_none (by decide) h.2]
    rfl
  rw [methodViews, if_neg h.1, hsignature]
  rfl

/-- Decorators are collected until the line that they stand above. -/
theorem methodViews_decorators {decorators : List String}
    (h : ∀ decorator ∈ decorators, decorator.toList.head? = some '@') (above : List String)
    (rest : List (List Char)) :
    methodViews above (decorators.map String.toList ++ rest) =
      methodViews (above ++ decorators) rest := by
  induction decorators generalizing above with
  | nil => simp
  | cons decorator more ih =>
    rw [List.map_cons, List.cons_append, methodViews, if_pos (h decorator (List.mem_cons_self ..)),
      ih fun other mem => h other (List.mem_cons_of_mem _ mem)]
    simp

theorem isTrimmed_opener {method : Method} (h : method.IsReadable) :
    IsTrimmed method.opener.toList := by
  constructor
  · have hname := (isTrimmed_of_isWord h.name).head
    obtain ⟨c, more, hcons⟩ := List.exists_cons_of_ne_nil (isWord_iff.mp h.name).1
    rw [hcons] at hname
    unfold Method.opener
    cases method.isAsync with
    | true => simp [isBlank]
    | false => simpa [hcons] using hname
  · have hend : method.opener.toList = ((if method.isAsync then "async " else "") ++ method.name ++
        "(" ++ parameterList method.parameters ++ "): Promise<" ++ method.result ++ ">" ++
          " ").toList ++ ['\x7b'] := by
      simp [Method.opener]
    rw [hend, List.getLast?_concat]
    simp [isBlank]

theorem toList_returner (method : Method) :
    method.returner.toList = 'r' :: ("eturn " ++ method.body.text).toList ++ [';'] := by
  simp [Method.returner]

theorem isTrimmed_returner (method : Method) : IsTrimmed method.returner.toList := by
  rw [toList_returner]
  exact isTrimmed_of_ends (by decide) (by decide)

theorem isPassedOver_returner (method : Method) : IsPassedOver method.returner.toList := by
  rw [toList_returner]
  exact ⟨by simp, by rw [List.getLast?_concat]; decide⟩

/-- What is written of a readable method is trimmed already. -/
theorem trimmedTexts_method {method : Method} (h : method.IsReadable) :
    trimmedTexts method.lines =
      method.decorators.map String.toList ++
        [method.opener.toList, method.returner.toList, ['\x7d']] := by
  have hdecorators : (method.decorators.map fun decorator => trim decorator.toList) =
      method.decorators.map String.toList :=
    List.map_congr_left fun decorator hmem => trim_eq_self (h.decorators decorator hmem).2
  have htexts : trimmedTexts method.lines =
      (method.lines.map Line.text).map fun text => trim text.toList := by
    simp [trimmedTexts, Function.comp_def]
  have hclosing : trim "\x7d".toList = ['\x7d'] := by decide
  rw [htexts, Method.map_lines, List.map_append, hdecorators]
  simp only [List.map_cons, List.map_nil, trim_eq_self (isTrimmed_opener h),
    trim_eq_self (isTrimmed_returner method), hclosing]

/-- A method at the front of some lines is read first and leaves nothing behind. -/
theorem methodViews_method {method : Method} (h : method.IsReadable) (rest : List (List Char)) :
    methodViews [] (trimmedTexts method.lines ++ rest) = method.view :: methodViews [] rest := by
  have hhead : method.opener.toList.head? ≠ some '@' := by
    have hname : '@' ∉ method.name.toList := not_mem_of_isWord h.name (by decide)
    obtain ⟨c, more, hcons⟩ := List.exists_cons_of_ne_nil (isWord_iff.mp h.name).1
    rw [hcons] at hname
    have hc : c ≠ '@' := fun heq => hname (by simp [heq])
    unfold Method.opener
    cases method.isAsync with
    | true => simp
    | false => simp [hcons, hc]
  rw [trimmedTexts_method h, List.append_assoc,
    methodViews_decorators fun decorator hmem => (h.decorators decorator hmem).1]
  simp only [List.cons_append, List.nil_append]
  rw [methodViews, if_neg hhead, signature?_opener h, Option.bind_some, List.head?_cons,
    Option.bind_some, returned?_returner h, methodViews_passedOver (isPassedOver_returner method),
    methodViews_passedOver (by decide)]
  rfl

/-! ### Classes -/

/-- The methods of a class. -/
def methodsOf (content : String) : List MethodView :=
  methodViews [] (classBody content)

/-- The name and the type of the property that a class is injected. -/
def injected? (content : String) : Option (String × String) :=
  (classBody content).findSome? injection?

/-- A file with a class of one injection and some methods, all of which can be read back. -/
structure ClassFile.IsBasic (file : ClassFile) (injection : Injection) (methods : List Method) :
    Prop extends file.HasPlainClass where
  members_eq : file.members = .injection injection :: methods.map .method
  toBase : injection.toBase = false
  injected : isWord injection.name.toList = true
  type : isWord injection.type.toList = true
  methods : ∀ method ∈ methods, method.IsReadable

section Basic

variable {file : ClassFile} {injection : Injection} {methods : List Method}

/-- The line of an injection. -/
def Injection.liner (injection : Injection) : String :=
  "constructor(private " ++ ("readonly " ++ injection.name ++ ": " ++ injection.type) ++
    ") \x7b\x7d"

theorem Injection.liner_eq (injection : Injection) :
    injection.liner = "constructor(private " ++ ("readonly " ++ injection.name ++ ": " ++
      injection.type) ++ ") \x7b\x7d" :=
  rfl

/-- Without a base class to pass the property on to, the constructor stands on one line. -/
theorem Injection.lines_of_not_toBase (h : injection.toBase = false) :
    injection.lines = [⟨1, injection.liner⟩] := by
  rw [lines, h]
  rfl

theorem Injection.toList_liner (injection : Injection) :
    injection.liner.toList = "constructor(private readonly ".toList ++
      (injection.name.toList ++ ':' :: ' ' :: injection.type.toList ++ ") \x7b\x7d".toList) := by
  rw [Injection.liner_eq]
  simp

theorem Injection.liner_ends (injection : Injection) :
    injection.liner.toList = 'c' :: ("onstructor(private readonly " ++ injection.name ++
      ": " ++ injection.type ++ ") \x7b").toList ++ ['\x7d'] := by
  rw [Injection.liner_eq]
  simp

theorem trimmedTexts_injection (h : injection.toBase = false) :
    trimmedTexts injection.lines = [injection.liner.toList] := by
  have htrim : trim injection.liner.toList = injection.liner.toList := by
    rw [Injection.liner_ends]
    exact trim_eq_self (isTrimmed_of_ends (by decide) (by decide))
  rw [Injection.lines_of_not_toBase h, trimmedTexts, List.map_singleton, htrim]

/-- A constructor on one line reads as what it injects. -/
theorem injection?_liner (hname : isWord injection.name.toList = true)
    (htype : isWord injection.type.toList = true) :
    injection? injection.liner.toList = some (injection.name, injection.type) := by
  have hcolon : ':' ∉ injection.name.toList := not_mem_of_isWord hname (by decide)
  have htrim : trim (' ' :: injection.type.toList) = injection.type.toList := by
    have := @trim_append_left [' '] (by decide) injection.type.toList
    rw [List.singleton_append] at this
    rw [this, trim_eq_self (isTrimmed_of_isWord htype)]
  rw [injection?, Injection.toList_liner, dropPrefix?_append, Option.bind_some, dropSuffix?_append,
    Option.bind_some, cutAt?_append hcolon]
  simp [htrim]

/-- The class of a basic model, line by line: its members are set apart by empty lines. -/
theorem trimmedTexts_basic (h : file.IsBasic injection methods) :
    trimmedTexts file.below = injection.liner.toList ::
      ((methods.flatMap fun method => [] :: trimmedTexts method.lines) ++ [['\x7d']]) := by
  rw [trimmedTexts_below h.members_eq, Member.lines_injection, trimmedTexts_injection h.toBase,
    List.flatMap_map]
  rfl

/-- The methods of a basic class are read back. -/
theorem methodsOf_render (h : file.IsBasic injection methods) (indent : Indent) :
    methodsOf (file.render indent) = methods.map Method.view := by
  have hliner : IsPassedOver injection.liner.toList := by
    rw [Injection.liner_ends]
    exact ⟨by simp, by rw [List.getLast?_concat]; decide⟩
  have hread : ∀ list : List Method, (∀ method ∈ list, method.IsReadable) →
      methodViews [] ((list.flatMap fun method => [] :: trimmedTexts method.lines) ++ [['\x7d']]) =
        list.map Method.view := by
    -- Between two methods stands an empty line, which leaves the reader at the start of the next one.
    intro list hlist
    induction list with
    | nil => rfl
    | cons method rest ih =>
      rw [List.flatMap_cons, List.append_assoc, List.cons_append,
        methodViews_passedOver (by decide),
        methodViews_method (hlist method (List.mem_cons_self ..)),
        ih fun other mem => hlist other (List.mem_cons_of_mem _ mem), List.map_cons]
  rw [methodsOf, classBody_render h.toHasPlainClass, trimmedTexts_basic h,
    methodViews_passedOver hliner, hread methods h.methods]

/-- The injection of a basic class is read back. -/
theorem injected?_render (h : file.IsBasic injection methods) (indent : Indent) :
    injected? (file.render indent) = some (injection.name, injection.type) := by
  rw [injected?, classBody_render h.toHasPlainClass, trimmedTexts_basic h, List.findSome?_cons,
    injection?_liner h.injected h.type]

end Basic

end Scaffold.Artifact
