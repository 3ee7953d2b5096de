import Scaffold.Artifact.ClassFile
import Scaffold.Proofs.Text.Cut
import Scaffold.Proofs.Text.Lines

/-!
The text of generated code, read as lines. If no line of code holds a line feed, the lines of the
text are the lines of code, each with its indentation before it (`lines_renderLines`).
-/

namespace Scaffold.Artifact

open Text

/-- A text on one line. -/
def OneLine (text : String) : Prop :=
  '\n' ∉ text.toList

instance (text : String) : Decidable (OneLine text) :=
  inferInstanceAs (Decidable ('\n' ∉ text.toList))

@[simp] theorem oneLine_append {first second : String} :
    OneLine (first ++ second) ↔ OneLine first ∧ OneLine second := by
  simp [OneLine]

/-- A word breaks no line, and most names in generated code are words. -/
theorem oneLine_of_isWord {text : String} (h : isWord text.toList = true) : OneLine text :=
  not_mem_of_isWord h (by decide)

@[simp] theorem oneLine_braced {inner : String} : OneLine (braced inner) ↔ OneLine inner := by
  simp [OneLine, braced]

@[simp] theorem oneLine_quoted {inner : String} : OneLine (quoted inner) ↔ OneLine inner := by
  simp [OneLine, quoted]

/-- An enumeration of strings is that of their characters. -/
theorem toList_commaSeparated (parts : List String) :
    (commaSeparated parts).toList = enumeration (parts.map String.toList) := by
  simp [commaSeparated, enumeration, String.toList_intercalate]

/-- A character of joined texts is one of the separator or of a text. -/
theorem not_mem_intercalate {separator : String} {parts : List String} {c : Char}
    (hseparator : c ∉ separator.toList) (h : ∀ part ∈ parts, c ∉ part.toList) :
    c ∉ (separator.intercalate parts).toList := by
  intro mem
  rw [String.toList_intercalate] at mem
  rcases mem_intercalate mem with mem | ⟨text, htext, mem⟩
  · exact hseparator mem
  · obtain ⟨part, hpart, rfl⟩ := List.mem_map.mp htext
    exact h part hpart mem

theorem oneLine_intercalate {separator : String} {parts : List String} (hseparator : OneLine separator)
    (h : ∀ part ∈ parts, OneLine part) : OneLine (separator.intercalate parts) :=
  not_mem_intercalate hseparator h

/-- An enumeration breaks no line. -/
theorem oneLine_commaSeparated {parts : List String} (h : ∀ part ∈ parts, OneLine part) :
    OneLine (commaSeparated parts) :=
  oneLine_intercalate (by decide) h

/-- The names in an enumeration. -/
def namesIn (text : List Char) : List String :=
  if trim text = [] then [] else (((trim text).splitOn ',').map trim).map String.ofList

/-- An enumeration of words reads as these words, with blank space on either side or not. -/
theorem namesIn_commaSeparated {names : List String}
    (h : ∀ name ∈ names, isWord name.toList = true) {left right : List Char}
    (hleft : IsBlankText left) (hright : IsBlankText right) :
    namesIn (left ++ (commaSeparated names).toList ++ right) = names := by
  have hword : ∀ part ∈ names.map String.toList, isWord part = true :=
    List.forall_mem_map.mpr h
  have hne : ∀ part ∈ names.map String.toList, part ≠ [] :=
    fun part hpart => (isWord_iff.mp (hword part hpart)).1
  have htrim : trim (left ++ (commaSeparated names).toList ++ right) =
      enumeration (names.map String.toList) := by
    rw [toList_commaSeparated]
    exact trim_pad hleft hright
      (isTrimmed_enumeration hne fun part hpart => isTrimmed_of_isWord (hword part hpart))
  rw [namesIn, htrim]
  cases hnames : names with
  | nil => rfl
  | cons name rest =>
    have hparts : names.map String.toList ≠ [] := by simp [hnames]
    rw [← hnames, if_neg (enumeration_ne_nil hparts hne),
      splitOn_enumeration hparts (fun part hpart => not_mem_of_isWord (hword part hpart) (by decide))
        fun part hpart => isTrimmed_of_isWord (hword part hpart)]
    simp [Function.comp_def]

/-- A line of code as it stands in the text. -/
def Line.shown (indent : Indent) (line : Line) : List Char :=
  if line.text.isEmpty then [] else (indent.levels line.depth).toList ++ line.text.toList

/-- Outside of the class nothing is indented. -/
@[simp] theorem Line.shown_zero (indent : Indent) (text : String) :
    Line.shown indent ⟨0, text⟩ = text.toList := by
  unfold Line.shown
  split
  next h =>
    have hempty : text = "" := String.isEmpty_iff.mp h
    rw [hempty]
    rfl
  next => simp [Indent.levels]

/-- Indentation is blank in all three styles, so trimming a line takes it away. -/
theorem isBlankText_levels (indent : Indent) (depth : Nat) :
    IsBlankText (indent.levels depth).toList := by
  have unit : IsBlankText indent.unit.toList := by
    cases indent with
    | twoSpaces => decide
    | fourSpaces => decide
    | tab => decide
  induction depth with
  | zero => simp [Indent.levels, IsBlankText]
  | succ depth ih =>
    intro c hc
    rw [Indent.levels, String.toList_append, List.mem_append] at hc
    rcases hc with hc | hc
    · exact unit c hc
    · exact ih c hc

/-- An indented line begins with blank space, if it is not empty. -/
theorem Line.isBlank_head_shown {line : Line} (h : 0 < line.depth) (indent : Indent) :
    ∀ c ∈ (line.shown indent).head?, isBlank c = true := by
  intro c hc
  unfold Line.shown at hc
  split at hc
  · simp at hc
  · obtain ⟨depth, hdepth⟩ := Nat.exists_eq_add_of_lt h
    have hlevels := isBlankText_levels indent line.depth
    have hunit : indent.unit.toList ≠ [] := by
      cases indent with
      | twoSpaces => decide
      | fourSpaces => decide
      | tab => decide
    obtain ⟨d, rest, hunit⟩ := List.exists_cons_of_ne_nil hunit
    rw [hdepth, Nat.zero_add, Indent.levels, String.toList_append, hunit] at hlevels hc
    obtain rfl : d = c := by simpa using hc
    exact hlevels d (by simp)

/-- Indentation breaks no line either. -/
theorem newline_not_mem_levels (indent : Indent) (depth : Nat) :
    '\n' ∉ (indent.levels depth).toList := by
  have unit : '\n' ∉ indent.unit.toList := by
    cases indent with
    | twoSpaces => decide
    | fourSpaces => decide
    | tab => decide
  induction depth with
  | zero => simp [Indent.levels]
  | succ depth ih => simp [Indent.levels, unit, ih]

/-- Rendering ends every line, the last one too. -/
theorem toList_renderLines (indent : Indent) (content : List Line) :
    (renderLines indent content).toList = unlines (content.map (Line.shown indent)) := by
  induction content with
  | nil => rfl
  | cons line rest ih =>
    have hline : (line.render indent).toList = line.shown indent ++ ['\n'] := by
      unfold Line.render Line.shown
      split
      · rfl
      · simp [String.toList_append]
    rw [renderLines, String.toList_join] at ih ⊢
    rw [List.map_cons, List.map_cons, List.flatMap_cons, hline, ih, unlines_cons]
    simp

/-- What is rendered can be cut between any two lines. -/
theorem renderLines_append (indent : Indent) (first second : List Line) :
    (renderLines indent (first ++ second)).toList =
      (renderLines indent first).toList ++ (renderLines indent second).toList := by
  simp [toList_renderLines, unlines_append]

/-- The text of some lines of code reads as these lines. -/
theorem lines_renderLines (indent : Indent) {content : List Line}
    (h : ∀ line ∈ content, OneLine line.text) :
    lines (renderLines indent content).toList = content.map (Line.shown indent) := by
  rw [toList_renderLines]
  refine lines_unlines fun text htext => ?_
  obtain ⟨line, hline, rfl⟩ := List.mem_map.mp htext
  unfold Line.shown
  split
  · simp
  · simp only [List.mem_append, not_or]
    exact ⟨newline_not_mem_levels indent line.depth, h line hline⟩

/-! ### Members of a class -/

/-- A line in the body of a class: it is indented, and not empty. -/
structure Line.IsInner (line : Line) : Prop where
  depth : 0 < line.depth
  text_ne_nil : line.text.toList ≠ []
  text : OneLine line.text

@[simp] theorem Member.lines_property (declared : Property) :
    (Member.property declared).lines = declared.lines := rfl

@[simp] theorem Member.lines_injection (declared : Injection) :
    (Member.injection declared).lines = declared.lines := rfl

@[simp] theorem Member.lines_method (declared : Method) :
    (Member.method declared).lines = declared.lines := rfl

@[simp] theorem Member.lines_fixed (text : List Line) : (Member.fixed text).lines = text := rfl

@[simp] theorem Parameter.text_bare (name type : String) :
    text ⟨none, name, type⟩ = name ++ ": " ++ type := rfl

@[simp] theorem Parameter.text_decorated (decorator name type : String) :
    text ⟨some decorator, name, type⟩ = decorator ++ " " ++ name ++ ": " ++ type := rfl

/-- A parameter on one line. -/
structure Parameter.IsOneLine (parameter : Parameter) : Prop where
  decorator : ∀ decorator ∈ parameter.decorator, OneLine decorator
  name : OneLine parameter.name
  type : OneLine parameter.type

theorem Parameter.IsOneLine.text {parameter : Parameter} (h : parameter.IsOneLine) :
    OneLine parameter.text := by
  obtain ⟨hdecorator, hname, htype⟩ := h
  obtain ⟨decorator, name, type⟩ := parameter
  cases decorator with
  | none => simp_all +decide
  | some decorator => simp_all +decide

/-- A method whose lines are lines. -/
structure Method.IsOneLine (method : Method) : Prop where
  decorators : ∀ decorator ∈ method.decorators, OneLine decorator ∧ decorator.toList ≠ []
  name : OneLine method.name
  parameters : ∀ parameter ∈ method.parameters, parameter.IsOneLine
  result : OneLine method.result
  receiver : OneLine method.body.receiver
  callee : OneLine method.body.method
  arguments : ∀ argument ∈ method.body.arguments, OneLine argument

/-- The lines of a method are those of its decorators and three more, put together from its
parts. -/
theorem Method.IsOneLine.isInner {method : Method} (h : method.IsOneLine) :
    ∀ line ∈ method.lines, line.IsInner := by
  have hparameters : OneLine (parameterList method.parameters) := by
    refine oneLine_commaSeparated fun part hpart => ?_
    obtain ⟨parameter, hparameter, rfl⟩ := List.mem_map.mp hpart
    exact (h.parameters parameter hparameter).text
  have harguments := oneLine_commaSeparated h.arguments
  intro line hline
  simp only [lines, List.mem_append, List.mem_map, List.mem_cons, List.not_mem_nil, or_false]
    at hline
  rcases hline with ⟨decorator, hdecorator, rfl⟩ | rfl | rfl | rfl
  · obtain ⟨hone, hne⟩ := h.decorators decorator hdecorator
    exact ⟨Nat.one_pos, hne, hone⟩
  · refine ⟨Nat.one_pos, by simp [opening], ?_⟩
    cases method.isAsync with
    | true => simp +decide [opening, h.name, hparameters, h.result]
    | false => simp +decide [opening, h.name, hparameters, h.result]
  · refine ⟨Nat.two_pos, by simp, ?_⟩
    simp +decide [Call.text, h.receiver, h.callee, harguments]
  · exact ⟨Nat.one_pos, by simp [closing], by decide⟩

/-- A constructor that passes its property on takes three lines, and any other takes one. -/
theorem Injection.isInner {injection : Injection} (hname : OneLine injection.name)
    (htype : OneLine injection.type) : ∀ line ∈ injection.lines, line.IsInner := by
  intro line hline
  unfold lines at hline
  split at hline
  · simp only [List.mem_cons, List.not_mem_nil, or_false] at hline
    rcases hline with rfl | rfl | rfl
    · exact ⟨Nat.one_pos, by simp [opening], by simp +decide [opening, hname, htype]⟩
    · exact ⟨Nat.two_pos, by simp, by simp +decide [hname]⟩
    · exact ⟨Nat.one_pos, by simp [closing], by decide⟩
  · obtain rfl := List.mem_singleton.mp hline
    exact ⟨Nat.one_pos, by simp, by simp +decide [hname, htype]⟩

/-- Each decorator of a property has a line of its own, above the declaration. -/
theorem Property.isInner {property : Property}
    (hdecorators : ∀ decorator ∈ property.decorators, OneLine decorator ∧ decorator.toList ≠ [])
    (hname : OneLine property.name) (htype : OneLine property.type) :
    ∀ line ∈ property.lines, line.IsInner := by
  intro line hline
  rcases List.mem_append.mp hline with hline | hline
  · obtain ⟨decorator, hdecorator, rfl⟩ := List.mem_map.mp hline
    obtain ⟨hone, hne⟩ := hdecorators decorator hdecorator
    exact ⟨Nat.one_pos, hne, hone⟩
  · obtain rfl := List.mem_singleton.mp hline
    refine ⟨Nat.one_pos, by simp, ?_⟩
    cases property.isOptional with
    | true => simp +decide [hname, htype]
    | false => simp +decide [hname, htype]

end Scaffold.Artifact
