import Scaffold.Proofs.Artifact.Import

/-!
The class at the end of a file, read from the text of the file: its name (`declaredClass?_render`) and
its lines, without what indents them (`classBody_render`). Both are found whatever the file imports.
The lines are those of the members, with an empty line between two of them (`trimmedTexts_below`).
-/

namespace Scaffold.Artifact

open Text

/-- The lines of a class behind its head: those behind the last line that exports a class. -/
def classBody (content : String) : List (List Char) :=
  ((lines content.toList).reverse.takeWhile
    fun line => (exportedClass? line).isNone).reverse.map trim

/-- The texts of some lines, without what indents them. -/
def trimmedTexts (content : List Line) : List (List Char) :=
  content.map fun line => trim line.text.toList

/-- The class that a file declares: the last one that it exports. -/
def declaredClass? (content : String) : Option String :=
  (exportedClasses content).getLast?

theorem Line.trim_shown (indent : Indent) (line : Line) :
    trim (line.shown indent) = trim line.text.toList := by
  unfold shown
  split
  next h =>
    have hempty : line.text = "" := String.isEmpty_iff.mp h
    rw [hempty]
    rfl
  next => exact trim_append_left (isBlankText_levels indent line.depth) line.text.toList

section Class

variable {file : ClassFile}

/-- The text of a file ends with its class, whatever it imports. -/
theorem exists_lines_render (h : file.HasPlainClass) (indent : Indent) :
    ∃ front, lines (file.render indent).toList =
      front ++ file.exportLine.text.toList :: file.below.map (Line.shown indent) := by
  have hone : ∀ line ∈ file.exportLine :: file.below, OneLine line.text :=
    List.forall_mem_cons.mpr ⟨ClassFile.oneLine_exportLine h,
      fun line hline => (ClassFile.isOther_below h line hline).text⟩
  let imports := file.imports.map fun imported => Line.mk 0 imported.text
  have hsplit : file.lines = (imports ++ file.above) ++ file.exportLine :: file.below := by
    rw [ClassFile.lines_eq, List.append_assoc]
  obtain ⟨front, hfront⟩ := exists_lines_unlines_append
    ((imports ++ file.above).map (Line.shown indent))
    (renderLines indent (file.exportLine :: file.below)).toList
  refine ⟨front, ?_⟩
  rw [ClassFile.render, hsplit, renderLines_append, toList_renderLines, hfront,
    lines_renderLines indent hone]
  simp [ClassFile.exportLine]

/-- The last line that exports a class opens it. Imports stand above that line and cannot be
mistaken for members, and no line of a member exports anything. -/
theorem classBody_render (h : file.HasPlainClass) (indent : Indent) :
    classBody (file.render indent) = trimmedTexts file.below := by
  obtain ⟨front, hlines⟩ := exists_lines_render h indent
  -- Read from the end, the lines of the body come before the one that exports the class.
  have hbelow : ∀ line ∈ (file.below.map (Line.shown indent)).reverse,
      (exportedClass? line).isNone = true := by
    intro line hline
    obtain ⟨other, hother, rfl⟩ := List.mem_map.mp (List.mem_reverse.mp hline)
    rw [(ClassFile.isOther_below h other hother).exportedClass?_shown]
    rfl
  have hexport : ∀ line ∈ (file.exportLine.text.toList :: front.reverse).head?,
      (exportedClass? line).isNone = false := by
    intro line hline
    obtain rfl := Option.mem_some_iff.mp hline
    rw [ClassFile.exportedClass?_exportLine h]
    rfl
  rw [classBody, hlines, List.reverse_append, List.reverse_cons, List.append_assoc,
    List.singleton_append, takeWhile_append_stop hbelow hexport, List.reverse_reverse, List.map_map]
  exact List.map_congr_left fun line _ => line.trim_shown indent

/-- The class exported last is the one that the file is about. -/
theorem declaredClass?_render (h : file.HasPlainClass) (indent : Indent) :
    declaredClass? (file.render indent) = some file.name := by
  obtain ⟨front, hlines⟩ := exists_lines_render h indent
  rw [declaredClass?, exportedClasses, hlines, List.filterMap_append,
    List.filterMap_cons_some (ClassFile.exportedClass?_exportLine h),
    ClassFile.filterMap_exportedClass?_shown indent (ClassFile.isOther_below h)]
  simp

end Class

/-! ### Members -/

/-- Separators between parts stand in front of all parts but the first. -/
theorem flatten_intersperse_cons {α : Type} (separator first : List α) (rest : List (List α)) :
    (List.intersperse separator (first :: rest)).flatten =
      first ++ rest.flatMap fun part => separator ++ part := by
  induction rest generalizing first with
  | nil => simp
  | cons next more ih =>
    rw [List.intersperse_cons_cons, List.flatten_cons, List.flatten_cons, ih, List.flatMap_cons,
      List.append_assoc]

@[simp] theorem trimmedTexts_append (first second : List Line) :
    trimmedTexts (first ++ second) = trimmedTexts first ++ trimmedTexts second :=
  List.map_append

/-- Behind the head of a class stand its members, each but the first below an empty line, and the
line that closes the class. -/
theorem trimmedTexts_below {file : ClassFile} {first : Member} {rest : List Member}
    (h : file.members = first :: rest) :
    trimmedTexts file.below = trimmedTexts first.lines ++
      ((rest.flatMap fun member => [] :: trimmedTexts member.lines) ++ [['\x7d']]) := by
  have hbelow : file.below =
      (List.intersperse [Line.blank] (first.lines :: rest.map Member.lines)).flatten ++
        [closing 0] := by
    simp [ClassFile.below, h]
  have hblank : trim Line.blank.text.toList = [] := by decide
  have hclosing : trimmedTexts [closing 0] = [['\x7d']] := by decide
  have hrest : trimmedTexts ((rest.map Member.lines).flatMap fun part => [Line.blank] ++ part) =
      rest.flatMap fun member => [] :: trimmedTexts member.lines := by
    simp [trimmedTexts, List.map_flatMap, List.flatMap_map, hblank]
  rw [hbelow, flatten_intersperse_cons, trimmedTexts_append, trimmedTexts_append, hclosing, hrest,
    List.append_assoc]

end Scaffold.Artifact
