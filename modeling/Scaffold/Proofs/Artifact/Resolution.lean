import Scaffold.Artifact.Kind
import Scaffold.Disk.Path

/-!
Import paths between the files of a module. `resolve` reads a path from the directory of the file
that imports. The path by which one file imports another (`specifier`) leads to that file
(`resolve_specifier`), and no two files have one path (`Kind.path_injective`), as long as neither
stem nor extension goes through a directory.
-/

namespace Scaffold.Artifact

open Disk (steps segments stay leave)

/-! ### Where a file stands -/

/-- The directory of a file, in the module's. -/
def Kind.directory : Kind → List String
  | .createDto | .updateDto => [dtoDirectory]
  | .repository | .service | .controller | .wiring => []

/-- The name of a file, without its extension. -/
def Kind.bareName (stem : String) : Kind → String
  | .createDto => dtoFile "create" stem
  | .updateDto => dtoFile "update" stem
  | .repository => stem ++ ".repository"
  | .service => stem ++ ".service"
  | .controller => stem ++ ".controller"
  | .wiring => stem ++ ".module"

/-- A name of a directory or a file: no step of a path but it. -/
structure IsStepName (name : String) : Prop where
  ne_nil : name.toList ≠ []
  no_slash : '/' ∉ name.toList
  ne_stay : name ≠ stay
  ne_leave : name ≠ leave

theorem Kind.barePath_eq (kind : Kind) (stem : String) :
    kind.barePath stem = "/".intercalate (kind.directory ++ [kind.bareName stem]) := by
  refine String.toList_injective ?_
  rw [String.toList_intercalate]
  cases kind with
  | createDto | updateDto => simp [barePath, directory, bareName]
  | repository | service | controller | wiring => simp [barePath, directory, bareName]

theorem Kind.path_eq (kind : Kind) (stem extension : String) :
    kind.path stem extension =
      "/".intercalate (kind.directory ++ [kind.bareName stem ++ "." ++ extension]) := by
  rw [path, barePath_eq]
  refine String.toList_injective ?_
  simp only [String.toList_append, String.toList_intercalate]
  cases kind with
  | createDto | updateDto => simp [directory]
  | repository | service | controller | wiring => simp [directory]

theorem Kind.isStepName_of_mem_directory (kind : Kind) : ∀ name ∈ kind.directory, IsStepName name := by
  have hdto : IsStepName dtoDirectory := ⟨by decide, by decide, by decide, by decide⟩
  cases kind with
  | createDto | updateDto => simpa [directory] using hdto
  | repository | service | controller | wiring => simp [directory]

/-- A long text is none of the two steps that are dots. -/
theorem isStepName_of_length {name : String} (hlength : 2 < name.toList.length)
    (no_slash : '/' ∉ name.toList) : IsStepName name where
  ne_nil := by
    intro h
    simp [h] at hlength
  no_slash := no_slash
  ne_stay := by
    rintro rfl
    exact absurd hlength (by decide)
  ne_leave := by
    rintro rfl
    exact absurd hlength (by decide)

theorem Kind.isStepName_bareName {stem : String} (hstem : '/' ∉ stem.toList) (kind : Kind) :
    IsStepName (kind.bareName stem) := by
  refine isStepName_of_length ?_ ?_
  · cases kind with
    | createDto | updateDto => simp [bareName, dtoFile]
    | repository | service | controller | wiring => simp [bareName]
  · cases kind with
    | createDto | updateDto => simp [bareName, dtoFile, hstem]
    | repository | service | controller | wiring => simp [bareName, hstem]

/-- The name of a file with an extension that is no path. -/
theorem Kind.isStepName_fileName {stem : String} (hstem : '/' ∉ stem.toList) {extension : String}
    (hextension : '/' ∉ extension.toList) (kind : Kind) :
    IsStepName (kind.bareName stem ++ "." ++ extension) := by
  have hbare := kind.isStepName_bareName hstem
  refine isStepName_of_length ?_ ?_
  · cases kind with
    | createDto | updateDto => simp [bareName, dtoFile]
    | repository | service | controller | wiring =>
      simp [bareName]
      omega
  · simp [hbare.no_slash, hextension]

/-- In one directory, files have names of their own. -/
theorem Kind.eq_of_bareName_eq {stem : String} {first second : Kind}
    (hdirectory : first.directory = second.directory)
    (hname : (first.bareName stem).toList = (second.bareName stem).toList) : first = second := by
  cases first with
  | createDto =>
    cases second with
    | createDto => rfl
    | updateDto => simp [bareName, dtoFile] at hname
    | repository | service | controller | wiring => simp [directory] at hdirectory
  | updateDto =>
    cases second with
    | createDto => simp [bareName, dtoFile] at hname
    | updateDto => rfl
    | repository | service | controller | wiring => simp [directory] at hdirectory
  | repository =>
    cases second with
    | createDto | updateDto => simp [directory] at hdirectory
    | repository => rfl
    | service | controller | wiring => simp [bareName] at hname
  | service =>
    cases second with
    | createDto | updateDto => simp [directory] at hdirectory
    | service => rfl
    | repository | controller | wiring => simp [bareName] at hname
  | controller =>
    cases second with
    | createDto | updateDto => simp [directory] at hdirectory
    | controller => rfl
    | repository | service | wiring => simp [bareName] at hname
  | wiring =>
    cases second with
    | createDto | updateDto => simp [directory] at hdirectory
    | wiring => rfl
    | repository | service | controller => simp [bareName] at hname

/-! ### Steps -/

/-- A path that was put together goes through the parts it was made of. -/
theorem steps_intercalate {parts : List String}
    (h : ∀ part ∈ parts, part.toList ≠ [] ∧ '/' ∉ part.toList) :
    steps ("/".intercalate parts) = parts := by
  have hkeep : parts.filter (fun part => !part.isEmpty) = parts := by
    refine List.filter_eq_self.mpr fun part hpart => ?_
    have hne := (h part hpart).1
    simpa [String.isEmpty_iff] using hne
  cases hparts : parts with
  | nil => rfl
  | cons first rest =>
    have hsplit : ("/".intercalate parts).toList.splitOn '/' = parts.map String.toList := by
      rw [String.toList_intercalate]
      refine List.splitOn_intercalate '/' ?_ (by simp [hparts])
      intro text htext
      obtain ⟨part, hpart, rfl⟩ := List.mem_map.mp htext
      exact (h part hpart).2
    rw [← hparts, steps, segments, hsplit]
    simpa [Function.comp_def] using hkeep

/-- Where one step leads from a directory. Only a directory that has a name can be left by going
back; above it the steps are kept. -/
def walk (directory : List String) (step : String) : List String :=
  if step = stay then directory
  else if step = leave then
    match directory.getLast? with
    | none => [leave]
    | some last => if last = leave then directory ++ [leave] else directory.dropLast
  else directory ++ [step]

/-- The path that a file means by an import path: it is read from the file's directory. -/
def resolve (importing path : String) : String :=
  "/".intercalate ((steps path).foldl walk (steps importing).dropLast)

theorem walk_stay (directory : List String) : walk directory stay = directory :=
  if_pos rfl

theorem foldl_walk {names : List String} (h : ∀ name ∈ names, IsStepName name)
    (directory : List String) : names.foldl walk directory = directory ++ names := by
  induction names generalizing directory with
  | nil => simp
  | cons name rest ih =>
    have hname := h name (List.mem_cons_self ..)
    have hstep : walk directory name = directory ++ [name] := by
      rw [walk, if_neg hname.ne_stay, if_neg hname.ne_leave]
    rw [List.foldl_cons, hstep, ih fun other mem => h other (List.mem_cons_of_mem _ mem)]
    simp

/-! ### Import paths -/

/-- The names that lead from a file to another one, which stands beside it or in a directory of
the importing file's own. -/
def Kind.way (stem : String) (importer target : Kind) : List String :=
  (if importer.directory = target.directory then [] else target.directory) ++ [target.bareName stem]

/-- The path by which a file imports another one. -/
def specifier (stem : String) (importer target : Kind) : String :=
  "/".intercalate (stay :: importer.way stem target)

theorem Kind.isStepName_of_mem_way {stem : String} (hstem : '/' ∉ stem.toList)
    (importer target : Kind) : ∀ name ∈ importer.way stem target, IsStepName name := by
  intro name hname
  rcases List.mem_append.mp hname with hname | hname
  · split at hname
    · cases hname
    · exact target.isStepName_of_mem_directory name hname
  · rw [List.mem_singleton.mp hname]
    exact target.isStepName_bareName hstem

theorem Kind.steps_path {stem extension : String} (hstem : '/' ∉ stem.toList)
    (hextension : '/' ∉ extension.toList) (kind : Kind) :
    steps (kind.path stem extension) =
      kind.directory ++ [kind.bareName stem ++ "." ++ extension] := by
  rw [path_eq]
  refine steps_intercalate fun part hpart => ?_
  rcases List.mem_append.mp hpart with hpart | hpart
  · have hname := kind.isStepName_of_mem_directory part hpart
    exact ⟨hname.ne_nil, hname.no_slash⟩
  · have hname := kind.isStepName_bareName hstem
    rw [List.mem_singleton.mp hpart]
    exact ⟨by simp, by simp [hname.no_slash, hextension]⟩

theorem steps_specifier {stem : String} (hstem : '/' ∉ stem.toList) (importer target : Kind) :
    steps (specifier stem importer target) = stay :: importer.way stem target := by
  refine steps_intercalate fun part hpart => ?_
  rcases List.mem_cons.mp hpart with rfl | hpart
  · decide
  · have hname := importer.isStepName_of_mem_way hstem target part hpart
    exact ⟨hname.ne_nil, hname.no_slash⟩

/-- The path by which a file imports another leads to it. -/
theorem resolve_specifier {stem extension : String} (hstem : '/' ∉ stem.toList)
    (hextension : '/' ∉ extension.toList) {importer target : Kind}
    (hreach : importer.directory = target.directory ∨ importer.directory = []) :
    resolve (importer.path stem extension) (specifier stem importer target) =
      target.barePath stem := by
  have hway : importer.directory ++ importer.way stem target =
      target.directory ++ [target.bareName stem] := by
    unfold Kind.way
    split
    next hsame => rw [hsame, List.nil_append]
    next hother =>
      rcases hreach with hsame | hroot
      · exact absurd hsame hother
      · rw [hroot, List.nil_append]
  rw [resolve, steps_specifier hstem, importer.steps_path hstem hextension, List.dropLast_concat,
    List.foldl_cons, walk_stay, foldl_walk (importer.isStepName_of_mem_way hstem target), hway,
    Kind.barePath_eq]

/-- No two files of a module have one path. -/
theorem Kind.path_injective {stem extension : String} (hstem : '/' ∉ stem.toList)
    (hextension : '/' ∉ extension.toList) {first second : Kind}
    (h : first.path stem extension = second.path stem extension) : first = second := by
  have hsteps := congrArg steps h
  rw [steps_path hstem hextension, steps_path hstem hextension] at hsteps
  obtain ⟨hdirectory, hname⟩ := List.append_inj' hsteps rfl
  refine @eq_of_bareName_eq stem _ _ hdirectory ?_
  simpa using congrArg String.toList (List.singleton_inj.mp hname)

end Scaffold.Artifact
