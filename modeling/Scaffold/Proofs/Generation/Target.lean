import Mathlib.Data.List.Nodup
import Scaffold.Generation.Plan
import Scaffold.Proofs.Artifact.Symbols
import Scaffold.Proofs.Disk.TextFile

/-!
Where the files of a plan go. With a directory of modules that never goes back, a model whose name
is a word and an extension without a slash, every target is a file in the directory of the module or
in that of its data transfer objects (`isFileIn_target`), and no two targets mean one place
(`placeOf_target_injective`). What is written depends on no more than that (`Plan.IsSited`).
-/

namespace Scaffold.Generation

open Artifact (IsStepName Kind Options Symbols file)
open Disk (EndsInName IsFileIn IsOrdinary Names directoryOf join placeOf)
open Schema (Model)
open Text (isWord)

/-- A stem of words and hyphens is the name of a directory. -/
theorem isStepName_stem {symbols : Symbols} (h : symbols.AreWords) : IsStepName symbols.stem where
  ne_nil := h.stem_ne_nil
  no_slash := h.not_mem_stem (by decide) (by decide)
  ne_stay := by
    intro eq
    exact h.not_mem_stem (c := '.') (by decide) (by decide) (by rw [eq]; decide)
  ne_leave := by
    intro eq
    exact h.not_mem_stem (c := '.') (by decide) (by decide) (by rw [eq]; decide)

theorem isStepName_dtoDirectory : IsStepName Artifact.dtoDirectory :=
  ⟨by decide, by decide, by decide, by decide⟩

namespace Plan

/-- The directory that a file of a given kind stands in. -/
def holder (plan : Plan) : Kind → String
  | .createDto | .updateDto => plan.dtoDirectory
  | .repository | .service | .controller | .wiring => plan.directory

/-- The paths of the files with the texts that they are to hold, in the order of writing. -/
def entries (plan : Plan) : List (String × String) :=
  plan.files.map fun file => (plan.target file, file.content)

theorem map_fst_entries (plan : Plan) : plan.entries.map Prod.fst = plan.targets := by
  simp [entries, targets, Function.comp_def]

/-- A plan for a module of a given name in a directory of modules: its files stand in the directory
of the module or in that of the data transfer objects, at places of their own, none of which is on
the way to a directory. -/
structure IsSited (plan : Plan) (root stem : String) : Prop where
  isOrdinary : IsOrdinary root
  isStepName : IsStepName stem
  directory : plan.directory = join root stem
  files : ∀ entry ∈ plan.entries,
    IsFileIn plan.directory entry.1 ∨ IsFileIn plan.dtoDirectory entry.1
  places : (plan.targets.map placeOf).Nodup
  apart : ∀ target ∈ plan.targets, ¬ placeOf target <+: placeOf plan.dtoDirectory

section

variable {plan : Plan} {root stem : String} (h : plan.IsSited root stem)

include h

theorem IsSited.names_directory : Names plan.directory (placeOf root) stem :=
  h.directory ▸ h.isOrdinary.names_join h.isStepName

theorem IsSited.names_dtoDirectory :
    Names plan.dtoDirectory (placeOf plan.directory) Artifact.dtoDirectory :=
  h.names_directory.isOrdinary.names_join isStepName_dtoDirectory

end

end Plan

theorem directoryOf_dtoDirectory (plan : Plan) :
    directoryOf plan.dtoDirectory = plan.dtoDirectory := by
  refine Disk.directoryOf_eq_self ⟨'o', ?_, by decide, by decide⟩
  exact (Disk.getLast?_join isStepName_dtoDirectory _).trans (by decide)

/-- The stem of the files of a model. -/
def stemOf (model : Model) : String :=
  (Symbols.ofName model.name).stem

/-- The path of a file is one name in the directory of its kind. -/
theorem target_eq (root : String) (options : Options) (model : Model) (kind : Kind) :
    (Plan.ofModel root options model).target (file options model kind) =
      join ((Plan.ofModel root options model).holder kind)
        (kind.bareName (stemOf model) ++ "." ++ options.extension) := by
  cases kind with
  | createDto | updateDto =>
    rw [Plan.holder, Plan.dtoDirectory, Disk.join_join isStepName_dtoDirectory]
    rfl
  | repository | service | controller | wiring => rfl

/-- A plan has one target for each kind of file. -/
theorem targets_ofModel (root : String) (options : Options) (model : Model) :
    (Plan.ofModel root options model).targets =
      Kind.all.map fun kind =>
        (Plan.ofModel root options model).target (file options model kind) := by
  simp [Plan.targets, Plan.ofModel, Artifact.bundle_eq, Function.comp_def]

theorem mem_targets_iff {root : String} {options : Options} {model : Model} {target : String} :
    target ∈ (Plan.ofModel root options model).targets ↔
      ∃ kind, (Plan.ofModel root options model).target (file options model kind) = target := by
  simp [targets_ofModel, Kind.mem_all]

section

variable {root : String} (hroot : IsOrdinary root) (options : Options) {model : Model}
  (hname : isWord model.name.toList = true)

include hname

theorem isStepName_stemOf : IsStepName (stemOf model) :=
  isStepName_stem (Symbols.areWords_ofName hname)

/-- The path of the module ends in its name, so it is the parent of what is joined to it. -/
theorem directoryOf_directory :
    directoryOf (Plan.ofModel root options model).directory =
      (Plan.ofModel root options model).directory := by
  have hstem := isStepName_stemOf hname
  have hlast := List.getLast?_eq_some_getLast hstem.ne_nil
  refine Disk.directoryOf_eq_self ⟨_, (Disk.getLast?_join hstem root).trans hlast, ?_, ?_⟩
  · intro heq
    exact hstem.no_slash (heq ▸ List.getLast_mem _)
  · intro heq
    have hdot : '.' ∉ (stemOf model).toList :=
      (Symbols.areWords_ofName hname).not_mem_stem (by decide) (by decide)
    exact hdot (heq ▸ List.getLast_mem _)

/-- The name of a generated file. -/
theorem isStepName_fileName (hextension : '/' ∉ options.extension.toList) (kind : Kind) :
    IsStepName (kind.bareName (stemOf model) ++ "." ++ options.extension) :=
  kind.isStepName_fileName (isStepName_stemOf hname).no_slash hextension

include hroot

theorem names_directory :
    Names (Plan.ofModel root options model).directory (placeOf root) (stemOf model) :=
  hroot.names_join (isStepName_stemOf hname)

theorem names_dtoDirectory :
    Names (Plan.ofModel root options model).dtoDirectory
      (placeOf (Plan.ofModel root options model).directory) Artifact.dtoDirectory :=
  (names_directory hroot options hname).isOrdinary.names_join isStepName_dtoDirectory

theorem endsInName_holder (kind : Kind) :
    EndsInName ((Plan.ofModel root options model).holder kind) := by
  cases kind with
  | createDto | updateDto => exact ⟨_, _, names_dtoDirectory hroot options hname⟩
  | repository | service | controller | wiring =>
    exact ⟨_, _, names_directory hroot options hname⟩

theorem placeOf_holder (kind : Kind) :
    placeOf ((Plan.ofModel root options model).holder kind) =
      placeOf (Plan.ofModel root options model).directory ++ kind.directory := by
  cases kind with
  | createDto | updateDto => exact (names_dtoDirectory hroot options hname).placeOf_eq
  | repository | service | controller | wiring => exact (List.append_nil _).symm

variable {options} (hextension : '/' ∉ options.extension.toList)

include hextension

/-- Every target is a file in the directory of its kind. -/
theorem isFileIn_target (kind : Kind) :
    IsFileIn ((Plan.ofModel root options model).holder kind)
      ((Plan.ofModel root options model).target (file options model kind)) := by
  have hself : directoryOf ((Plan.ofModel root options model).holder kind) =
      (Plan.ofModel root options model).holder kind := by
    cases kind with
    | createDto | updateDto => exact directoryOf_dtoDirectory _
    | repository | service | controller | wiring => exact directoryOf_directory options hname
  rw [target_eq]
  exact Disk.isFileIn_join (endsInName_holder hroot options hname kind) hself
    (isStepName_fileName options hname hextension kind)

/-- The place of a target, in the directory of the module. -/
theorem placeOf_target (kind : Kind) :
    placeOf ((Plan.ofModel root options model).target (file options model kind)) =
      placeOf (Plan.ofModel root options model).directory ++
        (kind.directory ++ [kind.bareName (stemOf model) ++ "." ++ options.extension]) := by
  obtain ⟨above, last, hnames⟩ := endsInName_holder hroot options hname kind
  have hfile := isStepName_fileName options hname hextension kind
  rw [target_eq, (hnames.isOrdinary.names_join hfile).placeOf_eq,
    placeOf_holder hroot options hname, List.append_assoc]

/-- No two targets mean one place. -/
theorem placeOf_target_injective {first second : Kind}
    (h : placeOf ((Plan.ofModel root options model).target (file options model first)) =
      placeOf ((Plan.ofModel root options model).target (file options model second))) :
    first = second := by
  rw [placeOf_target hroot hname hextension, placeOf_target hroot hname hextension] at h
  obtain ⟨hdirectory, hfile⟩ := List.append_inj' (List.append_cancel_left h) rfl
  refine @Kind.eq_of_bareName_eq (stemOf model) _ _ hdirectory ?_
  simpa using congrArg String.toList (List.singleton_inj.mp hfile)

/-- A file is no directory on the way to a file. -/
theorem not_placeOf_target_prefix (kind : Kind) :
    ¬ placeOf ((Plan.ofModel root options model).target (file options model kind)) <+:
      placeOf (Plan.ofModel root options model).dtoDirectory := by
  have hdto : '.' ∉ Artifact.dtoDirectory.toList := by decide
  rw [placeOf_target hroot hname hextension, (names_dtoDirectory hroot options hname).placeOf_eq,
    List.prefix_append_right_inj]
  intro hprefix
  cases kind with
  | createDto | updateDto => exact absurd hprefix.length_le (by simp [Kind.directory])
  | repository | service | controller | wiring =>
    obtain ⟨heq, -⟩ := List.cons_prefix_cons.mp hprefix
    rw [← heq] at hdto
    simp at hdto

/-- A plan for a word is sited in the directory of modules. -/
theorem isSited_ofModel :
    (Plan.ofModel root options model).IsSited root (stemOf model) where
  isOrdinary := hroot
  isStepName := isStepName_stemOf hname
  directory := rfl
  files := by
    intro entry hentry
    have htarget : entry.1 ∈ (Plan.ofModel root options model).targets :=
      Plan.map_fst_entries _ ▸ List.mem_map_of_mem hentry
    obtain ⟨kind, hkind⟩ := mem_targets_iff.mp htarget
    have hfile := isFileIn_target hroot hname hextension kind
    rw [hkind] at hfile
    cases kind with
    | createDto | updateDto => exact Or.inr hfile
    | repository | service | controller | wiring => exact Or.inl hfile
  places := by
    have hkinds : Kind.all.Nodup := by decide
    rw [targets_ofModel, List.map_map]
    exact hkinds.map fun first second => placeOf_target_injective hroot hname hextension
  apart := by
    intro target htarget
    obtain ⟨kind, rfl⟩ := mem_targets_iff.mp htarget
    exact not_placeOf_target_prefix hroot hname hextension kind

end

end Scaffold.Generation
