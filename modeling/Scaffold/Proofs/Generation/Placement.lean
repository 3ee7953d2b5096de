import Scaffold.Proofs.Disk.Joined
import Scaffold.Proofs.Generation.Target

/-!
Where planned files come to stand, whatever the directory of modules and the extension are. What the
path of a file means is found from the directory of its module (`exists_home`). As long as the
extension does not go back, it is a place below that directory, and each file has its own
(`resolve_target_injective`).
-/

namespace Scaffold.Artifact

open Disk (firstSegment laterSteps leave stay steps)

/-- The names that lead to a file in the directory of its module, whatever the extension is. -/
def Kind.names (kind : Kind) (stem extension : String) : List String :=
  kind.directory ++ (kind.bareName stem ++ "." ++ firstSegment extension) :: laterSteps extension

section

variable {stem : String} (hstem : '/' ∉ stem.toList) (extension : String)

include hstem

theorem Kind.steps_path_eq_names (kind : Kind) :
    steps (kind.path stem extension) = kind.names stem extension := by
  have hname := kind.isStepName_bareName hstem
  have hfile : steps (kind.bareName stem ++ "." ++ extension) =
      (kind.bareName stem ++ "." ++ firstSegment extension) :: laterSteps extension :=
    Disk.steps_append (by simp) (by simp [hname.no_slash]) extension
  cases kind with
  | createDto | updateDto =>
    have hdto : steps dtoDirectory = [dtoDirectory] := by decide
    rw [path_eq, names, ← hfile, directory, List.singleton_append, ← hdto,
      ← Disk.steps_append_slash]
    rfl
  | repository | service | controller | wiring => exact hfile

/-- The first name behind the directory is never one of the two steps that are no names. -/
theorem Kind.isStepName_firstName (kind : Kind) :
    IsStepName (kind.bareName stem ++ "." ++ firstSegment extension) :=
  kind.isStepName_fileName hstem (Disk.slash_notMem_firstSegment extension)

/-- A file has no step back on its way if its extension has none. -/
theorem Kind.leave_notMem_names (h : leave ∉ laterSteps extension) (kind : Kind) :
    leave ∉ kind.names stem extension := by
  intro hmem
  rcases List.mem_append.mp hmem with hdirectory | hfile
  · exact (kind.isStepName_of_mem_directory _ hdirectory).ne_leave rfl
  · rcases List.mem_cons.mp hfile with hfirst | hlater
    · exact (kind.isStepName_firstName hstem extension).ne_leave hfirst.symm
    · exact h hlater

end

/-- The place of a file in the directory of its module, with an extension that does not go back. -/
def Kind.landing (kind : Kind) (stem extension : String) : List String :=
  (kind.names stem extension).filter fun step => step != stay

section

variable {stem : String} (hstem : '/' ∉ stem.toList) (extension : String)

include hstem

theorem Kind.landing_eq (kind : Kind) :
    kind.landing stem extension =
      kind.directory ++ (kind.bareName stem ++ "." ++ firstSegment extension) ::
        (laterSteps extension).filter fun step => step != stay := by
  have hdirectory : kind.directory.filter (fun step => step != stay) = kind.directory :=
    Disk.Tree.filter_ne_stay kind.isStepName_of_mem_directory
  have hfirst := (kind.isStepName_firstName hstem extension).ne_stay
  rw [landing, names, List.filter_append, hdirectory,
    List.filter_cons_of_pos (by simpa using hfirst)]

theorem Kind.landing_of_notMem {extension : String} (h : '/' ∉ extension.toList) (kind : Kind) :
    kind.landing stem extension =
      kind.directory ++ [kind.bareName stem ++ "." ++ extension] := by
  obtain ⟨hfirst, hlater⟩ := Disk.laterSteps_of_notMem h
  rw [landing_eq hstem, hfirst, hlater, List.filter_nil]

/-- Each file has a place of its own. -/
theorem Kind.landing_injective {first second : Kind}
    (h : first.landing stem extension = second.landing stem extension) : first = second := by
  rw [landing_eq hstem, landing_eq hstem] at h
  obtain ⟨hdirectory, hfile⟩ := List.append_inj' h rfl
  refine @eq_of_bareName_eq stem _ _ hdirectory ?_
  simpa using congrArg String.toList (List.cons.inj hfile).1

end

end Scaffold.Artifact

namespace Scaffold.Generation

open Artifact (Kind Options file)
open Disk (Place Tree laterSteps leave)
open Schema (Model)
open Text (isWord)

section

variable (root : String) (options : Options) {model : Model}
  (hname : isWord model.name.toList = true) {tree : Tree} {kind : Kind} {place : Place}

include hname

/-- What the path of a file means is found from the directory of its module. -/
theorem exists_home
    (h : tree.resolve ((Plan.ofModel root options model).target (file options model kind)) =
      .ok place) :
    ∃ home, tree.resolve (Plan.ofModel root options model).directory = .ok home ∧
      tree.walk home (kind.names (stemOf model) options.extension) = .ok place := by
  have hstem := isStepName_stemOf hname
  obtain ⟨home, hhome, hwalk⟩ :=
    Tree.exists_resolve_of_join (Disk.isEmpty_join hstem root) _ h
  rw [← kind.steps_path_eq_names hstem.no_slash]
  exact ⟨home, hhome, hwalk⟩

/-- With an extension that does not go back, a file stands below the directory of its module. -/
theorem resolve_target_eq_append (hlater : leave ∉ laterSteps options.extension)
    (h : tree.resolve ((Plan.ofModel root options model).target (file options model kind)) =
      .ok place) :
    ∃ home, tree.resolve (Plan.ofModel root options model).directory = .ok home ∧
      place = home ++ kind.landing (stemOf model) options.extension := by
  obtain ⟨home, hhome, hwalk⟩ := exists_home root options hname h
  have hleave := kind.leave_notMem_names (isStepName_stemOf hname).no_slash _ hlater
  exact ⟨home, hhome, Tree.walk_eq_append hleave hwalk⟩

/-- With an extension that does not go back, no two files stand at one place. -/
theorem resolve_target_injective (hlater : leave ∉ laterSteps options.extension) {other : Kind}
    (h : tree.resolve ((Plan.ofModel root options model).target (file options model kind)) =
      .ok place)
    (hother : tree.resolve ((Plan.ofModel root options model).target (file options model other)) =
      .ok place) :
    kind = other := by
  obtain ⟨home, hhome, rfl⟩ := resolve_target_eq_append root options hname hlater h
  obtain ⟨same, hsame, hplace⟩ := resolve_target_eq_append root options hname hlater hother
  obtain rfl : home = same := Except.ok.inj (hhome.symm.trans hsame)
  exact Kind.landing_injective (isStepName_stemOf hname).no_slash _ (List.append_cancel_left hplace)

theorem nodup_resolve_targets (hlater : leave ∉ laterSteps options.extension)
    (h : ∀ target ∈ (Plan.ofModel root options model).targets,
      ∃ place, tree.resolve target = .ok place) :
    ((Plan.ofModel root options model).targets.map tree.resolve).Nodup := by
  have hkinds : Kind.all.Nodup := by decide
  rw [targets_ofModel] at h ⊢
  rw [List.map_map]
  refine hkinds.map_on fun first _ second _ heq => ?_
  obtain ⟨place, hplace⟩ := h _ (List.mem_map_of_mem first.mem_all)
  exact resolve_target_injective root options hname hlater hplace (heq.symm.trans hplace)

end

end Scaffold.Generation
