import Scaffold.Proofs.Generation.Effect
import Scaffold.Proofs.Generation.Overwriting
import Scaffold.Proofs.Generation.Placement

/-!
Generations stay in the directory of a module. The files of a plan are names in that directory or in
that of the data transfer objects, if and only if the extension has no slash (`hasFileAt_iff`). What
carrying out a plan changes on a disk is at the places of the files or a directory on the way to
one, and that is in the directory of the module as far as the extension allows
(`Plan.confines_write`).
-/

namespace Scaffold.Disk

theorem join_injective {base first second : String} (h : join base first = join base second) :
    first = second := by
  have happend {front : String} (h : front ++ first = front ++ second) : first = second := by
    have hlist := congrArg String.toList h
    rw [String.toList_append, String.toList_append] at hlist
    exact String.toList_injective (List.append_cancel_left hlist)
  unfold join at h
  split at h
  · exact h
  · split at h
    · exact happend h
    · exact happend h

namespace Tree

/-- Whether the steps of a path lead to a place, whatever stands there. -/
def LeadsTo (tree : Tree) (path : String) (place : Place) : Prop :=
  tree.walk (start path) (moves path) = .ok place

theorem leadsTo_of_resolve {tree : Tree} {path : String} {place : Place}
    (h : tree.resolve path = .ok place) : tree.LeadsTo path place :=
  walk_filter (resolve_eq_ok_iff.mp h).2.2

theorem OnWay.mono {tree : Tree} {path longer : String} {place : Place} (h : tree.OnWay path place)
    (hstart : start path = start longer) (hmoves : moves path <+: moves longer) :
    tree.OnWay longer place := by
  obtain ⟨front, hfront, hwalk⟩ := h
  exact ⟨front, hfront.trans hmoves, hstart ▸ hwalk⟩

/-- What is on the way of a path that goes down from another one is on the way of that, or below
where that leads. -/
theorem OnWay.leadsTo_or {tree : Tree} {base path : String} {rest : List String} {place : Place}
    (h : tree.OnWay path place) (hstart : start path = start base)
    (hmoves : moves path = moves base ++ rest) (hleave : leave ∉ rest) :
    tree.OnWay base place ∨ ∃ home, tree.LeadsTo base home ∧ home <+: place := by
  obtain ⟨front, hfront, hwalk⟩ := h
  rw [hmoves] at hfront
  rw [hstart] at hwalk
  rcases List.prefix_or_prefix_of_prefix hfront (List.prefix_append ..) with hbase | ⟨more, rfl⟩
  · exact Or.inl ⟨front, hbase, hwalk⟩
  · have hmore := (List.prefix_append_right_inj _).mp hfront
    obtain ⟨home, hhome, hdown⟩ := exists_walk_append hwalk
    have hplace := walk_eq_append (fun mem => hleave (hmore.subset mem)) hdown
    exact Or.inr ⟨home, hhome, hplace ▸ List.prefix_append ..⟩

end Tree

end Scaffold.Disk

namespace Scaffold.Generation

open Artifact (IsStepName Kind Options Symbols file)
open Disk (Place Tree join laterSteps leave moves)
open Schema (Document Model)
open Text (isWord)

/-- Whether a path is one name in the directory of a plan, or in that of its data transfer
objects. -/
def Plan.HasFileAt (plan : Plan) (path : String) : Prop :=
  ∃ name, IsStepName name ∧ (path = join plan.directory name ∨ path = join plan.dtoDirectory name)

/-- What a run may make of a disk that carries out a plan whose files have an extension. -/
structure Plan.Confines (plan : Plan) (extension : String) (before after : Tree) : Prop where
  /-- What changes is what the paths of files mean, or a directory that is made on the way. -/
  frame : ∀ place, after.node? place ≠ before.node? place →
    (∃ target ∈ plan.targets, after.resolve target = .ok place) ∨
      before.MadeAlong plan.ways after place
  /-- With an extension that does not go back, all that is below the directory of the module, but
  for directories that are made on the way there. -/
  below : leave ∉ laterSteps extension → ∀ place, after.node? place ≠ before.node? place →
    (∃ home, after.LeadsTo plan.directory home ∧ home <+: place) ∨
      before.MadeAlong [plan.directory] after place
  /-- With an extension without a slash, files are names in the directory of the module or in that
  of the data transfer objects, and only these two directories are made, and those above. -/
  flat : '/' ∉ extension.toList → ∀ place, after.node? place ≠ before.node? place →
    (∃ home name, after.resolve plan.directory = .ok home ∧ IsStepName name ∧
      (place = home ++ [name] ∨ place = home ++ [Artifact.dtoDirectory, name])) ∨
      before.MadeAlong [plan.dtoDirectory] after place

theorem Plan.Confines.refl (plan : Plan) (extension : String) (tree : Tree) :
    plan.Confines extension tree tree where
  frame _ h := absurd rfl h
  below _ _ h := absurd rfl h
  flat _ _ h := absurd rfl h

/-! ### Where the files are -/

section

variable (root : String) (options : Options) {model : Model}
  (hname : isWord model.name.toList = true)

theorem Plan.holder_eq_or (plan : Plan) (kind : Kind) :
    plan.holder kind = plan.directory ∨ plan.holder kind = plan.dtoDirectory := by
  cases kind with
  | createDto | updateDto => exact Or.inr rfl
  | repository | service | controller | wiring => exact Or.inl rfl

include hname

theorem isEmpty_directory : (Plan.ofModel root options model).directory.isEmpty = false :=
  Disk.isEmpty_join (isStepName_stemOf hname) root

/-- The path of a file: one name with the extension behind a dot, whatever the extension is. -/
theorem exists_name_of_mem_targets {target : String}
    (h : target ∈ (Plan.ofModel root options model).targets) :
    ∃ name, IsStepName name ∧
      (target = join (Plan.ofModel root options model).directory
          (name ++ "." ++ options.extension) ∨
        target = join (Plan.ofModel root options model).dtoDirectory
          (name ++ "." ++ options.extension)) := by
  obtain ⟨kind, rfl⟩ := mem_targets_iff.mp h
  refine ⟨kind.bareName (stemOf model),
    kind.isStepName_bareName (isStepName_stemOf hname).no_slash, ?_⟩
  rw [target_eq]
  exact (Plan.holder_eq_or _ kind).imp (congrArg (join · _)) (congrArg (join · _))

/-- With an extension that is no path, every file is a name in one of the two directories. -/
theorem hasFileAt_of_notMem (hextension : '/' ∉ options.extension.toList) (kind : Kind) :
    (Plan.ofModel root options model).HasFileAt
      ((Plan.ofModel root options model).target (file options model kind)) := by
  refine ⟨_, kind.isStepName_fileName (isStepName_stemOf hname).no_slash hextension, ?_⟩
  rw [target_eq]
  exact (Plan.holder_eq_or _ kind).imp (congrArg (join · _)) (congrArg (join · _))

/-- With an extension that is one, the repository is not. -/
theorem notMem_of_hasFileAt
    (h : (Plan.ofModel root options model).HasFileAt
      ((Plan.ofModel root options model).target (file options model .repository))) :
    '/' ∉ options.extension.toList := by
  have hbare := Kind.repository.isStepName_bareName (isStepName_stemOf hname).no_slash
  obtain ⟨name, hstep, heq | heq⟩ := h
  · have hslash := hstep.no_slash
    rw [target_eq] at heq
    rw [← Disk.join_injective heq, String.toList_append] at hslash
    exact fun mem => hslash (List.mem_append_right _ mem)
  · -- The name of a repository's file holds a dot, and that of the directory does not.
    rw [target_eq, Plan.dtoDirectory, Disk.join_join isStepName_dtoDirectory] at heq
    have hsteps := congrArg Disk.steps (Disk.join_injective heq)
    rw [Disk.steps_append (by simp) (by simp [hbare.no_slash]), Disk.steps_append_slash,
      Disk.steps_of_isStepName isStepName_dtoDirectory] at hsteps
    have hdot : '.' ∈ Artifact.dtoDirectory.toList := by
      rw [← (List.cons.inj hsteps).1]
      simp
    exact absurd hdot (by decide)

theorem hasFileAt_iff :
    (∀ target ∈ (Plan.ofModel root options model).targets,
      (Plan.ofModel root options model).HasFileAt target) ↔ '/' ∉ options.extension.toList := by
  constructor
  · intro h
    exact notMem_of_hasFileAt root options hname
      (h _ (mem_targets_iff.mpr ⟨.repository, rfl⟩))
  · intro hextension target htarget
    obtain ⟨kind, rfl⟩ := mem_targets_iff.mp htarget
    exact hasFileAt_of_notMem root options hname hextension kind

end

/-! ### What changes -/

section

variable {root : String} {options : Options} {model : Model}
  (hname : isWord model.name.toList = true) {tree : Tree} {place : Place}

/-- Where the first files of a plan change something, a file of some kind stands, or a directory is
made. -/
theorem target_or_madeAlong {landed : List (String × String)} {before after : Tree}
    (h : Overwritten (Plan.ofModel root options model).ways landed before after)
    (hlanded : landed ⊆ (Plan.ofModel root options model).entries)
    (hchanged : after.node? place ≠ before.node? place) :
    (∃ kind, after.resolve ((Plan.ofModel root options model).target (file options model kind)) =
      .ok place) ∨ before.MadeAlong (Plan.ofModel root options model).ways after place := by
  rcases h.frame place with hsame | ⟨entry, hentry, hplace⟩ | hmade
  · exact absurd hsame hchanged
  · have htarget : entry.1 ∈ (Plan.ofModel root options model).targets :=
      Plan.map_fst_entries _ ▸ List.mem_map_of_mem (hlanded hentry)
    obtain ⟨kind, hkind⟩ := mem_targets_iff.mp htarget
    exact Or.inl ⟨kind, hkind ▸ hplace⟩
  · exact Or.inr hmade

/-- The directories that are made for a plan: its own two, and those that its files are in. -/
theorem eq_or_parent_of_mem_ways {path : String}
    (h : path ∈ (Plan.ofModel root options model).ways) :
    path = (Plan.ofModel root options model).directory ∨
      path = (Plan.ofModel root options model).dtoDirectory ∨
      ∃ kind, Disk.parent? ((Plan.ofModel root options model).target (file options model kind)) =
        some path := by
  rcases List.mem_cons.mp h with rfl | h
  · exact Or.inl rfl
  · rcases List.mem_cons.mp h with rfl | h
    · exact Or.inr (Or.inl rfl)
    · obtain ⟨target, htarget, hparent⟩ := List.mem_filterMap.mp h
      obtain ⟨kind, rfl⟩ := mem_targets_iff.mp htarget
      exact Or.inr (Or.inr ⟨kind, hparent⟩)

include hname

/-- With an extension that does not go back, what is on the way of a file is on the way to the
directory of the module, or below it. -/
theorem onWay_directory_or (hlater : leave ∉ laterSteps options.extension) {path : String}
    (hpath : path ∈ (Plan.ofModel root options model).ways) (h : tree.OnWay path place) :
    tree.OnWay (Plan.ofModel root options model).directory place ∨
      ∃ home, tree.LeadsTo (Plan.ofModel root options model).directory home ∧ home <+: place := by
  have hempty := isEmpty_directory root options hname
  rcases eq_or_parent_of_mem_ways hpath with rfl | rfl | ⟨kind, hparent⟩
  · exact Or.inl h
  · exact h.leadsTo_or (Disk.start_join hempty _) (Disk.moves_join ..) (by decide)
  · obtain ⟨hstart, hmoves⟩ := Disk.moves_parent_prefix hparent
    have hstem := (isStepName_stemOf hname).no_slash
    refine (h.mono hstart hmoves).leadsTo_or (Disk.start_join hempty _) (Disk.moves_join ..) ?_
    have hsteps : Disk.steps (file options model kind).path =
        kind.names (stemOf model) options.extension :=
      kind.steps_path_eq_names hstem _
    intro hmem
    exact kind.leave_notMem_names hstem _ hlater (hsteps ▸ List.mem_of_mem_filter hmem)

/-- With an extension that is no path, it is on the way to the data transfer objects. -/
theorem onWay_dtoDirectory (hextension : '/' ∉ options.extension.toList) {path : String}
    (hpath : path ∈ (Plan.ofModel root options model).ways) (h : tree.OnWay path place) :
    tree.OnWay (Plan.ofModel root options model).dtoDirectory place := by
  have hempty := isEmpty_directory root options hname
  have hmoves : moves (Plan.ofModel root options model).directory <+:
      moves (Plan.ofModel root options model).dtoDirectory := by
    rw [Plan.dtoDirectory, Disk.moves_join]
    exact List.prefix_append ..
  have hdirectory (h : tree.OnWay (Plan.ofModel root options model).directory place) :
      tree.OnWay (Plan.ofModel root options model).dtoDirectory place :=
    h.mono (Disk.start_join hempty _).symm hmoves
  rcases eq_or_parent_of_mem_ways hpath with rfl | rfl | ⟨kind, hparent⟩
  · exact hdirectory h
  · exact h
  · have hfile := kind.isStepName_fileName (isStepName_stemOf hname).no_slash hextension
    rw [target_eq, Disk.parent?_join hfile] at hparent
    rcases Plan.holder_eq_or (Plan.ofModel root options model) kind with hholder | hholder
    · rw [hholder, directoryOf_directory options hname] at hparent
      exact hdirectory (Option.some.inj hparent ▸ h)
    · rw [hholder, directoryOf_dtoDirectory] at hparent
      exact Option.some.inj hparent ▸ h

/-- What carrying out a plan changes stays in the directory of the module, as far as the extension
does. -/
theorem confines_write (tree : Tree) :
    (Plan.ofModel root options model).Confines options.extension tree
      ((Plan.ofModel root options model).write (m := StateM Tree) .disk tree).2 := by
  obtain ⟨landed, left, hentries, hover, -, -⟩ :=
    (Plan.ofModel root options model).write_overwritten tree
  generalize ((Plan.ofModel root options model).write (m := StateM Tree) .disk tree).2 = after
    at hover ⊢
  have hframe (place : Place) (hchanged : after.node? place ≠ tree.node? place) :=
    target_or_madeAlong hover (hentries ▸ List.subset_append_left landed left) hchanged
  refine ⟨fun place hchanged => ?_, fun hlater place hchanged => ?_,
    fun hextension place hchanged => ?_⟩
  · refine (hframe place hchanged).imp_left ?_
    rintro ⟨kind, hplace⟩
    exact ⟨_, mem_targets_iff.mpr ⟨kind, rfl⟩, hplace⟩
  · rcases hframe place hchanged with ⟨kind, hplace⟩ | ⟨hnone, hmade, path, hpath, hway⟩
    · obtain ⟨home, hhome, rfl⟩ := resolve_target_eq_append root options hname hlater hplace
      exact Or.inl ⟨home, Tree.leadsTo_of_resolve hhome, List.prefix_append ..⟩
    · rcases onWay_directory_or hname hlater hpath hway with hdirectory | hbelow
      · exact Or.inr ⟨hnone, hmade, _, List.mem_singleton_self _, hdirectory⟩
      · exact Or.inl hbelow
  · obtain ⟨-, hlater⟩ := Disk.laterSteps_of_notMem hextension
    have hstem := (isStepName_stemOf hname).no_slash
    rcases hframe place hchanged with ⟨kind, hplace⟩ | ⟨hnone, hmade, path, hpath, hway⟩
    · obtain ⟨home, hhome, rfl⟩ :=
        resolve_target_eq_append root options hname (by simp [hlater]) hplace
      refine Or.inl ⟨home, _, hhome, kind.isStepName_fileName hstem hextension, ?_⟩
      rw [kind.landing_of_notMem hstem hextension]
      cases kind with
      | createDto | updateDto => exact Or.inr rfl
      | repository | service | controller | wiring => exact Or.inl rfl
    · exact Or.inr ⟨hnone, hmade, _, List.mem_singleton_self _,
        onWay_dtoDirectory hname hextension hpath hway⟩

end

/-! ### Generations -/

/-- A generation leaves the disk as it is, or carries out the plan for the model that it finds. -/
theorem Generator.generate_snd_cases (generator : Generator) (name : String) (mode : Mode)
    (before : Tree) :
    (generator.generate (m := StateM Tree) name mode before).2 = before ∨
      ∃ text model, before.readText generator.settings.schema = .ok text ∧
        findModel (Document.ofSource text) name = .ok model ∧
        (generator.generate (m := StateM Tree) name mode before).2 =
          ((generator.plan model).write (m := StateM Tree) mode before).2 := by
  rw [generate_eq]
  cases hread : before.readText generator.settings.schema with
  | error fault => exact Or.inl rfl
  | ok text =>
    cases hmodel : findModel (Document.ofSource text) name with
    | error failure => exact Or.inl (by simp only [hmodel])
    | ok model =>
      refine Or.inr ⟨text, model, rfl, hmodel, ?_⟩
      simp only [hmodel]
      obtain ⟨⟨done, error⟩, after⟩ := (generator.plan model).write (m := StateM Tree) mode before
      cases error with
      | none => rfl
      | some error => rfl

/-- Whatever the directory of modules and the extension are, a file of a plan is a name with that
extension in the directory of the module or in that of its data transfer objects. There is no more
to its path exactly if the extension has no slash, and what a generation changes stays in that
directory, as far as the extension does. -/
theorem Generator.stays_in_module (generator : Generator) :
    (∀ source, ∀ model ∈ (Document.ofSource source).models,
      (generator.plan model).directory = join generator.settings.modulesRoot (stemOf model) ∧
        IsStepName (stemOf model) ∧
        (∀ target ∈ (generator.plan model).targets, ∃ name, IsStepName name ∧
          (target = join (generator.plan model).directory
              (name ++ "." ++ generator.options.extension) ∨
            target = join (generator.plan model).dtoDirectory
              (name ++ "." ++ generator.options.extension))) ∧
        ((∀ target ∈ (generator.plan model).targets, (generator.plan model).HasFileAt target) ↔
          '/' ∉ generator.options.extension.toList)) ∧
      ∀ name mode (before : Tree),
        (generator.generate (m := StateM Tree) name mode before).2 = before ∨
          ∃ text model, before.readText generator.settings.schema = .ok text ∧
            findModel (Document.ofSource text) name = .ok model ∧
            (generator.plan model).Confines generator.options.extension before
              (generator.generate (m := StateM Tree) name mode before).2 := by
  constructor
  · intro source model hmodel
    have hname := (Schema.isWellRead_of_mem_models hmodel).name
    exact ⟨rfl, isStepName_stemOf hname,
      fun target htarget => exists_name_of_mem_targets _ _ hname htarget,
      hasFileAt_iff _ _ hname⟩
  · intro name mode before
    refine (generator.generate_snd_cases name mode before).imp_right ?_
    rintro ⟨text, model, hread, hmodel, hafter⟩
    refine ⟨text, model, hread, hmodel, ?_⟩
    rw [hafter]
    cases mode with
    | disk => exact confines_write (isWord_of_findModel hmodel) before
    | preview =>
      rw [Plan.write_preview]
      exact Plan.Confines.refl _ _ before

/-- Where something changes, a plan of six names has been carried out. -/
theorem stays_in_module_user : ∃ after : Tree,
    (userGenerator.generate (m := StateM Tree) "User" .disk userTree).2 = after ∧
      after ≠ userTree ∧
      ∃ model, (∀ target ∈ (userGenerator.plan model).targets,
          (userGenerator.plan model).HasFileAt target) ∧
        (userGenerator.plan model).Confines "ts" userTree after := by
  obtain ⟨hshape, heffect⟩ := Generator.stays_in_module userGenerator
  have hchanged :
      (userGenerator.generate (m := StateM Tree) "User" .disk userTree).2 ≠ userTree := by
    decide +kernel
  obtain ⟨text, model, -, hmodel, hconfines⟩ :=
    (heffect "User" .disk userTree).resolve_left hchanged
  obtain ⟨-, -, -, hflat⟩ := hshape text model (mem_of_findModel hmodel)
  exact ⟨_, rfl, hchanged, model, hflat.mpr (by decide), hconfines⟩

/-- A generator with an extension that is a path. -/
def nestingGenerator : Generator where
  settings := { schema := "s", modulesRoot := "m", extension := "a/b" }
  options :=
    { optionality := Settings.optionality {}, imports := {}, indent := .twoSpaces,
      extension := "a/b" }
  options_eq := by decide

/-- With an extension that is a path, the files are not all in the two directories. -/
theorem not_hasFileAt_nesting :
    (⟨"User", [], none⟩ : Model) ∈ (Document.ofSource "model User \x7b\n\x7d\n").models ∧
      ¬ ∀ target ∈ (nestingGenerator.plan ⟨"User", [], none⟩).targets,
        (nestingGenerator.plan ⟨"User", [], none⟩).HasFileAt target := by
  refine ⟨by decide, fun h => ?_⟩
  exact absurd ((hasFileAt_iff "m" nestingGenerator.options (by decide)).mp h) (by decide)

end Scaffold.Generation
