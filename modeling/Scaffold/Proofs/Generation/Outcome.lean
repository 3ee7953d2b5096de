import Scaffold.Proofs.Generation.Landing
import Scaffold.Proofs.Generation.Target
import Scaffold.Proofs.Schema.WellRead

/-!
What a plan comes to. A plan that is sited in the directory of modules either cannot make one of its
two directories, or writes its files up to the first that fails (`Plan.IsSited.outcome`). A
generation reads the schema, and then carries out the plan of the model (`Generator.generate_eq`).
-/

namespace Scaffold.Generation

open Disk (Fault IsOrdinary Place Tree placeOf)
open Schema (Document Model)

/-- Files are written only when both directories can be opened, the one of the module first. -/
theorem Plan.write_eq (plan : Plan) (tree : Tree) :
    plan.write (m := StateM Tree) .disk tree =
      match ensureDirectory (m := StateM Tree) .disk plan.directory tree with
      | (.error error, after) => (⟨[], some error⟩, after)
      | (.ok (), made) =>
        match ensureDirectory (m := StateM Tree) .disk plan.dtoDirectory made with
        | (.error error, after) => (⟨[], some error⟩, after)
        | (.ok (), ready) => writeFiles (m := StateM Tree) .disk plan.entries ready := by
  unfold Plan.write
  simp only [run_bind]
  obtain ⟨result, made⟩ := ensureDirectory (m := StateM Tree) .disk plan.directory tree
  cases result with
  | error error => rfl
  | ok opened =>
    simp only [run_bind]
    obtain ⟨result, ready⟩ := ensureDirectory (m := StateM Tree) .disk plan.dtoDirectory made
    cases result with
    | error error => rfl
    | ok opened => rfl

/-- A preview changes nothing, and comes to the same everywhere. -/
theorem Plan.write_preview (plan : Plan) (tree : Tree) :
    plan.write (m := StateM Tree) .preview tree =
      (⟨plan.entries.map fun entry => .previewed entry.1 entry.2, none⟩, tree) := by
  have hfiles : ∀ entries : List (String × String),
      writeFiles (m := StateM Tree) .preview entries tree =
        (⟨entries.map fun entry => .previewed entry.1 entry.2, none⟩, tree) := by
    intro entries
    induction entries with
    | nil => rfl
    | cons entry rest ih =>
      obtain ⟨path, content⟩ := entry
      rw [writeFiles, writeFile, run_bind, run_pure]
      simp only [run_bind, ih]
      rfl
  exact hfiles plan.entries

/-- What carrying out a plan can come to. -/
inductive Plan.Outcome (plan : Plan) (before : Tree) : Progress → Tree → Prop where
  /-- A directory cannot be made, and no file is touched. -/
  | refused {path : String} {fault : Fault} {after : Tree}
    (hpath : path = plan.directory ∨ path = plan.dtoDirectory)
    (hadds : before.Adds (placeOf plan.dtoDirectory) after) :
    Outcome plan before ⟨[], some (.directory path fault)⟩ after
  /-- The directories stand, and some files are written, up to the end or the first that fails. -/
  | written {made after : Tree} {landed left : List (String × String)} {error : Option WriteError}
    (hadds : before.Adds (placeOf plan.dtoDirectory) made)
    (hdirectory : made.standing? plan.directory = some .directory)
    (hdto : made.standing? plan.dtoDirectory = some .directory)
    (hentries : plan.entries = landed ++ left) (hlanded : Landed landed made after)
    (hends : EndsBefore left error) :
    Outcome plan before ⟨landed.map Written.ofEntry, error⟩ after

section

variable {plan : Plan} {root stem : String} (h : plan.IsSited root stem)

include h

theorem Plan.IsSited.directory_prefix : placeOf plan.directory <+: placeOf plan.dtoDirectory := by
  rw [h.names_dtoDirectory.placeOf_eq]
  exact List.prefix_append ..

theorem Plan.IsSited.makes_directory :
    Tree.MakesDirectory (placeOf plan.directory) fun tree =>
      tree.makeDirectories plan.directory :=
  h.names_directory.placeOf_eq ▸ Tree.makeDirectories_makes h.names_directory

theorem Plan.IsSited.makes_dtoDirectory :
    Tree.MakesDirectory (placeOf plan.dtoDirectory) fun tree =>
      tree.makeDirectories plan.dtoDirectory :=
  h.names_dtoDirectory.placeOf_eq ▸ Tree.makeDirectories_makes h.names_dtoDirectory

/-- Where both directories have been made, both can be found. -/
theorem Plan.IsSited.standing {made : Tree}
    (hfault : Disk.faultOfPath? plan.directory = none)
    (hok : (made.makeDirectories plan.dtoDirectory).2 = .ok ()) :
    (made.makeDirectories plan.dtoDirectory).1.standing? plan.directory = some .directory ∧
      (made.makeDirectories plan.dtoDirectory).1.standing? plan.dtoDirectory =
        some .directory := by
  have hshort : Place.isTooLong (placeOf plan.directory ++ [Artifact.dtoDirectory]) = false := by
    rw [Place.isTooLong, List.getLast?_concat]
    decide
  obtain ⟨henter, -⟩ := h.makes_dtoDirectory.opens made hok
  rw [h.names_dtoDirectory.placeOf_eq, List.dropLast_concat, h.names_directory.placeOf_eq] at henter
  exact ⟨(Tree.standing?_eq_directory_iff h.names_directory _).mpr ⟨hfault, henter⟩,
    Tree.standing?_of_makeDirectories h.names_dtoDirectory hshort hok⟩

/-- With its two directories in place, a plan has the directory of each of its files. -/
theorem Plan.IsSited.areReady {tree : Tree}
    (hdirectory : tree.standing? plan.directory = some .directory)
    (hdto : tree.standing? plan.dtoDirectory = some .directory) : AreReady plan.entries tree := by
  intro entry hentry
  rcases h.files entry hentry with hfile | hfile
  · exact ⟨_, hfile, hdirectory⟩
  · exact ⟨_, hfile, hdto⟩

/-- A sited plan comes to a refusal of its directories, or to files written up to the first that
fails. -/
theorem Plan.IsSited.outcome (tree : Tree) :
    plan.Outcome tree (plan.write (m := StateM Tree) .disk tree).1
      (plan.write (m := StateM Tree) .disk tree).2 := by
  have hadds := (h.makes_directory.adds tree).mono h.directory_prefix
  rw [Plan.write_eq, ensureDirectory_eq ⟨_, _, h.names_directory⟩]
  cases hmade : (tree.makeDirectories plan.directory).2 with
  | error fault => exact .refused (Or.inl rfl) hadds
  | ok opened =>
    have hfault := Tree.faultOfPath?_of_makeDirectories hmade
    simp only [Except.mapError]
    generalize (tree.makeDirectories plan.directory).1 = made at hadds ⊢
    have hboth := hadds.trans (h.makes_dtoDirectory.adds made)
    rw [ensureDirectory_eq ⟨_, _, h.names_dtoDirectory⟩]
    cases hdto : (made.makeDirectories plan.dtoDirectory).2 with
    | error fault => exact .refused (Or.inr rfl) hboth
    | ok opened =>
      obtain ⟨hfirst, hsecond⟩ := h.standing hfault hdto
      simp only [Except.mapError]
      generalize (made.makeDirectories plan.dtoDirectory).1 = ready at hboth hfirst hsecond ⊢
      have hplaces : ((plan.entries.map Prod.fst).map placeOf).Nodup := by
        rw [plan.map_fst_entries]
        exact h.places
      obtain ⟨landed, left, hentries, hlanded, hdone, hends⟩ :=
        writeFiles_landed (h.areReady hfirst hsecond) hplaces
      generalize writeFiles (m := StateM Tree) .disk plan.entries ready = run at *
      obtain ⟨⟨done, error⟩, after⟩ := run
      obtain rfl : done = landed.map Written.ofEntry := hdone
      exact .written hboth hfirst hsecond hentries hlanded hends

/-- A plan whose files have all been written is written again without any change. -/
theorem Plan.IsSited.write_again {tree : Tree}
    (hdirectory : tree.standing? plan.directory = some .directory)
    (hdto : tree.standing? plan.dtoDirectory = some .directory)
    (hholds : ∀ entry ∈ plan.entries, tree.readText entry.1 = .ok entry.2) :
    plan.write (m := StateM Tree) .disk tree =
      (⟨plan.entries.map Written.ofEntry, none⟩, tree) := by
  rw [Plan.write_eq, ensureDirectory_of_standing ⟨_, _, h.names_directory⟩ hdirectory]
  simp only [ensureDirectory_of_standing ⟨_, _, h.names_dtoDirectory⟩ hdto]
  exact writeFiles_again (h.areReady hdirectory hdto) hholds

end

/-! ### Generation -/

/-- A generator that writes below the directory of modules only. -/
structure Generator.IsConfined (generator : Generator) : Prop where
  modulesRoot : IsOrdinary generator.settings.modulesRoot
  extension : '/' ∉ generator.options.extension.toList

/-- Neither reading the schema nor looking for the model changes the disk, so the plan alone
does. -/
theorem Generator.generate_eq (generator : Generator) (name : String) (mode : Mode) (tree : Tree) :
    generator.generate (m := StateM Tree) name mode tree =
      match tree.readText generator.settings.schema with
      | .error fault => (.error (.schema generator.settings.schema fault), tree)
      | .ok text =>
        match findModel (Document.ofSource text) name with
        | .error failure => (.error failure, tree)
        | .ok model =>
          let (progress, after) := (generator.plan model).write (m := StateM Tree) mode tree
          match progress.error with
          | some error => (.error (.write error), after)
          | none => (.ok (generator.plan model, progress.done), after) := by
  unfold generate loadSchema readSchema
  simp only [run_bind, run_readText]
  cases tree.readText generator.settings.schema with
  | error fault => rfl
  | ok text =>
    simp only [run_pure]
    cases findModel (Document.ofSource text) name with
    | error failure => rfl
    | ok model =>
      simp only [run_bind]
      obtain ⟨⟨done, error⟩, after⟩ := (generator.plan model).write (m := StateM Tree) mode tree
      cases error with
      | none => rfl
      | some error => rfl

/-- A generation that succeeds has carried out the plan for the model. -/
theorem Generator.exists_of_generate_eq_ok {generator : Generator} {name : String}
    {before after : Tree} {plan : Plan} {results : List Written}
    (h : generator.generate (m := StateM Tree) name .disk before = (.ok (plan, results), after)) :
    ∃ text model, before.readText generator.settings.schema = .ok text ∧
      findModel (Document.ofSource text) name = .ok model ∧ plan = generator.plan model ∧
      plan.write (m := StateM Tree) .disk before = (⟨results, none⟩, after) := by
  rw [generate_eq] at h
  split at h
  · cases h
  next text htext =>
    split at h
    · cases h
    next model hmodel =>
      refine ⟨text, model, htext, hmodel, ?_⟩
      generalize hrun : (generator.plan model).write (m := StateM Tree) .disk before = run at h
      obtain ⟨⟨done, error⟩, last⟩ := run
      cases error with
      | some error => cases h
      | none =>
        obtain ⟨hplan, rfl⟩ := Prod.mk.inj h
        obtain ⟨rfl, rfl⟩ := Prod.mk.inj (Except.ok.inj hplan)
        exact ⟨rfl, hrun⟩

theorem mem_of_findModel {document : Document} {name : String} {model : Model}
    (h : findModel document name = .ok model) : model ∈ document.models := by
  unfold findModel at h
  split at h
  next found hfound => exact Except.ok.inj h ▸ List.mem_of_find?_eq_some hfound
  next => cases h

theorem isWord_of_findModel {source name : String} {model : Model}
    (h : findModel (Document.ofSource source) name = .ok model) :
    Text.isWord model.name.toList = true :=
  (Schema.isWellRead_of_mem_models (mem_of_findModel h)).name

end Scaffold.Generation
