import Scaffold.Proofs.Artifact.Inheritance
import Scaffold.Proofs.Artifact.MethodView
import Scaffold.Proofs.Generation.Effect
import Scaffold.Proofs.Generation.Preview

/-!
What is listed can be generated. A name means the first model that has it, whatever the case of its
letters, so a listed model is generated under its name unless an earlier one answers to that name
(`list_generates`). What is generated then is what the entry of the model in the listing says
(`Summary.Describes`).
-/

namespace Scaffold.Artifact

open Text

/-- The head of the class that a text declares: the last line that exports one. -/
def classHead? (content : String) : Option (List Char) :=
  ((lines content.toList).filter fun line => (exportedClass? line).isSome).getLast?

theorem classHead?_render {file : ClassFile} (h : file.HasPlainClass) (indent : Indent) :
    classHead? (file.render indent) = some file.exportLine.text.toList := by
  obtain ⟨front, hlines⟩ := exists_lines_render h indent
  have hhead : (exportedClass? file.exportLine.text.toList).isSome = true := by
    rw [ClassFile.exportedClass?_exportLine h]
    rfl
  have hbelow : (file.below.map (Line.shown indent)).filter
      (fun line => (exportedClass? line).isSome) = [] := by
    refine List.filter_eq_nil_iff.mpr fun line hline => ?_
    obtain ⟨other, hother, rfl⟩ := List.mem_map.mp hline
    rw [(ClassFile.isOther_below h other hother).exportedClass?_shown]
    exact Bool.false_ne_true
  rw [classHead?, hlines, List.filter_append, List.filter_cons, if_pos hhead, hbelow,
    List.getLast?_concat]

end Scaffold.Artifact

namespace Scaffold.Generation

open Artifact (File Kind Symbols ancestry classHead? exportMark layers)
open Disk (Tree join)
open Schema (Document Model)

/-- Whether a plan is for the module that an entry of a listing speaks of. -/
structure Summary.Describes (summary : Summary) (modulesRoot : String) (plan : Plan) : Prop where
  model : plan.model = summary.name
  directory : plan.directory = join modulesRoot summary.moduleName
  /-- The repository, the service and the controller extend base classes if and only if the
  capability is a rich one. -/
  branch : ∀ kind ∈ layers, ∃ file ∈ plan.files, file.kind = kind ∧
    classHead? file.content = some (exportMark ++ (Symbols.ofName summary.name).className kind ++
      ancestry summary.capability kind summary.name ++ " \x7b").toList

/-- Whether generating under a name carries out the plan for a model. -/
structure Generator.Carries (generator : Generator) (name : String) (model : Model) (tree : Tree) :
    Prop where
  runs : ∀ mode, generator.generate (m := StateM Tree) name mode tree =
    let (progress, after) := (generator.plan model).write (m := StateM Tree) mode tree
    match progress.error with
    | some error => (.error (.write error), after)
    | none => (.ok (generator.plan model, progress.done), after)
  preview : (generator.generate (m := StateM Tree) name .preview tree).1 =
    .ok (generator.plan model, (generator.plan model).entries.map Written.shown)

/-- The plan for a model is for the module that the listing speaks of. -/
theorem describes_plan (generator : Generator) {source : String} {model : Model}
    (hmodel : model ∈ (Document.ofSource source).models) :
    (Summary.ofModel model).Describes generator.settings.modulesRoot (generator.plan model) where
  model := rfl
  directory := rfl
  branch := by
    intro kind hkind
    have hplain : (Artifact.classFile generator.options model kind).HasPlainClass :=
      Artifact.classFile_hasPlainClass (Schema.isWellRead_of_mem_models hmodel) kind
    have hmem : Artifact.file generator.options model kind ∈ (generator.plan model).files :=
      Artifact.mem_bundle_iff.mpr ⟨kind, rfl⟩
    refine ⟨_, hmem, rfl, ?_⟩
    exact (Artifact.classHead?_render hplain _).trans
      (congrArg (fun text => some text.toList) (Artifact.exportLine_layer _ _ hkind))

theorem Generator.carries_of_findModel {generator : Generator} {text name : String} {model : Model}
    {tree : Tree} (hread : tree.readText generator.settings.schema = .ok text)
    (hmodel : findModel (Document.ofSource text) name = .ok model) :
    generator.Carries name model tree where
  runs mode := by
    have hrun := generator.generate_eq name mode tree
    simp only [hread, hmodel] at hrun
    exact hrun
  preview := by
    rw [generate_preview, hread]
    simp only [hmodel]

/-- A name means the first model that answers to it. -/
theorem findModel_eq_ok_iff {document : Document} {name : String} {model : Model} :
    findModel document name = .ok model ↔
      model.isNamed name = true ∧ ∃ front back, document.models = front ++ model :: back ∧
        ∀ other ∈ front, other.isNamed name = false := by
  have hfind : findModel document name = .ok model ↔ document.find? name = some model := by
    unfold findModel
    cases document.find? name with
    | none => simp
    | some found => simp
  rw [hfind, Document.find?, List.find?_eq_some_iff_append]
  simp

theorem Generator.list_eq (generator : Generator) (tree : Tree) :
    generator.list (m := StateM Tree) tree =
      match tree.readText generator.settings.schema with
      | .error fault => (.error (.schema generator.settings.schema fault), tree)
      | .ok text => (.ok ((Document.ofSource text).models.map Summary.ofModel), tree) := by
  unfold list loadSchema readSchema
  simp only [run_bind, run_readText]
  cases tree.readText generator.settings.schema with
  | error fault => rfl
  | ok text => rfl

/-- Where a list is cut before its first element of a kind is determined. -/
theorem eq_takeWhile_of_first {p : Model → Bool} {models front back : List Model} {model : Model}
    (h : models = front ++ model :: back) (hfront : ∀ other ∈ front, p other = false)
    (hmodel : p model = true) : front = models.takeWhile fun other => !p other := by
  rw [h, Text.takeWhile_append_stop (by simpa using hfront) (by simpa using hmodel)]

section

variable {generator : Generator} {tree : Tree} {text : String}
  (hread : tree.readText generator.settings.schema = .ok text)

include hread

/-- Under the name of a model, the first one is generated that answers to it. -/
theorem Generator.exists_carries {before behind : List Model} {model : Model}
    (h : (Document.ofSource text).models = before ++ model :: behind) :
    ∃ front chosen back, (Document.ofSource text).models = front ++ chosen :: back ∧
      chosen.isNamed model.name = true ∧ (∀ other ∈ front, other.isNamed model.name = false) ∧
      generator.Carries model.name chosen tree ∧
      (Summary.ofModel chosen).Describes generator.settings.modulesRoot (generator.plan chosen) ∧
      ((∀ other ∈ before, other.isNamed model.name = false) ↔ front = before ∧ chosen = model) := by
  have hself : model.isNamed model.name = true := by simp [Model.isNamed]
  cases hfound : findModel (Document.ofSource text) model.name with
  | error failure =>
    unfold findModel at hfound
    split at hfound
    · cases hfound
    next hnone =>
      have hmem : model ∈ (Document.ofSource text).models := by simp [h]
      exact absurd hself (List.find?_eq_none.mp hnone model hmem)
  | ok chosen =>
    obtain ⟨hchosen, front, back, hmodels, hfront⟩ := findModel_eq_ok_iff.mp hfound
    refine ⟨front, chosen, back, hmodels, hchosen, hfront, carries_of_findModel hread hfound,
      describes_plan generator (mem_of_findModel hfound), fun hbefore => ?_, ?_⟩
    · have hsame : front = before :=
        (eq_takeWhile_of_first hmodels hfront hchosen).trans
          (eq_takeWhile_of_first h hbefore hself).symm
      subst hsame
      exact ⟨rfl, (List.cons.inj (List.append_cancel_left (hmodels.symm.trans h))).1⟩
    · rintro ⟨rfl, -⟩
      exact hfront

end

/-- A listing reads the schema and changes nothing. Under the name of a listed model, the first
model is generated that answers to it, as its own entry says: that is the listed one if and only if
none before it answers to its name, and so it is for all of them where names differ in more than the
case of letters. -/
theorem Generator.list_generates {generator : Generator} {tree after : Tree}
    {summaries : List Summary}
    (h : generator.list (m := StateM Tree) tree = (.ok summaries, after)) :
    after = tree ∧ ∃ text, tree.readText generator.settings.schema = .ok text ∧
      summaries = (Document.ofSource text).models.map Summary.ofModel ∧
      (∀ before model behind, (Document.ofSource text).models = before ++ model :: behind →
        ∃ front chosen back, (Document.ofSource text).models = front ++ chosen :: back ∧
          chosen.isNamed model.name = true ∧ (∀ other ∈ front, other.isNamed model.name = false) ∧
          generator.Carries model.name chosen tree ∧
          (Summary.ofModel chosen).Describes generator.settings.modulesRoot
            (generator.plan chosen) ∧
          ((∀ other ∈ before, other.isNamed model.name = false) ↔
            front = before ∧ chosen = model)) ∧
      ((Document.ofSource text).models.Pairwise
          (fun first second => first.isNamed second.name = false) →
        ∀ model ∈ (Document.ofSource text).models, generator.Carries model.name model tree ∧
          (Summary.ofModel model).Describes generator.settings.modulesRoot
            (generator.plan model)) := by
  rw [list_eq] at h
  split at h
  · cases h
  next text hread =>
    obtain ⟨hsummaries, rfl⟩ := Prod.mk.inj h
    refine ⟨rfl, text, hread, (Except.ok.inj hsummaries).symm,
      fun before model behind hmodels => exists_carries hread hmodels,
      fun hnames model hmem => ?_⟩
    obtain ⟨before, behind, hmodels⟩ := List.append_of_mem hmem
    obtain ⟨front, chosen, back, -, -, -, hcarries, hdescribes, hfirst⟩ :=
      exists_carries hread hmodels
    rw [hmodels] at hnames
    obtain ⟨-, rfl⟩ := hfirst.mp fun other hother =>
      (List.pairwise_append.mp hnames).2.2 other hother model (List.mem_cons_self ..)
    exact ⟨hcarries, hdescribes⟩

/-- A schema of two models whose names differ in the case of letters alone. -/
def caseSchema : String :=
  "model User \x7b\n\x7d\nmodel USER \x7b\n\x7d\n"

/-- A disk with this schema. -/
def caseTree : Tree :=
  ⟨[(["m"], .directory), (["m", "user"], .directory),
    (["m", "user", "user.service.ts"], .file (.text caseSchema))]⟩

/-- The entries of the two models. -/
def caseSummaries : List Summary :=
  [⟨"User", "user", .basic, false, false, []⟩, ⟨"USER", "user", .basic, false, false, []⟩]

theorem readText_caseTree :
    caseTree.readText userGenerator.settings.schema = .ok caseSchema := by
  decide +kernel

theorem models_caseSchema :
    (Document.ofSource caseSchema).models = [⟨"User", [], none⟩, ⟨"USER", [], none⟩] := by
  decide +kernel

theorem list_caseTree :
    userGenerator.list (m := StateM Tree) caseTree = (.ok caseSummaries, caseTree) := by
  have hsummaries : (Document.ofSource caseSchema).models.map Summary.ofModel = caseSummaries := by
    rw [models_caseSchema]
    decide
  rw [Generator.list_eq, readText_caseTree]
  simp only [hsummaries]

/-- Under the name of the second, the first is generated. -/
theorem list_generates_case :
    userGenerator.list (m := StateM Tree) caseTree = (.ok caseSummaries, caseTree) ∧
      userGenerator.Carries "USER" ⟨"User", [], none⟩ caseTree := by
  refine ⟨list_caseTree, ?_⟩
  obtain ⟨-, text, hread, -, hlisted, -⟩ := Generator.list_generates list_caseTree
  obtain rfl : text = caseSchema := Except.ok.inj (hread.symm.trans readText_caseTree)
  obtain ⟨front, chosen, back, hmodels, -, hfront, hcarries, -, -⟩ :=
    hlisted [⟨"User", [], none⟩] ⟨"USER", [], none⟩ [] models_caseSchema
  rw [models_caseSchema] at hmodels
  cases front with
  | nil =>
    obtain rfl : (⟨"User", [], none⟩ : Model) = chosen := (List.cons.inj hmodels).1
    exact hcarries
  | cons first more =>
    obtain rfl : (⟨"User", [], none⟩ : Model) = first := (List.cons.inj hmodels).1
    exact absurd (hfront _ (List.mem_cons_self ..)) (by decide)

/-- Not every listed model is generated under its name, even where all names differ. -/
theorem not_forall_listed_generates : ∃ summary plan results,
    userGenerator.list (m := StateM Tree) caseTree = (.ok caseSummaries, caseTree) ∧
      (caseSummaries.map Summary.name).Nodup ∧ summary ∈ caseSummaries ∧
      (userGenerator.generate (m := StateM Tree) summary.name .preview caseTree).1 =
        .ok (plan, results) ∧
      plan.model ≠ summary.name := by
  have hfound : findModel (Document.ofSource caseSchema) "USER" = .ok ⟨"User", [], none⟩ := by
    refine findModel_eq_ok_iff.mpr ⟨by decide, [], _, models_caseSchema, by simp⟩
  have hshown := (Generator.carries_of_findModel readText_caseTree hfound).preview
  exact ⟨⟨"USER", "user", .basic, false, false, []⟩, _, _, list_caseTree, by decide,
    List.mem_cons_of_mem _ (List.mem_cons_self ..), hshown, by decide⟩

end Scaffold.Generation
