import Scaffold.Proofs.Artifact.ClosedModule
import Scaffold.Proofs.Console.Reporting
import Scaffold.Proofs.Generation.Preview
import Scaffold.Proofs.Text.Outer

/-!
The next steps that a generation asks for. The class that the user is to add to the application is
read from what stands on the screen (`classToAdd?`), coloured or not, and held against the class
that the file of the module exports when the run is over. The first is named after the model as it
is declared, the second after the model with a capital, so they are the same exactly if the declared
name does not begin with a small letter (`classToAdd_exported_iff`).
-/

namespace Scaffold.Console

open Artifact (Kind Symbols exportedClasses)
open Disk (Tree)
open Generation (Generator Overwritten Plan findModel run_bind run_pure run_readText)
open Schema (Document Model)
open Text

/-! ### The step on the screen -/

/-- The class that a line asks the user to add. -/
def addedClass? (line : List Char) : Option String :=
  (dropPrefix? "   1. Add ".toList line).bind fun rest =>
    (dropSuffix? " to your app.module.ts".toList rest).map String.ofList

/-- The class that the user is asked to add: that of the last line that asks for one. -/
def classToAdd? (output : String) : Option String :=
  ((lines output.toList).filterMap addedClass?).getLast?

/-- The lines of the next steps. -/
def nextSteps (model : String) : List String :=
  ["   1. Add " ++ (model ++ "Module") ++ " to your app.module.ts",
    "   2. Review and customize the generated files",
    "   3. Add any custom business logic to the service",
    "   4. Add authentication guards if needed"]

theorem renderSpans_append (coloured : Bool) (first second : List Span) :
    renderSpans coloured (first ++ second) =
      renderSpans coloured first ++ renderSpans coloured second := by
  simp only [renderSpans, List.map_append, String.join_append]

/-- Lines that are not set off stand on the screen as they are, in colour or not. -/
theorem toList_renderSpans_plain (coloured : Bool) (content : List String) :
    (renderSpans coloured (content.map fun line => plain (line ++ "\n"))).toList =
      unlines (content.map String.toList) := by
  induction content with
  | nil => rfl
  | cons line rest ih =>
    have hline : (plain (line ++ "\n")).render coloured = line ++ "\n" := rfl
    rw [renderSpans] at ih ⊢
    rw [List.map_cons, List.map_cons, String.join_cons, String.toList_append, ih, hline,
      List.map_cons, unlines_cons, String.toList_append]
    simp

/-- The last notice of a generation ends with the next steps, below a line that is ended. -/
theorem exists_spans_complete (model directory : String) :
    ∃ above, (Notice.complete model directory).spans =
      above ++ ("" :: nextSteps model).map fun line => plain (line ++ "\n") := by
  have hfirst : "   1. Add " ++ model ++ "Module to your app.module.ts\n" =
      "   1. Add " ++ (model ++ "Module") ++ " to your app.module.ts" ++ "\n" := by
    have hsplit : "Module to your app.module.ts\n" =
        "Module" ++ (" to your app.module.ts" ++ "\n") := rfl
    rw [hsplit]
    simp only [String.append_assoc]
  refine ⟨(Notice.complete model directory).spans.take 8, ?_⟩
  rw [nextSteps, List.map_cons, List.map_cons, ← hfirst]
  rfl

/-- Whatever is told before, the next steps stand in lines of their own at the end. -/
theorem exists_output_eq {report : Report} {front : List Notice} {model directory : String}
    (h : report.notices = front ++ [.complete model directory]) (coloured : Bool) :
    ∃ above, EndsLine above ∧
      (report.output coloured).toList = above ++ unlines ((nextSteps model).map String.toList) := by
  obtain ⟨above, hspans⟩ := exists_spans_complete model directory
  refine ⟨(renderSpans coloured (front.flatMap Notice.spans ++ above)).toList ++ ['\n'], ?_, ?_⟩
  · rw [EndsLine, List.getLast?_concat]
    simp
  · rw [Report.output, h, List.flatMap_append, List.flatMap_singleton, hspans, ← List.append_assoc,
      renderSpans_append, String.toList_append, toList_renderSpans_plain, List.map_cons,
      unlines_cons, List.append_assoc]
    rfl

theorem newline_not_mem_nextSteps {model : String} (h : isWord model.toList = true) :
    ∀ line ∈ (nextSteps model).map String.toList, '\n' ∉ line := by
  have hmodel : '\n' ∉ model.toList := not_mem_of_isWord h (by decide)
  rw [nextSteps, List.map_cons, List.forall_mem_cons]
  exact ⟨by simp [hmodel], by decide +kernel⟩

/-- One of the closing lines names a class. -/
theorem filterMap_nextSteps (model : String) :
    ((nextSteps model).map String.toList).filterMap addedClass? = [model ++ "Module"] := by
  have hstep : addedClass?
      ("   1. Add " ++ (model ++ "Module") ++ " to your app.module.ts").toList =
        some (model ++ "Module") := by
    rw [addedClass?, String.toList_append, String.toList_append, List.append_assoc,
      dropPrefix?_append, Option.bind_some, dropSuffix?_append, Option.map_some,
      String.ofList_toList]
  have hothers : ((nextSteps "").tail.map String.toList).filterMap addedClass? = [] := by
    decide +kernel
  rw [nextSteps, List.map_cons, List.filterMap_cons_some hstep]
  exact congrArg (fun others => (model ++ "Module") :: others) hothers

/-- The user is asked to add the class that is named after the model as it is declared. -/
theorem classToAdd?_output {report : Report} {front : List Notice} {model directory : String}
    (h : report.notices = front ++ [.complete model directory]) (hword : isWord model.toList = true)
    (coloured : Bool) : classToAdd? (report.output coloured) = some (model ++ "Module") := by
  obtain ⟨above, hends, houtput⟩ := exists_output_eq h coloured
  rw [classToAdd?, houtput, lines_append hends, lines_unlines (newline_not_mem_nextSteps hword),
    List.filterMap_append, filterMap_nextSteps, List.getLast?_concat]

/-! ### Generations that do not fail -/

/-- What a generation has done that does not fail: it has found the model in the schema and carried
out its plan, and the last thing it tells is that the module is complete. -/
structure Generates (generator : Generator) (model : Model) (name : String) (before : Tree)
    (report : Report) (after : Tree) : Prop where
  found : ∃ text, before.readText generator.settings.schema = .ok text ∧
    findModel (Document.ofSource text) name = .ok model
  told : ∃ front,
    report.notices = front ++ [.complete model.name (generator.plan model).directory]
  written : Overwritten (generator.plan model).ways (generator.plan model).entries before after

theorem exists_generates_of_runGenerate {generator : Generator} {name : String} {before : Tree}
    (h : (runGenerate (m := StateM Tree) generator name .disk before).1.failure = none) :
    ∃ model, Generates generator model name before
      (runGenerate (m := StateM Tree) generator name .disk before).1
      (runGenerate (m := StateM Tree) generator name .disk before).2 := by
  unfold runGenerate Generator.loadSchema Generation.readSchema at h ⊢
  simp only [run_bind, run_readText] at h ⊢
  cases htext : before.readText generator.settings.schema with
  | error fault =>
    rw [htext] at h
    cases h
  | ok text =>
    simp only [htext, run_pure] at h ⊢
    cases hmodel : findModel (Document.ofSource text) name with
    | error failure =>
      rw [hmodel] at h
      cases h
    | ok model =>
      simp only [hmodel, run_bind, run_pure] at h ⊢
      generalize hrun : (generator.plan model).write (m := StateM Tree) .disk before = run at h ⊢
      obtain ⟨⟨done, error⟩, after⟩ := run
      cases error with
      | some error => cases h
      | none =>
        refine ⟨model, ⟨text, htext, hmodel⟩,
          ⟨.generating model.name model.capability :: done.map Notice.ofWritten, ?_⟩,
          (Plan.holds_of_write hrun).2⟩
        rfl

/-- A run that does not fail has read a schema with the model and written its files. -/
theorem exists_generates {setup : Setup} {name : String} {before after : Tree} {report : Report}
    (hrun : run (m := StateM Tree) (.generate setup name false) before = (report, after))
    (hok : report.failure = none) :
    ∃ generator model, (prepare (m := StateM Tree) setup before).1.2 = .ok generator ∧
      Generates generator model name before report after := by
  have hreads : (prepare (m := StateM Tree) setup before).2 = before :=
    readsOnly.prepare setup before
  rw [run, run_bind] at hrun
  generalize prepare (m := StateM Tree) setup before = prepared at hrun hreads ⊢
  obtain ⟨⟨events, result⟩, tree⟩ := prepared
  obtain rfl : tree = before := hreads
  cases result with
  | error failure =>
    obtain ⟨rfl, rfl⟩ := Prod.mk.inj hrun
    cases hok
  | ok generator =>
    simp only [run_bind, run_pure] at hrun
    obtain ⟨rfl, rfl⟩ := Prod.mk.inj hrun
    obtain ⟨model, hgenerates⟩ := exists_generates_of_runGenerate hok
    exact ⟨generator, model, rfl, hgenerates.found, hgenerates.told, hgenerates.written⟩

/-! ### The class in the file of the module -/

/-- The path of the file with the class of the module. -/
def wiringTarget (generator : Generator) (model : Model) : String :=
  (generator.plan model).target (Artifact.file generator.options model .wiring)

theorem wiringTarget_eq (generator : Generator) (model : Model) :
    wiringTarget generator model = Disk.join (generator.plan model).directory
      (Kind.wiring.path (Symbols.ofName model.name).stem generator.options.extension) :=
  rfl

/-- The file is written last, so it holds what is planned wherever its path leads. -/
theorem Generates.readText_wiring {generator : Generator} {model : Model} {name : String}
    {before after : Tree} {report : Report}
    (h : Generates generator model name before report after) :
    after.readText (wiringTarget generator model) =
      .ok (Artifact.file generator.options model .wiring).content :=
  h.written.holds
    ((generator.plan model).entries.take 5)
    (wiringTarget generator model, (Artifact.file generator.options model .wiring).content)
    [] rfl (by simp)

/-- The file of the module exports one class. It imports nothing that the settings name, so this is
seen whatever they are. -/
theorem exportedClasses_wiring {model : Model} (h : model.IsWellRead) (options : Artifact.Options) :
    exportedClasses (Artifact.file options model .wiring).content =
      [capitalize model.name ++ "Module"] := by
  have hpaths : (Artifact.Options.imports {}).ArePlain := by decide
  exact @Artifact.exportedClasses_file { options with imports := {} } model h hpaths .wiring

/-- A generation that does not fail asks the user, in colour or not, to add a class that is named
after the model as it is declared. The file of the module, which it has written, exports one class,
named after the model with a capital. So the user is asked to add the class that there is exactly if
the declared name does not begin with a small letter. -/
theorem classToAdd_exported_iff {setup : Setup} {name : String} {before after : Tree}
    {report : Report}
    (hrun : run (m := StateM Tree) (.generate setup name false) before = (report, after))
    (hok : report.failure = none) (coloured : Bool) :
    ∃ generator text model content,
      (prepare (m := StateM Tree) setup before).1.2 = .ok generator ∧
      before.readText generator.settings.schema = .ok text ∧
      findModel (Document.ofSource text) name = .ok model ∧
      after.readText (wiringTarget generator model) = .ok content ∧
      exportedClasses content = [capitalize model.name ++ "Module"] ∧
      classToAdd? (report.output coloured) = some (model.name ++ "Module") ∧
      (classToAdd? (report.output coloured) = (exportedClasses content).head? ↔
        ∀ c ∈ model.name.toList.head?, c.isLower = false) := by
  obtain ⟨generator, model, hprepared, hgenerates⟩ := exists_generates hrun hok
  obtain ⟨text, htext, hmodel⟩ := hgenerates.found
  have hread := Schema.isWellRead_of_mem_models (Generation.mem_of_findModel hmodel)
  obtain ⟨front, htold⟩ := hgenerates.told
  have hasked := classToAdd?_output htold hread.name coloured
  have hexported := exportedClasses_wiring hread generator.options
  refine ⟨generator, text, model, _, hprepared, htext, hmodel, hgenerates.readText_wiring,
    hexported, hasked, ?_⟩
  rw [hasked, hexported, List.head?_cons, Option.some.injEq, String.append_left_inj, eq_comm,
    capitalize_eq_self_iff hread.name]

/-- A disk with a schema of two models, one of which is not written with a capital. -/
def mixedTree : Tree :=
  ⟨[(["s"], .file (.text
    "model user \x7b\n  id Int @id\n\x7d\n\nmodel Order \x7b\n  id Int @id\n\x7d\n"))]⟩

/-- Where the schema is and where modules go. -/
def mixedSetup : Setup :=
  ⟨none, { schema := some "s", modulesRoot := some "o" }⟩

/-- A generation on that disk. -/
def mixedRun (name : String) : Report × Tree :=
  run (m := StateM Tree) (.generate mixedSetup name false) mixedTree

theorem run_mixedRun (name : String) :
    run (m := StateM Tree) (.generate mixedSetup name false) mixedTree =
      ((mixedRun name).1, (mixedRun name).2) := by
  rw [mixedRun, Prod.eta]

theorem extension_eq_of_prepare {generator : Generator}
    (h : (prepare (m := StateM Tree) mixedSetup mixedTree).1.2 = .ok generator) :
    generator.options.extension = "ts" := by
  have hprepare : ((prepare (m := StateM Tree) mixedSetup mixedTree).1.2.toOption.map
      fun generator => generator.options.extension) = some "ts" := by
    decide +kernel
  rw [h] at hprepare
  exact Option.some.inj hprepare

theorem classToAdd_exported_order :
    (mixedRun "Order").1.failure = none ∧ ∃ path content,
      (mixedRun "Order").2.readText path = .ok content ∧
      exportedClasses content = ["OrderModule"] ∧
      classToAdd? ((mixedRun "Order").1.output true) = (exportedClasses content).head? := by
  have hok : (mixedRun "Order").1.failure = none := by decide +kernel
  have hnotices : (mixedRun "Order").1.notices =
      (mixedRun "Order").1.notices.dropLast ++ [.complete "Order" "o/order"] := by
    decide +kernel
  obtain ⟨generator, text, model, content, -, -, -, hread, hexported, hasked, hsame⟩ :=
    classToAdd_exported_iff (run_mixedRun "Order") hok true
  have hname : model.name = "Order" := by
    have htold := classToAdd?_output hnotices (by decide) true
    rw [hasked, Option.some.injEq, String.append_left_inj] at htold
    exact htold
  have hclass : capitalize "Order" ++ "Module" = "OrderModule" := by decide
  rw [hname] at hexported hsame
  exact ⟨hok, _, content, hread, hexported.trans (congrArg (fun name => [name]) hclass),
    hsame.mpr (by decide)⟩

theorem not_classToAdd_exported_user :
    ((mixedRun "user").1.failure = none ∧
      classToAdd? ((mixedRun "user").1.output false) = some "userModule" ∧
      ∃ content, (mixedRun "user").2.readText "o/user/user.module.ts" = .ok content ∧
        exportedClasses content = ["UserModule"]) ∧
    ¬ ∃ content, (mixedRun "user").2.readText "o/user/user.module.ts" = .ok content ∧
      classToAdd? ((mixedRun "user").1.output false) = (exportedClasses content).head? := by
  have hok : (mixedRun "user").1.failure = none := by decide +kernel
  have hlast : (mixedRun "user").1.notices.getLast? = some (.complete "user" "o/user") := by
    decide +kernel
  obtain ⟨generator, model, hprepared, hgenerates⟩ := exists_generates (run_mixedRun "user") hok
  obtain ⟨front, htold⟩ := hgenerates.told
  rw [htold, List.getLast?_concat] at hlast
  obtain ⟨hname, hdirectory⟩ := Notice.complete.inj (Option.some.inj hlast)
  have hpath : wiringTarget generator model = "o/user/user.module.ts" := by
    rw [wiringTarget_eq, hname, hdirectory, extension_eq_of_prepare hprepared]
    decide +kernel
  have hread := hgenerates.readText_wiring
  rw [hpath] at hread
  have hasked := classToAdd?_output htold (hname ▸ by decide) false
  rw [hname] at hasked
  have hexported : exportedClasses (Artifact.file generator.options model .wiring).content =
      ["UserModule"] := by
    obtain ⟨text, -, hmodel⟩ := hgenerates.found
    have hmodel := Schema.isWellRead_of_mem_models (Generation.mem_of_findModel hmodel)
    rw [exportedClasses_wiring hmodel, hname]
    decide
  refine ⟨⟨hok, hasked, _, hread, hexported⟩, ?_⟩
  rintro ⟨content, hcontent, hsame⟩
  obtain rfl := Except.ok.inj (hread.symm.trans hcontent)
  rw [hasked, hexported] at hsame
  exact absurd hsame (by decide)

end Scaffold.Console
