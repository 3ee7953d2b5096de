import Scaffold.Proofs.Console.Run

/-!
What a generation tells of the files that it writes. A disk that keeps a record of the files written
to it is the same disk to every program (`Records`), and the record is held against what the user is
told. Files are told of when all of them are written, so a run that fails behind the first file does
not tell of those it has written (`tellsOf_generate_iff`).
-/

namespace Scaffold.Disk

/-- A disk in memory, and the paths of the files that have been written to it, in order. -/
structure Ledger where
  tree : Tree
  written : List String
deriving DecidableEq

instance : Readable (StateM Ledger) where
  standing? path := fun ledger => (ledger.tree.standing? path, ledger)
  readText path := fun ledger => (ledger.tree.readText path, ledger)

instance : Writable (StateM Ledger) where
  makeDirectories path := fun ledger =>
    let (result, after) := Writable.makeDirectories (m := StateM Tree) path ledger.tree
    (result, { ledger with tree := after })
  writeText path text := fun ledger =>
    match Writable.writeText (m := StateM Tree) path text ledger.tree with
    | (.ok (), after) => (.ok (), ⟨after, ledger.written ++ [path]⟩)
    | (.error fault, after) => (.error fault, { ledger with tree := after })

end Scaffold.Disk

namespace Scaffold.Console

open Disk (Ledger Readable Tree Writable)
open Generation (Generator Plan Progress Written ensureDirectory writeFile writeFiles)
open Schema (Model)

/-! ### Records -/

section

variable {α β : Type}

/-- Whether a program does on a disk with a record what it does on one without, and adds to the
record what is said of its result. -/
def Records (recorded : StateM Ledger α) (program : StateM Tree α)
    (claim : α → List String → Prop) : Prop :=
  ∀ ledger, ∃ wrote, recorded ledger = ((program ledger.tree).1,
      ⟨(program ledger.tree).2, ledger.written ++ wrote⟩) ∧ claim (program ledger.tree).1 wrote

/-- Whether a program adds nothing to the record. -/
def WritesNothing (recorded : StateM Ledger α) (program : StateM Tree α) : Prop :=
  Records recorded program fun _ wrote => wrote = []

/-- A program that only gives a value records nothing, so what is said has to hold of no files. -/
theorem records_pure {value : α} {claim : α → List String → Prop} (h : claim value []) :
    Records (pure value) (pure value) claim := by
  intro ledger
  refine ⟨[], ?_, h⟩
  rw [List.append_nil]
  rfl

/-- What is said of a program is said of its parts: the claim of the second one is about what both
have written. -/
theorem Records.bind {recorded : StateM Ledger α} {program : StateM Tree α}
    {recordedNext : α → StateM Ledger β} {next : α → StateM Tree β}
    {first : α → List String → Prop} {claim : β → List String → Prop}
    (h : Records recorded program first)
    (hnext : ∀ value wrote, first value wrote →
      Records (recordedNext value) (next value) fun result more => claim result (wrote ++ more)) :
    Records (recorded >>= recordedNext) (program >>= next) claim := by
  intro ledger
  obtain ⟨wrote, hrun, hfirst⟩ := h ledger
  obtain ⟨more, hmore, hclaim⟩ := hnext _ wrote hfirst ⟨_, ledger.written ++ wrote⟩
  refine ⟨wrote ++ more, ?_, hclaim⟩
  change recordedNext (recorded ledger).1 (recorded ledger).2 = _
  rw [hrun, hmore, List.append_assoc]
  rfl

/-- Steps that write nothing can be passed over. -/
theorem WritesNothing.bind {recorded : StateM Ledger α} {program : StateM Tree α}
    {recordedNext : α → StateM Ledger β} {next : α → StateM Tree β}
    {claim : β → List String → Prop} (h : WritesNothing recorded program)
    (hnext : ∀ value, Records (recordedNext value) (next value) claim) :
    Records (recorded >>= recordedNext) (program >>= next) claim := by
  refine Records.bind h fun value wrote hwrote => ?_
  subst hwrote
  exact hnext value

theorem writesNothing_pure (value : α) :
    WritesNothing (pure value : StateM Ledger α) (pure value) :=
  records_pure rfl

end

/-! ### Reading -/

/-- The steps of programs that only read add nothing to the record. -/
def writesNothing : ReadingRelation (StateM Ledger) (StateM Tree) where
  Rel := WritesNothing
  pure := writesNothing_pure
  bind := WritesNothing.bind
  standing? _ ledger := ⟨[], by rw [List.append_nil]; rfl, rfl⟩
  readText _ ledger := ⟨[], by rw [List.append_nil]; rfl, rfl⟩

/-! ### Writing -/

/-- The record is one of files, and directories are not in it. -/
theorem writesNothing_makeDirectories (path : String) :
    WritesNothing (Writable.makeDirectories (m := StateM Ledger) path)
      (Writable.makeDirectories (m := StateM Tree) path) := by
  refine fun ledger => ⟨[], ?_, rfl⟩
  rw [List.append_nil]
  rfl

theorem run_writeText_ledger (path text : String) (ledger : Ledger) :
    Writable.writeText (m := StateM Ledger) path text ledger =
      match Writable.writeText (m := StateM Tree) path text ledger.tree with
      | (.ok (), after) => (.ok (), ⟨after, ledger.written ++ [path]⟩)
      | (.error fault, after) => (.error fault, { ledger with tree := after }) := rfl

/-- What a request to write a file adds to the record: its path, if it is carried out. -/
theorem records_writeText (path text : String) :
    Records (Writable.writeText (m := StateM Ledger) path text)
      (Writable.writeText (m := StateM Tree) path text) fun result wrote =>
        wrote = if result.isOk then [path] else [] := by
  refine fun ledger => ⟨_, ?_, rfl⟩
  rw [run_writeText_ledger]
  obtain ⟨result, after⟩ := Writable.writeText (m := StateM Tree) path text ledger.tree
  cases result with
  | ok done => rfl
  | error fault => simp [Except.isOk, Except.toBool]

theorem writesNothing_ensureDirectory (path : String) :
    WritesNothing (ensureDirectory (m := StateM Ledger) .disk path)
      (ensureDirectory (m := StateM Tree) .disk path) := by
  refine WritesNothing.bind (writesNothing.standing? path) fun standing => ?_
  split
  · exact writesNothing_pure _
  · refine (writesNothing_makeDirectories path).bind fun result => ?_
    cases result with
    | ok made => exact writesNothing_pure _
    | error fault => exact writesNothing_pure _

/-- What is recorded and told of one file, given how writing it ended. -/
def TellsOne (path : String) : Except WriteError Written → List String → Prop
  | .ok written, wrote => Notice.ofWritten written = .generated path ∧ wrote = [path]
  | .error _, wrote => wrote = []

/-- A file whose directory cannot be made, or that cannot be written, is neither recorded nor told
of. -/
theorem records_writeFile (path content : String) :
    Records (writeFile (m := StateM Ledger) .disk path content)
      (writeFile (m := StateM Tree) .disk path content) (TellsOne path) := by
  unfold writeFile
  cases Disk.parent? path
  case' some parent => refine (writesNothing_ensureDirectory parent).bind fun ready => ?_
  case' none => refine (writesNothing_pure (Except.ok ())).bind fun ready => ?_
  -- The file is written in the same way, whether it has a directory of its own or not.
  all_goals
    cases ready with
    | error error => exact records_pure rfl
    | ok opened =>
      refine (records_writeText path content).bind fun result wrote hwrote => ?_
      subst hwrote
      cases result with
      | ok done => exact records_pure ⟨rfl, rfl⟩
      | error fault => exact records_pure rfl

/-- What is recorded and told of files with some targets, given how writing them ended. -/
structure Accounts (targets : List String) (progress : Progress) (wrote : List String) : Prop where
  told : progress.done.map Notice.ofWritten = wrote.map Notice.generated
  front : wrote <+: targets
  complete_iff : progress.error = none ↔ wrote = targets

/-- Nothing is written when opening a directory fails, and something is then left to write. -/
theorem accounts_failed {targets : List String} (h : targets ≠ []) (error : WriteError) :
    Accounts targets ⟨[], some error⟩ [] :=
  ⟨rfl, List.nil_prefix, by simpa using h.symm⟩

/-- A file written in front of others adds to their account on both sides. -/
theorem Accounts.cons {path : String} {targets wrote : List String} {later : Progress}
    {written : Written} (hwritten : Notice.ofWritten written = .generated path)
    (h : Accounts targets later wrote) :
    Accounts (path :: targets) { later with done := written :: later.done } (path :: wrote) where
  told := by simp [hwritten, h.told]
  front := List.cons_prefix_cons.mpr ⟨rfl, h.front⟩
  complete_iff := by simpa using h.complete_iff

/-- By induction on the files: the first failure ends the account, and the rest is not tried. -/
theorem records_writeFiles (entries : List (String × String)) :
    Records (writeFiles (m := StateM Ledger) .disk entries)
      (writeFiles (m := StateM Tree) .disk entries) (Accounts (entries.map Prod.fst)) := by
  induction entries with
  | nil => exact records_pure ⟨rfl, List.nil_prefix, by simp⟩
  | cons entry rest ih =>
    obtain ⟨path, content⟩ := entry
    refine (records_writeFile path content).bind fun result wrote htells => ?_
    cases result with
    | error error =>
      obtain rfl : wrote = [] := htells
      exact records_pure (accounts_failed (List.cons_ne_nil _ _) error)
    | ok written =>
      obtain ⟨hwritten, rfl⟩ := htells
      refine ih.bind fun later more hlater => records_pure ?_
      rw [List.append_nil]
      exact hlater.cons hwritten

/-- The two directories of a plan come before its files. A plan without files would be complete even
if these could not be made, so it has to have some. -/
theorem records_write {plan : Plan} (h : plan.targets ≠ []) :
    Records (plan.write (m := StateM Ledger) .disk) (plan.write (m := StateM Tree) .disk)
      (Accounts plan.targets) := by
  refine (writesNothing_ensureDirectory plan.directory).bind fun opened => ?_
  cases opened with
  | error error => exact records_pure (accounts_failed h error)
  | ok opened =>
    refine (writesNothing_ensureDirectory plan.dtoDirectory).bind fun opened => ?_
    cases opened with
    | error error => exact records_pure (accounts_failed h error)
    | ok opened =>
      rw [← plan.map_fst_entries]
      exact records_writeFiles plan.entries

/-! ### Reports -/

/-- The file that a notice tells of as written. -/
def Notice.generated? : Notice → Option String
  | .generated path => some path
  | _ => none

/-- Whether a notice says that a module is complete. -/
def Notice.isComplete : Notice → Bool
  | .complete .. => true
  | _ => false

/-- The file that an event is the writing of. -/
def Event.writtenPath? : Event → Option String
  | .fileWritten path _ => some path
  | _ => none

namespace Report

/-- The files that the user is told of as written, in order. -/
def generatedPaths (report : Report) : List String :=
  report.notices.filterMap Notice.generated?

/-- The files that are logged as written, in order. -/
def loggedPaths (report : Report) : List String :=
  report.events.filterMap Event.writtenPath?

/-- Whether the user is told that the module is complete. -/
def hasBanner (report : Report) : Bool :=
  report.notices.any Notice.isComplete

end Report

/-- How a generation ends, given the files that it has written. -/
inductive Ending (wrote : List String) (report : Report) : Prop where
  /-- There is no plan, and nothing is told. -/
  | unplanned (hwrote : wrote = []) (htold : report.notices = [])
    (hfailure : report.failure ≠ none)
  /-- Not all files can be written, and those that have been are not told of. -/
  | stopped {generator : Generator} {model : Model} {error : WriteError}
    (hfront : wrote <+: (generator.plan model).targets) (hshort : wrote.length < 6)
    (htold : report.notices = [.generating model.name model.capability])
    (hfailure : report.failure = some (.write error))
  /-- All files are written, and told of in the same order. -/
  | complete {generator : Generator} {model : Model}
    (hwrote : wrote = (generator.plan model).targets) (hall : wrote.length = 6)
    (htold : report.notices = .generating model.name model.capability ::
      (wrote.map .generated ++ [.complete model.name (generator.plan model).directory]))
    (hfailure : report.failure = none)

/-- How a generation is reported, given the files that it has written: by its end, and in the log. -/
structure IsReported (wrote : List String) (report : Report) : Prop where
  ending : Ending wrote report
  logged : report.loggedPaths = wrote

/-- What has happened before a generation is not told, and does not count as a file. -/
theorem IsReported.after {wrote : List String} {report : Report} (h : IsReported wrote report)
    {events : List Event} (hevents : events.filterMap Event.writtenPath? = []) :
    IsReported wrote (report.after events) where
  ending := by
    cases h.ending with
    | unplanned hwrote htold hfailure => exact .unplanned hwrote htold hfailure
    | stopped hfront hshort htold hfailure => exact .stopped hfront hshort htold hfailure
    | complete hwrote hall htold hfailure => exact .complete hwrote hall htold hfailure
  logged := by
    rw [Report.loggedPaths, Report.after, List.filterMap_append, hevents]
    exact h.logged

/-- Without a plan nothing is written or told. -/
theorem isReported_failed (failure : Failure) : IsReported [] (.failed failure) :=
  ⟨.unplanned rfl rfl nofun, rfl⟩

theorem filterMap_generated? (paths : List String) :
    (paths.map Notice.generated).filterMap Notice.generated? = paths := by
  simp [List.filterMap_map, Function.comp_def, Notice.generated?]

/-- What is told of a file as generated is logged of it as written. -/
theorem writtenPath?_ofWritten? (written : Written) :
    (Event.ofWritten? written).bind Event.writtenPath? =
      (Notice.ofWritten written).generated? := by
  cases written <;> rfl

theorem writtenPath?_ofSchema (schema : Generation.SchemaFile) :
    (Event.ofSchema schema).filterMap Event.writtenPath? = [] := by
  rw [List.filterMap_eq_nil_iff]
  intro event hevent
  simp only [Event.ofSchema, List.mem_append, List.mem_cons, List.mem_map] at hevent
  obtain (rfl | ⟨_, _, rfl⟩) | ⟨_, _, rfl⟩ := hevent <;> rfl

theorem writtenPath?_ofPlan (plan : Plan) :
    (Event.ofPlan plan).filterMap Event.writtenPath? = [] := by
  simp [Event.ofPlan, Event.writtenPath?, Function.comp_def]

/-- The log follows what is told, file by file, also when a failure keeps it from the user. -/
theorem Accounts.logged {targets wrote : List String} {progress : Progress}
    (h : Accounts targets progress wrote) :
    (progress.done.filterMap Event.ofWritten?).filterMap Event.writtenPath? = wrote := by
  simp only [List.filterMap_filterMap, writtenPath?_ofWritten?]
  calc progress.done.filterMap (fun written => (Notice.ofWritten written).generated?)
      = (progress.done.map Notice.ofWritten).filterMap Notice.generated? := by
        rw [List.filterMap_map]; rfl
    _ = (wrote.map Notice.generated).filterMap Notice.generated? := by rw [h.told]
    _ = wrote := filterMap_generated? wrote

theorem length_targets_plan (generator : Generator) (model : Model) :
    (generator.plan model).targets.length = 6 := by
  rw [Plan.targets, List.length_map]
  rfl

/-- A plan is reported by what has become of its files. -/
theorem Accounts.ending {generator : Generator} {model : Model} {progress : Progress}
    {wrote : List String} (h : Accounts (generator.plan model).targets progress wrote)
    (events : List Event) :
    Ending wrote {
      notices := .generating model.name model.capability ::
        fileNotices (generator.plan model) .disk progress
      events := events
      failure := progress.error.map .write } := by
  have hall := length_targets_plan generator model
  cases herror : progress.error with
  | none =>
    obtain rfl := h.complete_iff.mp herror
    have htold : fileNotices (generator.plan model) .disk progress =
        (generator.plan model).targets.map .generated ++
          [.complete model.name (generator.plan model).directory] := by
      simp only [fileNotices, herror, h.told, Option.isSome_none, Bool.false_eq_true, if_false,
        if_true]
      rfl
    exact .complete rfl hall (congrArg (.generating model.name model.capability :: ·) htold) rfl
  | some error =>
    -- The failure is told in place of the files, whether or not some of them were written.
    have htold : fileNotices (generator.plan model) .disk progress = [] := by
      simp [fileNotices, herror]
    have hne : wrote ≠ (generator.plan model).targets := fun hsame => by
      simp [h.complete_iff.mpr hsame] at herror
    have hlength : wrote.length ≠ (generator.plan model).targets.length :=
      fun hsame => hne (h.front.eq_of_length hsame)
    have hle := h.front.length_le
    exact .stopped h.front (by omega)
      (congrArg (.generating model.name model.capability :: ·) htold) rfl

theorem records_prepare (setup : Setup) :
    Records (prepare (m := StateM Ledger) setup) (prepare (m := StateM Tree) setup)
      fun prepared wrote => wrote = [] ∧ prepared.1.filterMap Event.writtenPath? = [] := by
  refine WritesNothing.bind (writesNothing.load setup.file) fun result => ?_
  cases result with
  | error error => exact records_pure ⟨rfl, rfl⟩
  | ok loaded => exact records_pure ⟨rfl, by simp [Event.writtenPath?, Function.comp_def]⟩

/-- A schema that cannot be read or lacks the model ends the run before its plan; else the plan
decides. -/
theorem records_runGenerate (generator : Generator) (name : String) :
    Records (runGenerate (m := StateM Ledger) generator name .disk)
      (runGenerate (m := StateM Tree) generator name .disk) fun report wrote =>
        IsReported wrote report := by
  refine WritesNothing.bind (writesNothing.loadSchema generator) fun result => ?_
  cases result with
  | error failure => exact records_pure (isReported_failed failure)
  | ok schema =>
    have hschema := writtenPath?_ofSchema schema
    cases hmodel : Generation.findModel schema.document name with
    | error failure =>
      simp only [hmodel]
      exact records_pure ((isReported_failed failure).after hschema)
    | ok model =>
      have htargets : (generator.plan model).targets ≠ [] :=
        List.ne_nil_of_length_pos (by simp [length_targets_plan])
      simp only [hmodel]
      refine (records_write htargets).bind fun progress wrote haccounts => records_pure ?_
      rw [List.append_nil]
      refine ⟨haccounts.ending _, ?_⟩
      simp only [Report.loggedPaths, List.filterMap_append, hschema, writtenPath?_ofPlan,
        haccounts.logged, List.nil_append]

/-- A run adds to its generation only what happens before it. -/
theorem records_generate (setup : Setup) (name : String) :
    Records (run (m := StateM Ledger) (.generate setup name false))
      (run (m := StateM Tree) (.generate setup name false)) fun report wrote =>
        IsReported wrote report := by
  refine (records_prepare setup).bind fun (events, result) wrote ⟨hwrote, hevents⟩ => ?_
  subst hwrote
  cases result with
  | error failure => exact records_pure ((isReported_failed failure).after hevents)
  | ok generator =>
    refine (records_runGenerate generator name).bind fun report wrote h => records_pure ?_
    rw [List.append_nil]
    exact h.after hevents

/-! ### What the user sees -/

/-- The text of a notice, without colours. -/
def Notice.text (notice : Notice) : String :=
  renderSpans false notice.spans

/-- The output is the texts of the notices, one after the other. -/
theorem Report.output_eq (report : Report) :
    report.output false = String.join (report.notices.map Notice.text) := by
  rw [Report.output]
  induction report.notices with
  | nil => rfl
  | cons notice rest ih =>
    rw [List.flatMap_cons, List.map_cons, String.join_cons, ← ih]
    simp only [Notice.text, renderSpans, List.map_append, String.join_append]

/-- The line about a file that has been written. -/
def generatedLine (path : String) : String :=
  "✓ Generated: " ++ path ++ "\n"

theorem Notice.text_generated (path : String) :
    (Notice.generated path).text = generatedLine path := by
  calc (Notice.generated path).text
      = String.join ["✓", " Generated: " ++ path ++ "\n"] := rfl
    _ = "✓" ++ (" Generated: " ++ path ++ "\n") := by
        rw [String.join_cons, String.join_cons, String.join_nil, String.append_empty]
    _ = generatedLine path := by
        rw [← String.append_assoc, ← String.append_assoc]
        rfl

/-- Whether the user is told of some files, of each in a line of its own and in their order, and of
the module as complete exactly if these are all six. -/
structure Report.TellsOf (report : Report) (wrote : List String) : Prop where
  paths : report.generatedPaths = wrote
  lines : ∃ heading closing,
    report.output false = heading ++ String.join (wrote.map generatedLine) ++ closing
  banner : report.hasBanner = true ↔ wrote.length = 6

namespace Ending

variable {wrote : List String} {report : Report} (h : Ending wrote report)

include h

/-- The module is called complete when all six files have been written, and at no other end. -/
theorem hasBanner_iff : report.hasBanner = true ↔ wrote.length = 6 := by
  cases h with
  | unplanned hwrote htold _ => simp [Report.hasBanner, htold, hwrote]
  | stopped _ hshort htold _ =>
    simp [Report.hasBanner, htold, Notice.isComplete, hshort.ne]
  | complete _ hall htold _ => simp [Report.hasBanner, htold, Notice.isComplete, hall]

/-- Six files are told of or none. -/
theorem generatedPaths_eq : report.generatedPaths = if wrote.length = 6 then wrote else [] := by
  cases h with
  | unplanned hwrote htold _ => simp [Report.generatedPaths, htold, hwrote]
  | stopped _ hshort htold _ =>
    simp [Report.generatedPaths, htold, Notice.generated?, hshort.ne]
  | complete _ hall htold _ =>
    rw [if_pos hall, Report.generatedPaths, htold, List.filterMap_cons_none rfl,
      List.filterMap_append, filterMap_generated?]
    exact List.append_nil _

/-- Between the heading and the closing lines, a complete generation gives each file its line. -/
theorem lines_of_complete (hall : wrote.length = 6) : ∃ heading closing,
    report.output false = heading ++ String.join (wrote.map generatedLine) ++ closing := by
  cases h with
  | unplanned hwrote _ _ => simp [hwrote] at hall
  | stopped _ hshort _ _ => omega
  | @complete generator model _ _ htold _ =>
    refine ⟨(Notice.generating model.name model.capability).text,
      (Notice.complete model.name (generator.plan model).directory).text, ?_⟩
    rw [Report.output_eq, htold]
    simp only [List.map_cons, List.map_append, List.map_map, Function.comp_def,
      Notice.text_generated, String.join_cons, String.join_append, List.map_nil, String.join_nil,
      String.append_empty, String.append_assoc]

/-- Telling of none is right when none is written; that is the only other case. -/
theorem tellsOf_iff : report.TellsOf wrote ↔ wrote = [] ∨ wrote.length = 6 := by
  have hpaths := h.generatedPaths_eq
  constructor
  · intro htells
    by_cases hall : wrote.length = 6
    · exact Or.inr hall
    · rw [if_neg hall] at hpaths
      exact Or.inl (htells.paths.symm.trans hpaths)
  · rintro (rfl | hall)
    · exact ⟨hpaths, ⟨report.output false, "", by simp⟩, h.hasBanner_iff⟩
    · rw [if_pos hall] at hpaths
      exact ⟨hpaths, h.lines_of_complete hall, h.hasBanner_iff⟩

end Ending

/-- A generation writes the same with a record as without. All files that it has written are logged,
but the user is told of them only if all six are written: a run that stops behind one of them tells
of none. -/
theorem tellsOf_generate_iff (setup : Setup) (name : String) (tree : Tree) :
    let (report, ledger) := run (m := StateM Ledger) (.generate setup name false) ⟨tree, []⟩
    (report, ledger.tree) = run (m := StateM Tree) (.generate setup name false) tree ∧
      Ending ledger.written report ∧ report.loggedPaths = ledger.written ∧
      (report.hasBanner = true ↔ ledger.written.length = 6) ∧
      (report.TellsOf ledger.written ↔ ledger.written = [] ∨ ledger.written.length = 6) := by
  obtain ⟨wrote, hrun, hreported⟩ := records_generate setup name ⟨tree, []⟩
  rw [hrun]
  exact ⟨rfl, hreported.ending, hreported.logged, hreported.ending.hasBanner_iff,
    hreported.ending.tellsOf_iff⟩

/-- A disk on which a directory stands where the service of a module goes. -/
def blockedTree : Tree :=
  ⟨[(["s"], .file (.text "model Tag \x7b\n  id Int @id\n\x7d\n")), (["o"], .directory),
    (["o", "tag"], .directory), (["o", "tag", "tag.service.ts"], .directory)]⟩

/-- A generation on it: its report, and the disk with the record. -/
def blockedRun : Report × Ledger :=
  run (m := StateM Ledger)
    (.generate ⟨none, { schema := some "s", modulesRoot := some "o" }⟩ "Tag" false) ⟨blockedTree, []⟩

theorem not_tellsOf_blocked :
    (blockedRun.2.written =
        ["o/tag/dto/create-tag.dto.ts", "o/tag/dto/update-tag.dto.ts", "o/tag/tag.repository.ts"] ∧
      blockedRun.1.failure = some (.write (.file "o/tag/tag.service.ts" .isDirectory)) ∧
      blockedRun.1.output false = "Generating module for Tag (basic CRUD)\n" ∧
      blockedRun.1.generatedPaths = []) ∧
    ¬ blockedRun.1.TellsOf blockedRun.2.written := by
  refine (and_iff_left_of_imp fun ⟨hwritten, _, _, hpaths⟩ htells => ?_).mpr (by decide +kernel)
  have hsame := htells.paths
  rw [hpaths, hwritten] at hsame
  cases hsame

end Scaffold.Console
