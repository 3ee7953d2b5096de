import Scaffold.Console.Run
import Scaffold.Proofs.Console.Arguments
import Scaffold.Proofs.Console.Reading
import Scaffold.Proofs.Disk.Growth
import Scaffold.Proofs.Generation.Outcome

/-!
What runs of the program do to the disk. All commands but a generation that is no preview and the
writing of a settings file only read (`readsOnly_run`), so such runs can follow one another without
any effect on what they report (`mapM_of_readsOnly`). A settings file is written at its path and
nowhere else, and not where something stands unless that is asked for.
-/

namespace Scaffold.Console

open Disk (Place Tree)
open Generation (Generator Plan run_bind run_pure run_readText run_standing? run_writeText)

/-! ### Programs that only read -/

section

variable {α β : Type}

/-- Whether a program leaves every disk as it is. -/
def ReadsOnly (program : StateM Tree α) : Prop :=
  ∀ tree, (program tree).2 = tree

theorem readsOnly_pure (value : α) : ReadsOnly (pure value) :=
  fun _ => rfl

/-- Each part of a program may depend on what the parts before it read, and none of them writes. -/
theorem ReadsOnly.bind {program : StateM Tree α} {next : α → StateM Tree β}
    (h : ReadsOnly program) (hnext : ∀ value, ReadsOnly (next value)) :
    ReadsOnly (program >>= next) := by
  intro tree
  rw [run_bind, hnext _ (program tree).2, h tree]

/-- Programs that only read come one after the other to what each comes to alone. -/
theorem mapM_of_readsOnly {programs : List β} {program : β → StateM Tree α}
    (h : ∀ name ∈ programs, ReadsOnly (program name)) (tree : Tree) :
    programs.mapM program tree = (programs.map fun name => (program name tree).1, tree) := by
  induction programs with
  | nil => rfl
  | cons first rest ih =>
    have hfirst := h first (List.mem_cons_self ..)
    have hrest := ih fun name hname => h name (List.mem_cons_of_mem _ hname)
    rw [List.mapM_cons, run_bind, hfirst, run_bind, hrest]
    rfl

end

/-- The steps of programs that only read leave every disk as it is. -/
def readsOnly : ReadingRelation (StateM Tree) (StateM Tree) where
  Rel program _ := ReadsOnly program
  pure := readsOnly_pure
  bind := ReadsOnly.bind
  standing? _ _ := rfl
  readText _ _ := rfl

theorem readsOnly_preview (plan : Plan) :
    ReadsOnly (plan.write (m := StateM Tree) .preview) := by
  intro tree
  rw [Plan.write_preview]

/-- A preview plans the files of a module and shows them, without even making a directory. -/
theorem readsOnly_runGenerate (generator : Generator) (name : String) :
    ReadsOnly (runGenerate (m := StateM Tree) generator name .preview) := by
  refine ReadsOnly.bind (readsOnly.loadSchema generator) fun result => ?_
  cases result with
  | error failure => exact readsOnly_pure _
  | ok schema =>
    simp only
    split
    · exact readsOnly_pure _
    next model _ => exact (readsOnly_preview (generator.plan model)).bind fun _ => readsOnly_pure _

/-- Whether a command is neither the writing of a settings file nor a generation that is no
preview. -/
def Command.isReading : Command → Bool
  | .writeSettings .. => false
  | .generate _ _ dryRun => dryRun
  | .help | .version | .overview | .list .. => true

/-- Both commands that can write are excluded by what reading means for commands. -/
theorem readsOnly_run {command : Command} (h : command.isReading = true) :
    ReadsOnly (run (m := StateM Tree) command) := by
  cases command with
  | help => exact readsOnly_pure _
  | version => exact readsOnly_pure _
  | overview => exact readsOnly_pure _
  | writeSettings path force => cases h
  | list setup asJson =>
    refine ReadsOnly.bind (readsOnly.prepare setup) fun (events, result) => ?_
    cases result with
    | error failure => exact readsOnly_pure _
    | ok generator =>
      exact ReadsOnly.bind (readsOnly.runList generator asJson) fun _ => readsOnly_pure _
  | generate setup model dryRun =>
    obtain rfl : dryRun = true := h
    refine ReadsOnly.bind (readsOnly.prepare setup) fun (events, result) => ?_
    cases result with
    | error failure => exact readsOnly_pure _
    | ok generator => exact (readsOnly_runGenerate generator model).bind fun _ => readsOnly_pure _

/-! ### Settings files -/

/-- What becomes of a request for a settings file at a path. -/
structure WritesSettings (target : String) (force : Bool) (before : Tree) (report : Report)
    (after : Tree) : Prop where
  failed : report.failure ≠ none → after = before
  /-- Where it succeeds, the file holds the usual settings, and nothing else has changed. -/
  succeeded : report.failure = none → ∃ place, after.resolve target = .ok place ∧
    (∀ other ≠ place, after.node? other = before.node? other) ∧
    after.readText target = .ok Settings.template
  /-- Unless that is asked for, nothing is overwritten. -/
  guarded : force = false →
    (report.failure = some (.alreadyExists target) ↔ (before.standing? target).isSome = true) ∧
      ∀ place, before.node? place ≠ none → after.node? place = before.node? place

/-- The request is refused before anything is written, or comes down to writing one file. -/
theorem runWriteSettings_eq (path : Option String) (force : Bool) (tree : Tree) :
    runWriteSettings (m := StateM Tree) path force tree =
      let target := path.getD Settings.fileName
      if (tree.standing? target).isSome && !force then (.failed (.alreadyExists target), tree)
      else
        match tree.writeText target Settings.template with
        | .error fault => (.failed (.disk fault), tree)
        | .ok written => ({ notices := [.settingsWritten target] }, written) := by
  unfold runWriteSettings
  simp only [run_bind, run_standing?]
  split
  · rfl
  · rw [run_bind, run_writeText]
    cases tree.writeText (path.getD Settings.fileName) Settings.template with
    | error fault => rfl
    | ok written => rfl

/-- Where a path means a place of a file, something stands there if it stands at the path. -/
theorem standing?_isSome_iff {tree : Tree} {path : String} {place : Place}
    (h : tree.resolve path = .ok place) (hfile : Disk.wantsDirectory path = false)
    (hshort : Place.isTooLong place = false) :
    (tree.standing? path).isSome = true ↔ tree.node? place ≠ none := by
  unfold Tree.standing? Tree.find
  rw [h]
  simp only [bind, Except.bind, Tree.look_eq, hshort, hfile, Bool.false_eq_true, if_false]
  cases tree.node? place with
  | none => simp [Except.toOption]
  | some node =>
    cases node with
    | directory => simp [Except.toOption]
    | file content => simp [Except.toOption]

/-- The guard and the writing are the two ways on, and writing a file changes one place or none. -/
theorem writesSettings_run (path : Option String) (force : Bool) (tree : Tree) :
    WritesSettings (path.getD Settings.fileName) force tree
      (run (m := StateM Tree) (.writeSettings path force) tree).1
      (run (m := StateM Tree) (.writeSettings path force) tree).2 := by
  rw [run, runWriteSettings_eq]
  generalize path.getD Settings.fileName = target
  simp only
  split
  next hexists =>
    obtain ⟨hstanding, hforce⟩ := Bool.and_eq_true_iff.mp hexists
    exact ⟨fun _ => rfl, nofun, fun _ => ⟨by simp [Report.failed, hstanding], fun _ _ => rfl⟩⟩
  next habsent =>
    have hguard (hforce : force = false) : ¬ (tree.standing? target).isSome = true := by
      simpa [hforce] using habsent
    cases hwrite : tree.writeText target Settings.template with
    | error fault =>
      refine ⟨fun _ => rfl, nofun, fun hforce => ⟨?_, fun _ _ => rfl⟩⟩
      simp [Report.failed, hguard hforce]
    | ok written =>
      have hkeeps := Tree.keeps_of_writeText hwrite
      obtain ⟨place, hplace, hfile, hshort, hnode, rfl⟩ := Tree.writeText_eq_ok_iff.mp hwrite
      have free := Tree.isFixed_eq_false hnode
      have hset := Tree.node?_set tree free (.file (.text Settings.template))
      have hother : ∀ other ≠ place,
          (tree.set place (.file (.text Settings.template))).node? other = tree.node? other :=
        fun other hne => (hset other).trans (if_neg hne)
      refine ⟨nofun, fun _ => ?_, fun hforce => ⟨?_, fun other hstands => hother other ?_⟩⟩
      · have hafter := Tree.resolve_of_keeps hkeeps hplace
        refine ⟨place, hafter, hother, ?_⟩
        refine (Tree.readText_eq_ok_iff_of_resolve hafter hfile hshort).mpr ?_
        rw [hset, if_pos rfl]
      · simp [hguard hforce]
      · rintro rfl
        exact hguard hforce ((standing?_isSome_iff hplace hfile hshort).mpr hstands)

/-! ### Runs -/

/-- Only a generation that is no preview and the writing of a settings file change the disk. A
settings file is written where that is asked for, and over what stands there only where that is
asked for too. Runs that do not write report what each of them reports alone. -/
theorem runs_write_where_asked :
    (∀ arguments invocation, Invocation.ofArguments? arguments = some invocation → ∀ tree : Tree,
      (invocation.command.isReading = true →
        (run (m := StateM Tree) invocation.command tree).2 = tree) ∧
      (¬ Flag.init.IsWritten arguments →
        (Flag.dryRun.IsWritten arguments ∨
          ∀ setup model dryRun, invocation.command ≠ .generate setup model dryRun) →
        (run (m := StateM Tree) invocation.command tree).2 = tree) ∧
      ∀ path force, invocation.command = .writeSettings path force →
        Flag.init.IsWritten arguments ∧ (force = true ↔ Flag.force.IsWritten arguments) ∧
          (∃ given, Given.read {} none arguments = .ok given ∧
            path = given.value? .settingsFile) ∧
          WritesSettings (path.getD Settings.fileName) force tree
            (run (m := StateM Tree) invocation.command tree).1
            (run (m := StateM Tree) invocation.command tree).2) ∧
    ∀ invocations : List Invocation,
      (∀ invocation ∈ invocations, invocation.command.isReading = true) → ∀ tree : Tree,
        invocations.mapM (fun invocation => run (m := StateM Tree) invocation.command) tree =
          (invocations.map fun invocation =>
            (run (m := StateM Tree) invocation.command tree).1, tree) := by
  refine ⟨fun arguments invocation h tree => ⟨fun hreading => readsOnly_run hreading tree,
    fun hinit hdry => ?_, fun path force hcommand => ?_⟩, fun invocations hreading tree => ?_⟩
  · refine readsOnly_run ?_ tree
    cases hcommand : invocation.command with
    | help => rfl
    | version => rfl
    | overview => rfl
    | list setup asJson => rfl
    | writeSettings path force => exact absurd (isWritten_of_writeSettings h hcommand).1 hinit
    | generate setup model dryRun =>
      rcases hdry with hdry | hnone
      · exact (isWritten_of_generate h hcommand).2.mpr hdry
      · exact absurd hcommand (hnone setup model dryRun)
  · obtain ⟨hinit, hforce, hpath⟩ := isWritten_of_writeSettings h hcommand
    rw [hcommand]
    exact ⟨hinit, hforce, hpath, writesSettings_run path force tree⟩
  · exact mapM_of_readsOnly (fun invocation hmem => readsOnly_run (hreading invocation hmem)) tree

/-- A disk with a settings file. -/
def settledTree : Tree :=
  ⟨[(["conf"], .file (.text ""))]⟩

/-- A settings file stands on this disk already, so asking for one leaves it alone. -/
theorem runs_write_where_asked_settled :
    Invocation.ofArguments? ["--init", "-c", "conf"] =
        some ⟨.writeSettings (some "conf") false, false⟩ ∧
      (run (m := StateM Tree) (.writeSettings (some "conf") false) settledTree).1.failure =
        some (.alreadyExists "conf") ∧
      (run (m := StateM Tree) (.writeSettings (some "conf") false) settledTree).2 = settledTree ∧
      (run (m := StateM Tree) (.generate ⟨none, {}⟩ "User" true) settledTree).2 = settledTree ∧
      [⟨.overview, false⟩, ⟨.list ⟨some "conf", {}⟩ true, true⟩].mapM
          (fun invocation : Invocation => run (m := StateM Tree) invocation.command) settledTree =
        ([(run (m := StateM Tree) .overview settledTree).1,
          (run (m := StateM Tree) (.list ⟨some "conf", {}⟩ true) settledTree).1], settledTree) := by
  have hinvocation : Invocation.ofArguments? ["--init", "-c", "conf"] =
      some ⟨.writeSettings (some "conf") false, false⟩ := by decide +kernel
  have hpreview : Invocation.ofArguments? ["User", "--dry-run"] =
      some ⟨.generate ⟨none, {}⟩ "User" true, false⟩ := by decide +kernel
  obtain ⟨hruns, hsequence⟩ := runs_write_where_asked
  obtain ⟨-, -, hinit⟩ := hruns _ _ hinvocation settledTree
  obtain ⟨-, -, -, hwrites⟩ := hinit _ _ rfl
  have hfailure := (hwrites.guarded rfl).1.mpr (by decide +kernel)
  obtain ⟨-, hdry, -⟩ := hruns _ _ hpreview settledTree
  exact ⟨hinvocation, hfailure, hwrites.failed (by rw [hfailure]; nofun),
    hdry (by decide) (Or.inl (by decide)), hsequence _ (by decide) settledTree⟩

end Scaffold.Console
