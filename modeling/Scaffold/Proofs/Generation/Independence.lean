import Scaffold.Proofs.Disk.Approach
import Scaffold.Proofs.Generation.Effect

/-!
Modules of different models do not meet. What a program comes to is decided by a part of the disk
(`DependsOn`), and a plan leaves alone what is not below the directory of its module
(`Plan.IsSited.changesOnly`), so two plans can be carried out in either order
(`Plan.IsSited.swaps`). Where the directory of modules is missing itself, both make it in the same
way first.
-/

namespace Scaffold.Generation

open Disk (EndsInName Fault IsFileIn Place Tree faultOfPath? placeOf wantsDirectory)
open Schema (Document Model)

/-! ### What a program depends on -/

section

variable {α β : Type}

/-- Whether a program comes to the same on two disks that have the same at some places. Where they
had the same elsewhere, they have the same again. -/
def DependsOn (reads : Place → Prop) (program : StateM Tree α) : Prop :=
  ∀ first second : Tree, (∀ place, reads place → first.node? place = second.node? place) →
    (program first).1 = (program second).1 ∧
      ∀ place, first.node? place = second.node? place →
        (program first).2.node? place = (program second).2.node? place

theorem dependsOn_pure (reads : Place → Prop) (value : α) :
    DependsOn reads (pure value : StateM Tree α) :=
  fun _ _ _ => ⟨rfl, fun _ h => h⟩

theorem DependsOn.bind {reads : Place → Prop} {program : StateM Tree α}
    {next : α → StateM Tree β} (h : DependsOn reads program)
    (hnext : ∀ value, DependsOn reads (next value)) : DependsOn reads (program >>= next) := by
  intro first second hagree
  obtain ⟨hvalue, hnodes⟩ := h first second hagree
  obtain ⟨hresult, hlast⟩ := hnext (program second).1 (program first).2 (program second).2
    fun place hplace => hnodes place (hagree place hplace)
  rw [run_bind, run_bind, hvalue]
  exact ⟨hresult, fun place hplace => hlast place (hnodes place hplace)⟩

/-- Whether a program leaves alone all but some places of a disk. -/
def ChangesOnly (writes : Place → Prop) (program : StateM Tree α) (tree : Tree) : Prop :=
  ∀ place, ¬ writes place → (program tree).2.node? place = tree.node? place

/-- Whether two programs come to the same in either order. -/
structure Swaps (first : StateM Tree α) (second : StateM Tree β) (tree : Tree) : Prop where
  firstResult : (first (second tree).2).1 = (first tree).1
  secondResult : (second (first tree).2).1 = (second tree).1
  nodes : ∀ place,
    (second (first tree).2).2.node? place = (first (second tree).2).2.node? place

theorem Swaps.symm {first : StateM Tree α} {second : StateM Tree β} {tree : Tree}
    (h : Swaps first second tree) : Swaps second first tree where
  firstResult := h.secondResult
  secondResult := h.firstResult
  nodes place := (h.nodes place).symm

/-- A program that changes nothing can be run before or after another. -/
theorem swaps_of_idle {first : StateM Tree α} {value : α}
    (h : ∀ tree, first tree = (value, tree)) (second : StateM Tree β) (tree : Tree) :
    Swaps first second tree where
  firstResult := by rw [h, h]
  secondResult := by rw [h]
  nodes place := by rw [h, h]

/-- Programs that come to the same on two disks swap on one if they do on the other. -/
theorem Swaps.of_eq {first : StateM Tree α} {second : StateM Tree β} {tree settled : Tree}
    (h : Swaps first second settled) (hfirst : first tree = first settled)
    (hsecond : second tree = second settled) : Swaps first second tree where
  firstResult := by rw [hfirst, hsecond, h.firstResult]
  secondResult := by rw [hfirst, hsecond, h.secondResult]
  nodes place := by rw [hfirst, hsecond, h.nodes]

/-- Programs swap if neither changes what the other one depends on, and no place is changed by
both. -/
theorem swaps_of_disjoint {first : StateM Tree α} {second : StateM Tree β}
    {firstReads secondReads firstWrites secondWrites : Place → Prop}
    (hfirst : DependsOn firstReads first) (hsecond : DependsOn secondReads second)
    (hfirstReads : ∀ place, firstReads place → ¬ secondWrites place)
    (hsecondReads : ∀ place, secondReads place → ¬ firstWrites place)
    (hwrites : ∀ place, firstWrites place → ¬ secondWrites place) {tree : Tree}
    (hfirstBefore : ChangesOnly firstWrites first tree)
    (hfirstAfter : ChangesOnly firstWrites first (second tree).2)
    (hsecondBefore : ChangesOnly secondWrites second tree)
    (hsecondAfter : ChangesOnly secondWrites second (first tree).2) :
    Swaps first second tree := by
  obtain ⟨hfirstResult, hfirstNodes⟩ := hfirst (second tree).2 tree fun place hplace =>
    hsecondBefore place (hfirstReads place hplace)
  obtain ⟨hsecondResult, hsecondNodes⟩ := hsecond (first tree).2 tree fun place hplace =>
    hfirstBefore place (hsecondReads place hplace)
  refine ⟨hfirstResult, hsecondResult, fun place => ?_⟩
  by_cases hplace : firstWrites place
  · rw [hsecondAfter place (hwrites place hplace),
      hfirstNodes place (hsecondBefore place (hwrites place hplace))]
  · rw [hfirstAfter place hplace, hsecondNodes place (hfirstBefore place hplace)]

end

/-! ### What a plan depends on -/

theorem dependsOn_ensureDirectory {path : String} (h : EndsInName path) {reads : Place → Prop}
    (hreads : ∀ place, place <+: placeOf path → reads place) :
    DependsOn reads (ensureDirectory (m := StateM Tree) .disk path) := by
  intro first second hagree
  obtain ⟨above, name, hnames⟩ := id h
  have hmakes := Tree.makeDirectories_makes hnames
  rw [← hnames.placeOf_eq] at hmakes
  obtain ⟨hresult, hnodes⟩ := hmakes.reads first second fun place hplace =>
    hagree place (hreads place hplace)
  rw [ensureDirectory_eq h, ensureDirectory_eq h]
  exact ⟨congrArg (Except.mapError (WriteError.directory path)) hresult, hnodes⟩

theorem dependsOn_writeText {path : String} (h : EndsInName path)
    (hfile : wantsDirectory path = false) (text : String) {reads : Place → Prop}
    (hreads : ∀ place, place <+: placeOf path → reads place) :
    DependsOn reads (Disk.Writable.writeText (m := StateM Tree) path text) := by
  intro first second hagree
  obtain ⟨above, name, hnames⟩ := h
  have free := Tree.isFixed_of_names hnames
  have hplaces : ∀ place, place <+: above ++ [name] →
      first.node? place = second.node? place := by
    rw [← hnames.placeOf_eq]
    exact fun place hplace => hagree place (hreads place hplace)
  have henter : first.enter [] above = second.enter [] above :=
    Tree.enter_congr fun place hplace => hplaces place (hplace.trans (List.prefix_append ..))
  have hlook : first.look (above ++ [name]) = second.look (above ++ [name]) := by
    rw [Tree.look_eq, Tree.look_eq, hplaces _ (List.prefix_refl _)]
  rw [run_writeText, run_writeText, Tree.writeText_eq hnames hfile,
    Tree.writeText_eq hnames hfile, henter, hlook]
  cases faultOfPath? path with
  | some fault => exact ⟨rfl, fun _ hplace => hplace⟩
  | none =>
    cases second.enter [] above with
    | error fault => exact ⟨rfl, fun _ hplace => hplace⟩
    | ok opened =>
      cases second.look (above ++ [name]) with
      | error fault => exact ⟨rfl, fun _ hplace => hplace⟩
      | ok found =>
        have hset : ∀ place, first.node? place = second.node? place →
            (first.set (above ++ [name]) (.file (.text text))).node? place =
              (second.set (above ++ [name]) (.file (.text text))).node? place := by
          intro place hplace
          rw [Tree.node?_set first free, Tree.node?_set second free, hplace]
        cases found with
        | none => exact ⟨rfl, hset⟩
        | some node =>
          cases node with
          | directory => exact ⟨rfl, fun _ hplace => hplace⟩
          | file content => exact ⟨rfl, hset⟩

theorem dependsOn_writeFile {directory path : String} (h : IsFileIn directory path)
    (content : String) {reads : Place → Prop}
    (hreads : ∀ place, place <+: placeOf path → reads place) :
    DependsOn reads (writeFile (m := StateM Tree) .disk path content) := by
  obtain ⟨name, hnames⟩ := h.names
  have habove : ∀ place, place <+: placeOf directory → reads place := by
    intro place hplace
    rw [hnames.placeOf_eq] at hreads
    exact hreads place (hplace.trans (List.prefix_append ..))
  unfold writeFile
  simp only [h.parent]
  refine (dependsOn_ensureDirectory h.endsInName habove).bind fun ready => ?_
  cases ready with
  | error error => exact dependsOn_pure reads _
  | ok opened =>
    refine (dependsOn_writeText ⟨_, _, hnames⟩ h.isFile content hreads).bind fun result => ?_
    cases result with
    | error fault => exact dependsOn_pure reads _
    | ok written => exact dependsOn_pure reads _

theorem dependsOn_writeFiles {entries : List (String × String)} {reads : Place → Prop}
    (hfiles : ∀ entry ∈ entries, ∃ directory, IsFileIn directory entry.1)
    (hreads : ∀ entry ∈ entries, ∀ place, place <+: placeOf entry.1 → reads place) :
    DependsOn reads (writeFiles (m := StateM Tree) .disk entries) := by
  induction entries with
  | nil => exact dependsOn_pure reads _
  | cons entry rest ih =>
    obtain ⟨path, content⟩ := entry
    obtain ⟨directory, hfile⟩ := hfiles _ (List.mem_cons_self ..)
    have hrest := ih (fun entry hentry => hfiles entry (List.mem_cons_of_mem _ hentry))
      (fun entry hentry => hreads entry (List.mem_cons_of_mem _ hentry))
    rw [writeFiles]
    refine (dependsOn_writeFile hfile content (hreads _ (List.mem_cons_self ..))).bind
      fun result => ?_
    cases result with
    | error error => exact dependsOn_pure reads _
    | ok written => exact hrest.bind fun later => dependsOn_pure reads _

section

variable {plan : Plan} {root stem : String} (h : plan.IsSited root stem)

include h

theorem Plan.IsSited.placeOf_directory : placeOf plan.directory = placeOf root ++ [stem] :=
  h.names_directory.placeOf_eq

/-- Every target is below the directory of the module. -/
theorem Plan.IsSited.directory_prefix_target {target : String} (htarget : target ∈ plan.targets) :
    placeOf plan.directory <+: placeOf target := by
  rw [← plan.map_fst_entries] at htarget
  obtain ⟨entry, hentry, rfl⟩ := List.mem_map.mp htarget
  rcases h.files entry hentry with hfile | hfile
  · obtain ⟨name, hnames⟩ := hfile.names
    rw [hnames.placeOf_eq]
    exact List.prefix_append ..
  · obtain ⟨name, hnames⟩ := hfile.names
    rw [hnames.placeOf_eq]
    exact h.directory_prefix.trans (List.prefix_append ..)

/-- A plan depends on what is on the way to the directory of its module, and below it. -/
theorem Plan.IsSited.dependsOn :
    DependsOn (fun place => place <+: placeOf plan.directory ∨ placeOf plan.directory <+: place)
      (plan.write (m := StateM Tree) .disk) := by
  have hway : ∀ target, placeOf plan.directory <+: target → ∀ place, place <+: target →
      place <+: placeOf plan.directory ∨ placeOf plan.directory <+: place :=
    fun target htarget place hplace => List.prefix_or_prefix_of_prefix hplace htarget
  have hfiles : DependsOn
      (fun place => place <+: placeOf plan.directory ∨ placeOf plan.directory <+: place)
      (writeFiles (m := StateM Tree) .disk plan.entries) := by
    refine dependsOn_writeFiles (fun entry hentry => ?_) fun entry hentry => hway _ ?_
    · exact (h.files entry hentry).elim (fun hfile => ⟨_, hfile⟩) fun hfile => ⟨_, hfile⟩
    · refine h.directory_prefix_target ?_
      rw [← plan.map_fst_entries]
      exact List.mem_map_of_mem hentry
  unfold Plan.write
  refine (dependsOn_ensureDirectory ⟨_, _, h.names_directory⟩ fun place hplace =>
    Or.inl hplace).bind fun result => ?_
  cases result with
  | error error => exact dependsOn_pure _ _
  | ok opened =>
    refine (dependsOn_ensureDirectory ⟨_, _, h.names_dtoDirectory⟩
      (hway _ h.directory_prefix)).bind fun result => ?_
    cases result with
    | error error => exact dependsOn_pure _ _
    | ok opened => exact hfiles

/-- Where the directory of modules can be entered, a plan changes only what is below the directory
of its module. -/
theorem Plan.IsSited.changesOnly {tree : Tree} (hopen : tree.enter [] (placeOf root) = .ok ()) :
    ChangesOnly (fun place => placeOf plan.directory <+: place)
      (plan.write (m := StateM Tree) .disk) tree := by
  intro place hplace
  have houtcome := h.outcome tree
  -- A directory that is made on the way to the module is the module's, or below it.
  have hadds : ∀ {made : Tree}, tree.Adds (placeOf plan.dtoDirectory) made →
      made.node? place = tree.node? place := by
    intro made hmade
    rcases hmade place with hsame | ⟨hnone, -, hway⟩
    · exact hsame
    · have habove := (List.prefix_or_prefix_of_prefix hway h.directory_prefix).resolve_right hplace
      rw [h.placeOf_directory] at habove hplace
      rcases List.prefix_concat_iff.mp habove with rfl | hroot
      · exact absurd (List.prefix_refl _) hplace
      · rw [Tree.node?_of_enter_nil hopen hroot] at hnone
        cases hnone
  generalize plan.write (m := StateM Tree) .disk tree = run at houtcome ⊢
  obtain ⟨progress, after⟩ := run
  cases houtcome with
  | refused _ hmade => exact hadds hmade
  | @written made _ landed left _ hmade _ _ hentries hlanded _ =>
    have hother : ∀ entry ∈ landed, placeOf entry.1 ≠ place := by
      rintro entry hentry rfl
      refine hplace (h.directory_prefix_target ?_)
      rw [← plan.map_fst_entries, hentries]
      exact List.mem_map_of_mem (List.mem_append_left _ hentry)
    rw [hlanded.frame place hother, hadds hmade]

/-- Where a plan is carried out, the directory of modules can be entered as before. -/
theorem Plan.IsSited.enter_write {tree : Tree} (hopen : tree.enter [] (placeOf root) = .ok ()) :
    (plan.write (m := StateM Tree) .disk tree).2.enter [] (placeOf root) = .ok () := by
  rw [← hopen]
  refine Tree.enter_congr fun place hplace => h.changesOnly hopen place fun hbelow => ?_
  rw [h.placeOf_directory] at hbelow
  exact absurd (hbelow.trans hplace).length_le (by simp)

/-- Where the directory of the module cannot be made, the plan does nothing else. -/
theorem Plan.IsSited.write_of_error {tree : Tree} {fault : Fault}
    (herror : tree.makeDirectories plan.directory = (tree, .error fault)) :
    plan.write (m := StateM Tree) .disk tree =
      (⟨[], some (.directory plan.directory fault)⟩, tree) := by
  rw [Plan.write_eq, ensureDirectory_eq ⟨_, _, h.names_directory⟩, herror]
  rfl

/-- Where something is in the way to the directory of modules, a plan does nothing. -/
theorem Plan.IsSited.write_of_blocked {tree : Tree} {fault : Fault}
    (hfault : faultOfPath? plan.directory = none)
    (hblocked : tree.enter [] (placeOf root) = .error fault) (hne : fault ≠ .missing) :
    plan.write (m := StateM Tree) .disk tree =
      (⟨[], some (.directory plan.directory fault)⟩, tree) := by
  have hway : tree.enter [] (placeOf root) ≠ .error .missing := by
    rw [hblocked]
    exact fun heq => hne (Except.error.inj heq)
  refine h.write_of_error ?_
  rw [h.directory] at hfault ⊢
  rw [Tree.makeDirectories_of_way h.isOrdinary h.isStepName hfault hway,
    Tree.attemptDirectory_steps h.isOrdinary h.isStepName, hblocked]

/-- A plan comes to the same where the directory of its module is made as it is. -/
theorem Plan.IsSited.write_congr {tree settled : Tree}
    (heq : tree.makeDirectories plan.directory = settled.makeDirectories plan.directory) :
    plan.write (m := StateM Tree) .disk tree = plan.write (m := StateM Tree) .disk settled := by
  rw [Plan.write_eq, Plan.write_eq, ensureDirectory_eq ⟨_, _, h.names_directory⟩,
    ensureDirectory_eq ⟨_, _, h.names_directory⟩, heq]

end

/-! ### Two modules -/

section

variable {first second : Plan} {root stem other : String} (hfirst : first.IsSited root stem)
  (hsecond : second.IsSited root other) (hne : stem ≠ other)

include hfirst hsecond hne

/-- Nothing is in or on the way to the directories of two modules at once, behind the directory of
modules. -/
theorem not_directory_prefix {place : Place} (hplace : placeOf first.directory <+: place) :
    ¬ placeOf second.directory <+: place := by
  intro hother
  rw [hfirst.placeOf_directory] at hplace
  rw [hsecond.placeOf_directory] at hother
  have hequal := (List.prefix_of_prefix_length_le hplace hother (by simp)).eq_of_length (by simp)
  exact hne (List.singleton_inj.mp (List.append_cancel_left hequal))

/-- What leads to the directory of one module, or is below it, is not below that of another. -/
theorem not_directory_prefix_of_reads {place : Place}
    (hplace : place <+: placeOf first.directory ∨ placeOf first.directory <+: place) :
    ¬ placeOf second.directory <+: place := by
  intro hother
  rcases hplace with hway | hbelow
  · exact not_directory_prefix hfirst hsecond hne (List.prefix_refl _) (hother.trans hway)
  · exact not_directory_prefix hfirst hsecond hne hbelow hother

/-- Where the directory of modules can be entered, two plans can be carried out in either order. -/
theorem swaps_of_open {tree : Tree} (hopen : tree.enter [] (placeOf root) = .ok ()) :
    Swaps (first.write (m := StateM Tree) .disk) (second.write (m := StateM Tree) .disk) tree :=
  swaps_of_disjoint hfirst.dependsOn hsecond.dependsOn
    (fun _ => not_directory_prefix_of_reads hfirst hsecond hne)
    (fun _ => not_directory_prefix_of_reads hsecond hfirst hne.symm)
    (fun _ => not_directory_prefix hfirst hsecond hne)
    (hfirst.changesOnly hopen) (hfirst.changesOnly (hsecond.enter_write hopen))
    (hsecond.changesOnly hopen) (hsecond.changesOnly (hfirst.enter_write hopen))

/-- Two plans for modules of different names can be carried out in either order. -/
theorem Plan.IsSited.swaps {tree : Tree} (hrooted : tree.IsRooted) :
    Swaps (first.write (m := StateM Tree) .disk) (second.write (m := StateM Tree) .disk) tree := by
  have hidle : ∀ {plan : Plan} {stem : String}, plan.IsSited root stem →
      ∀ {fault : Fault}, faultOfPath? plan.directory = some fault → ∀ tree,
        plan.write (m := StateM Tree) .disk tree =
          (⟨[], some (.directory plan.directory fault)⟩, tree) := by
    intro plan stem h fault hfault tree
    refine h.write_of_error ?_
    simp [Tree.makeDirectories, hfault]
  cases hfirstFault : faultOfPath? first.directory with
  | some fault => exact swaps_of_idle (hidle hfirst hfirstFault) _ tree
  | none =>
    cases hsecondFault : faultOfPath? second.directory with
    | some fault => exact (swaps_of_idle (hidle hsecond hsecondFault) _ tree).symm
    | none =>
      -- Both plans first make what is missing of the directory of modules: each may find it made.
      obtain ⟨settled, hway, hmakes⟩ := Tree.exists_settled hfirst.isOrdinary hrooted
      have hsettle : ∀ {plan : Plan} {stem : String}, plan.IsSited root stem →
          faultOfPath? plan.directory = none →
          plan.write (m := StateM Tree) .disk tree =
            plan.write (m := StateM Tree) .disk settled := by
        intro plan stem h hfault
        refine h.write_congr ?_
        rw [h.directory] at hfault ⊢
        exact hmakes stem h.isStepName hfault
      refine Swaps.of_eq ?_ (hsettle hfirst hfirstFault) (hsettle hsecond hsecondFault)
      cases henter : settled.enter [] (placeOf root) with
      | ok opened => exact swaps_of_open hfirst hsecond hne henter
      | error fault =>
        have hfault : fault ≠ .missing := by
          rintro rfl
          exact hway henter
        have hfirstRun := hfirst.write_of_blocked hfirstFault henter hfault
        have hsecondRun := hsecond.write_of_blocked hsecondFault henter hfault
        constructor
        · rw [hsecondRun]
        · rw [hfirstRun]
        · intro place
          rw [hfirstRun, hsecondRun, hfirstRun]

end

/-- Whether no file of a plan is to stand at or below a file or the directory of another one. -/
def Plan.IsClearOf (plan other : Plan) : Prop :=
  ∀ target ∈ plan.targets, ∀ path ∈ other.directory :: other.targets,
    ¬ placeOf path <+: placeOf target

theorem Plan.IsSited.isClearOf {first second : Plan} {root stem other : String}
    (hfirst : first.IsSited root stem) (hsecond : second.IsSited root other) (hne : stem ≠ other) :
    first.IsClearOf second := by
  intro target htarget path hpath hway
  have hbelow : placeOf second.directory <+: placeOf path := by
    rcases List.mem_cons.mp hpath with rfl | hpath
    · exact List.prefix_refl _
    · exact hsecond.directory_prefix_target hpath
  exact not_directory_prefix hfirst hsecond hne (hfirst.directory_prefix_target htarget)
    (hbelow.trans hway)

/-- Models whose names differ in more than the case of letters have modules in different directories
beside each other. Neither plan has a file where the other one has a file or its directory, or below
that, and the two can be carried out in either order, whatever stands on the disk. -/
theorem Generator.modules_independent {generator : Generator} (h : generator.IsConfined)
    {source otherSource : String} {model other : Model}
    (hmodel : model ∈ (Document.ofSource source).models)
    (hother : other ∈ (Document.ofSource otherSource).models)
    (hnames : model.isNamed other.name = false) :
    (generator.plan model).directory ≠ (generator.plan other).directory ∧
      placeOf (generator.plan model).directory ≠ placeOf (generator.plan other).directory ∧
      (placeOf (generator.plan model).directory).dropLast =
        (placeOf (generator.plan other).directory).dropLast ∧
      (∃ parent, Disk.parent? (generator.plan model).directory = some parent ∧
        Disk.parent? (generator.plan other).directory = some parent) ∧
      (generator.plan model).IsClearOf (generator.plan other) ∧
      (generator.plan other).IsClearOf (generator.plan model) ∧
      ∀ (mode otherMode : Mode) (tree : Tree), tree.IsRooted →
        Swaps ((generator.plan model).write (m := StateM Tree) mode)
          ((generator.plan other).write (m := StateM Tree) otherMode) tree := by
  have hword := (Schema.isWellRead_of_mem_models hmodel).name
  have hotherWord := (Schema.isWellRead_of_mem_models hother).name
  have hfirst : (generator.plan model).IsSited generator.settings.modulesRoot (stemOf model) :=
    isSited_ofModel h.modulesRoot hword h.extension
  have hsecond : (generator.plan other).IsSited generator.settings.modulesRoot (stemOf other) :=
    isSited_ofModel h.modulesRoot hotherWord h.extension
  have hne : stemOf model ≠ stemOf other := by
    intro heq
    have hlower := Text.toLower_eq_of_hyphenate_eq hword hotherWord heq
    simp [Model.isNamed, hlower] at hnames
  have hplace : placeOf (generator.plan model).directory ≠
      placeOf (generator.plan other).directory := by
    rw [hfirst.placeOf_directory, hsecond.placeOf_directory]
    exact fun heq => hne (List.singleton_inj.mp (List.append_cancel_left heq))
  refine ⟨fun heq => hplace (congrArg placeOf heq), hplace, ?_, ?_,
    hfirst.isClearOf hsecond hne, hsecond.isClearOf hfirst hne.symm, ?_⟩
  · rw [hfirst.placeOf_directory, hsecond.placeOf_directory, List.dropLast_concat,
      List.dropLast_concat]
  · rw [hfirst.directory, hsecond.directory]
    exact ⟨_, Disk.parent?_join hfirst.isStepName _, Disk.parent?_join hsecond.isStepName _⟩
  · intro mode otherMode tree hrooted
    cases mode with
    | preview => exact swaps_of_idle (Plan.write_preview _) _ tree
    | disk =>
      cases otherMode with
      | preview => exact (swaps_of_idle (Plan.write_preview _) _ tree).symm
      | disk => exact hfirst.swaps hsecond hne hrooted

/-- A schema of two models, the name of one of which begins with that of the other. -/
def pairSchema : String :=
  "model User \x7b\n\x7d\nmodel UserRole \x7b\n\x7d\n"

/-- A disk on which a file stands where the second model's directory is to be made. -/
def crowdedTree : Tree :=
  ⟨[(["m"], .directory), (["m", "user-role"], .file (.text ""))]⟩

theorem modules_independent_user :
    ((userGenerator.plan ⟨"UserRole", [], none⟩).write (m := StateM Tree) .disk crowdedTree).1 =
        ⟨[], some (.directory "m/user-role" .exists)⟩ ∧
      crowdedTree.IsRooted ∧
      Swaps ((userGenerator.plan ⟨"User", [], none⟩).write (m := StateM Tree) .disk)
        ((userGenerator.plan ⟨"UserRole", [], none⟩).write (m := StateM Tree) .disk)
        crowdedTree := by
  have hrooted : crowdedTree.IsRooted := Tree.isRooted_of_nodes (by decide)
  have hmodel : ⟨"User", [], none⟩ ∈ (Document.ofSource pairSchema).models := by decide
  have hother : ⟨"UserRole", [], none⟩ ∈ (Document.ofSource pairSchema).models := by decide
  obtain ⟨-, -, -, -, -, -, hswaps⟩ :=
    Generator.modules_independent isConfined_userGenerator hmodel hother (by decide)
  exact ⟨by decide +kernel, hrooted, hswaps .disk .disk crowdedTree hrooted⟩

end Scaffold.Generation
