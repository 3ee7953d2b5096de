import Scaffold.Proofs.Generation.Outcome

/-!
The effect of a generation on the disk. If it succeeds, the six files of the plan hold what was
planned from the schema as it was read, and besides directories on the way to them nothing else has
changed (`generate_eq_ok`). If it fails, a first part of the files has been written and the rest is
as it was (`generate_eq_error`).
-/

namespace Scaffold.Generation

open Artifact (File Kind)
open Disk (Place Tree placeOf)
open Schema (Document Model)

/-- Whether a tree is as before apart from some places, with some directories added on the way to
another. -/
def ChangesAt (places : List Place) (way : Place) (before after : Tree) : Prop :=
  ∀ place ∉ places, after.node? place = before.node? place ∨
    before.node? place = none ∧ after.node? place = some .directory ∧ place <+: way

/-- The effect of a generation that succeeds. -/
structure Generator.Succeeds (generator : Generator) (name : String) (before : Tree) (plan : Plan)
    (results : List Written) (after : Tree) : Prop where
  /-- The plan is made from the schema as it was before the first file was written. -/
  planned : ∃ text model, before.readText generator.settings.schema = .ok text ∧
    findModel (Document.ofSource text) name = .ok model ∧ plan = generator.plan model
  kinds : plan.files.map File.kind = Kind.all
  targets : plan.targets.Nodup
  places : (plan.targets.map placeOf).Nodup
  holds : ∀ file ∈ plan.files, after.readText (plan.target file) = .ok file.content
  reported : results = plan.files.map fun file =>
    .onDisk (plan.target file) file.content.utf8ByteSize
  frame : ChangesAt (plan.targets.map placeOf) (placeOf plan.dtoDirectory) before after
  directory : after.standing? plan.directory = some .directory
  dtoDirectory : after.standing? plan.dtoDirectory = some .directory
  /-- The plan can be carried out once more, with the same results and without any change. -/
  again : plan.write (m := StateM Tree) .disk after = (⟨results, none⟩, after)

/-- The effect of a plan that fails behind some number of files. -/
structure Plan.FailsBehind (plan : Plan) (count : Nat) (before : Tree) (error : WriteError)
    (after : Tree) : Prop where
  kinds : plan.files.map File.kind = Kind.all
  count_lt : count < 6
  holds : ∀ file ∈ plan.files.take count, after.readText (plan.target file) = .ok file.content
  rest : ∀ target ∈ plan.targets.drop count,
    after.node? (placeOf target) = before.node? (placeOf target)
  frame : ChangesAt ((plan.targets.take count).map placeOf) (placeOf plan.dtoDirectory) before after
  nothing_removed : ∀ place, before.node? place ≠ none → after.node? place ≠ none
  /-- The error is about a directory, before any file, or about the next file. -/
  error : (∃ path fault, error = .directory path fault ∧ count = 0 ∧
      (path = plan.directory ∨ path = plan.dtoDirectory)) ∨
    ∃ path fault, error = .file path fault ∧ plan.targets[count]? = some path

theorem ChangesAt.of_adds {before after : Tree} {way : Place} (h : before.Adds way after) :
    ChangesAt [] way before after :=
  fun place _ => h place

theorem ChangesAt.of_landed {before made after : Tree} {way : Place}
    {landed : List (String × String)} (hadds : before.Adds way made)
    (hlanded : Landed landed made after) :
    ChangesAt ((landed.map Prod.fst).map placeOf) way before after := by
  intro place hplace
  have hother : ∀ entry ∈ landed, placeOf entry.1 ≠ place := by
    rintro entry hentry rfl
    exact hplace (List.mem_map_of_mem (List.mem_map_of_mem hentry))
  rw [hlanded.frame place hother]
  exact hadds place

/-- What is on no way to a directory is as before. -/
theorem ChangesAt.node?_eq {places : List Place} {way place : Place} {before after : Tree}
    (h : ChangesAt places way before after) (hplace : place ∉ places) (hway : ¬ place <+: way) :
    after.node? place = before.node? place := by
  rcases h place hplace with hsame | ⟨-, -, hprefix⟩
  · exact hsame
  · exact absurd hprefix hway

/-- Nothing is removed where something stands at the places that change. -/
theorem ChangesAt.node?_ne_none {places : List Place} {way : Place} {before after : Tree}
    (h : ChangesAt places way before after) (hplaces : ∀ place ∈ places, after.node? place ≠ none)
    (place : Place) (hplace : before.node? place ≠ none) : after.node? place ≠ none := by
  by_cases hmem : place ∈ places
  · exact hplaces place hmem
  · rcases h place hmem with hsame | ⟨-, hadded, -⟩
    · rwa [hsame]
    · simp [hadded]

section Split

variable {plan : Plan} {landed left : List (String × String)}
  (hentries : plan.entries = landed ++ left)

include hentries

theorem Plan.take_targets : plan.targets.take landed.length = landed.map Prod.fst := by
  rw [← plan.map_fst_entries, ← List.map_take, hentries, List.take_left]

theorem Plan.drop_targets : plan.targets.drop landed.length = left.map Prod.fst := by
  rw [← plan.map_fst_entries, ← List.map_drop, hentries, List.drop_left]

/-- The files that were written are a first part of the plan's. -/
theorem Plan.holds_of_landed {before after : Tree} (hlanded : Landed landed before after) :
    ∀ file ∈ plan.files.take landed.length,
      after.readText (plan.target file) = .ok file.content := by
  intro file hfile
  have hentry : (plan.target file, file.content) ∈ plan.entries.take landed.length := by
    rw [Plan.entries, ← List.map_take]
    exact List.mem_map.mpr ⟨file, hfile, rfl⟩
  rw [hentries, List.take_left] at hentry
  exact hlanded.holds (plan.target file, file.content) hentry

end Split

/-- What does not fail has written all files. -/
theorem Plan.Outcome.landed {plan : Plan} {before after : Tree} {done : List Written}
    (houtcome : plan.Outcome before ⟨done, none⟩ after) :
    done = plan.entries.map Written.ofEntry ∧ ∃ made,
      before.Adds (placeOf plan.dtoDirectory) made ∧
      made.standing? plan.directory = some .directory ∧
      made.standing? plan.dtoDirectory = some .directory ∧ Landed plan.entries made after := by
  cases houtcome with
  | @written made _ landed left _ hadds hdirectory hdto hentries hlanded hends =>
    cases left with
    | nil =>
      obtain rfl : plan.entries = landed := by simpa using hentries
      exact ⟨rfl, made, hadds, hdirectory, hdto, hlanded⟩
    | cons entry later =>
      obtain ⟨fault, herror⟩ := hends
      cases herror

section

variable {plan : Plan} {root stem : String} (h : plan.IsSited root stem)

include h

/-- What is written stands at its place at the end. -/
theorem Plan.IsSited.node?_ne_none {made after : Tree} {landed left : List (String × String)}
    (hdirectory : made.standing? plan.directory = some .directory)
    (hdto : made.standing? plan.dtoDirectory = some .directory)
    (hentries : plan.entries = landed ++ left) (hlanded : Landed landed made after) :
    ∀ place ∈ (landed.map Prod.fst).map placeOf, after.node? place ≠ none := by
  intro place hplace
  obtain ⟨target, htarget, rfl⟩ := List.mem_map.mp hplace
  obtain ⟨entry, hentry, rfl⟩ := List.mem_map.mp htarget
  have hready : AreReady landed after := fun entry hentry =>
    (h.areReady hdirectory hdto).of_keeps hlanded.keeps entry
      (hentries ▸ List.mem_append_left _ hentry)
  simp [hlanded.node?_eq hready entry hentry]

/-- What fails leaves a first part of the files written and the rest as it was. -/
theorem Plan.IsSited.failsBehind {before after : Tree} {done : List Written} {error : WriteError}
    (houtcome : plan.Outcome before ⟨done, some error⟩ after)
    (hkinds : plan.files.map File.kind = Kind.all) :
    ∃ count, plan.FailsBehind count before error after := by
  cases houtcome with
  | @refused path fault _ hpath hadds =>
    have hframe := ChangesAt.of_adds hadds
    refine ⟨0, hkinds, by decide, by simp, fun target htarget => ?_, hframe,
      hframe.node?_ne_none (by simp), Or.inl ⟨path, fault, rfl, rfl, hpath⟩⟩
    exact hframe.node?_eq (List.not_mem_nil) (h.apart target htarget)
  | @written made _ landed left _ hadds hdirectory hdto hentries hlanded hends =>
    obtain ⟨⟨path, content⟩, later, rfl⟩ : ∃ entry later, left = entry :: later := by
      cases left with
      | nil => cases hends
      | cons entry later => exact ⟨entry, later, rfl⟩
    obtain ⟨fault, herror⟩ := hends
    have hframe := ChangesAt.of_landed hadds hlanded
    have hdrop := Plan.drop_targets hentries
    refine ⟨landed.length, hkinds, ?_, Plan.holds_of_landed hentries hlanded,
      fun target htarget => ?_, Plan.take_targets hentries ▸ hframe,
      hframe.node?_ne_none (h.node?_ne_none hdirectory hdto hentries hlanded),
      Or.inr ⟨path, fault, Option.some.inj herror, ?_⟩⟩
    · have hall : (plan.files.map File.kind).length = 6 := congrArg List.length hkinds
      have hlength := congrArg List.length hentries
      simp only [Plan.entries, List.length_map, List.length_append, List.length_cons]
        at hall hlength
      omega
    · -- The place of a file that was not written is none of those that were.
      have hother : placeOf target ∉ (landed.map Prod.fst).map placeOf := by
        have hplaces := h.places
        rw [← List.take_append_drop landed.length plan.targets, List.map_append,
          List.nodup_append] at hplaces
        rw [← Plan.take_targets hentries]
        exact fun mem => hplaces.2.2 _ mem _ (List.mem_map_of_mem htarget) rfl
      exact hframe.node?_eq hother (h.apart target (List.mem_of_mem_drop htarget))
    · rw [← List.head?_drop, hdrop]
      rfl

end

section

variable {generator : Generator} (h : generator.IsConfined) {name : String} {before after : Tree}

include h

theorem Generator.IsConfined.isSited_plan {text : String} {model : Model}
    (hmodel : findModel (Document.ofSource text) name = .ok model) :
    (generator.plan model).IsSited generator.settings.modulesRoot (stemOf model) :=
  isSited_ofModel h.modulesRoot (isWord_of_findModel hmodel) h.extension

/-- A generation that succeeds writes the six files and changes nothing else. -/
theorem Generator.generate_eq_ok {plan : Plan} {results : List Written}
    (hrun : generator.generate (m := StateM Tree) name .disk before =
      (.ok (plan, results), after)) :
    generator.Succeeds name before plan results after := by
  rw [generate_eq] at hrun
  split at hrun
  · cases hrun
  next text htext =>
    split at hrun
    · cases hrun
    next model hmodel =>
      have hsited := h.isSited_plan hmodel
      have houtcome := hsited.outcome before
      generalize (generator.plan model).write (m := StateM Tree) .disk before = run
        at hrun houtcome
      obtain ⟨⟨done, error⟩, last⟩ := run
      cases error with
      | some error => cases hrun
      | none =>
        obtain ⟨hplan, hafter⟩ := Prod.mk.inj hrun
        obtain ⟨rfl, rfl⟩ := Prod.mk.inj (Except.ok.inj hplan)
        obtain rfl := hafter
        obtain ⟨rfl, made, hadds, hmade, hdto, hlanded⟩ := houtcome.landed
        have hdirectory :=
          Tree.standing?_of_keeps ⟨_, _, hsited.names_directory⟩ hlanded.keeps hmade
        have hdtoAfter :=
          Tree.standing?_of_keeps ⟨_, _, hsited.names_dtoDirectory⟩ hlanded.keeps hdto
        have hframe := ChangesAt.of_landed hadds hlanded
        rw [Plan.map_fst_entries] at hframe
        exact {
          planned := ⟨text, model, htext, hmodel, rfl⟩
          kinds := rfl
          targets := hsited.places.of_map
          places := hsited.places
          holds := fun file hfile =>
            hlanded.holds ((generator.plan model).target file, file.content)
              (List.mem_map.mpr ⟨file, hfile, rfl⟩)
          reported := List.map_map ..
          frame := hframe
          directory := hdirectory
          dtoDirectory := hdtoAfter
          again := hsited.write_again hdirectory hdtoAfter hlanded.holds }

end

/-- A generator of modules below `m`, whose schema stands where a service is to be written. -/
def userGenerator : Generator where
  settings := { schema := "m/user/user.service.ts", modulesRoot := "m" }
  options :=
    { optionality := Settings.optionality {}, imports := {}, indent := .twoSpaces,
      extension := "ts" }
  options_eq := by decide

/-- A disk with the schema of one model. -/
def userTree : Tree :=
  ⟨[(["m"], .directory), (["m", "user"], .directory),
    (["m", "user", "user.service.ts"], .file (.text "model User \x7b\n\x7d\n"))]⟩

theorem isConfined_userGenerator : userGenerator.IsConfined where
  modulesRoot := by decide
  extension := by decide

theorem generate_eq_ok_user : ∃ plan results after,
    userGenerator.generate (m := StateM Tree) "User" .disk userTree = (.ok (plan, results), after) ∧
      results.map Written.path =
        ["m/user/dto/create-user.dto.ts", "m/user/dto/update-user.dto.ts",
          "m/user/user.repository.ts", "m/user/user.service.ts", "m/user/user.controller.ts",
          "m/user/user.module.ts"] ∧
      userGenerator.Succeeds "User" userTree plan results after := by
  have hpaths : (userGenerator.generate (m := StateM Tree) "User" .disk userTree).1.toOption.map
      (fun done => done.2.map Written.path) =
        some ["m/user/dto/create-user.dto.ts", "m/user/dto/update-user.dto.ts",
          "m/user/user.repository.ts", "m/user/user.service.ts", "m/user/user.controller.ts",
          "m/user/user.module.ts"] := by
    decide +kernel
  obtain ⟨⟨result, after⟩, hrun⟩ :
      ∃ run, userGenerator.generate (m := StateM Tree) "User" .disk userTree = run := ⟨_, rfl⟩
  rw [hrun] at hpaths
  cases result with
  | error failure => cases hpaths
  | ok done =>
    exact ⟨done.1, done.2, after, hrun, Option.some.inj hpaths,
      Generator.generate_eq_ok isConfined_userGenerator hrun⟩

section

variable {generator : Generator} (h : generator.IsConfined) {name : String} {before after : Tree}

include h

/-- A generation that fails leaves the disk as it was before the file it fails at. -/
theorem Generator.generate_eq_error {failure : Failure}
    (hrun : generator.generate (m := StateM Tree) name .disk before = (.error failure, after)) :
    (∃ fault, failure = .schema generator.settings.schema fault ∧ after = before) ∨
      (∃ known, failure = .modelNotFound name known ∧ after = before) ∨
      ∃ text model error count, before.readText generator.settings.schema = .ok text ∧
        findModel (Document.ofSource text) name = .ok model ∧ failure = .write error ∧
        (generator.plan model).FailsBehind count before error after := by
  rw [generate_eq] at hrun
  split at hrun
  next fault _ =>
    obtain ⟨hfailure, rfl⟩ := Prod.mk.inj hrun
    exact Or.inl ⟨fault, (Except.error.inj hfailure).symm, rfl⟩
  next text htext =>
    split at hrun
    next missing hmodel =>
      obtain ⟨hfailure, rfl⟩ := Prod.mk.inj hrun
      obtain rfl := Except.error.inj hfailure
      refine Or.inr (Or.inl ?_)
      unfold findModel at hmodel
      split at hmodel
      · cases hmodel
      · exact ⟨_, (Except.error.inj hmodel).symm, rfl⟩
    next model hmodel =>
      have hsited := h.isSited_plan hmodel
      have houtcome := hsited.outcome before
      generalize (generator.plan model).write (m := StateM Tree) .disk before = run
        at hrun houtcome
      obtain ⟨⟨done, error⟩, last⟩ := run
      cases error with
      | none => cases hrun
      | some error =>
        obtain ⟨hfailure, rfl⟩ := Prod.mk.inj hrun
        obtain ⟨count, hfails⟩ := hsited.failsBehind houtcome rfl
        exact Or.inr (Or.inr ⟨text, model, error, count, htext, hmodel,
          (Except.error.inj hfailure).symm, hfails⟩)

end

/-- A disk on which a directory stands where a repository is to be written. -/
def occupiedTree : Tree :=
  userTree.set ["m", "user", "user.repository.ts"] .directory

theorem generate_eq_error_occupied : ∃ after text model count,
    userGenerator.generate (m := StateM Tree) "User" .disk occupiedTree =
        (.error (.write (.file "m/user/user.repository.ts" .isDirectory)), after) ∧
      occupiedTree.readText userGenerator.settings.schema = .ok text ∧
      findModel (Document.ofSource text) "User" = .ok model ∧
      (userGenerator.plan model).FailsBehind count occupiedTree
        (.file "m/user/user.repository.ts" .isDirectory) after := by
  have hfailure :
      (match (userGenerator.generate (m := StateM Tree) "User" .disk occupiedTree).1 with
        | .error failure => some failure
        | .ok _ => none) = some (.write (.file "m/user/user.repository.ts" .isDirectory)) := by
    decide +kernel
  obtain ⟨⟨result, after⟩, hrun⟩ :
      ∃ run, userGenerator.generate (m := StateM Tree) "User" .disk occupiedTree = run := ⟨_, rfl⟩
  rw [hrun] at hfailure
  cases result with
  | ok done => cases hfailure
  | error failure =>
    obtain rfl := Option.some.inj hfailure
    rcases Generator.generate_eq_error isConfined_userGenerator hrun with
      ⟨fault, hschema, -⟩ | ⟨known, hmissing, -⟩ |
      ⟨text, model, error, count, hread, hmodel, heq, h⟩
    · cases hschema
    · cases hmissing
    · obtain rfl := Failure.write.inj heq
      exact ⟨after, text, model, count, hrun, hread, hmodel, h⟩

end Scaffold.Generation
