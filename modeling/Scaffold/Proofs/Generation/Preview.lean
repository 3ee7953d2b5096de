import Scaffold.Proofs.Generation.Effect
import Scaffold.Proofs.Generation.Overwriting
import Scaffold.Proofs.Generation.Placement

/-!
Previews. A preview changes nothing, and fails only where the schema or the model is missing, as the
generation itself does. What it shows is the plan of the generation, and every text that it shows is
what the generation leaves at its path, or what a later file of the plan replaces there. The latter
takes an extension that goes back (`preview_faithful`).
-/

namespace Scaffold.Generation

open Disk (IsOrdinary Tree)
open Schema (Document Model)

/-- What a preview hands back for a file. -/
def Written.shown (entry : String × String) : Written :=
  .previewed entry.1 entry.2

/-- Where no two files mean one place, all of them hold their texts. -/
theorem Overwritten.holds_all {ways : List String} {entries : List (String × String)}
    {before after : Tree} (h : Overwritten ways entries before after)
    (hplaces : (entries.map fun entry => after.resolve entry.1).Nodup) :
    ∀ entry ∈ entries, after.readText entry.1 = .ok entry.2 := by
  intro entry hentry
  obtain ⟨front, back, rfl⟩ := List.append_of_mem hentry
  refine h.holds front entry back rfl fun later hlater heq => ?_
  rw [List.map_append, List.map_cons, List.nodup_append, List.nodup_cons] at hplaces
  exact hplaces.2.1.1 (heq ▸ List.mem_map_of_mem hlater)

/-- A plan that is carried out without a failure reports all its files, and leaves the texts of
those that no later one replaces. -/
theorem Plan.holds_of_write {plan : Plan} {before after : Tree} {results : List Written}
    (h : plan.write (m := StateM Tree) .disk before = (⟨results, none⟩, after)) :
    results = plan.entries.map Written.ofEntry ∧
      Overwritten plan.ways plan.entries before after := by
  obtain ⟨landed, left, hentries, hover, hdone, hends⟩ := plan.write_overwritten before
  rw [h] at hover hdone hends
  obtain rfl := hends rfl
  obtain rfl : plan.entries = landed := by simpa using hentries
  exact ⟨hdone, hover⟩

/-- With an extension that does not go back, the files of a plan stand at places of their own. -/
theorem Overwritten.nodup_places {generator : Generator} {model : Model} {ways : List String}
    {before after : Tree} (h : Overwritten ways (generator.plan model).entries before after)
    (hname : Text.isWord model.name.toList = true)
    (hlater : Disk.leave ∉ Disk.laterSteps generator.options.extension) :
    ((generator.plan model).entries.map fun entry => after.resolve entry.1).Nodup := by
  have hresolves : ∀ target ∈ (generator.plan model).targets,
      ∃ place, after.resolve target = .ok place := by
    intro target htarget
    rw [← Plan.map_fst_entries] at htarget
    obtain ⟨entry, hentry, rfl⟩ := List.mem_map.mp htarget
    exact h.resolves entry hentry
  have hplaces : ((generator.plan model).targets.map after.resolve).Nodup :=
    nodup_resolve_targets _ _ hname hlater hresolves
  rw [← Plan.map_fst_entries, List.map_map] at hplaces
  exact hplaces

section

variable {generator : Generator} {name : String} {tree : Tree}

theorem Generator.generate_preview (generator : Generator) (name : String) (tree : Tree) :
    generator.generate (m := StateM Tree) name .preview tree =
      match tree.readText generator.settings.schema with
      | .error fault => (.error (.schema generator.settings.schema fault), tree)
      | .ok text =>
        match findModel (Document.ofSource text) name with
        | .error failure => (.error failure, tree)
        | .ok model =>
          (.ok (generator.plan model, (generator.plan model).entries.map Written.shown), tree) := by
  rw [generate_eq]
  cases tree.readText generator.settings.schema with
  | error fault => rfl
  | ok text =>
    cases hmodel : findModel (Document.ofSource text) name with
    | error failure => simp only [hmodel]
    | ok model =>
      simp only [hmodel, Plan.write_preview]
      rfl

theorem Generator.preview_snd :
    (generator.generate (m := StateM Tree) name .preview tree).2 = tree := by
  rw [generate_preview]
  split
  · rfl
  · split <;> rfl

/-- A preview fails where the schema cannot be read, or has no such model. -/
theorem Generator.preview_eq_error_iff {failure : Failure} :
    (generator.generate (m := StateM Tree) name .preview tree).1 = .error failure ↔
      (∃ fault, tree.readText generator.settings.schema = .error fault ∧
        failure = .schema generator.settings.schema fault) ∨
      ∃ text, tree.readText generator.settings.schema = .ok text ∧
        findModel (Document.ofSource text) name = .error failure := by
  rw [generate_preview]
  cases tree.readText generator.settings.schema with
  | error fault => simp [eq_comm]
  | ok text =>
    cases hmodel : findModel (Document.ofSource text) name with
    | error missing => simp [hmodel]
    | ok model => simp [hmodel]

/-- Where a preview fails, so does the generation. -/
theorem Generator.generate_of_preview_eq_error {failure : Failure}
    (h : (generator.generate (m := StateM Tree) name .preview tree).1 = .error failure) :
    generator.generate (m := StateM Tree) name .disk tree = (.error failure, tree) := by
  rw [generate_eq]
  rcases preview_eq_error_iff.mp h with ⟨fault, hread, rfl⟩ | ⟨text, hread, hmodel⟩
  · rw [hread]
  · simp only [hread, hmodel]

/-- Where a generation succeeds, the preview shows its plan. -/
theorem Generator.preview_of_generate_eq_ok {plan : Plan} {results : List Written} {after : Tree}
    (h : generator.generate (m := StateM Tree) name .disk tree = (.ok (plan, results), after)) :
    (generator.generate (m := StateM Tree) name .preview tree).1 =
      .ok (plan, plan.entries.map Written.shown) := by
  obtain ⟨text, model, hread, hmodel, rfl, -⟩ := exists_of_generate_eq_ok h
  rw [generate_preview, hread]
  simp only [hmodel]

end

/-- A preview changes nothing. It fails where the schema cannot be read or has no such model, and
there the generation fails in the same way. Where the generation succeeds, the preview shows its
plan, file by file, and the texts that the generation leaves on the disk: each is what its path
holds, as long as no later file of the plan stands at the same place. No two do if the extension
does not go back. -/
theorem Generator.preview_faithful (generator : Generator) (name : String) (tree : Tree) :
    (generator.generate (m := StateM Tree) name .preview tree).2 = tree ∧
      (∀ failure, (generator.generate (m := StateM Tree) name .preview tree).1 = .error failure ↔
        (∃ fault, tree.readText generator.settings.schema = .error fault ∧
          failure = .schema generator.settings.schema fault) ∨
        ∃ text, tree.readText generator.settings.schema = .ok text ∧
          findModel (Document.ofSource text) name = .error failure) ∧
      (∀ failure, (generator.generate (m := StateM Tree) name .preview tree).1 = .error failure →
        generator.generate (m := StateM Tree) name .disk tree = (.error failure, tree)) ∧
      ∀ plan results after,
        generator.generate (m := StateM Tree) name .disk tree = (.ok (plan, results), after) →
        (generator.generate (m := StateM Tree) name .preview tree).1 =
            .ok (plan, plan.entries.map Written.shown) ∧
          results.map Written.path = (plan.entries.map Written.shown).map Written.path ∧
          (∀ front entry back, plan.entries = front ++ entry :: back →
            (∀ later ∈ back, after.resolve later.1 ≠ after.resolve entry.1) →
            after.readText entry.1 = .ok entry.2) ∧
          (IsOrdinary generator.options.extension →
            ∀ entry ∈ plan.entries, after.readText entry.1 = .ok entry.2) := by
  refine ⟨preview_snd, fun failure => preview_eq_error_iff,
    fun failure => generate_of_preview_eq_error, fun plan results after hrun => ?_⟩
  obtain ⟨text, model, hread, hmodel, rfl, hwrite⟩ := exists_of_generate_eq_ok hrun
  obtain ⟨rfl, hover⟩ := Plan.holds_of_write hwrite
  have hname := isWord_of_findModel hmodel
  refine ⟨preview_of_generate_eq_ok hrun, ?_, hover.holds, fun hextension => ?_⟩
  · rw [List.map_map, List.map_map]
    rfl
  · have hlater : Disk.leave ∉ Disk.laterSteps generator.options.extension := fun hleave =>
      hextension (Disk.laterSteps_subset _ hleave)
    exact hover.holds_all (hover.nodup_places hname hlater)

theorem preview_faithful_user : ∃ plan results after,
    userGenerator.generate (m := StateM Tree) "User" .disk userTree = (.ok (plan, results), after) ∧
      (userGenerator.generate (m := StateM Tree) "User" .preview userTree).1 =
        .ok (plan, plan.entries.map Written.shown) ∧
      ∀ entry ∈ plan.entries, after.readText entry.1 = .ok entry.2 := by
  have hok : (userGenerator.generate (m := StateM Tree) "User" .disk userTree).1.toOption.isSome =
      true := by
    decide +kernel
  obtain ⟨⟨result, after⟩, hrun⟩ :
      ∃ run, userGenerator.generate (m := StateM Tree) "User" .disk userTree = run := ⟨_, rfl⟩
  rw [hrun] at hok
  cases result with
  | error failure => cases hok
  | ok done =>
    obtain ⟨-, -, -, hsucceeds⟩ := Generator.preview_faithful userGenerator "User" userTree
    obtain ⟨hshown, -, -, hholds⟩ := hsucceeds done.1 done.2 after hrun
    exact ⟨done.1, done.2, after, hrun, hshown, hholds (by decide)⟩

/-- A generator with an extension that goes back. -/
def foldingGenerator : Generator where
  settings := { schema := "s", modulesRoot := "m", extension := "a/../z" }
  options :=
    { optionality := Settings.optionality {}, imports := {}, indent := .twoSpaces,
      extension := "a/../z" }
  options_eq := by decide

/-- A disk with nothing but the schema of one model. -/
def foldingTree : Tree :=
  ⟨[(["s"], .file (.text "model User \x7b\n\x7d\n"))]⟩

/-- Where the extension goes back, files replace one another, and a preview shows them all. -/
theorem preview_shows_replaced : ∃ plan results shown after,
    foldingGenerator.generate (m := StateM Tree) "User" .disk foldingTree =
        (.ok (plan, results), after) ∧
      (foldingGenerator.generate (m := StateM Tree) "User" .preview foldingTree).1 =
        .ok (plan, shown) ∧
      ∃ path content, Written.previewed path content ∈ shown ∧
        after.readText path ≠ .ok content := by
  have hlost :
      (match foldingGenerator.generate (m := StateM Tree) "User" .disk foldingTree with
        | (.ok (plan, _), after) =>
          plan.entries.any fun entry => (after.readText entry.1).toOption != some entry.2
        | (.error _, _) => false) = true := by
    decide +kernel
  obtain ⟨⟨result, after⟩, hrun⟩ :
      ∃ run, foldingGenerator.generate (m := StateM Tree) "User" .disk foldingTree = run := ⟨_, rfl⟩
  rw [hrun] at hlost
  cases result with
  | error failure => cases hlost
  | ok done =>
    obtain ⟨plan, results⟩ := done
    obtain ⟨text, model, hread, hmodel, hplan, -⟩ := Generator.exists_of_generate_eq_ok hrun
    obtain ⟨⟨path, content⟩, hentry, hother⟩ := List.any_eq_true.mp hlost
    refine ⟨plan, results, plan.entries.map Written.shown, after, hrun, ?_, path, content,
      List.mem_map_of_mem hentry, fun hleft => ?_⟩
    · rw [Generator.generate_preview, hread]
      simp only [hmodel, hplan]
    · have hsome : (after.readText path).toOption = some content := congrArg Except.toOption hleft
      exact absurd hsome (by simpa using hother)

end Scaffold.Generation
