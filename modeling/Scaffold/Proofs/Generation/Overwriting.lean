import Scaffold.Proofs.Disk.Growth
import Scaffold.Proofs.Generation.Outcome

/-!
Writing files wherever their paths lead. Some paths may mean one place, and then the text that is
written last stays there (`Overwritten.holds`). Besides these places, only directories change: those
that are added on the way to the files (`Overwritten.frame`). That is what carrying out a plan comes
to, whatever the directory of modules and the extension are (`Plan.write_overwritten`).
-/

namespace Scaffold.Generation

open Disk (Place Tree parent?)

/-! ### Single steps -/

theorem addsAlong_ensureDirectory (path : String) (tree : Tree) :
    tree.AddsAlong [path] (ensureDirectory (m := StateM Tree) .disk path tree).2 := by
  have hmade := Tree.addsAlong_makeDirectories path tree
  unfold ensureDirectory
  simp only [run_bind, run_standing?]
  split
  · exact Tree.AddsAlong.refl tree _
  · simp only [run_bind, run_makeDirectories]
    cases (tree.makeDirectories path).2 with
    | error fault => exact hmade
    | ok made => exact hmade

/-- The directories that files are to stand in. -/
def parents (paths : List String) : List String :=
  paths.filterMap parent?

/-- What seeing to the directory of a file comes to. A path without steps has none. -/
def ensureParent (path : String) (tree : Tree) : Except WriteError Unit × Tree :=
  match parent? path with
  | some parent => ensureDirectory (m := StateM Tree) .disk parent tree
  | none => (.ok (), tree)

theorem addsAlong_ensureParent (path : String) (tree : Tree) :
    tree.AddsAlong (parents [path]) (ensureParent path tree).2 := by
  unfold ensureParent
  cases hparent : parent? path with
  | none => exact Tree.AddsAlong.refl tree _
  | some parent =>
    have hparents : parents [path] = [parent] := by simp [parents, hparent]
    rw [hparents]
    exact addsAlong_ensureDirectory parent tree

/-- A file is written when its directory has been seen to. -/
theorem writeFile_eq_match (path content : String) (tree : Tree) :
    writeFile (m := StateM Tree) .disk path content tree =
      match ensureParent path tree with
      | (.error error, made) => (.error error, made)
      | (.ok (), made) =>
        match made.writeText path content with
        | .ok written => (.ok (.onDisk path content.utf8ByteSize), written)
        | .error fault => (.error (.file path fault), made) := by
  unfold writeFile ensureParent
  cases parent? path with
  | none =>
    simp only [run_bind, run_pure, run_writeText]
    cases tree.writeText path content with
    | ok written => rfl
    | error fault => rfl
  | some parent =>
    simp only [run_bind]
    obtain ⟨ready, made⟩ := ensureDirectory (m := StateM Tree) .disk parent tree
    cases ready with
    | error error => rfl
    | ok opened =>
      simp only [run_bind, run_writeText]
      cases made.writeText path content with
      | ok written => rfl
      | error fault => rfl

/-! ### Files in order -/

/-- What writing some files, given by path and text, makes of a disk, where directories may be added
along some other paths. -/
structure Overwritten (ways : List String) (entries : List (String × String))
    (before after : Tree) : Prop where
  keeps : before.Keeps after
  /-- Every file has a place. -/
  resolves : ∀ entry ∈ entries, ∃ place, after.resolve entry.1 = .ok place
  /-- Only the places of the files change, and directories are made on the way. -/
  frame : ∀ place, after.node? place = before.node? place ∨
    (∃ entry ∈ entries, after.resolve entry.1 = .ok place) ∨ before.MadeAlong ways after place
  /-- A file holds its text unless a later one means the same place. -/
  holds : ∀ front entry back, entries = front ++ entry :: back →
    (∀ later ∈ back, after.resolve later.1 ≠ after.resolve entry.1) →
    after.readText entry.1 = .ok entry.2

namespace Overwritten

variable {ways : List String} {entries : List (String × String)} {before made after : Tree}

/-- Before the first file, directories may be added. -/
theorem of_addsAlong (h : before.AddsAlong ways after) : Overwritten ways [] before after where
  keeps := h.keeps
  resolves := by simp
  frame place := (h place).imp_right Or.inr
  holds front entry back hentries := absurd hentries.symm (by simp)

theorem addsAlong (hadds : before.AddsAlong ways made) (h : Overwritten ways entries made after) :
    Overwritten ways entries before after where
  keeps := hadds.keeps.trans h.keeps
  resolves := h.resolves
  frame := by
    intro place
    rcases h.frame place with hsame | hfile | ⟨hnone, hdirectory, hway⟩
    · rw [hsame]
      exact (hadds place).imp_right fun hmade => Or.inr (hmade.of_keeps h.keeps)
    · exact Or.inr (Or.inl hfile)
    · rcases hadds place with hsame | ⟨-, hmade, -⟩
      · exact Or.inr (Or.inr ⟨hsame ▸ hnone, hdirectory, hway⟩)
      · rw [hnone] at hmade
        cases hmade
  holds := h.holds

/-- One file more has been written first. -/
theorem cons {path content : String} {written : Tree}
    (hwrite : before.writeText path content = .ok written)
    (h : Overwritten ways entries written after) :
    Overwritten ways ((path, content) :: entries) before after := by
  have hkeeps := Tree.keeps_of_writeText hwrite
  obtain ⟨target, hresolve, hwants, hshort, hnode, rfl⟩ := Tree.writeText_eq_ok_iff.mp hwrite
  have free := Tree.isFixed_eq_false hnode
  have hafter := Tree.resolve_of_keeps (hkeeps.trans h.keeps) hresolve
  refine ⟨hkeeps.trans h.keeps, fun entry hentry => ?_, fun place => ?_,
    fun front entry back hentries hlast => ?_⟩
  · rcases List.mem_cons.mp hentry with rfl | hentry
    · exact ⟨target, hafter⟩
    · exact h.resolves entry hentry
  · have hset := Tree.node?_set before free (.file (.text content)) place
    by_cases hplace : place = target
    · exact Or.inr (Or.inl ⟨_, List.mem_cons_self .., hplace ▸ hafter⟩)
    · rw [if_neg hplace] at hset
      rcases h.frame place with hsame | ⟨entry, hentry, hfile⟩ | ⟨hnone, hway⟩
      · exact Or.inl (hsame.trans hset)
      · exact Or.inr (Or.inl ⟨entry, List.mem_cons_of_mem _ hentry, hfile⟩)
      · exact Or.inr (Or.inr ⟨hset ▸ hnone, hway⟩)
  · cases front with
    | cons first more =>
      obtain ⟨rfl, hmore⟩ := List.cons.inj hentries
      exact h.holds more entry back hmore hlast
    | nil =>
      obtain ⟨rfl, rfl⟩ := List.cons.inj hentries
      have hset := Tree.node?_set before free (.file (.text content)) target
      rw [if_pos rfl] at hset
      refine (Tree.readText_eq_ok_iff_of_resolve hafter hwants hshort).mpr ?_
      -- What is written later leaves the place alone.
      rcases h.frame target with hsame | ⟨later, hlater, hfile⟩ | ⟨hnone, -⟩
      · exact hsame.trans hset
      · exact absurd (hfile.trans hafter.symm) (hlast later hlater)
      · rw [hset] at hnone
        cases hnone

theorem mono {more : List String} (h : Overwritten ways entries before after)
    (hways : ways ⊆ more) : Overwritten more entries before after where
  keeps := h.keeps
  resolves := h.resolves
  frame place := (h.frame place).imp_right (Or.imp_right (·.mono hways))
  holds := h.holds

end Overwritten

/-- Files are written in order, up to the end or the first that fails. -/
theorem writeFiles_overwritten (entries : List (String × String)) (tree : Tree) :
    ∃ landed left, entries = landed ++ left ∧
      Overwritten (parents (entries.map Prod.fst)) landed tree
        (writeFiles (m := StateM Tree) .disk entries tree).2 ∧
      (writeFiles (m := StateM Tree) .disk entries tree).1.done = landed.map Written.ofEntry ∧
      ((writeFiles (m := StateM Tree) .disk entries tree).1.error = none → left = []) := by
  induction entries generalizing tree with
  | nil => exact ⟨[], [], rfl, .of_addsAlong (Tree.AddsAlong.refl tree _), rfl, fun _ => rfl⟩
  | cons entry rest ih =>
    obtain ⟨path, content⟩ := entry
    have hhere : parents [path] ⊆ parents (((path, content) :: rest).map Prod.fst) :=
      List.filterMap_subset parent? (by simp)
    have hrest : parents (rest.map Prod.fst) ⊆
        parents (((path, content) :: rest).map Prod.fst) :=
      List.filterMap_subset parent? (by simp)
    have hadds := (addsAlong_ensureParent path tree).mono hhere
    rw [writeFiles_cons, writeFile_eq_match]
    generalize ensureParent path tree = ready at hadds ⊢
    obtain ⟨result, made⟩ := ready
    cases result with
    | error error => exact ⟨[], _, rfl, .of_addsAlong hadds, rfl, nofun⟩
    | ok opened =>
      simp only
      cases hwrite : made.writeText path content with
      | error fault => exact ⟨[], _, rfl, .of_addsAlong hadds, rfl, nofun⟩
      | ok written =>
        obtain ⟨landed, left, rfl, hover, hdone, hends⟩ := ih written
        exact ⟨(path, content) :: landed, left, rfl,
          ((hover.mono hrest).cons hwrite).addsAlong hadds,
          congrArg (Written.ofEntry (path, content) :: ·) hdone, hends⟩

/-! ### Plans -/

/-- The directories that are made for a plan. -/
def Plan.ways (plan : Plan) : List String :=
  plan.directory :: plan.dtoDirectory :: parents plan.targets

/-- Carrying out a plan writes its files in order, up to the end or a failure. -/
theorem Plan.write_overwritten (plan : Plan) (tree : Tree) :
    ∃ landed left, plan.entries = landed ++ left ∧
      Overwritten plan.ways landed tree (plan.write (m := StateM Tree) .disk tree).2 ∧
      (plan.write (m := StateM Tree) .disk tree).1.done = landed.map Written.ofEntry ∧
      ((plan.write (m := StateM Tree) .disk tree).1.error = none → left = []) := by
  have hdirectory := addsAlong_ensureDirectory plan.directory tree
  rw [Plan.write_eq]
  generalize ensureDirectory (m := StateM Tree) .disk plan.directory tree = first at hdirectory ⊢
  obtain ⟨result, made⟩ := first
  have hmade : tree.AddsAlong plan.ways made := hdirectory.mono (by simp [Plan.ways])
  cases result with
  | error error => exact ⟨[], _, rfl, .of_addsAlong hmade, rfl, nofun⟩
  | ok opened =>
    have hdto := addsAlong_ensureDirectory plan.dtoDirectory made
    simp only
    generalize ensureDirectory (m := StateM Tree) .disk plan.dtoDirectory made = second at hdto ⊢
    obtain ⟨result, ready⟩ := second
    have hready : tree.AddsAlong plan.ways ready :=
      hmade.trans (hdto.mono (by simp [Plan.ways]))
    cases result with
    | error error => exact ⟨[], _, rfl, .of_addsAlong hready, rfl, nofun⟩
    | ok opened =>
      obtain ⟨landed, left, hentries, hover, hdone, hends⟩ :=
        writeFiles_overwritten plan.entries ready
      rw [plan.map_fst_entries] at hover
      have hways : parents plan.targets ⊆ plan.ways := by
        intro path hpath
        simp [Plan.ways, hpath]
      exact ⟨landed, left, hentries, (hover.mono hways).addsAlong hready, hdone, hends⟩

end Scaffold.Generation
