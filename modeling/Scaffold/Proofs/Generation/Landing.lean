import Scaffold.Generation.Generator
import Scaffold.Proofs.Disk.TextFile

/-!
Writing files to a disk in memory. Files that stand in directories that can be found are written one
after the other up to the first that fails (`writeFiles_landed`): those before it hold their texts,
and everything else is as it was (`Landed`). Writing what has been written changes nothing
(`writeFiles_again`).
-/

namespace Scaffold.Generation

open Disk (EndsInName IsFileIn Tree placeOf)

/-! ### Single steps -/

theorem run_bind {α β : Type} (first : StateM Tree α) (next : α → StateM Tree β) (tree : Tree) :
    (first >>= next) tree = next (first tree).1 (first tree).2 := rfl

theorem run_pure {α : Type} (value : α) (tree : Tree) :
    (pure value : StateM Tree α) tree = (value, tree) := rfl

theorem run_standing? (path : String) (tree : Tree) :
    Disk.Readable.standing? (m := StateM Tree) path tree = (tree.standing? path, tree) := rfl

theorem run_readText (path : String) (tree : Tree) :
    Disk.Readable.readText (m := StateM Tree) path tree = (tree.readText path, tree) := rfl

theorem run_makeDirectories (path : String) (tree : Tree) :
    Disk.Writable.makeDirectories (m := StateM Tree) path tree =
      ((tree.makeDirectories path).2, (tree.makeDirectories path).1) := rfl

theorem run_writeText (path text : String) (tree : Tree) :
    Disk.Writable.writeText (m := StateM Tree) path text tree =
      match tree.writeText path text with
      | .ok written => (.ok (), written)
      | .error fault => (.error fault, tree) := rfl

/-- Seeing to a directory is making it, also where it is there already. -/
theorem ensureDirectory_eq {path : String} (h : EndsInName path) (tree : Tree) :
    ensureDirectory (m := StateM Tree) .disk path tree =
      ((tree.makeDirectories path).2.mapError (WriteError.directory path),
        (tree.makeDirectories path).1) := by
  obtain ⟨above, name, hnames⟩ := h
  unfold ensureDirectory
  simp only [run_bind, run_standing?]
  split
  next hstanding => rw [Tree.makeDirectories_of_standing hnames hstanding, run_pure]; rfl
  next =>
    simp only [run_bind, run_makeDirectories]
    cases (tree.makeDirectories path).2 with
    | error fault => rfl
    | ok made => rfl

/-- A directory that can be found is left alone. -/
theorem ensureDirectory_of_standing {path : String} (h : EndsInName path) {tree : Tree}
    (hstanding : tree.standing? path = some .directory) :
    ensureDirectory (m := StateM Tree) .disk path tree = (.ok (), tree) := by
  obtain ⟨above, name, hnames⟩ := id h
  rw [ensureDirectory_eq h, Tree.makeDirectories_of_standing hnames hstanding]
  rfl

/-- Where its directory can be found, a file is written by writing its text. -/
theorem writeFile_eq {directory path : String} (h : IsFileIn directory path) {tree : Tree}
    (hstanding : tree.standing? directory = some .directory) (content : String) :
    writeFile (m := StateM Tree) .disk path content tree =
      match tree.writeText path content with
      | .ok written => (.ok (.onDisk path content.utf8ByteSize), written)
      | .error fault => (.error (.file path fault), tree) := by
  unfold writeFile
  simp only [h.parent, run_bind, ensureDirectory_of_standing h.endsInName hstanding, run_writeText]
  cases tree.writeText path content with
  | error fault => rfl
  | ok written => rfl

theorem writeFiles_cons (path content : String) (rest : List (String × String)) (tree : Tree) :
    writeFiles (m := StateM Tree) .disk ((path, content) :: rest) tree =
      match writeFile (m := StateM Tree) .disk path content tree with
      | (.error error, after) => (⟨[], some error⟩, after)
      | (.ok written, after) =>
        let (later, last) := writeFiles (m := StateM Tree) .disk rest after
        ({ later with done := written :: later.done }, last) := by
  rw [writeFiles]
  simp only [run_bind]
  obtain ⟨result, after⟩ := writeFile (m := StateM Tree) .disk path content tree
  cases result with
  | error error => rfl
  | ok written => rfl

/-! ### Written files -/

/-- What is reported of a file that has been written. -/
def Written.ofEntry (entry : String × String) : Written :=
  .onDisk entry.1 entry.2.utf8ByteSize

/-- A tree in which some files, given by path and text, have been written and nothing else. -/
structure Landed (entries : List (String × String)) (before after : Tree) : Prop where
  holds : ∀ entry ∈ entries, after.readText entry.1 = .ok entry.2
  frame : ∀ place, (∀ entry ∈ entries, placeOf entry.1 ≠ place) →
    after.node? place = before.node? place
  keeps : before.Keeps after

/-- How writing ended, given what was not written: with the first of that, if there is some. -/
def EndsBefore (left : List (String × String)) (error : Option WriteError) : Prop :=
  match left with
  | [] => error = none
  | (path, _) :: _ => ∃ fault, error = some (.file path fault)

/-- Whether every file stands in a directory that can be found. -/
def AreReady (entries : List (String × String)) (tree : Tree) : Prop :=
  ∀ entry ∈ entries, ∃ directory, IsFileIn directory entry.1 ∧
    tree.standing? directory = some .directory

theorem AreReady.of_keeps {entries : List (String × String)} {before after : Tree}
    (h : AreReady entries before) (hkeeps : before.Keeps after) : AreReady entries after := by
  intro entry hentry
  obtain ⟨directory, hfile, hstanding⟩ := h entry hentry
  exact ⟨directory, hfile, Tree.standing?_of_keeps hfile.endsInName hkeeps hstanding⟩

theorem Landed.nil (tree : Tree) : Landed [] tree tree where
  holds := by simp
  frame _ _ := rfl
  keeps := Tree.Keeps.refl tree

/-- One file more has been written first. -/
theorem Landed.cons {path content : String} {landed : List (String × String)}
    {before written after : Tree} {directory : String} (hfile : IsFileIn directory path)
    (hstanding : before.standing? directory = some .directory)
    (hwrite : before.writeText path content = .ok written) (h : Landed landed written after)
    (hother : ∀ entry ∈ landed, placeOf entry.1 ≠ placeOf path) :
    Landed ((path, content) :: landed) before after := by
  have free := hfile.isFixed_placeOf
  obtain ⟨hfault, hshort, hnode, hset⟩ := Tree.writeText_eq_ok hfile hstanding hwrite
  have hkeeps : before.Keeps written := hset ▸ Tree.keeps_set free _ hnode
  have hwritten := Tree.standing?_of_keeps hfile.endsInName hkeeps hstanding
  have hafter := Tree.standing?_of_keeps hfile.endsInName h.keeps hwritten
  refine ⟨fun entry hentry => ?_, fun place hplace => ?_, hkeeps.trans h.keeps⟩
  · rcases List.mem_cons.mp hentry with rfl | hentry
    · -- The files written later have left its place alone.
      have hread := Tree.readText_of_writeText hfile hstanding hwrite
      obtain ⟨-, hlook⟩ := (Tree.readText_eq_ok_iff_of_standing hfile hwritten content).mp hread
      refine (Tree.readText_eq_ok_iff_of_standing hfile hafter content).mpr ⟨hfault, ?_⟩
      rw [Tree.look_eq] at hlook ⊢
      rw [h.frame _ hother, hlook]
    · exact h.holds entry hentry
  · rw [h.frame place fun entry hentry => hplace entry (List.mem_cons_of_mem _ hentry), hset,
      Tree.node?_set before free, if_neg (hplace _ (List.mem_cons_self ..)).symm]

/-- What has been written stands at its place. -/
theorem Landed.node?_eq {landed : List (String × String)} {before after : Tree}
    (h : Landed landed before after) (hready : AreReady landed after) :
    ∀ entry ∈ landed, after.node? (placeOf entry.1) = some (.file (.text entry.2)) := by
  intro entry hentry
  obtain ⟨directory, hfile, hstanding⟩ := hready entry hentry
  have hread := h.holds entry hentry
  exact Tree.node?_of_look
    ((Tree.readText_eq_ok_iff_of_standing hfile hstanding entry.2).mp hread).2

/-- Files are written in order up to the first that fails. -/
theorem writeFiles_landed {entries : List (String × String)} {tree : Tree}
    (hready : AreReady entries tree) (hplaces : ((entries.map Prod.fst).map placeOf).Nodup) :
    ∃ landed left, entries = landed ++ left ∧
      Landed landed tree (writeFiles (m := StateM Tree) .disk entries tree).2 ∧
      (writeFiles (m := StateM Tree) .disk entries tree).1.done = landed.map Written.ofEntry ∧
      EndsBefore left (writeFiles (m := StateM Tree) .disk entries tree).1.error := by
  induction entries generalizing tree with
  | nil => exact ⟨[], [], rfl, Landed.nil tree, rfl, rfl⟩
  | cons entry rest ih =>
    obtain ⟨path, content⟩ := entry
    obtain ⟨directory, hfile, hstanding⟩ := hready _ (List.mem_cons_self ..)
    obtain ⟨hnew, hrest⟩ := List.nodup_cons.mp hplaces
    rw [writeFiles_cons, writeFile_eq hfile hstanding]
    cases hwrite : tree.writeText path content with
    | error fault => exact ⟨[], _, rfl, Landed.nil tree, rfl, fault, rfl⟩
    | ok written =>
      obtain ⟨-, -, hnode, hset⟩ := Tree.writeText_eq_ok hfile hstanding hwrite
      have hkeeps : tree.Keeps written := hset ▸ Tree.keeps_set hfile.isFixed_placeOf _ hnode
      have hlater : AreReady rest written := fun entry hentry =>
        hready.of_keeps hkeeps entry (List.mem_cons_of_mem _ hentry)
      obtain ⟨landed, left, rfl, hlanded, hdone, hends⟩ := ih hlater hrest
      have hother : ∀ entry ∈ landed, placeOf entry.1 ≠ placeOf path := fun entry hentry heq =>
        hnew (heq ▸ List.mem_map_of_mem (List.mem_map_of_mem (List.mem_append_left _ hentry)))
      exact ⟨(path, content) :: landed, left, rfl,
        hlanded.cons hfile hstanding hwrite hother,
        congrArg (Written.ofEntry (path, content) :: ·) hdone, hends⟩

/-- Writing files that hold their texts already changes nothing. -/
theorem writeFiles_again {entries : List (String × String)} {tree : Tree}
    (hready : AreReady entries tree)
    (hholds : ∀ entry ∈ entries, tree.readText entry.1 = .ok entry.2) :
    writeFiles (m := StateM Tree) .disk entries tree =
      (⟨entries.map Written.ofEntry, none⟩, tree) := by
  induction entries with
  | nil => rfl
  | cons entry rest ih =>
    obtain ⟨path, content⟩ := entry
    obtain ⟨directory, hfile, hstanding⟩ := hready _ (List.mem_cons_self ..)
    have hread := hholds _ (List.mem_cons_self ..)
    have hrest := ih (fun entry hentry => hready entry (List.mem_cons_of_mem _ hentry))
      (fun entry hentry => hholds entry (List.mem_cons_of_mem _ hentry))
    rw [writeFiles_cons, writeFile_eq hfile hstanding,
      Tree.writeText_self hfile hstanding hread]
    simp only [hrest]
    rfl

end Scaffold.Generation
