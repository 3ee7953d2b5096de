import Scaffold.Proofs.Disk.Directories

/-!
Files in a directory. Where the directory of a file can be found, reading and writing the file
concern its place alone: writing sets the text there (`writeText_eq_ok`), what holds a text is what
gives it back (`readText_eq_ok_iff_of_standing`), and writing the text that is there already is
writing nothing (`writeText_self`).
-/

namespace Scaffold.Disk

open Artifact (IsStepName)

/-- A path that ends in the name of a directory or a file. -/
def EndsInName (path : String) : Prop :=
  ∃ above name, Names path above name

/-- A path of a file that stands in a directory. -/
structure IsFileIn (directory path : String) : Prop where
  endsInName : EndsInName directory
  names : ∃ name, Names path (placeOf directory) name
  isFile : wantsDirectory path = false
  parent : parent? path = some directory

/-- A name that is joined to a directory is the path of a file there. -/
theorem isFileIn_join {directory name : String} (hdirectory : EndsInName directory)
    (hself : directoryOf directory = directory) (hname : IsStepName name) :
    IsFileIn directory (join directory name) where
  endsInName := hdirectory
  names := by
    obtain ⟨above, last, hnames⟩ := hdirectory
    exact ⟨name, hnames.isOrdinary.names_join hname⟩
  isFile := wantsDirectory_join hname directory
  parent := by rw [parent?_join hname, hself]

theorem IsFileIn.isFixed_placeOf {directory path : String} (h : IsFileIn directory path) :
    (placeOf path).isFixed = false := by
  obtain ⟨name, hnames⟩ := h.names
  rw [hnames.placeOf_eq]
  exact Tree.isFixed_of_names hnames

namespace Tree

/-- Setting what is there already changes nothing. -/
theorem set_self {tree : Tree} {place : Place} (free : place.isFixed = false) {node : Node}
    (h : tree.node? place = some node) : tree.set place node = tree := by
  have hassign : ∀ nodes : List (Place × Node), nodes.lookup place = some node →
      assign place node nodes = nodes := by
    intro nodes hlookup
    induction nodes with
    | nil => cases hlookup
    | cons entry rest ih =>
      obtain ⟨other, old⟩ := entry
      rw [assign]
      split
      next heq =>
        subst heq
        simp only [List.lookup_cons, beq_self_eq_true] at hlookup
        rw [Option.some.inj hlookup]
      next hne =>
        have hdiffers : (place == other) = false := beq_eq_false_iff_ne.mpr (Ne.symm hne)
        rw [List.lookup_cons, hdiffers] at hlookup
        rw [ih hlookup]
  simp only [node?, free, Bool.false_eq_true, if_false] at h
  rw [set, hassign tree.nodes h]

/-- A directory stays one where something else is set. -/
theorem keeps_set {tree : Tree} {place : Place} (free : place.isFixed = false) (node : Node)
    (h : tree.node? place ≠ some .directory) : tree.Keeps (tree.set place node) := by
  intro other hother
  have hne : other ≠ place := by
    rintro rfl
    exact h hother
  rw [node?_set tree free, if_neg hne, hother]

/-- A directory that can be found is found as long as directories stay. -/
theorem standing?_of_keeps {path : String} (h : EndsInName path) {before after : Tree}
    (hkeeps : before.Keeps after) (hstanding : before.standing? path = some .directory) :
    after.standing? path = some .directory := by
  obtain ⟨above, name, hnames⟩ := h
  obtain ⟨hfault, henter⟩ := (standing?_eq_directory_iff hnames before).mp hstanding
  exact (standing?_eq_directory_iff hnames after).mpr ⟨hfault, enter_of_keeps hkeeps henter⟩

section IsFileIn

variable {directory path : String} (h : IsFileIn directory path) {tree : Tree}
  (hstanding : tree.standing? directory = some .directory)

include h hstanding

theorem enter_of_standing : tree.enter [] (placeOf directory) = .ok () := by
  obtain ⟨above, name, hnames⟩ := h.endsInName
  rw [hnames.placeOf_eq]
  exact ((standing?_eq_directory_iff hnames tree).mp hstanding).2

theorem readText_eq_ok_iff_of_standing (text : String) :
    tree.readText path = .ok text ↔
      faultOfPath? path = none ∧ tree.look (placeOf path) = .ok (some (.file (.text text))) := by
  obtain ⟨name, hnames⟩ := h.names
  have henter := enter_of_standing h hstanding
  rw [readText_eq_ok_iff hnames h.isFile, hnames.placeOf_eq]
  simp [henter]

theorem writeText_of_standing (text : String) :
    tree.writeText path text =
      match faultOfPath? path with
      | some fault => .error fault
      | none =>
        match tree.look (placeOf path) with
        | .error fault => .error fault
        | .ok (some .directory) => .error .isDirectory
        | .ok _ => .ok (tree.set (placeOf path) (.file (.text text))) := by
  obtain ⟨name, hnames⟩ := h.names
  have hwrite := writeText_eq hnames h.isFile tree text
  rw [enter_of_standing h hstanding, ← hnames.placeOf_eq] at hwrite
  exact hwrite

/-- What it takes to write a text, and what comes of it. -/
theorem writeText_eq_ok {text : String} {written : Tree}
    (hwrite : tree.writeText path text = .ok written) :
    faultOfPath? path = none ∧ Place.isTooLong (placeOf path) = false ∧
      tree.node? (placeOf path) ≠ some .directory ∧
      written = tree.set (placeOf path) (.file (.text text)) := by
  rw [writeText_of_standing h hstanding] at hwrite
  split at hwrite
  · cases hwrite
  next hfault =>
    split at hwrite
    · cases hwrite
    · cases hwrite
    next found hdirectory hlook =>
      obtain ⟨hshort, hnode⟩ := look_eq_ok_iff.mp hlook
      refine ⟨hfault, hshort, fun hstands => ?_, (Except.ok.inj hwrite).symm⟩
      rw [hnode] at hstands
      exact hdirectory hstands

/-- What has been written is read back. -/
theorem readText_of_writeText {text : String} {written : Tree}
    (hwrite : tree.writeText path text = .ok written) : written.readText path = .ok text := by
  have free := h.isFixed_placeOf
  obtain ⟨hfault, hshort, hnode, rfl⟩ := writeText_eq_ok h hstanding hwrite
  have hkeeps := keeps_set free (.file (.text text)) hnode
  have hkept := standing?_of_keeps h.endsInName hkeeps hstanding
  rw [readText_eq_ok_iff_of_standing h hkept, look_eq, hshort, node?_set tree free]
  simp [hfault]

/-- Writing what is there already changes nothing. -/
theorem writeText_self {text : String} (hread : tree.readText path = .ok text) :
    tree.writeText path text = .ok tree := by
  obtain ⟨hfault, hlook⟩ := (readText_eq_ok_iff_of_standing h hstanding text).mp hread
  rw [writeText_of_standing h hstanding, hfault, hlook]
  simp only [set_self h.isFixed_placeOf (node?_of_look hlook)]

end IsFileIn

end Tree

end Scaffold.Disk
