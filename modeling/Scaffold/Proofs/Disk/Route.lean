import Scaffold.Disk.Tree
import Scaffold.Proofs.Disk.Path

/-!
The way to a place. Whether a path of names can be gone is decided by what stands on the way
(`Tree.enter`); looking something up, reading and writing then concern the place at its end alone
(`find_eq`, `writeText_eq`). A way that is open stays open as long as directories stay
(`enter_of_keeps`).
-/

namespace Scaffold.Disk

open Artifact (IsStepName)

/-! ### Places of names -/

theorem Place.isFixed_append {name : String} (h : IsStepName name) (place : Place) :
    Place.isFixed (place ++ [name]) = false := by
  have hroot : place ++ [name] ≠ [systemRoot] := by
    intro heq
    have hlast : name = systemRoot := by simpa using congrArg List.getLast? heq
    exact h.no_slash (by simp [hlast, systemRoot])
  simp [Place.isFixed, hroot, h.ne_leave]

/-- Whether the last step to a place is too long for a name. -/
def Place.isTooLong (place : Place) : Bool :=
  place.getLast?.any fun step => decide (maxStepBytes < step.utf8ByteSize)

namespace Tree

theorem look_eq (tree : Tree) (place : Place) :
    tree.look place =
      if Place.isTooLong place then .error .tooLong else .ok (tree.node? place) := rfl

/-- Only the length of its last step keeps a place from being looked at. -/
theorem eq_tooLong_of_look {tree : Tree} {place : Place} {fault : Fault}
    (h : tree.look place = .error fault) : fault = .tooLong := by
  rw [look_eq] at h
  split at h
  · exact (Except.error.inj h).symm
  · cases h

theorem look_eq_ok_iff {tree : Tree} {place : Place} {found : Option Node} :
    tree.look place = .ok found ↔ Place.isTooLong place = false ∧ tree.node? place = found := by
  rw [look_eq]
  split
  next hlong => simp [hlong]
  next hshort => simp [hshort]

theorem node?_of_look {tree : Tree} {place : Place} {found : Option Node}
    (h : tree.look place = .ok found) : tree.node? place = found :=
  (look_eq_ok_iff.mp h).2

/-- Whether some names lead through directories from a place, or what is in the way. -/
def enter (tree : Tree) (place : Place) : List String → Except Fault Unit
  | [] => .ok ()
  | name :: rest =>
    match tree.look (place ++ [name]) with
    | .error fault => .error fault
    | .ok none => .error .missing
    | .ok (some (.file _)) => .error .notDirectory
    | .ok (some .directory) => enter tree (place ++ [name]) rest

theorem enter_append (tree : Tree) (place : Place) (first second : List String) :
    tree.enter place (first ++ second) =
      (tree.enter place first).bind fun _ => tree.enter (place ++ first) second := by
  induction first generalizing place with
  | nil => simp [enter, Except.bind]
  | cons name rest ih =>
    rw [List.cons_append, enter, enter]
    split
    · rfl
    · rfl
    · rfl
    · rw [ih, List.append_assoc]
      rfl

theorem enter_eq_ok_iff_directory {tree : Tree} {place : Place} {name : String} :
    tree.enter place [name] = .ok () ↔ tree.look (place ++ [name]) = .ok (some .directory) := by
  rw [enter]
  split
  next h => simp [h]
  next h => simp [h]
  next h => simp [h]
  next h => simp [h, enter]

/-- A way goes through directories only. -/
theorem node?_of_enter {tree : Tree} {names front : List String} {place : Place}
    (h : tree.enter place names = .ok ()) (hfront : front <+: names) (front_ne_nil : front ≠ []) :
    tree.node? (place ++ front) = some .directory := by
  induction names generalizing place front with
  | nil => exact absurd (List.prefix_nil.mp hfront) front_ne_nil
  | cons name rest ih =>
    obtain ⟨first, more, rfl⟩ := List.exists_cons_of_ne_nil front_ne_nil
    obtain ⟨rfl, hmore⟩ := List.cons_prefix_cons.mp hfront
    rw [enter] at h
    split at h
    · cases h
    · cases h
    · cases h
    next hlook =>
      cases more with
      | nil => exact node?_of_look hlook
      | cons next others =>
        have := ih h hmore (List.cons_ne_nil _ _)
        simpa using this

/-- Every place on an open way from the working directory is a directory. -/
theorem node?_of_enter_nil {tree : Tree} {names : List String} (h : tree.enter [] names = .ok ())
    {place : Place} (hplace : place <+: names) : tree.node? place = some .directory := by
  cases place with
  | nil => rfl
  | cons name rest => simpa using node?_of_enter h hplace (List.cons_ne_nil name rest)

/-- The way to a place looks at what stands on it. -/
theorem enter_congr {first second : Tree} {place : Place} {names : List String}
    (h : ∀ other, other <+: place ++ names → first.node? other = second.node? other) :
    first.enter place names = second.enter place names := by
  induction names generalizing place with
  | nil => rfl
  | cons name rest ih =>
    have hsplit : place ++ name :: rest = place ++ [name] ++ rest := by simp
    rw [hsplit] at h
    have hlook : first.look (place ++ [name]) = second.look (place ++ [name]) := by
      rw [look_eq, look_eq, h _ (List.prefix_append ..)]
    rw [enter, enter, hlook, ih h]

/-- Whether every directory of one tree is one of another. -/
def Keeps (before after : Tree) : Prop :=
  ∀ place, before.node? place = some .directory → after.node? place = some .directory

theorem Keeps.refl (tree : Tree) : tree.Keeps tree :=
  fun _ h => h

theorem Keeps.trans {first second third : Tree} (h : first.Keeps second)
    (h' : second.Keeps third) : first.Keeps third :=
  fun place hplace => h' place (h place hplace)

/-- A way that is open stays open while the directories stay. -/
theorem enter_of_keeps {before after : Tree} (hkeeps : before.Keeps after) {place : Place}
    {names : List String} (h : before.enter place names = .ok ()) :
    after.enter place names = .ok () := by
  induction names generalizing place with
  | nil => rfl
  | cons name rest ih =>
    rw [enter] at h ⊢
    split at h
    · cases h
    · cases h
    · cases h
    next hlook =>
      obtain ⟨hshort, hdirectory⟩ := look_eq_ok_iff.mp hlook
      have hafter : after.look (place ++ [name]) = .ok (some .directory) :=
        look_eq_ok_iff.mpr ⟨hshort, hkeeps _ hdirectory⟩
      rw [hafter]
      exact ih h

/-! ### Paths on a disk -/

/-- Where a path begins is always a directory, so the way from there is the whole way. -/
theorem enter_start (tree : Tree) (path : String) (names : List String) :
    tree.enter [] (start path ++ names) = tree.enter (start path) names := by
  unfold start
  split
  · have hroot : tree.look [systemRoot] = .ok (some .directory) := by
      rw [look_eq]
      rfl
    rw [List.singleton_append, enter, List.nil_append, hroot]
  · rfl

/-- Steps that go down lead to the place of their names, if the way is open. -/
theorem walk_eq (tree : Tree) (place : Place) {front : List String} (hleave : leave ∉ front)
    {name : String} (hname : IsStepName name) :
    tree.walk place (front ++ [name]) =
      (tree.enter place (front.filter fun step => step != stay)).map fun _ =>
        place ++ (front.filter fun step => step != stay) ++ [name] := by
  induction front generalizing place with
  | nil => simp [walk, enter, hname.ne_stay, hname.ne_leave, Except.map]
  | cons step rest ih =>
    have hstep : step ≠ leave := fun eq => hleave (eq ▸ List.mem_cons_self ..)
    have hrest : leave ∉ rest := fun mem => hleave (List.mem_cons_of_mem _ mem)
    rw [List.cons_append, walk]
    by_cases hstay : step = stay
    · simp [hstay, ih place hrest]
    · rw [if_neg hstay, if_neg hstep, if_neg (by simp), List.filter_cons_of_pos (by simpa), enter]
      cases tree.look (place ++ [step]) with
      | error fault => rfl
      | ok found =>
        match found with
        | none => rfl
        | some (.file _) => rfl
        | some .directory => simp [ih _ hrest]

section Names

variable {path : String} {above : List String} {name : String} (h : Names path above name)

include h

theorem isEmpty_of_names : path.isEmpty = false := by
  obtain ⟨front, hsteps, _⟩ := h.exists_steps
  rw [← Bool.not_eq_true, String.isEmpty_iff]
  rintro rfl
  have hnil : steps "" = [] := rfl
  rw [hnil] at hsteps
  exact absurd hsteps.symm (by simp)

theorem isFixed_of_names : Place.isFixed (above ++ [name]) = false :=
  Place.isFixed_append h.name above

/-- A path of names means their place, if the way to it is open. -/
theorem resolve_eq (tree : Tree) :
    tree.resolve path =
      match faultOfPath? path with
      | some fault => .error fault
      | none => (tree.enter [] above).map fun _ => above ++ [name] := by
  obtain ⟨front, hsteps, hleave, rfl⟩ := h.exists_steps
  unfold resolve
  rw [isEmpty_of_names h, hsteps, walk_eq tree (start path) hleave h.name, enter_start]
  cases faultOfPath? path with
  | none => simp
  | some fault => rfl

theorem find_eq (tree : Tree) :
    tree.find path =
      match faultOfPath? path with
      | some fault => .error fault
      | none =>
        match tree.enter [] above with
        | .error fault => .error fault
        | .ok () =>
          match tree.look (above ++ [name]) with
          | .error fault => .error fault
          | .ok none => .error .missing
          | .ok (some (.file content)) =>
            if wantsDirectory path then .error .notDirectory else .ok (.file content)
          | .ok (some .directory) => .ok .directory := by
  unfold find
  rw [resolve_eq h]
  cases faultOfPath? path with
  | some fault => rfl
  | none =>
    cases henter : tree.enter [] above with
    | error fault => rfl
    | ok opened =>
      simp only [Except.map, bind, Except.bind]
      cases tree.look (above ++ [name]) with
      | error fault => rfl
      | ok node? =>
        cases node? with
        | none => rfl
        | some node =>
          cases node with
          | file content => rfl
          | directory => rfl

/-- A directory stands at a path of names if they lead through directories all the way. -/
theorem standing?_eq_directory_iff (tree : Tree) :
    tree.standing? path = some .directory ↔
      faultOfPath? path = none ∧ tree.enter [] (above ++ [name]) = .ok () := by
  rw [standing?, find_eq h, enter_append, List.nil_append]
  cases faultOfPath? path with
  | some fault => simp [Except.toOption]
  | none =>
    cases henter : tree.enter [] above with
    | error fault => simp [Except.toOption, Except.bind]
    | ok opened =>
      simp only [Except.bind, enter_eq_ok_iff_directory, true_and]
      cases tree.look (above ++ [name]) with
      | error fault => simp [Except.toOption]
      | ok node? =>
        cases node? with
        | none => simp [Except.toOption]
        | some node =>
          cases node with
          | directory => simp [Except.toOption, Node.standing]
          | file content =>
            cases wantsDirectory path with
            | true => simp [Except.toOption]
            | false => simp [Except.toOption, Node.standing]

/-- A file of a given text stands at a path of names if the way is open and it stands at their
place. -/
theorem readText_eq_ok_iff (hfile : wantsDirectory path = false) (tree : Tree) (text : String) :
    tree.readText path = .ok text ↔
      faultOfPath? path = none ∧ tree.enter [] above = .ok () ∧
        tree.look (above ++ [name]) = .ok (some (.file (.text text))) := by
  rw [readText, find_eq h]
  cases faultOfPath? path with
  | some fault => simp [bind, Except.bind]
  | none =>
    cases henter : tree.enter [] above with
    | error fault => simp [bind, Except.bind]
    | ok opened =>
      cases tree.look (above ++ [name]) with
      | error fault => simp [bind, Except.bind]
      | ok node? =>
        cases node? with
        | none => simp [bind, Except.bind]
        | some node =>
          cases node with
          | directory => simp [bind, Except.bind]
          | file content =>
            cases content with
            | text held => simp [bind, Except.bind, hfile]
            | binary bytes => simp [bind, Except.bind, hfile]

/-- A text is written at the place of the names, if the way is open and no directory stands
there. -/
theorem writeText_eq (hfile : wantsDirectory path = false) (tree : Tree) (text : String) :
    tree.writeText path text =
      match faultOfPath? path with
      | some fault => .error fault
      | none =>
        match tree.enter [] above with
        | .error fault => .error fault
        | .ok () =>
          match tree.look (above ++ [name]) with
          | .error fault => .error fault
          | .ok (some .directory) => .error .isDirectory
          | .ok _ => .ok (tree.set (above ++ [name]) (.file (.text text))) := by
  unfold writeText
  rw [resolve_eq h, hfile]
  cases faultOfPath? path with
  | some fault => rfl
  | none =>
    cases henter : tree.enter [] above with
    | error fault => rfl
    | ok opened =>
      simp only [Except.map, bind, Except.bind]
      cases tree.look (above ++ [name]) with
      | error fault => rfl
      | ok node? =>
        cases node? with
        | none => rfl
        | some node =>
          cases node with
          | file content => rfl
          | directory => rfl

end Names

end Tree

end Scaffold.Disk
