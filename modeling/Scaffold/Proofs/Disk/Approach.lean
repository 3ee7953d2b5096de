import Scaffold.Proofs.Disk.TextFile

/-!
The way to several directories in one. On a disk where everything stands in a directory
(`Tree.IsRooted`), what making a directory does above it does not depend on which directory is
made: the way is opened as far as that can be done, and behind that only the directory itself
counts (`exists_settled`).
-/

namespace Scaffold.Disk.Tree

open Artifact (IsStepName)

/-! ### Rooted trees -/

/-- Whether everything in a tree stands in a directory, as on any disk. -/
def IsRooted (tree : Tree) : Prop :=
  ∀ place step, tree.node? (place ++ [step]) ≠ none → tree.node? place = some .directory

/-- A tree is rooted if what it lists is. -/
theorem isRooted_of_nodes {tree : Tree}
    (h : ∀ entry ∈ tree.nodes, tree.node? entry.1.dropLast = some .directory) :
    tree.IsRooted := by
  intro place step hnode
  by_cases hfixed : Place.isFixed (place ++ [step])
  · have hplace : place.isFixed = true := by
      simp only [Place.isFixed, Bool.or_eq_true, beq_iff_eq, List.all_append, Bool.and_eq_true]
        at hfixed ⊢
      rcases hfixed with hroot | ⟨hall, -⟩
      · have hnil : place = [] := by
          simpa using congrArg List.dropLast hroot
        simp [hnil]
      · exact Or.inr hall
    simp [node?, hplace]
  · simp only [node?, hfixed, Bool.false_eq_true, if_false] at hnode
    obtain ⟨node, hlookup⟩ := Option.ne_none_iff_exists'.mp hnode
    obtain ⟨before, after, hnodes, -⟩ := List.lookup_eq_some_iff.mp hlookup
    have hentry : (place ++ [step], node) ∈ tree.nodes := by simp [hnodes]
    simpa using h _ hentry

/-- What has something below it is a directory. -/
theorem IsRooted.node?_eq_directory {tree : Tree} (h : tree.IsRooted) {front rest : Place}
    (hrest : rest ≠ []) (hnode : tree.node? (front ++ rest) ≠ none) :
    tree.node? front = some .directory := by
  induction rest using List.reverseRecOn with
  | nil => exact absurd rfl hrest
  | append_singleton before step ih =>
    rw [← List.append_assoc] at hnode
    have hbefore := h _ _ hnode
    by_cases hnil : before = []
    · simpa [hnil] using hbefore
    · exact ih hnil (by simp [hbefore])

/-- Where something is missing on a way, there is a place on it where nothing stands. -/
theorem exists_none_of_enter {tree : Tree} {place : Place} {names : List String}
    (h : tree.enter place names = .error .missing) :
    ∃ front, front <+: names ∧ tree.node? (place ++ front) = none := by
  induction names generalizing place with
  | nil => cases h
  | cons name rest ih =>
    rw [enter] at h
    split at h
    next hlook =>
      obtain rfl := eq_tooLong_of_look hlook
      cases h
    next hlook => exact ⟨[name], by simp, node?_of_look hlook⟩
    · cases h
    · obtain ⟨front, hfront, hnone⟩ := ih h
      exact ⟨name :: front, List.cons_prefix_cons.mpr ⟨rfl, hfront⟩, by simpa using hnone⟩

/-- Nothing stands behind what is missing. -/
theorem IsRooted.node?_eq_none {tree : Tree} (h : tree.IsRooted) {names place : List String}
    (hmissing : tree.enter [] names = .error .missing) (hplace : names <+: place) :
    tree.node? place = none := by
  obtain ⟨front, hfront, hnone⟩ := exists_none_of_enter hmissing
  obtain ⟨rest, rfl⟩ := hfront.trans hplace
  rw [List.nil_append] at hnone
  by_contra hnode
  by_cases hrest : rest = []
  · exact hnode (by simpa [hrest] using hnone)
  · rw [h.node?_eq_directory hrest hnode] at hnone
    cases hnone

/-! ### The way to a directory -/

/-- An attempt does not find the way missing that leads to a directory. -/
theorem makeAt_ne_missing (tree : Tree) (place : Place) :
    (tree.makeAt place).2 ≠ .error .missing := by
  unfold makeAt
  split
  · simp
  · split
    next hlook => simp [eq_tooLong_of_look hlook]
    · simp
    · simp

/-- Where a directory has been made, the way to it is not missing. -/
theorem IsOpen.enter_ne_missing {tree : Tree} {place : Place} (h : tree.IsOpen place) :
    tree.enter [] place ≠ .error .missing := by
  obtain ⟨henter, hnode⟩ := h
  cases place using List.reverseRecOn with
  | nil => exact nofun
  | append_singleton front name =>
    rw [List.dropLast_concat] at henter
    rw [enter_append, henter, List.nil_append]
    by_cases hlong : Place.isTooLong (front ++ [name])
    · simp [enter, look_eq, hlong, Except.bind]
    · simp [enter, look_eq, hlong, hnode, Except.bind]

/-- Where nothing stands, a directory cannot be made for the reason that none can be entered. -/
theorem enter_of_makeAt {tree : Tree} {place : Place} {name : String}
    (hnone : tree.node? (place ++ [name]) = none) {fault : Fault}
    (hfails : (tree.makeAt (place ++ [name])).2 = .error fault) :
    fault ≠ .missing ∧ (tree.makeAt (place ++ [name])).1 = tree ∧
      tree.enter place [name] = .error fault := by
  have hne := makeAt_ne_missing tree (place ++ [name])
  rw [hfails] at hne
  unfold makeAt at hfails ⊢
  rw [hnone, if_neg nofun] at hfails ⊢
  rw [enter]
  split at hfails
  next hlook =>
    obtain rfl := Except.error.inj hfails
    simp [hlook] at hne ⊢
    exact hne
  · cases hfails
  next hlook =>
    rw [node?_of_look hlook] at hnone
    cases hnone

section

variable {path : String} {front : List String} (hfront : ∀ other ∈ front, IsStepName other)
  {name : String} (hname : IsStepName name)

include hfront hname

/-- Where nothing stands and the way is not missing, an attempt fails with what is in the way. -/
theorem enter_of_attemptDirectory {tree : Tree}
    (hnone : tree.node? (start path ++ front ++ [name]) = none)
    (hway : tree.enter [] (start path ++ front) ≠ .error .missing) {fault : Fault}
    (hfails : (tree.attemptDirectory (start path) (front ++ [name])).2 = .error fault) :
    fault ≠ .missing ∧ (tree.attemptDirectory (start path) (front ++ [name])).1 = tree ∧
      tree.enter [] (start path ++ front ++ [name]) = .error fault := by
  have hattempt := attemptDirectory_eq tree path (leave_notMem hfront) hname
  rw [filter_ne_stay hfront] at hattempt
  have hsplit := enter_append tree [] (start path ++ front) [name]
  rw [hattempt] at hfails ⊢
  rw [hsplit, List.nil_append]
  cases henter : tree.enter [] (start path ++ front) with
  | error other =>
    rw [henter] at hfails hway
    obtain rfl := Except.error.inj hfails
    exact ⟨fun eq => hway (congrArg Except.error eq), rfl, rfl⟩
  | ok opened =>
    rw [henter] at hfails
    exact enter_of_makeAt hnone hfails

end

/-- The directories above that are made on a way where one is missing: if that fails, it fails with
what is in the way then. -/
theorem enter_of_makeBackwards {path : String} {names : List String}
    (hnames : ∀ name ∈ names, IsStepName name) {tree : Tree} (hrooted : tree.IsRooted)
    (hmissing : tree.enter [] (start path ++ names) = .error .missing) {fault : Fault}
    (hfails : (tree.makeBackwards (start path) names.reverse).2 = .error fault) :
    fault ≠ .missing ∧
      (tree.makeBackwards (start path) names.reverse).1.enter [] (start path ++ names) =
        .error fault := by
  induction names using List.reverseRecOn with
  | nil => cases hfails
  | append_singleton front name ih =>
    have hname := hnames name (by simp)
    have hfront : ∀ other ∈ front, IsStepName other :=
      fun other mem => hnames other (List.mem_append_left _ mem)
    have hmakes := makeBackwards_makes path hfront
    have hnone := hrooted.node?_eq_none hmissing (List.prefix_refl _)
    rw [makeBackwards_append, makeAfter_eq] at hfails ⊢
    rw [← List.append_assoc] at hnone ⊢
    by_cases hway : tree.enter [] (start path ++ front) = .error .missing
    · have hattempt := attemptDirectory_eq tree path (leave_notMem hfront) hname
      rw [filter_ne_stay hfront, hway] at hattempt
      rw [if_pos (congrArg Prod.snd hattempt)] at hfails ⊢
      by_cases habove : (tree.makeBackwards (start path) front.reverse).2 = .ok ()
      · -- The directories above are made, and the attempt is made again where they stand.
        have hopen := hmakes.opens tree habove
        have hstill : (tree.makeBackwards (start path) front.reverse).1.node?
            (start path ++ front ++ [name]) = none := by
          rcases hmakes.adds tree (start path ++ front ++ [name]) with hsame | ⟨-, -, hprefix⟩
          · rw [hsame, hnone]
          · exact absurd hprefix.length_le (by simp)
        rw [if_pos habove] at hfails ⊢
        obtain ⟨hne, htree, henter⟩ :=
          enter_of_attemptDirectory hfront hname hstill hopen.enter_ne_missing hfails
        rw [htree]
        exact ⟨hne, henter⟩
      · rw [if_neg habove] at hfails ⊢
        obtain ⟨hne, henter⟩ := ih hfront hway hfails
        rw [enter_append, henter]
        exact ⟨hne, rfl⟩
    · -- Nothing is missing above, so what fails is the first attempt.
      have hattempt : (tree.attemptDirectory (start path) (front ++ [name])).2 ≠ .error .missing :=
        fun eq => (enter_of_attemptDirectory hfront hname hnone hway eq).1 rfl
      rw [if_neg hattempt] at hfails ⊢
      obtain ⟨hne, htree, henter⟩ := enter_of_attemptDirectory hfront hname hnone hway hfails
      rw [htree]
      exact ⟨hne, henter⟩

/-! ### Directories in one directory -/

section

variable {root : String} (hroot : IsOrdinary root)

include hroot

/-- An attempt to make a directory in a directory. -/
theorem attemptDirectory_steps {name : String} (hname : IsStepName name) (tree : Tree) :
    tree.attemptDirectory (start root) (steps root ++ [name]) =
      match tree.enter [] (placeOf root) with
      | .error fault => (tree, .error fault)
      | .ok () => tree.makeAt (placeOf root ++ [name]) :=
  attemptDirectory_eq tree root hroot hname

theorem attemptDirectory_ne_missing {name : String} (hname : IsStepName name) {tree : Tree}
    (hway : tree.enter [] (placeOf root) ≠ .error .missing) :
    (tree.attemptDirectory (start root) (steps root ++ [name])).2 ≠ .error .missing := by
  rw [attemptDirectory_steps hroot hname]
  split
  next fault henter => exact fun heq => hway (henter.trans heq)
  next => exact makeAt_ne_missing _ _

omit hroot in
/-- Making a directory in a directory. -/
theorem makeDirectories_join {name : String} (hname : IsStepName name)
    (hfault : faultOfPath? (join root name) = none) (tree : Tree) :
    tree.makeDirectories (join root name) =
      tree.makeAfter
        (fun tree => tree.makeBackwards (start root)
          ((steps root).filter fun step => step != stay).reverse)
        (start root) (steps root ++ [name]) := by
  have hsteps : steps (join root name) = steps root ++ [name] := by
    rw [steps_join, steps_of_isStepName hname]
  have hstart : start (join root name) = start root := by
    rw [start, start, isAbsolute_join hname]
  rw [makeDirectories_eq hsteps hname, hfault, hstart]

/-- Where the way is not missing, that takes one attempt. -/
theorem makeDirectories_of_way {name : String} (hname : IsStepName name)
    (hfault : faultOfPath? (join root name) = none) {tree : Tree}
    (hway : tree.enter [] (placeOf root) ≠ .error .missing) :
    tree.makeDirectories (join root name) =
      tree.attemptDirectory (start root) (steps root ++ [name]) := by
  rw [makeDirectories_join hname hfault, makeAfter_eq,
    if_neg (attemptDirectory_ne_missing hroot hname hway)]

/-- What making a directory does above it does not depend on which directory is made: there is a
tree with the way opened as far as that can be done, from which each is made as it is. -/
theorem exists_settled {tree : Tree} (hrooted : tree.IsRooted) :
    ∃ settled : Tree, settled.enter [] (placeOf root) ≠ .error .missing ∧
      ∀ name, IsStepName name → faultOfPath? (join root name) = none →
        tree.makeDirectories (join root name) = settled.makeDirectories (join root name) := by
  by_cases hmissing : tree.enter [] (placeOf root) = .error .missing
  · have hnames := isStepName_of_mem_filter (List.Subset.refl (steps root)) hroot
    have hopens := (makeBackwards_makes root hnames).opens tree
    have hfails := @enter_of_makeBackwards root _ hnames tree hrooted hmissing
    have hmakes : ∀ name, IsStepName name → faultOfPath? (join root name) = none →
        tree.makeDirectories (join root name) =
          let above := tree.makeBackwards (start root)
            ((steps root).filter fun step => step != stay).reverse
          if above.2 = .ok () then above.1.attemptDirectory (start root) (steps root ++ [name])
          else above := by
      intro name hname hfault
      have hattempt := attemptDirectory_steps hroot hname tree
      rw [hmissing] at hattempt
      rw [makeDirectories_join hname hfault, makeAfter_eq, if_pos (congrArg Prod.snd hattempt)]
    generalize tree.makeBackwards (start root)
      ((steps root).filter fun step => step != stay).reverse = above at hopens hfails hmakes
    obtain ⟨made, result⟩ := above
    have hway : made.enter [] (placeOf root) ≠ .error .missing := by
      cases result with
      | ok done => exact (hopens rfl).enter_ne_missing
      | error fault =>
        obtain ⟨hne, henter⟩ := hfails rfl
        exact fun heq => hne (Except.error.inj (henter.symm.trans heq))
    refine ⟨made, hway, fun name hname hfault => ?_⟩
    rw [hmakes name hname hfault, makeDirectories_of_way hroot hname hfault hway]
    cases result with
    | ok done => rfl
    | error fault =>
      have henter : made.enter [] (placeOf root) = .error fault := (hfails rfl).2
      have hattempt := attemptDirectory_steps hroot hname made
      rw [henter] at hattempt
      exact hattempt.symm
  · exact ⟨tree, hmissing, fun _ _ _ => rfl⟩

end

end Scaffold.Disk.Tree
