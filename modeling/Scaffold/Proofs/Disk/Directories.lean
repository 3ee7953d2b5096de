import Mathlib.Data.List.Induction
import Scaffold.Proofs.Disk.Route

/-!
Making a directory and those above it. Whatever stands on the disk, nothing is taken away or
changed: directories are added where nothing stood, on the way to the one that is made. If it
succeeds, the way is open. And what it does is decided by what stands on the way
(`MakesDirectory`, `makeDirectories_makes`).
-/

namespace Scaffold.Disk.Tree

open Artifact (IsStepName)

/-! ### Added directories -/

/-- A tree and the same tree with some directories added where nothing stood, all of them on the
way to a place. -/
def Adds (before : Tree) (place : Place) (after : Tree) : Prop :=
  ∀ other, after.node? other = before.node? other ∨
    before.node? other = none ∧ after.node? other = some .directory ∧ other <+: place

theorem Adds.refl (tree : Tree) (place : Place) : tree.Adds place tree :=
  fun _ => Or.inl rfl

theorem Adds.trans {first second third : Tree} {place : Place} (h : first.Adds place second)
    (h' : second.Adds place third) : first.Adds place third := by
  intro other
  rcases h' other with hsame | ⟨hnone, hdirectory, hway⟩
  · rw [hsame]
    exact h other
  · rcases h other with hsame | ⟨-, hadded, -⟩
    · exact Or.inr ⟨hsame ▸ hnone, hdirectory, hway⟩
    · rw [hnone] at hadded
      cases hadded

theorem Adds.mono {before after : Tree} {place longer : Place} (h : before.Adds place after)
    (hplace : place <+: longer) : before.Adds longer after :=
  fun other => (h other).imp_right fun added => ⟨added.1, added.2.1, added.2.2.trans hplace⟩

theorem Adds.keeps {before after : Tree} {place : Place} (h : before.Adds place after) :
    before.Keeps after := by
  intro other hother
  rcases h other with hsame | ⟨hnone, -, -⟩
  · rw [hsame, hother]
  · rw [hother] at hnone
    cases hnone

theorem adds_set {tree : Tree} {place : Place} (free : place.isFixed = false)
    (hnone : tree.node? place = none) : tree.Adds place (tree.set place .directory) := by
  intro other
  rw [node?_set tree free]
  split
  next heq => exact Or.inr ⟨heq ▸ hnone, rfl, heq ▸ List.prefix_refl _⟩
  next => exact Or.inl rfl

/-! ### The contract -/

/-- Whether a place is a directory and the way to it goes through directories. -/
def IsOpen (tree : Tree) (place : Place) : Prop :=
  tree.enter [] place.dropLast = .ok () ∧ tree.node? place = some .directory

/-- Whether two trees have the same on the way to a place. -/
def AgreeUpTo (place : Place) (first second : Tree) : Prop :=
  ∀ other, other <+: place → first.node? other = second.node? other

theorem AgreeUpTo.mono {place longer : Place} {first second : Tree}
    (h : AgreeUpTo longer first second) (hplace : place <+: longer) :
    AgreeUpTo place first second :=
  fun other hother => h other (hother.trans hplace)

/-- What it is to make the directory at a place. -/
structure MakesDirectory (place : Place) (make : Tree → Tree × Except Fault Unit) : Prop where
  /-- Directories are added, and nothing else changes. -/
  adds : ∀ tree : Tree, tree.Adds place (make tree).1
  /-- Success leaves the place open. -/
  opens : ∀ tree : Tree, (make tree).2 = .ok () → (make tree).1.IsOpen place
  /-- On trees that have the same on the way, the outcome is the same, and wherever the trees had
  the same they have the same again. -/
  reads : ∀ first second : Tree, AgreeUpTo place first second →
    (make first).2 = (make second).2 ∧
      ∀ other, first.node? other = second.node? other →
        (make first).1.node? other = (make second).1.node? other

/-- A directory that is there already needs nothing. -/
theorem makesDirectory_start (path : String) :
    MakesDirectory (start path) fun tree => (tree, .ok ()) where
  adds tree := Adds.refl tree _
  opens _ _ := by
    unfold start
    split
    · exact ⟨rfl, rfl⟩
    · exact ⟨rfl, rfl⟩
  reads _ _ _ := ⟨rfl, fun _ h => h⟩

/-- A refusal keeps the contract. -/
theorem makesDirectory_error (place : Place) (fault : Fault) :
    MakesDirectory place fun tree => (tree, .error fault) where
  adds tree := Adds.refl tree place
  opens _ h := by cases h
  reads _ _ _ := ⟨rfl, fun _ h => h⟩

/-! ### One attempt -/

/-- The tree with a directory at a place, if one is there or nothing is. -/
def makeAt (tree : Tree) (place : Place) : Tree × Except Fault Unit :=
  if tree.node? place = some .directory then (tree, .ok ())
  else
    match tree.look place with
    | .error fault => (tree, .error fault)
    | .ok none => (tree.set place .directory, .ok ())
    | .ok (some _) => (tree, .error .exists)

/-- An attempt looks at the way, and then at the place itself. -/
theorem attemptDirectory_eq (tree : Tree) (path : String) {front : List String}
    (hleave : leave ∉ front) {name : String} (hname : IsStepName name) :
    tree.attemptDirectory (start path) (front ++ [name]) =
      match tree.enter [] (start path ++ front.filter fun step => step != stay) with
      | .error fault => (tree, .error fault)
      | .ok () =>
        tree.makeAt (start path ++ (front.filter fun step => step != stay) ++ [name]) := by
  unfold attemptDirectory makeDirectory leadsToDirectory
  rw [walk_eq tree (start path) hleave hname, enter_start]
  cases tree.enter (start path) (front.filter fun step => step != stay) with
  | error fault => simp [Except.map, bind, Except.bind]
  | ok opened =>
    simp only [Except.map, bind, Except.bind, makeAt]
    generalize start path ++ (front.filter fun step => step != stay) ++ [name] = target
    cases hlook : tree.look target with
    | error fault => simp
    | ok found =>
      have hnode := node?_of_look hlook
      cases found with
      | none => simp [hnode]
      | some node => simp

theorem makeAt_adds (tree : Tree) {place : Place} (free : place.isFixed = false) :
    tree.Adds place (tree.makeAt place).1 := by
  unfold makeAt
  split
  · exact Adds.refl tree place
  · split
    · exact Adds.refl tree place
    next hlook => exact adds_set free (node?_of_look hlook)
    · exact Adds.refl tree place

theorem node?_makeAt {tree : Tree} {place : Place} (free : place.isFixed = false)
    (h : (tree.makeAt place).2 = .ok ()) :
    (tree.makeAt place).1.node? place = some .directory := by
  unfold makeAt at h ⊢
  split
  next hdirectory => exact hdirectory
  next hother =>
    rw [if_neg hother] at h
    split at h
    · cases h
    · simp [node?_set tree free]
    · cases h

theorem makeAt_congr {first second : Tree} {place : Place} (free : place.isFixed = false)
    (h : first.node? place = second.node? place) :
    (first.makeAt place).2 = (second.makeAt place).2 ∧
      ∀ other, first.node? other = second.node? other →
        (first.makeAt place).1.node? other = (second.makeAt place).1.node? other := by
  unfold makeAt
  rw [look_eq, look_eq, h]
  split
  · exact ⟨rfl, fun _ hother => hother⟩
  · split
    · exact ⟨rfl, fun _ hother => hother⟩
    · refine ⟨rfl, fun other hother => ?_⟩
      rw [node?_set first free, node?_set second free, hother]
    · exact ⟨rfl, fun _ hother => hother⟩

/-- One attempt makes the directory if the way to it is open. -/
theorem attemptDirectory_makes (path : String) {front : List String} (hleave : leave ∉ front)
    {name : String} (hname : IsStepName name) :
    MakesDirectory (start path ++ (front.filter fun step => step != stay) ++ [name]) fun tree =>
      tree.attemptDirectory (start path) (front ++ [name]) := by
  have free := Place.isFixed_append hname (start path ++ front.filter fun step => step != stay)
  have hattempt (tree : Tree) := attemptDirectory_eq tree path hleave hname
  constructor
  · intro tree
    rw [hattempt]
    split
    · exact Adds.refl tree _
    · exact makeAt_adds tree free
  · intro tree h
    rw [hattempt] at h ⊢
    split at h
    · cases h
    next hopen =>
      refine ⟨?_, node?_makeAt free h⟩
      rw [List.dropLast_concat]
      exact enter_of_keeps (makeAt_adds tree free).keeps hopen
  · intro first second hagree
    have henter : first.enter [] (start path ++ front.filter fun step => step != stay) =
        second.enter [] (start path ++ front.filter fun step => step != stay) :=
      enter_congr (hagree.mono (List.prefix_append ..))
    rw [hattempt, hattempt, henter]
    split
    · exact ⟨rfl, fun _ hother => hother⟩
    · exact makeAt_congr free (hagree _ (List.prefix_refl _))

/-! ### The directories above -/

/-- Where something above is missing, that is made first; otherwise one attempt decides. -/
theorem makeAfter_eq (tree : Tree) (makeAbove : Tree → Tree × Except Fault Unit) (place : Place)
    (path : List String) :
    tree.makeAfter makeAbove place path =
      if (tree.attemptDirectory place path).2 = .error .missing then
        if (makeAbove tree).2 = .ok () then (makeAbove tree).1.attemptDirectory place path
        else makeAbove tree
      else tree.attemptDirectory place path := by
  unfold makeAfter
  generalize tree.attemptDirectory place path = attempt
  generalize makeAbove tree = above
  obtain ⟨attempted, result⟩ := attempt
  obtain ⟨made, outcome⟩ := above
  split
  next heq =>
    obtain ⟨-, rfl⟩ := Prod.mk.inj heq
    cases outcome with
    | error fault => simp
    | ok done => simp
  next hother =>
    have hresult : result ≠ .error .missing := fun eq => hother attempted (by rw [eq])
    rw [if_neg hresult]

/-- Making what is missing above first is making the directory as well. -/
theorem makeAfter_makes {path : String} {front : List String} (hleave : leave ∉ front)
    {name : String} (hname : IsStepName name) {makeAbove : Tree → Tree × Except Fault Unit}
    (h : MakesDirectory (start path ++ front.filter fun step => step != stay) makeAbove) :
    MakesDirectory (start path ++ (front.filter fun step => step != stay) ++ [name]) fun tree =>
      tree.makeAfter makeAbove (start path) (front ++ [name]) := by
  have hattempt := attemptDirectory_makes path hleave hname
  have hway := List.prefix_append (start path ++ front.filter fun step => step != stay) [name]
  constructor
  · intro tree
    rw [makeAfter_eq]
    split
    · have habove := (h.adds tree).mono hway
      split
      · exact habove.trans (hattempt.adds _)
      · exact habove
    · exact hattempt.adds tree
  · intro tree hok
    rw [makeAfter_eq] at hok ⊢
    split at hok
    next hmissing =>
      rw [if_pos hmissing]
      split at hok
      next habove =>
        rw [if_pos habove]
        exact hattempt.opens _ hok
      next habove => exact absurd hok habove
    next hmissing =>
      rw [if_neg hmissing]
      exact hattempt.opens tree hok
  · intro first second hagree
    obtain ⟨hresult, hnodes⟩ := hattempt.reads first second hagree
    obtain ⟨habove, hmade⟩ := h.reads first second (hagree.mono hway)
    rw [makeAfter_eq, makeAfter_eq, hresult, habove]
    split
    · split
      · obtain ⟨hsecond, hlast⟩ := hattempt.reads _ _ fun other hother =>
          hmade other (hagree other hother)
        exact ⟨hsecond, fun other hother => hlast other (hmade other hother)⟩
      · exact ⟨habove, hmade⟩
    · exact ⟨hresult, hnodes⟩

theorem filter_ne_stay {names : List String} (h : ∀ name ∈ names, IsStepName name) :
    (names.filter fun step => step != stay) = names :=
  List.filter_eq_self.mpr fun name hname => by simpa using (h name hname).ne_stay

theorem leave_notMem {names : List String} (h : ∀ name ∈ names, IsStepName name) :
    leave ∉ names :=
  fun mem => (h leave mem).ne_leave rfl

/-- The last of the directories above is made behind those above it. -/
theorem makeBackwards_append (tree : Tree) (place : Place) (front : List String) (name : String) :
    tree.makeBackwards place (front ++ [name]).reverse =
      tree.makeAfter (fun tree => tree.makeBackwards place front.reverse) place
        (front ++ [name]) := by
  rw [List.reverse_append, List.reverse_singleton, List.singleton_append, makeBackwards,
    List.reverse_cons, List.reverse_reverse]

/-- The directories above are made from the first missing one downwards. -/
theorem makeBackwards_makes (path : String) {names : List String}
    (h : ∀ name ∈ names, IsStepName name) :
    MakesDirectory (start path ++ names) fun tree =>
      tree.makeBackwards (start path) names.reverse := by
  induction names using List.reverseRecOn with
  | nil =>
    rw [List.append_nil]
    exact makesDirectory_start path
  | append_singleton front name ih =>
    have hfront : ∀ other ∈ front, IsStepName other :=
      fun other mem => h other (List.mem_append_left _ mem)
    have habove : MakesDirectory (start path ++ front.filter fun step => step != stay)
        fun tree => tree.makeBackwards (start path) front.reverse := by
      rw [filter_ne_stay hfront]
      exact ih hfront
    have hmakes := makeAfter_makes (leave_notMem hfront) (h name (by simp)) habove
    rw [filter_ne_stay hfront, List.append_assoc] at hmakes
    simpa only [makeBackwards_append] using hmakes

theorem makeDirectories_eq {path : String} {front : List String} {name : String}
    (hsteps : steps path = front ++ [name]) (hname : IsStepName name) (tree : Tree) :
    tree.makeDirectories path =
      match faultOfPath? path with
      | some fault => (tree, .error fault)
      | none =>
        tree.makeAfter
          (fun tree => tree.makeBackwards (start path)
            (front.filter fun step => step != stay).reverse)
          (start path) (front ++ [name]) := by
  have habove : ((steps path).filter fun step => step != stay).dropLast =
      front.filter fun step => step != stay := by
    simp [hsteps, List.filter_append, hname.ne_stay]
  rw [← habove, ← hsteps]
  rfl

theorem faultOfPath?_of_makeDirectories {tree : Tree} {path : String}
    (hok : (tree.makeDirectories path).2 = .ok ()) : faultOfPath? path = none := by
  unfold makeDirectories at hok
  cases hfault : faultOfPath? path with
  | none => rfl
  | some fault => simp [hfault] at hok

section Names

variable {path : String} {above : Place} {name : String} (h : Names path above name)

include h

/-- Making the directory at a path of names makes it at their place. -/
theorem makeDirectories_makes :
    MakesDirectory (above ++ [name]) fun tree => tree.makeDirectories path := by
  obtain ⟨front, hsteps, hleave, rfl⟩ := h.exists_steps
  have hfront : front ⊆ steps path := hsteps ▸ List.subset_append_left ..
  have habove := makeBackwards_makes path (isStepName_of_mem_filter hfront hleave)
  simp only [makeDirectories_eq hsteps h.name]
  cases faultOfPath? path with
  | some fault => exact makesDirectory_error _ fault
  | none => exact makeAfter_makes hleave h.name habove

/-- Where a directory has been made, it can be found if its name is not too long. -/
theorem standing?_of_makeDirectories (hshort : Place.isTooLong (above ++ [name]) = false)
    {tree : Tree} (hok : (tree.makeDirectories path).2 = .ok ()) :
    (tree.makeDirectories path).1.standing? path = some .directory := by
  have hfault := faultOfPath?_of_makeDirectories hok
  obtain ⟨henter, hnode⟩ := (makeDirectories_makes h).opens tree hok
  rw [List.dropLast_concat] at henter
  refine (standing?_eq_directory_iff h _).mpr ⟨hfault, ?_⟩
  rw [enter_append, henter]
  exact enter_eq_ok_iff_directory.mpr (look_eq_ok_iff.mpr ⟨hshort, hnode⟩)

/-- A directory that can be found is left alone. -/
theorem makeDirectories_of_standing {tree : Tree}
    (hstanding : tree.standing? path = some .directory) :
    tree.makeDirectories path = (tree, .ok ()) := by
  obtain ⟨hfault, henter⟩ := (standing?_eq_directory_iff h tree).mp hstanding
  have hnode := node?_of_enter_nil henter (List.prefix_refl _)
  obtain ⟨front, hsteps, hleave, rfl⟩ := h.exists_steps
  rw [enter_append] at henter
  cases hway : tree.enter [] (start path ++ front.filter fun step => step != stay) with
  | error fault => simp [hway, Except.bind] at henter
  | ok opened =>
    have hattempt : tree.attemptDirectory (start path) (front ++ [name]) = (tree, .ok ()) := by
      rw [attemptDirectory_eq tree path hleave h.name, hway]
      simp only [makeAt, if_pos hnode]
    rw [makeDirectories_eq hsteps h.name, hfault]
    simp only [makeAfter_eq, hattempt]
    rfl

end Names

end Scaffold.Disk.Tree
