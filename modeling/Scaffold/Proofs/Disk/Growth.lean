import Scaffold.Proofs.Disk.TextFile

/-!
Paths of all kinds on a disk that grows. What a path means is decided by the directories that it
goes through, down or back, so it means the same as long as directories stay (`resolve_of_keeps`).
Making a directory adds directories that first parts of its path lead to, and does nothing else
(`addsAlong_makeDirectories`). Writing a text sets it at the place that the path means
(`writeText_eq_ok_iff`), where it is read again (`readText_eq_ok_iff_of_resolve`).
-/

namespace Scaffold.Disk

/-! ### Walks -/

/-- Where one step leads from a place. -/
def Place.next (place : Place) (step : String) : Place :=
  if step = stay then place else if step = leave then place.outer else place ++ [step]

theorem Place.next_eq_append {step : String} (hstay : step ≠ stay) (hleave : step ≠ leave)
    (place : Place) : place.next step = place ++ [step] := by
  rw [next, if_neg hstay, if_neg hleave]

/-- The steps of a path that lead elsewhere. -/
def moves (path : String) : List String :=
  (steps path).filter fun step => step != stay

namespace Tree

/-- A walk goes on from where its first step leads. A name has to be that of a directory, unless it
is the end. -/
theorem walk_cons_eq_ok_iff {tree : Tree} {place target : Place} {step : String}
    {rest : List String} :
    tree.walk place (step :: rest) = .ok target ↔
      (step ≠ stay → step ≠ leave → rest ≠ [] →
        tree.look (place ++ [step]) = .ok (some .directory)) ∧
      tree.walk (place.next step) rest = .ok target := by
  rw [walk, Place.next]
  by_cases hstay : step = stay
  · simp [hstay]
  · by_cases hleave : step = leave
    · rw [if_neg hstay, if_neg hstay, if_pos hleave, if_pos hleave]
      simp [hleave]
    · simp only [hstay, hleave, if_false, ne_eq, not_false_eq_true, forall_const]
      cases rest with
      | nil => simp [walk]
      | cons other more =>
        simp only [List.isEmpty_cons, Bool.false_eq_true, if_false, reduceCtorEq,
          not_false_eq_true, forall_const]
        split
        next hlook => simp [hlook]
        next hlook => simp [hlook]
        next hlook => simp [hlook]
        next hlook => simp [hlook]

/-- What a path means stays the same while the directories stay. -/
theorem walk_of_keeps {before after : Tree} (hkeeps : before.Keeps after) {place target : Place}
    {path : List String} (h : before.walk place path = .ok target) :
    after.walk place path = .ok target := by
  induction path generalizing place with
  | nil => exact h
  | cons step rest ih =>
    obtain ⟨hdirectory, hrest⟩ := walk_cons_eq_ok_iff.mp h
    refine walk_cons_eq_ok_iff.mpr ⟨fun hstay hleave hmore => ?_, ih hrest⟩
    obtain ⟨hshort, hnode⟩ := look_eq_ok_iff.mp (hdirectory hstay hleave hmore)
    exact look_eq_ok_iff.mpr ⟨hshort, hkeeps _ hnode⟩

theorem resolve_eq_ok_iff {tree : Tree} {path : String} {place : Place} :
    tree.resolve path = .ok place ↔
      faultOfPath? path = none ∧ path.isEmpty = false ∧
        tree.walk (start path) (steps path) = .ok place := by
  unfold resolve
  cases faultOfPath? path with
  | some fault => simp
  | none =>
    cases path.isEmpty with
    | true => simp
    | false => simp

theorem resolve_of_keeps {before after : Tree} (hkeeps : before.Keeps after) {path : String}
    {place : Place} (h : before.resolve path = .ok place) : after.resolve path = .ok place := by
  obtain ⟨hfault, hempty, hwalk⟩ := resolve_eq_ok_iff.mp h
  exact resolve_eq_ok_iff.mpr ⟨hfault, hempty, walk_of_keeps hkeeps hwalk⟩

/-- Steps that stay lead nowhere else. -/
theorem walk_filter {tree : Tree} {place target : Place} {path : List String}
    (h : tree.walk place path = .ok target) :
    tree.walk place (path.filter fun step => step != stay) = .ok target := by
  induction path generalizing place with
  | nil => exact h
  | cons step rest ih =>
    obtain ⟨hdirectory, hrest⟩ := walk_cons_eq_ok_iff.mp h
    by_cases hstay : step = stay
    · subst hstay
      simpa [Place.next] using ih hrest
    · rw [List.filter_cons_of_pos (by simpa using hstay)]
      refine walk_cons_eq_ok_iff.mpr ⟨fun _ hleave hmore => ?_, ih hrest⟩
      refine hdirectory hstay hleave ?_
      rintro rfl
      exact hmore rfl

/-- A walk goes through the place that a first part of its steps leads to. -/
theorem exists_walk_append {tree : Tree} {place target : Place} {front back : List String}
    (h : tree.walk place (front ++ back) = .ok target) :
    ∃ middle, tree.walk place front = .ok middle ∧ tree.walk middle back = .ok target := by
  induction front generalizing place with
  | nil => exact ⟨place, rfl, h⟩
  | cons step rest ih =>
    obtain ⟨hdirectory, hrest⟩ := walk_cons_eq_ok_iff.mp h
    obtain ⟨middle, hfront, hback⟩ := ih hrest
    refine ⟨middle, walk_cons_eq_ok_iff.mpr ⟨fun hstay hleave hmore => ?_, hfront⟩, hback⟩
    exact hdirectory hstay hleave (List.append_ne_nil_of_left_ne_nil hmore back)

/-- Steps that go down lead to a place below. -/
theorem walk_eq_append {tree : Tree} {place target : Place} {path : List String}
    (hleave : leave ∉ path) (h : tree.walk place path = .ok target) :
    target = place ++ path.filter fun step => step != stay := by
  induction path generalizing place with
  | nil => simpa [walk, eq_comm] using h
  | cons step rest ih =>
    have hstep : step ≠ leave := fun eq => hleave (eq ▸ List.mem_cons_self ..)
    have hbelow := ih (fun mem => hleave (List.mem_cons_of_mem _ mem))
      (walk_cons_eq_ok_iff.mp h).2
    by_cases hstay : step = stay
    · simpa [hstay, Place.next] using hbelow
    · rw [Place.next_eq_append hstay hstep] at hbelow
      rw [List.filter_cons_of_pos (by simpa using hstay)]
      simpa using hbelow

/-! ### Directories along a path -/

/-- Whether a first part of a path leads to a place. -/
def OnWay (tree : Tree) (path : String) (place : Place) : Prop :=
  ∃ front, front <+: moves path ∧ tree.walk (start path) front = .ok place

theorem OnWay.of_keeps {before after : Tree} (hkeeps : before.Keeps after) {path : String}
    {place : Place} (h : before.OnWay path place) : after.OnWay path place := by
  obtain ⟨front, hfront, hwalk⟩ := h
  exact ⟨front, hfront, walk_of_keeps hkeeps hwalk⟩

/-- Whether a directory has been made at a place where nothing stood, on the way of one of some
paths. -/
def MadeAlong (before : Tree) (paths : List String) (after : Tree) (place : Place) : Prop :=
  before.node? place = none ∧ after.node? place = some .directory ∧
    ∃ path ∈ paths, after.OnWay path place

theorem MadeAlong.of_keeps {before made after : Tree} {paths : List String} {place : Place}
    (h : before.MadeAlong paths made place) (hkeeps : made.Keeps after) :
    before.MadeAlong paths after place := by
  obtain ⟨hnone, hdirectory, path, hpath, hway⟩ := h
  exact ⟨hnone, hkeeps _ hdirectory, path, hpath, hway.of_keeps hkeeps⟩

theorem MadeAlong.mono {before after : Tree} {paths more : List String} {place : Place}
    (h : before.MadeAlong paths after place) (hpaths : paths ⊆ more) :
    before.MadeAlong more after place := by
  obtain ⟨hnone, hdirectory, path, hpath, hway⟩ := h
  exact ⟨hnone, hdirectory, path, hpaths hpath, hway⟩

/-- A tree and the same tree with some directories made, each on the way of one of some paths. -/
def AddsAlong (before : Tree) (paths : List String) (after : Tree) : Prop :=
  ∀ place, after.node? place = before.node? place ∨ before.MadeAlong paths after place

theorem AddsAlong.refl (tree : Tree) (paths : List String) : tree.AddsAlong paths tree :=
  fun _ => Or.inl rfl

theorem AddsAlong.keeps {before after : Tree} {paths : List String}
    (h : before.AddsAlong paths after) : before.Keeps after := by
  intro place hplace
  rcases h place with hsame | ⟨hnone, -, -⟩
  · rw [hsame, hplace]
  · rw [hplace] at hnone
    cases hnone

theorem AddsAlong.mono {before after : Tree} {paths more : List String}
    (h : before.AddsAlong paths after) (hpaths : paths ⊆ more) : before.AddsAlong more after :=
  fun place => (h place).imp_right (·.mono hpaths)

theorem AddsAlong.trans {first second third : Tree} {paths : List String}
    (h : first.AddsAlong paths second) (h' : second.AddsAlong paths third) :
    first.AddsAlong paths third := by
  intro place
  rcases h' place with hsame | ⟨hnone, hdirectory, hway⟩
  · rw [hsame]
    exact (h place).imp_right (·.of_keeps h'.keeps)
  · rcases h place with hsame | ⟨-, hmade, -⟩
    · exact Or.inr ⟨hsame ▸ hnone, hdirectory, hway⟩
    · rw [hnone] at hmade
      cases hmade

/-- Where no directory stands, the place is not one of those that always are. -/
theorem isFixed_eq_false {tree : Tree} {place : Place}
    (h : tree.node? place ≠ some .directory) : place.isFixed = false := by
  cases hfixed : place.isFixed with
  | false => rfl
  | true => exact absurd (by simp [node?, hfixed]) h

/-- An attempt to make a directory changes nothing, or sets it where nothing stood. -/
theorem attemptDirectory_cases (tree : Tree) (place : Place) (path : List String) :
    (tree.attemptDirectory place path).1 = tree ∨
      ∃ target, tree.walk place path = .ok target ∧ tree.node? target = none ∧
        (tree.attemptDirectory place path).1 = tree.set target .directory := by
  unfold attemptDirectory makeDirectory
  cases hwalk : tree.walk place path with
  | error fault =>
    simp only [bind, Except.bind]
    split <;> exact Or.inl rfl
  | ok target =>
    simp only [bind, Except.bind]
    cases hlook : tree.look target with
    | error fault =>
      simp only
      split <;> exact Or.inl rfl
    | ok found =>
      cases found with
      | none => exact Or.inr ⟨target, rfl, node?_of_look hlook, rfl⟩
      | some node =>
        simp only
        split <;> exact Or.inl rfl

section

variable {path : String}

theorem addsAlong_attemptDirectory {names : List String}
    (hnames : (names.filter fun step => step != stay) <+: moves path) (tree : Tree) :
    tree.AddsAlong [path] (tree.attemptDirectory (start path) names).1 := by
  rcases attemptDirectory_cases tree (start path) names with hsame | ⟨target, hwalk, hnone, hset⟩
  · rw [hsame]
    exact AddsAlong.refl tree _
  · have hother : tree.node? target ≠ some .directory := by simp [hnone]
    have free := isFixed_eq_false hother
    rw [hset]
    intro place
    have hnode := node?_set tree free .directory place
    by_cases heq : place = target
    · subst heq
      rw [if_pos rfl] at hnode
      have hway := walk_of_keeps (keeps_set free .directory hother) (walk_filter hwalk)
      exact Or.inr ⟨hnone, hnode, path, List.mem_singleton_self _, _, hnames, hway⟩
    · rw [if_neg heq] at hnode
      exact Or.inl hnode

theorem addsAlong_makeAfter {names : List String}
    (hnames : (names.filter fun step => step != stay) <+: moves path)
    {makeAbove : Tree → Tree × Except Fault Unit}
    (habove : ∀ tree, AddsAlong tree [path] (makeAbove tree).1) (tree : Tree) :
    tree.AddsAlong [path] (tree.makeAfter makeAbove (start path) names).1 := by
  have hattempt := addsAlong_attemptDirectory hnames
  rw [makeAfter_eq]
  split
  · split
    · exact (habove tree).trans (hattempt _)
    · exact habove tree
  · exact hattempt tree

theorem addsAlong_makeBackwards {back : List String} (hback : back.reverse <+: moves path)
    (tree : Tree) : tree.AddsAlong [path] (tree.makeBackwards (start path) back).1 := by
  induction back generalizing tree with
  | nil => exact AddsAlong.refl tree _
  | cons last above ih =>
    have hmoves : ((last :: above).reverse.filter fun step => step != stay) =
        (last :: above).reverse :=
      List.filter_eq_self.mpr fun step hstep => (List.mem_filter.mp (hback.subset hstep)).2
    rw [makeBackwards]
    refine addsAlong_makeAfter (by rwa [hmoves]) (fun tree => ih ?_ tree) tree
    rw [List.reverse_cons] at hback
    exact (List.prefix_append ..).trans hback

end

/-- Making a directory adds directories on its way, and nothing else changes. -/
theorem addsAlong_makeDirectories (path : String) (tree : Tree) :
    tree.AddsAlong [path] (tree.makeDirectories path).1 := by
  unfold makeDirectories
  split
  · exact AddsAlong.refl tree _
  · refine addsAlong_makeAfter (List.prefix_refl _)
      (fun tree => addsAlong_makeBackwards ?_ tree) tree
    rw [List.reverse_reverse]
    exact List.dropLast_prefix _

/-! ### Texts at a place -/

/-- A text is written at the place that the path means, unless the path means a directory. -/
theorem writeText_eq_ok_iff {tree written : Tree} {path text : String} :
    tree.writeText path text = .ok written ↔
      ∃ place, tree.resolve path = .ok place ∧ wantsDirectory path = false ∧
        Place.isTooLong place = false ∧ tree.node? place ≠ some .directory ∧
        tree.set place (.file (.text text)) = written := by
  unfold writeText
  cases tree.resolve path with
  | error fault => simp [bind, Except.bind]
  | ok place =>
    cases hwants : wantsDirectory path with
    | true => simp [bind, Except.bind]
    | false =>
      simp only [bind, Except.bind, look_eq, Except.ok.injEq, exists_eq_left', true_and,
        Bool.false_eq_true, if_false]
      cases Place.isTooLong place with
      | true => simp
      | false =>
        cases tree.node? place with
        | none => simp
        | some node =>
          cases node with
          | file content => simp
          | directory => simp

/-- A text is read at the place that the path means. -/
theorem readText_eq_ok_iff_of_resolve {tree : Tree} {path text : String} {place : Place}
    (h : tree.resolve path = .ok place) (hwants : wantsDirectory path = false)
    (hshort : Place.isTooLong place = false) :
    tree.readText path = .ok text ↔ tree.node? place = some (.file (.text text)) := by
  unfold readText find
  rw [h]
  simp only [bind, Except.bind, look_eq, hshort, hwants, Bool.false_eq_true, if_false]
  cases tree.node? place with
  | none => simp
  | some node =>
    cases node with
    | directory => simp
    | file content =>
      cases content with
      | text held => simp
      | binary bytes => simp

/-- What the directories of a disk were stays so where a text is written. -/
theorem keeps_of_writeText {tree written : Tree} {path text : String}
    (h : tree.writeText path text = .ok written) : tree.Keeps written := by
  obtain ⟨place, -, -, -, hnode, rfl⟩ := writeText_eq_ok_iff.mp h
  exact keeps_set (isFixed_eq_false hnode) _ hnode

end Tree

end Scaffold.Disk
