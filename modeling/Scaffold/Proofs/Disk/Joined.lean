import Mathlib.Data.List.TakeWhile
import Scaffold.Proofs.Disk.Growth

/-!
What joined paths of all kinds mean. What is put before a path is put before its first step
(`steps_append`). A joined path leads on from where its first part leads
(`Tree.exists_resolve_of_join`), and a path from where its parent leads (`moves_parent_prefix`).
-/

namespace Scaffold.Disk

/-! ### Texts before a path -/

/-- The text of a path up to its first slash. -/
def firstSegment (path : String) : String :=
  (segments path).headD ""

/-- The steps of a path behind its first slash. -/
def laterSteps (path : String) : List String :=
  (segments path).tail.filter fun segment => !segment.isEmpty

theorem slash_notMem_firstSegment (path : String) : '/' ∉ (firstSegment path).toList := by
  obtain ⟨first, later, hsplit⟩ :=
    List.exists_cons_of_ne_nil (List.splitOn_ne_nil '/' path.toList)
  intro hmem
  rw [firstSegment, segments, hsplit, List.map_cons, List.headD_cons, String.toList_ofList] at hmem
  have hfirst : first ∈ path.toList.splitOn '/' := hsplit ▸ List.mem_cons_self ..
  simpa using (Text.mem_of_mem_splitOnP hfirst hmem).2

theorem laterSteps_subset (path : String) : laterSteps path ⊆ steps path := by
  intro step hstep
  obtain ⟨hmem, hempty⟩ := List.mem_filter.mp hstep
  exact List.mem_filter.mpr ⟨List.mem_of_mem_tail hmem, hempty⟩

theorem splitOn_append {name : List Char} (h : '/' ∉ name) (path : List Char) :
    (name ++ path).splitOn '/' = (path.splitOn '/').modifyHead (name ++ ·) := by
  induction name with
  | nil =>
    have hid : (fun text : List Char => [] ++ text) = id := rfl
    rw [List.nil_append, hid, List.modifyHead_id]
    rfl
  | cons c rest ih =>
    obtain ⟨hc, hrest⟩ := List.ne_and_not_mem_of_not_mem_cons h
    have hdiffers : ¬ (c == '/') = true := by simpa using hc.symm
    rw [List.cons_append, List.splitOn_cons_eq_if_modifyHead, if_neg hdiffers, ih hrest,
      List.modifyHead_modifyHead]
    rfl

/-- What is put before a path is put before its first step. -/
theorem steps_append {name : String} (hne : name.toList ≠ []) (h : '/' ∉ name.toList)
    (path : String) : steps (name ++ path) = (name ++ firstSegment path) :: laterSteps path := by
  obtain ⟨first, later, hsplit⟩ :=
    List.exists_cons_of_ne_nil (List.splitOn_ne_nil '/' path.toList)
  have hfirst : (name ++ String.ofList first).isEmpty = false := by
    rw [← Bool.not_eq_true, String.isEmpty_iff]
    intro hempty
    have hnil := congrArg String.toList hempty
    rw [String.toList_append] at hnil
    exact hne (List.append_eq_nil_iff.mp hnil).1
  have hsegments : segments (name ++ path) =
      (name ++ String.ofList first) :: later.map String.ofList := by
    rw [segments, String.toList_append, splitOn_append h, hsplit]
    simp
  rw [steps, hsegments, firstSegment, laterSteps, segments, hsplit,
    List.filter_cons_of_pos (by simpa using hfirst)]
  rfl

theorem laterSteps_of_notMem {path : String} (h : '/' ∉ path.toList) :
    firstSegment path = path ∧ laterSteps path = [] := by
  have hsplit := splitOn_append h []
  rw [List.append_nil, List.splitOn_nil, List.modifyHead_cons, List.append_nil] at hsplit
  simp [firstSegment, laterSteps, segments, hsplit]

/-! ### Joined paths -/

section

variable {base : String} (hbase : base.isEmpty = false) (name : String)

include hbase

theorem exists_join_eq_append : ∃ behind, join base name = base ++ behind := by
  unfold join
  rw [hbase, if_neg Bool.false_ne_true]
  split
  · exact ⟨name, rfl⟩
  · exact ⟨"/" ++ name, String.append_assoc ..⟩

theorem start_join : Tree.start (join base name) = Tree.start base := by
  have hne : base.toList ≠ [] := by
    rw [← Bool.not_eq_true, String.isEmpty_iff] at hbase
    simpa using hbase
  obtain ⟨c, rest, hlist⟩ := List.exists_cons_of_ne_nil hne
  obtain ⟨behind, hjoin⟩ := exists_join_eq_append hbase name
  simp [Tree.start, isAbsolute, hjoin, hlist]

/-- A part of a path that a disk can take can be taken too. -/
theorem faultOfPath?_of_join (h : faultOfPath? (join base name) = none) :
    faultOfPath? base = none := by
  obtain ⟨behind, hjoin⟩ := exists_join_eq_append hbase name
  rw [hjoin] at h
  unfold faultOfPath? at h ⊢
  simp only [String.toList_append, List.contains_eq_mem, decide_eq_true_eq, List.mem_append,
    String.utf8ByteSize_append] at h ⊢
  split at h
  next => cases h
  next hnull =>
    rw [if_neg fun hbase => hnull (Or.inl hbase)]
    split at h
    next => cases h
    next hlong => exact if_neg (by omega)

/-- What a joined path means is found from what its first part means. -/
theorem Tree.exists_resolve_of_join {tree : Tree} {place : Place}
    (h : tree.resolve (join base name) = .ok place) :
    ∃ home, tree.resolve base = .ok home ∧ tree.walk home (steps name) = .ok place := by
  obtain ⟨hfault, -, hwalk⟩ := resolve_eq_ok_iff.mp h
  rw [start_join hbase, steps_join] at hwalk
  obtain ⟨home, hhome, hplace⟩ := exists_walk_append hwalk
  exact ⟨home, resolve_eq_ok_iff.mpr ⟨faultOfPath?_of_join hbase name hfault, hbase, hhome⟩, hplace⟩

end

theorem moves_join (base name : String) : moves (join base name) = moves base ++ moves name := by
  rw [moves, steps_join, List.filter_append]
  rfl

/-! ### Parents -/

theorem moves_append_slash (first second : String) :
    moves (first ++ "/" ++ second) = moves first ++ moves second := by
  rw [moves, steps_append_slash, List.filter_append]
  rfl

/-- The path that some characters make, given backwards. -/
def ofBackwards (back : List Char) : String :=
  String.ofList back.reverse

theorem ofBackwards_append (name : List Char) (before : List Char) :
    ofBackwards (name ++ '/' :: before) = ofBackwards before ++ "/" ++ ofBackwards name := by
  apply String.toList_injective
  simp [ofBackwards]

theorem isAbsolute_ofBackwards (back : List Char) :
    isAbsolute (ofBackwards back) = (back.getLast? == some '/') := by
  simp [isAbsolute, ofBackwards]

theorem dropIdleEnd_eq_self {back : List Char} (hslash : ∀ rest, back = '/' :: rest → False)
    (hdot : ∀ rest, back = '.' :: '/' :: rest → False) : dropIdleEnd back = back := by
  unfold dropIdleEnd
  split
  next rest => exact (hslash rest rfl).elim
  next rest => exact (hdot rest rfl).elim
  next => rfl

/-- What is idle at the end of a path leads nowhere else. -/
theorem moves_dropIdleEnd (back : List Char) :
    moves (ofBackwards (dropIdleEnd back)) = moves (ofBackwards back) := by
  induction back using dropIdleEnd.induct with
  | case1 rest ih =>
    have hslash : moves (ofBackwards []) = [] := rfl
    rw [dropIdleEnd, ih, ← List.nil_append ('/' :: rest), ofBackwards_append, moves_append_slash,
      hslash, List.append_nil]
  | case2 rest ih =>
    have hdot : moves (ofBackwards ['.']) = [] := by decide
    rw [dropIdleEnd, ih, ← List.singleton_append, ofBackwards_append, moves_append_slash, hdot,
      List.append_nil]
  | case3 path hslash hdot => rw [dropIdleEnd_eq_self hslash hdot]

/-- What is idle does not decide where a path begins, unless all of it is idle. -/
theorem getLast?_dropIdleEnd (back : List Char) :
    (dropIdleEnd back).getLast? = back.getLast? ∨
      dropIdleEnd back = [] ∧ back.getLast? = some '/' := by
  have hslash (rest : List Char)
      (h : (dropIdleEnd rest).getLast? = rest.getLast? ∨
        dropIdleEnd rest = [] ∧ rest.getLast? = some '/') :
      (dropIdleEnd rest).getLast? = ('/' :: rest).getLast? ∨
        dropIdleEnd rest = [] ∧ ('/' :: rest).getLast? = some '/' := by
    cases rest with
    | nil => exact Or.inr ⟨rfl, rfl⟩
    | cons c more =>
      rw [List.getLast?_cons_cons]
      exact h
  induction back using dropIdleEnd.induct with
  | case1 rest ih => exact hslash rest ih
  | case2 rest ih =>
    rw [dropIdleEnd, List.getLast?_cons_cons]
    exact hslash rest ih
  | case3 path hslash hdot =>
    rw [dropIdleEnd_eq_self hslash hdot]
    exact Or.inl rfl

/-- A path without the name at its end leads on to the path. -/
theorem moves_dropWhile_prefix (back : List Char) :
    moves (ofBackwards (back.dropWhile fun c => c != '/')) <+: moves (ofBackwards back) := by
  have hempty : moves (ofBackwards []) = [] := rfl
  have hback := List.takeWhile_append_dropWhile (p := fun c => c != '/') (l := back)
  cases hbefore : back.dropWhile fun c => c != '/' with
  | nil => exact List.nil_prefix
  | cons c more =>
    have hc : c = '/' := by
      have hfirst := List.head?_dropWhile_not (fun c => c != '/') back
      rw [hbefore] at hfirst
      simpa using hfirst
    subst hc
    rw [hbefore] at hback
    rw [← hback, ofBackwards_append, moves_append_slash, ← List.nil_append ('/' :: more),
      ofBackwards_append, moves_append_slash, hempty, List.append_nil]
    exact List.prefix_append ..

theorem start_dropWhile (back : List Char) :
    Tree.start (ofBackwards (back.dropWhile fun c => c != '/')) =
      Tree.start (ofBackwards back) := by
  have hback := List.takeWhile_append_dropWhile (p := fun c => c != '/') (l := back)
  rw [Tree.start, Tree.start, isAbsolute_ofBackwards, isAbsolute_ofBackwards]
  cases hbefore : back.dropWhile fun c => c != '/' with
  | nil =>
    have hlast : back.getLast? ≠ some '/' := fun hlast => by
      simpa using List.dropWhile_eq_nil_iff.mp hbefore _ (List.mem_of_getLast? hlast)
    simp [beq_eq_false_iff_ne.mpr hlast]
  | cons c more =>
    rw [hbefore] at hback
    rw [← hback, List.getLast?_append_of_ne_nil _ (List.cons_ne_nil c more)]

/-- A path without what is idle at its end, as it is shown: what is idle altogether is the root. -/
theorem moves_shown (before : List Char) :
    let shown := if (dropIdleEnd before).isEmpty && !before.isEmpty then "/"
      else ofBackwards (dropIdleEnd before)
    Tree.start shown = Tree.start (ofBackwards before) ∧
      moves shown = moves (ofBackwards before) := by
  have hmoves := moves_dropIdleEnd before
  have hlast := getLast?_dropIdleEnd before
  simp only [Tree.start]
  cases hkept : dropIdleEnd before with
  | nil =>
    rw [hkept] at hmoves hlast
    cases before with
    | nil => exact ⟨rfl, rfl⟩
    | cons c more =>
      have habsolute : isAbsolute (ofBackwards (c :: more)) = true := by
        rcases hlast with hnone | ⟨-, hslash⟩
        · exact absurd (List.getLast?_eq_none_iff.mp hnone.symm) (List.cons_ne_nil c more)
        · simp [isAbsolute_ofBackwards, hslash]
      have hroot : isAbsolute "/" = true ∧ moves "/" = moves (ofBackwards []) := by decide
      simp only [List.isEmpty_nil, List.isEmpty_cons, Bool.not_false, Bool.and_self, if_true,
        hroot.1, habsolute]
      exact ⟨trivial, hroot.2.trans hmoves⟩
  | cons c more =>
    rw [hkept] at hmoves hlast
    have hsame := hlast.resolve_right fun h => List.cons_ne_nil c more h.1
    simp only [List.isEmpty_cons, Bool.false_and, Bool.false_eq_true, if_false,
      isAbsolute_ofBackwards, hsame]
    exact ⟨trivial, hmoves⟩

/-- A path leads on from where its parent leads. -/
theorem moves_parent_prefix {path parent : String} (h : parent? path = some parent) :
    Tree.start parent = Tree.start path ∧ moves parent <+: moves path := by
  have hpath : ofBackwards path.toList.reverse = path := by simp [ofBackwards]
  have hmoves := moves_dropIdleEnd path.toList.reverse
  have hlast := getLast?_dropIdleEnd path.toList.reverse
  unfold parent? at h
  simp only at h
  generalize dropIdleEnd path.toList.reverse = back at h hmoves hlast
  split at h
  next => cases h
  next hback =>
    obtain ⟨hstart, hshown⟩ := moves_shown (back.dropWhile fun c => c != '/')
    have hsame := hlast.resolve_right fun hnil => hback (by simp [hnil.1])
    have habsolute : isAbsolute (ofBackwards back) = isAbsolute path := by
      rw [isAbsolute_ofBackwards, hsame, ← isAbsolute_ofBackwards, hpath]
    obtain rfl := Option.some.inj h
    rw [← hpath, ← hmoves]
    refine ⟨hstart.trans ((start_dropWhile back).trans ?_), ?_⟩
    · rw [hpath, Tree.start, Tree.start, habsolute]
    · exact hshown ▸ moves_dropWhile_prefix back

end Scaffold.Disk
