import Mathlib.Data.List.Basic
import Scaffold.Disk.Tree
import Scaffold.Proofs.Artifact.Resolution
import Scaffold.Proofs.Text.Blank

/-!
Paths that go down. A joined path goes through the steps of both parts (`steps_join`), and a name
that is joined to a path is all that its parent lacks (`parent?_join`). A path that never goes back
means a place whatever the disk holds: the names that it goes through (`Names`).
-/

namespace Scaffold.Disk

open Artifact (IsStepName)

/-! ### Joined paths -/

theorem segments_append_slash (first second : String) :
    segments (first ++ "/" ++ second) = segments first ++ segments second := by
  have hslash : ('/' == '/') = true := by simp
  have hsplit := List.splitOnP_append_cons (p := (· == '/')) first.toList second.toList hslash
  simp only [segments, String.toList_append, List.splitOn]
  rw [← List.map_append, ← hsplit]
  simp

theorem steps_append_slash (first second : String) :
    steps (first ++ "/" ++ second) = steps first ++ steps second := by
  simp [steps, segments_append_slash, List.filter_append]

/-- A joined path goes through the steps of the one part and then of the other. -/
theorem steps_join (base name : String) : steps (join base name) = steps base ++ steps name := by
  unfold join
  split
  next hempty =>
    obtain rfl := String.isEmpty_iff.mp hempty
    rfl
  next =>
    split
    next hslash =>
      obtain ⟨front, hfront⟩ := List.getLast?_eq_some_iff.mp hslash
      have hbase : base = String.ofList front ++ "/" ++ "" := by
        apply String.toList_injective
        simp [hfront]
      have hname : base ++ name = String.ofList front ++ "/" ++ name := by
        apply String.toList_injective
        simp [hfront]
      have hnil : steps "" = [] := rfl
      rw [hname, steps_append_slash, hbase, steps_append_slash, hnil, List.append_nil]
    next => exact steps_append_slash base name

/-- A name that is joined to a path does not change where the path begins. -/
theorem isAbsolute_join {name : String} (h : IsStepName name) (base : String) :
    isAbsolute (join base name) = isAbsolute base := by
  unfold join
  split
  next hempty =>
    obtain rfl := String.isEmpty_iff.mp hempty
    obtain ⟨c, rest, hlist⟩ := List.exists_cons_of_ne_nil h.ne_nil
    have hc : c ≠ '/' := fun eq => h.no_slash (by simp [hlist, eq])
    simp [isAbsolute, hlist, hc]
  next hempty =>
    have hne : base.toList ≠ [] := by simpa [String.isEmpty_iff] using hempty
    obtain ⟨c, rest, hlist⟩ := List.exists_cons_of_ne_nil hne
    split
    · simp [isAbsolute, hlist]
    · simp [isAbsolute, hlist]

theorem isEmpty_join {name : String} (h : IsStepName name) (base : String) :
    (join base name).isEmpty = false := by
  have hname : name ≠ "" := fun eq => h.ne_nil (by rw [eq]; rfl)
  rw [← Bool.not_eq_true, String.isEmpty_iff]
  unfold join
  split
  · exact hname
  · split
    · simp [hname]
    · simp

/-- A path ends as the name does that was joined to it. -/
theorem getLast?_join {name : String} (h : IsStepName name) (base : String) :
    (join base name).toList.getLast? = name.toList.getLast? := by
  unfold join
  split
  · rfl
  · split
    · rw [String.toList_append, List.getLast?_append_of_ne_nil _ h.ne_nil]
    · rw [String.toList_append, List.getLast?_append_of_ne_nil _ h.ne_nil]

theorem getLast?_ne_slash {name : String} (h : IsStepName name) :
    name.toList.getLast? ≠ some '/' :=
  fun hlast => h.no_slash (List.mem_of_getLast? hlast)

/-- A path that ends in a name can mean a file. -/
theorem wantsDirectory_join {name : String} (h : IsStepName name) (base : String) :
    wantsDirectory (join base name) = false := by
  rw [wantsDirectory, getLast?_join h]
  simpa using getLast?_ne_slash h

/-- Two names are joined to a path one after the other. -/
theorem join_join {first : String} (h : IsStepName first) (base second : String) :
    join (join base first) second = join base (first ++ "/" ++ second) := by
  have hlast : (join base first).toList.getLast? ≠ some '/' := by
    rw [getLast?_join h]
    exact getLast?_ne_slash h
  rw [join, isEmpty_join h, if_neg Bool.false_ne_true, if_neg hlast]
  unfold join
  split
  · rfl
  · split
    · simp [String.append_assoc]
    · simp [String.append_assoc]

/-- A name at the end of a path is no idle end. -/
theorem dropIdleEnd_name {name : String} (h : IsStepName name) (before : List Char) :
    dropIdleEnd (name.toList.reverse ++ before) = name.toList.reverse ++ before := by
  obtain ⟨c, rest, hreverse⟩ :=
    List.exists_cons_of_ne_nil (List.reverse_ne_nil_iff.mpr h.ne_nil)
  have hslash : '/' ∉ c :: rest := by
    rw [← hreverse, List.mem_reverse]
    exact h.no_slash
  rw [hreverse, List.cons_append]
  unfold dropIdleEnd
  split
  next heq => exact absurd (List.cons.inj heq).1 (fun hc => hslash (hc ▸ List.mem_cons_self ..))
  next heq =>
    obtain ⟨rfl, hrest⟩ := List.cons.inj heq
    cases rest with
    | nil =>
      -- A dot alone is no name.
      refine absurd (String.toList_injective ?_) h.ne_stay
      rw [← List.reverse_reverse name.toList, hreverse]
      rfl
    | cons d more =>
      obtain ⟨rfl, -⟩ := List.cons.inj hrest
      exact absurd (List.mem_cons_of_mem _ (List.mem_cons_self ..)) hslash
  next => rfl

/-- The directory that a name joined to a path stands in, as its parent. -/
def directoryOf (base : String) : String :=
  if base.isEmpty then ""
  else
    let kept := dropIdleEnd base.toList.reverse
    if kept.isEmpty then "/" else String.ofList kept.reverse

theorem dropWhile_name {name : String} (h : IsStepName name) (before : List Char) :
    (name.toList.reverse ++ before).dropWhile (fun c => c != '/') =
      before.dropWhile fun c => c != '/' := by
  refine List.dropWhile_append_of_pos fun c hc => ?_
  have hc : c ≠ '/' := fun eq => h.no_slash (eq ▸ List.mem_reverse.mp hc)
  simpa using hc

theorem parent?_join {name : String} (h : IsStepName name) (base : String) :
    parent? (join base name) = some (directoryOf base) := by
  have hname : (dropIdleEnd name.toList.reverse) = name.toList.reverse := by
    simpa using dropIdleEnd_name h []
  have hdrop := dropWhile_name h []
  rw [List.append_nil] at hdrop
  unfold join directoryOf
  split
  next hempty => simp [parent?, hname, hdrop, h.ne_nil, dropIdleEnd]
  next hempty =>
    have hbase : base.toList ≠ [] := by simpa [String.isEmpty_iff] using hempty
    obtain ⟨c, rest, hreverse⟩ :=
      List.exists_cons_of_ne_nil (List.reverse_ne_nil_iff.mpr hbase)
    split
    next hslash =>
      have hc : c = '/' := by
        rw [List.getLast?_eq_head?_reverse, hreverse] at hslash
        simpa using hslash
      subst hc
      simp [parent?, dropIdleEnd_name h, dropWhile_name h, hreverse, h.ne_nil]
    next => simp [parent?, dropIdleEnd_name h, dropWhile_name h, h.ne_nil, dropIdleEnd]

/-- A directory whose path ends in a name is the parent of what is joined to it. -/
theorem directoryOf_eq_self {base : String}
    (h : ∃ c ∈ base.toList.getLast?, c ≠ '/' ∧ c ≠ '.') : directoryOf base = base := by
  obtain ⟨c, hc, hslash, hdot⟩ := h
  obtain ⟨front, hfront⟩ := List.getLast?_eq_some_iff.mp hc
  have hidle : dropIdleEnd base.toList.reverse = base.toList.reverse := by
    rw [hfront, List.reverse_append, List.reverse_singleton, List.singleton_append]
    unfold dropIdleEnd
    split
    next heq => exact absurd (List.cons.inj heq).1 hslash
    next heq => exact absurd (List.cons.inj heq).1 hdot
    next => rfl
  have hempty : base.isEmpty = false := by
    rw [← Bool.not_eq_true, String.isEmpty_iff, ← String.toList_inj]
    simp [hfront]
  have hreverse : base.toList.reverse.isEmpty = false := by simp [hfront]
  unfold directoryOf
  rw [hempty, if_neg Bool.false_ne_true, hidle]
  simp only [hreverse, Bool.false_eq_true, if_false, List.reverse_reverse, String.ofList_toList]

/-! ### Paths that go down -/

/-- A path of ordinary steps never goes back. -/
def IsOrdinary (path : String) : Prop :=
  leave ∉ steps path

instance (path : String) : Decidable (IsOrdinary path) :=
  inferInstanceAs (Decidable (leave ∉ steps path))

/-- The place that a path of ordinary steps means. -/
def placeOf (path : String) : Place :=
  Tree.start path ++ (steps path).filter fun step => step != stay

theorem isStepName_of_mem_steps {path step : String} (h : step ∈ steps path) (hstay : step ≠ stay)
    (hleave : step ≠ leave) : IsStepName step := by
  obtain ⟨hsegment, hempty⟩ := List.mem_filter.mp h
  obtain ⟨text, htext, rfl⟩ := List.mem_map.mp hsegment
  refine ⟨by simpa [String.isEmpty_iff] using hempty, ?_, hstay, hleave⟩
  intro mem
  rw [String.toList_ofList] at mem
  have := (Text.mem_of_mem_splitOnP htext mem).2
  simp at this

/-- Steps of a path that stay in no directory and leave none are names. -/
theorem isStepName_of_mem_filter {path : String} {front : List String} (hfront : front ⊆ steps path)
    (hleave : leave ∉ front) :
    ∀ name ∈ front.filter fun step => step != stay, IsStepName name := by
  intro name hname
  obtain ⟨hstep, hstay⟩ := List.mem_filter.mp hname
  refine isStepName_of_mem_steps (hfront hstep) (by simpa using hstay) ?_
  rintro rfl
  exact hleave hstep

theorem steps_of_isStepName {name : String} (h : IsStepName name) : steps name = [name] := by
  have hparts : ∀ part ∈ [name], part.toList ≠ [] ∧ '/' ∉ part.toList := by
    simpa using ⟨by simpa using h.ne_nil, h.no_slash⟩
  simpa using Artifact.steps_intercalate hparts

/-- A path of ordinary steps that ends in a name, and the place of the directory it is in. -/
structure Names (path : String) (above : Place) (name : String) : Prop where
  exists_steps : ∃ front, steps path = front ++ [name] ∧ leave ∉ front ∧
    Tree.start path ++ front.filter (fun step => step != stay) = above
  name : IsStepName name

theorem Names.placeOf_eq {path : String} {above : Place} {name : String}
    (h : Names path above name) : placeOf path = above ++ [name] := by
  obtain ⟨front, hsteps, -, rfl⟩ := h.exists_steps
  have hname : (name != stay) = true := by simpa using h.name.ne_stay
  simp [placeOf, hsteps, List.filter_append, hname]

theorem Names.isOrdinary {path : String} {above : Place} {name : String}
    (h : Names path above name) : IsOrdinary path := by
  obtain ⟨front, hsteps, hfront, -⟩ := h.exists_steps
  unfold IsOrdinary
  rw [hsteps, List.mem_append, not_or]
  exact ⟨hfront, fun mem => h.name.ne_leave (List.mem_singleton.mp mem).symm⟩

/-- A name that is joined to a path of ordinary steps means a place in the directory there. -/
theorem IsOrdinary.names_join {base name : String} (h : IsOrdinary base) (hname : IsStepName name) :
    Names (join base name) (placeOf base) name where
  exists_steps := by
    refine ⟨steps base, ?_, h, ?_⟩
    · rw [steps_join, steps_of_isStepName hname]
    · rw [placeOf, Tree.start, Tree.start, isAbsolute_join hname]
  name := hname

end Scaffold.Disk
