import Mathlib.Data.List.TakeWhile
import Scaffold.Settings.Basic

/-!
Options from settings. The two checks are made in one order, so the fault that is reported is the
indentation whenever that means nothing; what is made of settings that pass is what they say, with
the dots before the extension left out. Which fields are optional whatever the schema says is
gathered entry by entry, list by list, and comes to membership in the lists: an entry adds one pair
of a model and a field to what is forced and takes none away (`options_spec`).
-/

namespace Scaffold

open Artifact (Options Indent Optionality)

namespace Artifact.Optionality

variable {optionality : Optionality} {model field : String}

/-- One entry adds one field of one model. -/
theorem forces_addInModel_iff {named added : String} :
    (optionality.addInModel named added).forces model field = true ↔
      optionality.forces model field = true ∨ (model = named ∧ field = added) := by
  rw [forces_addInModel, Bool.or_eq_true, Bool.and_eq_true, beq_iff_eq, beq_iff_eq]

/-- A list of one model adds its entries, and no entry takes away what another added. -/
theorem forces_addAllInModel {named : String} {fields : List String} :
    (optionality.addAllInModel named fields).forces model field = true ↔
      optionality.forces model field = true ∨ (model = named ∧ field ∈ fields) := by
  induction fields generalizing optionality with
  | nil => simp [addAllInModel]
  | cons added rest ih =>
    have hstep : optionality.addAllInModel named (added :: rest) =
        (optionality.addInModel named added).addAllInModel named rest := rfl
    rw [hstep, ih, forces_addInModel_iff, List.mem_cons, or_assoc, ← and_or_left]

/-- The lists add what stands in one of them, whichever model or list comes first. -/
theorem forces_addLists {lists : List (String × List String)} :
    (optionality.addLists lists).forces model field = true ↔
      optionality.forces model field = true ∨
        ∃ fields, (model, fields) ∈ lists ∧ field ∈ fields := by
  induction lists generalizing optionality with
  | nil => simp [addLists]
  | cons entry rest ih =>
    obtain ⟨named, listed⟩ := entry
    have hstep : optionality.addLists ((named, listed) :: rest) =
        (optionality.addAllInModel named listed).addLists rest := rfl
    rw [hstep, ih, forces_addAllInModel, or_assoc]
    refine or_congr_right ⟨?_, ?_⟩
    · rintro (⟨rfl, hfield⟩ | ⟨fields, hfields, hfield⟩)
      · exact ⟨listed, List.mem_cons_self, hfield⟩
      · exact ⟨fields, List.mem_cons_of_mem _ hfields, hfield⟩
    · rintro ⟨fields, hfields, hfield⟩
      cases hfields with
      | head => exact Or.inl ⟨rfl, hfield⟩
      | tail _ hfields => exact Or.inr ⟨fields, hfields, hfield⟩

end Artifact.Optionality

namespace Settings

/-! ### What settings say -/

/-- Settings whose indentation means something: tabs, or two or four spaces. -/
def HasIndentation (settings : Settings) : Prop :=
  settings.useTabs = true ∨ settings.indent = 2 ∨ settings.indent = 4

/-- Settings whose extension is more than dots. -/
def HasExtension (settings : Settings) : Prop :=
  ∃ c ∈ settings.extension.toList, c ≠ '.'

/-- Settings that list a field under exactly the name of a model. -/
def ListsInModel (settings : Settings) (model field : String) : Prop :=
  ∃ fields, (model, fields) ∈ settings.optionalInModel ∧ field ∈ fields

/-- Settings that list a field for every model or under exactly the name of one. -/
def ListsOptional (settings : Settings) (model field : String) : Prop :=
  field ∈ settings.optionalEverywhere ∨ settings.ListsInModel model field

/-- Settings that list the same fields, in whatever order and however often. -/
structure ListsSame (settings other : Settings) : Prop where
  everywhere : ∀ field, field ∈ settings.optionalEverywhere ↔ field ∈ other.optionalEverywhere
  inModel : ∀ model field, settings.ListsInModel model field ↔ other.ListsInModel model field

/-- Options that say what settings do. -/
structure Describes (settings : Settings) (options : Options) : Prop where
  tabs : settings.useTabs = true → options.indent.unit = "\t"
  spaces : settings.useTabs = false →
    options.indent.unit.toList = List.replicate settings.indent ' '
  imports : options.imports = settings.imports
  extension_ne : options.extension ≠ ""
  extension_head : options.extension.toList.head? ≠ some '.'
  extension_dots : ∃ dots,
    settings.extension.toList = List.replicate dots '.' ++ options.extension.toList
  forces_iff : ∀ model field, options.optionality.forces model field = true ↔
    settings.ListsOptional model field

variable {settings : Settings}

/-! ### Indentation -/

theorem indentation_eq_ok {indent : Indent} (h : settings.indentation = .ok indent) :
    settings.HasIndentation ∧ (settings.useTabs = true → indent.unit = "\t") ∧
      (settings.useTabs = false → indent.unit.toList = List.replicate settings.indent ' ') := by
  unfold indentation at h
  split at h
  next htabs =>
    cases h
    exact ⟨Or.inl htabs, fun _ => rfl, fun hspaces => absurd htabs (by simp [hspaces])⟩
  next htabs =>
    split at h
    next htwo =>
      cases h
      exact ⟨Or.inr (Or.inl htwo), fun h => absurd h htabs, fun _ => by rw [htwo]; rfl⟩
    next =>
      split at h
      next hfour =>
        cases h
        exact ⟨Or.inr (Or.inr hfour), fun h => absurd h htabs, fun _ => by rw [hfour]; rfl⟩
      next => cases h

theorem indentation_eq_error {invalid : InvalidSetting}
    (h : settings.indentation = .error invalid) :
    invalid = .indent settings.indent ∧ ¬settings.HasIndentation := by
  unfold indentation at h
  split at h
  next => cases h
  next htabs =>
    split at h
    next => cases h
    next htwo =>
      split at h
      next => cases h
      next hfour =>
        cases h
        exact ⟨rfl, fun hindent => hindent.elim htabs fun hwidth => hwidth.elim htwo hfour⟩

/-! ### The extension -/

theorem bareExtension_eq_ok {extension : String} (h : settings.bareExtension = .ok extension) :
    settings.HasExtension ∧ extension ≠ "" ∧ extension.toList.head? ≠ some '.' ∧
      ∃ dots, settings.extension.toList = List.replicate dots '.' ++ extension.toList := by
  unfold bareExtension at h
  simp only at h
  split at h
  next => cases h
  next hne =>
    cases h
    rw [List.isEmpty_iff] at hne
    have hdots : settings.extension.toList.takeWhile (fun c => c == '.') =
        List.replicate (settings.extension.toList.takeWhile fun c => c == '.').length '.' :=
      List.eq_replicate_of_mem fun c hc => by simpa using List.mem_takeWhile_imp hc
    refine ⟨?_, ?_, ?_, ?_⟩
    · by_contra hall
      refine hne (List.dropWhile_eq_nil_iff.mpr fun c hc => beq_iff_eq.mpr ?_)
      by_contra hother
      exact hall ⟨c, hc, hother⟩
    · intro hempty
      exact hne (by simpa using congrArg String.toList hempty)
    · intro hhead
      have hnot := List.head?_dropWhile_not (fun c => c == '.') settings.extension.toList
      rw [String.toList_ofList] at hhead
      rw [hhead] at hnot
      simp at hnot
    · refine ⟨(settings.extension.toList.takeWhile fun c => c == '.').length, ?_⟩
      rw [String.toList_ofList, ← hdots, List.takeWhile_append_dropWhile]

theorem bareExtension_eq_error {invalid : InvalidSetting}
    (h : settings.bareExtension = .error invalid) :
    invalid = .extension ∧ ¬settings.HasExtension := by
  unfold bareExtension at h
  simp only at h
  split at h
  next hempty =>
    cases h
    refine ⟨rfl, ?_⟩
    rintro ⟨c, hc, hother⟩
    exact hother (by simpa using List.dropWhile_eq_nil_iff.mp (List.isEmpty_iff.mp hempty) c hc)
  next => cases h

/-! ### Optional fields -/

/-- What the settings force is what they list, since nothing is forced to begin with. -/
theorem forces_optionality (settings : Settings) (model field : String) :
    settings.optionality.forces model field = true ↔ settings.ListsOptional model field := by
  rw [optionality, Optionality.forces_addLists, Optionality.forces_addEverywhere,
    Optionality.forces_none, Bool.false_or, List.contains_iff_mem]
  rfl

theorem ListsSame.listsOptional {other : Settings} (h : settings.ListsSame other)
    (model field : String) :
    settings.ListsOptional model field ↔ other.ListsOptional model field :=
  or_congr (h.everywhere field) (h.inModel model field)

/-! ### All of it -/

theorem options_cases (settings : Settings) :
    (settings.options = .error (.indent settings.indent) ∧ ¬settings.HasIndentation) ∨
    (settings.options = .error .extension ∧ settings.HasIndentation ∧ ¬settings.HasExtension) ∨
    ∃ options, settings.options = .ok options ∧ settings.HasIndentation ∧ settings.HasExtension ∧
      settings.Describes options := by
  cases hindent : settings.indentation with
  | error invalid =>
    obtain ⟨rfl, hnone⟩ := indentation_eq_error hindent
    refine Or.inl ⟨?_, hnone⟩
    rw [options, hindent]
    rfl
  | ok indent =>
    obtain ⟨hsome, htabs, hspaces⟩ := indentation_eq_ok hindent
    refine Or.inr ?_
    cases hextension : settings.bareExtension with
    | error invalid =>
      obtain ⟨rfl, hnone⟩ := bareExtension_eq_error hextension
      refine Or.inl ⟨?_, hsome, hnone⟩
      rw [options, hindent, hextension]
      rfl
    | ok extension =>
      obtain ⟨hmore, hne, hhead, hdots⟩ := bareExtension_eq_ok hextension
      refine Or.inr ⟨⟨settings.optionality, settings.imports, indent, extension⟩, ?_, hsome, hmore,
        ?_⟩
      · rw [options, hindent, hextension]
        rfl
      · exact ⟨htabs, hspaces, rfl, hne, hhead, hdots, forces_optionality settings⟩

/-- Which of the three outcomes there is depends on the two conditions alone. -/
theorem options_outcome (settings : Settings) :
    ((∃ options, settings.options = .ok options) ↔
      settings.HasIndentation ∧ settings.HasExtension) ∧
    (settings.options = .error (.indent settings.indent) ↔ ¬settings.HasIndentation) ∧
    (settings.options = .error .extension ↔
      settings.HasIndentation ∧ ¬settings.HasExtension) := by
  obtain ⟨h, hindent⟩ | ⟨h, hindent, hextension⟩ | ⟨options, h, hindent, hextension, -⟩ :=
    options_cases settings
  · simp [h, hindent]
  · simp [h, hindent, hextension]
  · simp [h, hindent, hextension]

theorem describes_of_options_eq_ok {options : Options} (h : settings.options = .ok options) :
    settings.Describes options := by
  obtain ⟨herror, -⟩ | ⟨herror, -⟩ | ⟨made, hmade, -, -, hdescribes⟩ := options_cases settings
  · rw [herror] at h
    cases h
  · rw [herror] at h
    cases h
  · rw [hmade] at h
    exact Except.ok.inj h ▸ hdescribes

/-- Settings make options exactly if their indentation means something and their extension is more
than dots. An indentation that means nothing is reported whatever the extension is, and an extension
of dots alone only behind an indentation that passes. The options say what the settings do: they
indent as the settings ask, their extension is the one of the settings without the dots before it,
and they force a field of a model exactly if it is listed for every model or under exactly that
name. So settings that list the same fields force the same, however their entries are ordered or
repeated. -/
theorem options_spec (settings : Settings) :
    ((∃ options, settings.options = .ok options) ↔
      settings.HasIndentation ∧ settings.HasExtension) ∧
    (settings.options = .error (.indent settings.indent) ↔ ¬settings.HasIndentation) ∧
    (settings.options = .error .extension ↔
      settings.HasIndentation ∧ ¬settings.HasExtension) ∧
    (∀ options, settings.options = .ok options → settings.Describes options) ∧
    (∀ other options otherOptions, settings.options = .ok options →
      other.options = .ok otherOptions → settings.ListsSame other →
      ∀ model field, options.optionality.forces model field =
        otherOptions.optionality.forces model field) := by
  obtain ⟨hok, hindent, hextension⟩ := options_outcome settings
  refine ⟨hok, hindent, hextension, fun options => describes_of_options_eq_ok, ?_⟩
  intro other options otherOptions h hother hsame model field
  rw [Bool.eq_iff_iff, (describes_of_options_eq_ok h).forces_iff,
    (describes_of_options_eq_ok hother).forces_iff]
  exact hsame.listsOptional model field

/-- Settings with a width that tabs make void, dots before the extension and entries repeated. -/
def wordy : Settings where
  extension := "..d.ts"
  indent := 3
  useTabs := true
  optionalEverywhere := ["note", "note"]
  optionalInModel := [("Tag", ["label", "label"]), ("tag", ["color"])]

/-- What `wordy` says, with each entry once and in another order. -/
def terse : Settings :=
  { wordy with
    optionalEverywhere := ["note"]
    optionalInModel := [("tag", ["color"]), ("Tag", ["label"])] }

theorem options_spec_wordy :
    ∃ options, wordy.options = .ok options ∧ wordy.Describes options ∧
      options.extension = "d.ts" ∧
      ∃ otherOptions, terse.options = .ok otherOptions ∧
        ∀ model field, options.optionality.forces model field =
          otherOptions.optionality.forces model field := by
  obtain ⟨-, -, -, hdescribes, hsame⟩ := options_spec wordy
  refine ⟨⟨wordy.optionality, {}, .tab, "d.ts"⟩, rfl, hdescribes _ rfl, rfl,
    ⟨terse.optionality, {}, .tab, "d.ts"⟩, rfl, hsame terse _ _ rfl rfl ⟨?_, ?_⟩⟩
  · simp [wordy, terse]
  · intro model field
    simp only [ListsInModel, wordy, terse, List.mem_cons, Prod.mk.injEq, List.not_mem_nil, or_false]
    constructor
    · rintro ⟨fields, ⟨rfl, rfl⟩ | ⟨rfl, rfl⟩, hfield⟩
      · exact ⟨_, Or.inr ⟨rfl, rfl⟩, by simpa using hfield⟩
      · exact ⟨_, Or.inl ⟨rfl, rfl⟩, hfield⟩
    · rintro ⟨fields, ⟨rfl, rfl⟩ | ⟨rfl, rfl⟩, hfield⟩
      · exact ⟨_, Or.inr ⟨rfl, rfl⟩, hfield⟩
      · exact ⟨_, Or.inl ⟨rfl, rfl⟩, by simpa using hfield⟩

end Settings

end Scaffold
