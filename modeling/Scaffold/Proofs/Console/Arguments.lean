import Mathlib.Data.List.TakeWhile
import Scaffold.Console.Arguments

/-!
What flags mean on the command line. A flag without a letter of its own is given exactly if its name
is written in full, before two hyphens alone (`read_has_iff`). So it can be seen from the arguments
whether a settings file is written and whether a generation is a preview.
-/

namespace Scaffold.Console

/-- How a flag is written in full. -/
def Flag.written (flag : Flag) : String :=
  "--" ++ flag.name

/-- Whether a flag is written in full among some arguments, as far as these can be names. -/
def Flag.IsWritten (flag : Flag) (arguments : List String) : Prop :=
  flag.written ∈ arguments.takeWhile fun argument => argument != "--"

instance (flag : Flag) (arguments : List String) : Decidable (flag.IsWritten arguments) :=
  inferInstanceAs (Decidable (_ ∈ _))

/-- Behind two hyphens alone no flag is written, whatever stands there. -/
theorem Flag.isWritten_cons (flag : Flag) (argument : String) (rest : List String) :
    flag.IsWritten (argument :: rest) ↔
      argument ≠ "--" ∧ (argument = flag.written ∨ flag.IsWritten rest) := by
  unfold IsWritten
  by_cases h : argument = "--"
  · simp [h]
  · rw [List.takeWhile_cons_of_pos (by simpa using h), List.mem_cons, eq_comm]
    simp [h]

theorem Flag.toList_written (flag : Flag) :
    flag.written.toList = '-' :: '-' :: flag.name.toList := by
  simp [written]

/-! ### Names -/

theorem Meaning.ofName?_name (flag : Flag) : ofName? flag.name = some (.flag flag) := by
  cases flag <;> decide

/-- No name means a flag but the flag's own. -/
theorem Meaning.name_of_ofName? {name : String} {flag : Flag}
    (h : ofName? name = some (.flag flag)) : flag.name = name := by
  unfold ofName? at h
  cases hfind : Flag.all.find? fun flag => flag.name == name with
  | none => simp [hfind] at h
  | some found =>
    have hfound := List.find?_some hfind
    simp only [hfind, Option.map_some, Option.some_or, Option.some.injEq, Meaning.flag.injEq] at h
    exact h ▸ by simpa using hfound

theorem Meaning.letter_of_ofLetter? {letter : Char} {flag : Flag}
    (h : ofLetter? letter = some (.flag flag)) : flag.letter? = some letter := by
  unfold ofLetter? at h
  cases hfind : Flag.all.find? fun flag => flag.letter? == some letter with
  | none => simp [hfind] at h
  | some found =>
    have hfound := List.find?_some hfind
    simp only [hfind, Option.map_some, Option.some_or, Option.some.injEq, Meaning.flag.injEq] at h
    exact h ▸ by simpa using hfound

namespace Given

/-! ### Single steps -/

section

variable {given final : Given}

/-- A flag is recorded when it is raised; help and version end the reading instead. -/
theorem flags_raise {raised : Flag} (h : given.raise raised = .ok final) :
    final.flags = raised :: given.flags := by
  unfold raise at h
  split at h
  · cases h
  · cases h
  · split at h
    · cases h
    · exact (Except.ok.inj h) ▸ rfl

/-- Values are recorded beside the flags. -/
theorem flags_assign {parameter : Parameter} {value : String}
    (h : given.assign parameter value = .ok final) : final.flags = given.flags := by
  unfold assign at h
  split at h
  · cases h
  · exact (Except.ok.inj h) ▸ rfl

theorem flags_place {model : String} (h : given.place model = .ok final) :
    final.flags = given.flags := by
  unfold place at h
  split at h
  · cases h
  · exact (Except.ok.inj h) ▸ rfl

theorem bind_eq_ok {α β : Type} {first : Except Stop α} {next : α → Except Stop β} {result : β}
    (h : first.bind next = .ok result) : ∃ value, first = .ok value ∧ next value = .ok result := by
  cases first with
  | error stop => cases h
  | ok value => exact ⟨value, rfl, h⟩

theorem map_eq_ok {α β : Type} {first : Except Stop α} {f : α → β} {result : β}
    (h : first.map f = .ok result) : ∃ value, first = .ok value ∧ f value = result := by
  cases first with
  | error stop => cases h
  | ok value => exact ⟨value, rfl, Except.ok.inj h⟩

/-- What stands behind two hyphens alone may be the name of the model and is never a flag. -/
theorem flags_readPlain {arguments : List String} (h : given.readPlain arguments = .ok final) :
    final.flags = given.flags := by
  induction arguments generalizing given with
  | nil => exact (Except.ok.inj h) ▸ rfl
  | cons argument rest ih =>
    obtain ⟨placed, hplace, hrest⟩ := bind_eq_ok h
    rw [ih hrest, flags_place hplace]

/-- A name gives the flag that it is the name of, and no other. -/
theorem has_readName {name : List Char} {waiting : Option Parameter} (flag : Flag)
    (h : given.readName name = .ok (final, waiting)) :
    final.has flag = true ↔ given.has flag = true ∨ name = flag.name.toList := by
  have hmeaning (heq : name = flag.name.toList) :
      Meaning.ofName? (String.ofList (name.takeWhile fun c => c != '=')) = some (.flag flag) := by
    have hall : ∀ c ∈ flag.name.toList, (c != '=') = true := by
      cases flag <;> simp [Flag.name]
    rw [heq, List.takeWhile_eq_self_iff.mpr hall, String.ofList_toList, Meaning.ofName?_name]
  have hother {parameter : Parameter}
      (hname : Meaning.ofName? (String.ofList (name.takeWhile fun c => c != '=')) =
        some (.parameter parameter)) : name ≠ flag.name.toList := by
    intro heq
    rw [hmeaning heq] at hname
    cases hname
  unfold readName at h
  simp only at h
  split at h
  · cases h
  next raised hname hrest =>
    obtain ⟨next, hraise, heq⟩ := map_eq_ok h
    obtain ⟨rfl, -⟩ := Prod.mk.inj heq
    have hwhole : name.takeWhile (fun c => c != '=') = name := by
      have happend := List.takeWhile_append_dropWhile (p := fun c => c != '=') (l := name)
      rwa [hrest, List.append_nil] at happend
    have hsame : flag = raised ↔ name = flag.name.toList := by
      constructor
      · rintro rfl
        rw [Meaning.name_of_ofName? hname, String.toList_ofList, hwhole]
      · intro heq
        have hboth := (hmeaning heq).symm.trans hname
        exact Meaning.flag.inj (Option.some.inj hboth)
    simp only [has, flags_raise hraise, List.contains_cons, Bool.or_eq_true, beq_iff_eq, hsame]
    exact or_comm
  · cases h
  next parameter hname hrest =>
    obtain ⟨rfl, -⟩ := Prod.mk.inj (Except.ok.inj h)
    simp [hother hname]
  next parameter first value hname hrest =>
    obtain ⟨next, hassign, heq⟩ := map_eq_ok h
    obtain ⟨rfl, -⟩ := Prod.mk.inj heq
    simp [has, flags_assign hassign, hother hname]

/-- Letters give no flag that has no letter. -/
theorem has_readLetters {letters : List Char} {waiting : Option Parameter} {flag : Flag}
    (hletter : flag.letter? = none) (h : given.readLetters letters = .ok (final, waiting)) :
    final.has flag = given.has flag := by
  induction letters generalizing given with
  | nil =>
    obtain ⟨rfl, -⟩ := Prod.mk.inj (Except.ok.inj h)
    rfl
  | cons letter rest ih =>
    rw [readLetters.eq_def] at h
    simp only at h
    split at h
    · cases h
    next raised hmeaning =>
      obtain ⟨next, hraise, hrest⟩ := bind_eq_ok h
      have hdiffers : flag ≠ raised := by
        rintro rfl
        rw [Meaning.letter_of_ofLetter? hmeaning] at hletter
        cases hletter
      rw [ih hrest, has, flags_raise hraise, List.contains_cons, beq_eq_false_iff_ne.mpr hdiffers]
      rfl
    next parameter hmeaning =>
      obtain ⟨rfl, -⟩ := Prod.mk.inj (Except.ok.inj h)
      rfl
    next parameter value hmeaning =>
      obtain ⟨next, hassign, heq⟩ := map_eq_ok h
      obtain ⟨rfl, -⟩ := Prod.mk.inj heq
      rw [has, flags_assign hassign, has]
    next =>
      obtain ⟨next, hassign, heq⟩ := map_eq_ok h
      obtain ⟨rfl, -⟩ := Prod.mk.inj heq
      rw [has, flags_assign hassign, has]

end

/-- A flag without a letter is given if and only if it is written in full. -/
theorem read_has_iff {flag : Flag} (hletter : flag.letter? = none) {given final : Given}
    {waiting : Option Parameter} {arguments : List String}
    (h : given.read waiting arguments = .ok final) :
    final.has flag = true ↔ given.has flag = true ∨ flag.IsWritten arguments := by
  induction arguments generalizing given waiting with
  | nil =>
    rw [read] at h
    split at h
    · cases h
    · obtain rfl := Except.ok.inj h
      simp [Flag.IsWritten]
  | cons argument rest ih =>
    -- An argument that does not begin with two hyphens is no flag in full.
    have hother (h : ∀ name, argument.toList ≠ '-' :: '-' :: name) :
        flag.IsWritten (argument :: rest) ↔ flag.IsWritten rest := by
      have hdashes : argument ≠ "--" := by
        rintro rfl
        exact h [] rfl
      have hflag : argument ≠ flag.written := by
        rintro rfl
        exact h _ flag.toList_written
      simp [Flag.isWritten_cons, hdashes, hflag]
    rw [read.eq_def] at h
    simp only at h
    split at h
    next hdashes =>
      -- From here on arguments are plain, even those that look like flags.
      obtain rfl : argument = "--" := String.toList_injective hdashes
      simp [Flag.isWritten_cons, has, flags_readPlain h]
    next => cases h
    next name hne hname =>
      obtain ⟨⟨next, later⟩, hnext, hrest⟩ := bind_eq_ok h
      have hdashes : argument ≠ "--" := by
        rintro rfl
        exact hne (List.cons.inj (List.cons.inj hname).2).2.symm
      have hflag : name = flag.name.toList ↔ argument = flag.written := by
        rw [← String.toList_inj, hname, flag.toList_written]
        simp
      rw [ih hrest, has_readName flag hnext, Flag.isWritten_cons, hflag, or_assoc]
      simp [hdashes]
    next letter letters hne hhyphen hname =>
      obtain ⟨⟨next, later⟩, hnext, hrest⟩ := bind_eq_ok h
      have hlonger : ∀ name, argument.toList ≠ '-' :: '-' :: name := by
        intro name heq
        rw [hname] at heq
        exact hhyphen (List.cons.inj (List.cons.inj heq).2).1
      rw [ih hrest, has_readLetters hletter hnext, hother hlonger]
    next parameter hshort =>
      obtain ⟨next, hassign, hrest⟩ := bind_eq_ok h
      rw [ih hrest, hother fun name => hshort '-' name, has, flags_assign hassign]
      rfl
    next hdashes hlonger hletters =>
      obtain ⟨next, hplace, hrest⟩ := bind_eq_ok h
      rw [ih hrest, hother hlonger, has, flags_place hplace]
      rfl

end Given

/-! ### Commands -/

/-- The flag for a settings file decides alone: it is refused beside anything else that asks for
something. -/
theorem Given.command?_cases {given : Given} {command : Command}
    (h : given.command? = some command) :
    given.has .init = true ∧
        command = .writeSettings (given.value? .settingsFile) (given.has .force) ∨
      given.has .init ≠ true ∧
        ((∃ model, command = .generate given.setup model (given.has .dryRun)) ∨
          command = .list given.setup (given.has .json) ∨ command = .overview) := by
  unfold command? at h
  split at h
  · cases h
  · split at h
    next hinit => exact Or.inl ⟨hinit, (Option.some.inj h).symm⟩
    next hinit =>
      refine Or.inr ⟨hinit, ?_⟩
      split at h
      next model _ => exact Or.inl ⟨model, (Option.some.inj h).symm⟩
      next =>
        split at h
        · exact Or.inr (Or.inl (Option.some.inj h).symm)
        · exact Or.inr (Or.inr (Option.some.inj h).symm)

section

variable {arguments : List String}

/-- With nothing given at the start, what is given in the end has been written. -/
theorem Given.has_iff {given : Given} (h : Given.read {} none arguments = .ok given) {flag : Flag}
    (hletter : flag.letter? = none) : given.has flag = true ↔ flag.IsWritten arguments := by
  rw [read_has_iff hletter h]
  simp [has]

variable {invocation : Invocation} (h : Invocation.ofArguments? arguments = some invocation)

include h

/-- The command of an invocation is that of what is given, if it is not a request for help or for
the version. -/
theorem Invocation.command_cases :
    invocation.command = .help ∨ invocation.command = .version ∨
      ∃ given, Given.read {} none arguments = .ok given ∧
        given.command? = some invocation.command := by
  unfold ofArguments? at h
  split at h
  · cases h
  · obtain rfl := Option.some.inj h
    exact Or.inl rfl
  · obtain rfl := Option.some.inj h
    exact Or.inr (Or.inl rfl)
  next given hread =>
    obtain ⟨command, hcommand, rfl⟩ := Option.map_eq_some_iff.mp h
    exact Or.inr (Or.inr ⟨given, hread, hcommand⟩)

/-- A settings file is written only where that is asked for, at the path that is given, and over
another one only where that is asked for too. -/
theorem isWritten_of_writeSettings {path : Option String} {force : Bool}
    (hcommand : invocation.command = .writeSettings path force) :
    Flag.init.IsWritten arguments ∧ (force = true ↔ Flag.force.IsWritten arguments) ∧
      ∃ given, Given.read {} none arguments = .ok given ∧ path = given.value? .settingsFile := by
  rcases Invocation.command_cases h with hhelp | hversion | ⟨given, hread, hgiven⟩
  · cases hcommand.symm.trans hhelp
  · cases hcommand.symm.trans hversion
  · rw [← Given.has_iff hread rfl, ← Given.has_iff hread rfl]
    rcases Given.command?_cases hgiven with
      ⟨hinit, hwrite⟩ | ⟨-, ⟨model, hgenerate⟩ | hlist | hoverview⟩
    · obtain ⟨hpath, rfl⟩ := Command.writeSettings.inj (hcommand.symm.trans hwrite)
      exact ⟨hinit, Iff.rfl, given, hread, hpath⟩
    · cases hcommand.symm.trans hgenerate
    · cases hcommand.symm.trans hlist
    · cases hcommand.symm.trans hoverview

/-- A generation is a preview if and only if that is asked for. -/
theorem isWritten_of_generate {setup : Setup} {model : String} {dryRun : Bool}
    (hcommand : invocation.command = .generate setup model dryRun) :
    ¬ Flag.init.IsWritten arguments ∧ (dryRun = true ↔ Flag.dryRun.IsWritten arguments) := by
  rcases Invocation.command_cases h with hhelp | hversion | ⟨given, hread, hgiven⟩
  · cases hcommand.symm.trans hhelp
  · cases hcommand.symm.trans hversion
  · rw [← Given.has_iff hread rfl, ← Given.has_iff hread rfl]
    rcases Given.command?_cases hgiven with
      ⟨-, hwrite⟩ | ⟨hinit, ⟨model, hgenerate⟩ | hlist | hoverview⟩
    · cases hcommand.symm.trans hwrite
    · obtain ⟨-, -, rfl⟩ := Command.generate.inj (hcommand.symm.trans hgenerate)
      exact ⟨hinit, Iff.rfl⟩
    · cases hcommand.symm.trans hlist
    · cases hcommand.symm.trans hoverview

end

end Scaffold.Console
