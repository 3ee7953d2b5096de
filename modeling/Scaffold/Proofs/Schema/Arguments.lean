import Scaffold.Schema.BlockAttribute
import Scaffold.Proofs.Schema.Lexing

/-!
The arguments of a composite identity, and what has no part in them. The field list is the first
list in brackets, and the key is what stands in quotes behind `name:` in an argument behind it
(`keyOfArgument?_eq`). So a comment behind the arguments is no part of them, unless it holds a list
or a key that they lack (`IsAside`, `ofArguments?_append_comment`); and what stands in a literal is
no part of them, unless the literal is the key, or has brackets or a key of its own (`IsInert`,
`ofArguments?_literal`).
-/

namespace Scaffold.Schema

open Text

/-! ### Arguments one by one -/

/-- To prove something of all arguments is to prove it of one, and of one and more behind a
comma. -/
theorem arguments_induction {motive : List Char → Prop}
    (one : ∀ argument, ',' ∉ argument → motive argument)
    (more : ∀ argument rest, ',' ∉ argument → motive rest → motive (argument ++ ',' :: rest))
    (arguments : List Char) : motive arguments := by
  cases hcut : cutAt? ',' arguments with
  | none => exact one arguments (cutAt?_eq_none_iff.mp hcut)
  | some cut =>
    obtain ⟨argument, rest⟩ := cut
    obtain ⟨htext, hargument⟩ := cutAt?_eq_some.mp hcut
    have hshorter : rest.length < arguments.length := by
      rw [htext, List.length_append, List.length_cons]
      omega
    rw [htext]
    exact more argument rest hargument (arguments_induction one more rest)
termination_by arguments.length

/-- The argument that stands last. -/
def lastArgument (arguments : List Char) : List Char :=
  (arguments.splitOn ',').getLast?.getD []

theorem lastArgument_eq_self {argument : List Char} (h : ',' ∉ argument) :
    lastArgument argument = argument := by
  rw [lastArgument, List.splitOn_eq_singleton h]
  rfl

theorem lastArgument_append (argument rest : List Char) :
    lastArgument (argument ++ ',' :: rest) = lastArgument rest := by
  have hne : rest.splitOn ',' ≠ [] := List.splitOn_ne_nil ',' rest
  rw [lastArgument, lastArgument, List.splitOn_append_cons_self, List.getLast?_append,
    List.getLast?_eq_some_getLast hne, Option.some_or]

/-- The key that some arguments declare. -/
def keyIn? (arguments : List Char) : Option String :=
  (arguments.splitOn ',').findSome? keyOfArgument?

theorem keyIn?_of_argument {argument : List Char} (h : ',' ∉ argument) :
    keyIn? argument = keyOfArgument? argument := by
  rw [keyIn?, List.splitOn_eq_singleton h, List.findSome?_singleton]

theorem keyIn?_append (first second : List Char) :
    keyIn? (first ++ ',' :: second) = (keyIn? first).or (keyIn? second) := by
  rw [keyIn?, List.splitOn_append_cons_self, List.findSome?_append]
  rfl

theorem keyName?_eq (arguments : List Char) :
    keyName? arguments = (cutAt? ']' arguments).bind fun cut => keyIn? cut.2 := rfl

/-! ### Keys -/

/-- Whether a text is what stands before the quotes of a key: `name` and a colon. -/
def isKeyLabel (text : List Char) : Bool :=
  ((dropPrefix? "name".toList (trimLeft text)).bind fun rest =>
    dropPrefix? [':'] (trimLeft rest)).any fun rest => (trimLeft rest).isEmpty

/-- The key that the text behind an opening quote holds, if it is ended and not empty. -/
def quotedKey? (text : List Char) : Option String :=
  (cutAt? '"' text).bind fun (key, _) => if key.isEmpty then none else some (String.ofList key)

/-- Blank space behind a text does not change the key. -/
theorem quotedKey?_trimRight (text : List Char) :
    quotedKey? (trimRight text) = quotedKey? text := by
  obtain ⟨right, hright, happend⟩ := exists_trimRight_append text
  have hquote : '"' ∉ right := hright.not_mem (by decide)
  cases hcut : cutAt? '"' (trimRight text) with
  | some cut =>
    have := cutAt?_append_of_eq_some hcut right
    rw [happend] at this
    rw [quotedKey?, quotedKey?, hcut, this]
    rfl
  | none =>
    have hnone := cutAt?_append_of_not_mem (cutAt?_eq_none_iff.mp hcut) right
    rw [happend, cutAt?_eq_none_iff.mpr hquote] at hnone
    rw [quotedKey?, quotedKey?, hcut, hnone]
    rfl

/-- What is left behind a beginning and blank space is part of the text. -/
theorem mem_of_dropPrefix? {start text rest : List Char}
    (h : dropPrefix? start (trimLeft text) = some rest) {c : Char} (hc : c ∈ rest) : c ∈ text := by
  have hleft : c ∈ trimLeft text := by
    rw [dropPrefix?_eq_some_iff.mp h]
    exact List.mem_append_right _ hc
  exact (List.dropWhile_suffix isBlank).subset hleft

/-- Without quotes there is no key. -/
theorem keyOfArgument?_of_not_mem {argument : List Char} (h : '"' ∉ argument) :
    keyOfArgument? argument = none := by
  cases hkey : keyOfArgument? argument with
  | none => rfl
  | some key =>
    obtain ⟨rest, hname, hkey⟩ := Option.bind_eq_some_iff.mp hkey
    obtain ⟨value, hcolon, hkey⟩ := Option.bind_eq_some_iff.mp hkey
    obtain ⟨inner, hquote, -⟩ := Option.bind_eq_some_iff.mp hkey
    have hvalue : '"' ∈ value := by
      apply (List.dropWhile_suffix isBlank).subset
      change '"' ∈ trimLeft value
      rw [dropPrefix?_eq_some_iff.mp hquote]
      exact List.mem_cons_self ..
    have hrest : '"' ∈ trim argument := by
      rw [dropPrefix?_eq_some_iff.mp hname]
      exact List.mem_append_right _ (mem_of_dropPrefix? hcolon hvalue)
    exact absurd ((trim_isInfix argument).subset hrest) h

/-- An argument declares the key in its first quotes, if `name` and a colon stand before them. -/
theorem keyOfArgument?_eq {label : List Char} (h : '"' ∉ label) (behind : List Char) :
    keyOfArgument? (label ++ '"' :: behind) =
      if isKeyLabel label then quotedKey? behind else none := by
  have htrim : trim (label ++ '"' :: behind) = trimLeft label ++ '"' :: trimRight behind := by
    rw [trim, trimLeft_append_cons (by decide), trimRight_append_cons (by decide)]
  rw [keyOfArgument?, htrim, dropPrefix?_append_cons (by decide), isKeyLabel]
  cases hname : dropPrefix? "name".toList (trimLeft label) with
  | none => rfl
  | some rest =>
    rw [Option.map_some, Option.bind_some, Option.bind_some, trimLeft_append_cons (by decide),
      dropPrefix?_append_cons (by decide)]
    cases hcolon : dropPrefix? [':'] (trimLeft rest) with
    | none => rfl
    | some value =>
      rw [Option.map_some, Option.bind_some, Option.any_some, trimLeft_append_cons (by decide)]
      cases hvalue : trimLeft value with
      | nil =>
        rw [List.nil_append, List.isEmpty_nil, if_pos rfl, ← quotedKey?_trimRight]
        rfl
      | cons d more =>
        -- What stands behind the colon is no quote, for the label holds none.
        have hd : d ∈ label := by
          apply mem_of_dropPrefix? hname
          apply mem_of_dropPrefix? hcolon
          apply (List.dropWhile_suffix isBlank).subset
          change d ∈ trimLeft value
          rw [hvalue]
          exact List.mem_cons_self ..
        have hquote : '"' ≠ d := by
          rintro rfl
          exact h hd
        rw [List.cons_append, dropPrefix?_eq_none hquote]
        rfl

theorem mem_trimLeft {text : List Char} {c : Char} (h : c ∈ text) (hc : isBlank c = false) :
    c ∈ trimLeft text := by
  rw [← takeWhile_append_trimLeft text, List.mem_append] at h
  exact h.resolve_left ((isBlankText_takeWhile text).not_mem hc)

/-- A label is its letters, the colon and blank space. -/
theorem mem_of_isKeyLabel {label : List Char} (h : isKeyLabel label = true) {c : Char}
    (hc : c ∈ label) (hblank : isBlank c = false) : c ∈ "name:".toList := by
  obtain ⟨value, hvalue, hempty⟩ := (Option.any_eq_true ..).mp h
  obtain ⟨rest, hname, hcolon⟩ := Option.bind_eq_some_iff.mp hvalue
  have hlabel := mem_trimLeft hc hblank
  rw [dropPrefix?_eq_some_iff.mp hname, List.mem_append] at hlabel
  rcases hlabel with hletter | hrest
  · exact List.mem_append_left [':'] hletter
  · have hbehind := mem_trimLeft hrest hblank
    rw [dropPrefix?_eq_some_iff.mp hcolon, List.mem_append] at hbehind
    rcases hbehind with hletter | hmore
    · exact List.mem_append_right "name".toList hletter
    · have hend := mem_trimLeft hmore hblank
      rw [List.isEmpty_iff.mp hempty] at hend
      cases hend

/-! ### Lists -/

/-- The text of the first list in brackets. -/
def listText? (arguments : List Char) : Option (List Char) :=
  (cutAt? '[' arguments).bind fun opened => (cutAt? ']' opened.2).map Prod.fst

/-- The entries of a list. -/
def listEntries (list : List Char) : List String :=
  (((list.splitOn ',').map trim).filter fun entry => !entry.isEmpty).map String.ofList

theorem fieldList?_eq (arguments : List Char) :
    fieldList? arguments = (listText? arguments).map listEntries := by
  rw [fieldList?, listText?, Option.map_bind]
  congr 1
  funext opened
  rw [Function.comp_apply, Option.map_map]
  rfl

theorem isSome_fieldList? (arguments : List Char) :
    (fieldList? arguments).isSome = (listText? arguments).isSome := by
  rw [fieldList?_eq, Option.isSome_map]

/-- A list that is closed is not changed by what follows. -/
theorem listText?_append {arguments list : List Char} (h : listText? arguments = some list)
    (more : List Char) : listText? (arguments ++ more) = some list := by
  obtain ⟨⟨before, inner⟩, hopen, hlist⟩ := Option.bind_eq_some_iff.mp h
  obtain ⟨⟨list, after⟩, hclose, rfl⟩ := Option.map_eq_some_iff.mp hlist
  rw [listText?, cutAt?_append_of_eq_some hopen, Option.bind_some,
    cutAt?_append_of_eq_some hclose]
  rfl

/-- Text without an opening bracket stands before the list. -/
theorem listText?_append_of_not_mem {text : List Char} (h : '[' ∉ text) (arguments : List Char) :
    listText? (text ++ arguments) = listText? arguments := by
  rw [listText?, listText?, cutAt?_append_of_not_mem h]
  cases cutAt? '[' arguments with
  | none => rfl
  | some opened => rfl

theorem listText?_of_not_mem {arguments : List Char} (h : '[' ∉ arguments) :
    listText? arguments = none := by
  rw [listText?, cutAt?_eq_none_iff.mpr h]
  rfl

/-- Without a closing bracket behind an opening one there is no list. -/
theorem listText?_eq_none {arguments : List Char} (h : ']' ∉ arguments) :
    listText? arguments = none := by
  cases hlist : listText? arguments with
  | none => rfl
  | some list =>
    obtain ⟨⟨before, inner⟩, hopen, hlist⟩ := Option.bind_eq_some_iff.mp hlist
    obtain ⟨⟨_, after⟩, hclose, -⟩ := Option.map_eq_some_iff.mp hlist
    have hinner : inner = _ := (cutAt?_eq_some.mp hclose).1
    rw [(cutAt?_eq_some.mp hopen).1, hinner] at h
    simp at h

/-- Text without a closing bracket does not complete a list. -/
theorem listText?_append_eq_none {arguments more : List Char} (h : listText? arguments = none)
    (hmore : ']' ∉ more) : listText? (arguments ++ more) = none := by
  cases hopen : cutAt? '[' arguments with
  | none =>
    rw [listText?_append_of_not_mem (cutAt?_eq_none_iff.mp hopen), listText?_eq_none hmore]
  | some opened =>
    obtain ⟨before, inner⟩ := opened
    rw [listText?, hopen, Option.bind_some, Option.map_eq_none_iff, cutAt?_eq_none_iff] at h
    rw [listText?, cutAt?_append_of_eq_some hopen, Option.bind_some,
      cutAt?_eq_none_iff.mpr (by simp [h, hmore])]
    rfl

/-- The key is looked for behind the first closing bracket, and a list has one. -/
theorem exists_cutAt?_of_listText? {arguments list : List Char}
    (h : listText? arguments = some list) : ∃ cut, cutAt? ']' arguments = some cut := by
  cases hcut : cutAt? ']' arguments with
  | some cut => exact ⟨cut, rfl⟩
  | none =>
    rw [listText?_eq_none (cutAt?_eq_none_iff.mp hcut)] at h
    cases h

/-- Text without a closing bracket stands before what the key is looked for in. -/
theorem keyName?_append_of_not_mem {text : List Char} (h : ']' ∉ text) (arguments : List Char) :
    keyName? (text ++ arguments) = keyName? arguments := by
  rw [keyName?_eq, keyName?_eq, cutAt?_append_of_not_mem h]
  cases cutAt? ']' arguments with
  | none => rfl
  | some cut => rfl

/-! ### Comments -/

/-- Whether an argument begins a key that it does not end. -/
def beginsKey (argument : List Char) : Bool :=
  (cutAt? '"' argument).any fun (label, key) => isKeyLabel label && !key.contains '"'

/-- Whether arguments end in a key that is not ended. -/
def leavesKeyOpen (arguments : List Char) : Bool :=
  (cutAt? ']' arguments).any fun (_, behind) => beginsKey (lastArgument behind)

/-- A comment that neither completes a list nor holds a key that the arguments before it lack. -/
structure IsAside (arguments comment : List Char) : Prop where
  list : (fieldList? arguments).isSome ∨ ']' ∉ comment ∨ '[' ∉ arguments ∧ '[' ∉ comment
  key : (fieldList? arguments).isSome → (keyName? arguments).isSome ∨
    (∀ cut ∈ cutAt? ',' comment, keyIn? cut.2 = none) ∧
      (leavesKeyOpen arguments = true → '"' ∉ comment)

/-- Blank space behind arguments declares no key. -/
theorem keyIn?_append_blank {pad : List Char} (hpad : IsBlankText pad) (arguments : List Char) :
    keyIn? (arguments ++ pad) = keyIn? arguments := by
  induction arguments using arguments_induction with
  | one argument hargument =>
    have hcomma : ',' ∉ argument ++ pad := by
      have hblank : ',' ∉ pad := hpad.not_mem (by decide)
      simp [hargument, hblank]
    rw [keyIn?_of_argument hcomma, keyIn?_of_argument hargument, keyOfArgument?, keyOfArgument?,
      trim_append_right hpad]
  | more argument rest hargument ih =>
    rw [List.append_assoc, List.cons_append, keyIn?_append, keyIn?_append, ih]

theorem IsAside.trimRight {arguments comment : List Char} (h : IsAside arguments comment) :
    IsAside arguments (trimRight comment) := by
  obtain ⟨right, hright, happend⟩ := exists_trimRight_append comment
  have hnone : ∀ {c : Char}, c ∉ comment → c ∉ Text.trimRight comment := by
    intro c hc mem
    rw [← happend] at hc
    exact hc (List.mem_append_left _ mem)
  constructor
  · exact h.list.imp_right fun hlist => hlist.imp hnone fun ⟨hopen, hinner⟩ => ⟨hopen, hnone hinner⟩
  · refine fun hlist => (h.key hlist).imp_right fun ⟨hkey, hopen⟩ => ⟨?_, fun h => hnone (hopen h)⟩
    intro cut hcut
    have hwhole := cutAt?_append_of_eq_some (Option.mem_def.mp hcut) right
    rw [happend] at hwhole
    have hbehind := hkey _ hwhole
    rwa [keyIn?_append_blank hright] at hbehind

theorem quotedKey?_append {text : List Char} (h : '"' ∈ text) (more : List Char) :
    quotedKey? (text ++ more) = quotedKey? text := by
  cases hcut : cutAt? '"' text with
  | none => exact absurd h (cutAt?_eq_none_iff.mp hcut)
  | some cut =>
    rw [quotedKey?, quotedKey?, hcut, cutAt?_append_of_eq_some hcut]
    rfl

theorem quotedKey?_of_not_mem {text : List Char} (h : '"' ∉ text) : quotedKey? text = none := by
  rw [quotedKey?, cutAt?_eq_none_iff.mpr h]
  rfl

/-- A key that is declared stays declared if the argument goes on. -/
theorem keyOfArgument?_append {argument : List Char} (h : (keyOfArgument? argument).isSome)
    (more : List Char) : keyOfArgument? (argument ++ more) = keyOfArgument? argument := by
  cases hcut : cutAt? '"' argument with
  | none =>
    rw [keyOfArgument?_of_not_mem (cutAt?_eq_none_iff.mp hcut)] at h
    cases h
  | some cut =>
    obtain ⟨label, key⟩ := cut
    obtain ⟨rfl, hlabel⟩ := cutAt?_eq_some.mp hcut
    rw [keyOfArgument?_eq hlabel] at h
    rw [List.append_assoc, List.cons_append, keyOfArgument?_eq hlabel, keyOfArgument?_eq hlabel]
    split
    next hkey =>
      rw [if_pos hkey] at h
      by_cases hquote : '"' ∈ key
      · exact quotedKey?_append hquote more
      · rw [quotedKey?_of_not_mem hquote] at h
        cases h
    next => rfl

/-- The text of a comment, up to its first comma, does not declare a key in the argument before
it. -/
theorem keyOfArgument?_append_comment {argument comment : List Char} {pad : List Char}
    (hpad : IsBlankText pad)
    (hopen : beginsKey argument = true → '"' ∉ comment) :
    keyOfArgument? (argument ++ (pad ++ '/' :: '/' :: comment)) = keyOfArgument? argument := by
  have hblank : '"' ∉ pad := hpad.not_mem (by decide)
  cases hcut : cutAt? '"' argument with
  | none =>
    have hargument := cutAt?_eq_none_iff.mp hcut
    rw [keyOfArgument?_of_not_mem hargument]
    cases hcomment : cutAt? '"' comment with
    | none =>
      have hnone := cutAt?_eq_none_iff.mp hcomment
      exact keyOfArgument?_of_not_mem (by simp [hargument, hblank, hnone])
    | some cut =>
      -- The first quote is one of the comment, and the slashes before it are no part of a label.
      obtain ⟨before, behind⟩ := cut
      obtain ⟨rfl, hbefore⟩ := cutAt?_eq_some.mp hcomment
      have hlabel : '"' ∉ argument ++ (pad ++ '/' :: '/' :: before) := by
        simp [hargument, hblank, hbefore]
      have htext : argument ++ (pad ++ '/' :: '/' :: (before ++ '"' :: behind)) =
          (argument ++ (pad ++ '/' :: '/' :: before)) ++ '"' :: behind := by
        simp
      rw [htext, keyOfArgument?_eq hlabel, if_neg]
      intro hkey
      have hslash : '/' ∈ argument ++ (pad ++ '/' :: '/' :: before) := by simp
      exact absurd (mem_of_isKeyLabel hkey hslash (by decide)) (by decide)
  | some cut =>
    obtain ⟨label, key⟩ := cut
    obtain ⟨rfl, hlabel⟩ := cutAt?_eq_some.mp hcut
    rw [List.append_assoc, List.cons_append, keyOfArgument?_eq hlabel, keyOfArgument?_eq hlabel]
    split
    next hkey =>
      by_cases hend : '"' ∈ key
      · exact quotedKey?_append hend _
      · -- The key is left open, and only the comment could close it.
        have hnone : '"' ∉ comment := by
          apply hopen
          rw [beginsKey, hcut]
          simp [hkey, hend]
        rw [quotedKey?_of_not_mem hend, quotedKey?_of_not_mem (by simp [hend, hblank, hnone])]
    next => rfl

/-- A comment behind one argument declares no key. -/
theorem keyIn?_argument_comment {argument comment pad : List Char} (hargument : ',' ∉ argument)
    (hpad : IsBlankText pad)
    (h : (keyOfArgument? argument).isSome ∨
      (∀ cut ∈ cutAt? ',' comment, keyIn? cut.2 = none) ∧
        (beginsKey argument = true → '"' ∉ comment)) :
    keyIn? (argument ++ (pad ++ '/' :: '/' :: comment)) = keyOfArgument? argument := by
  have here : ∀ first : List Char, ('"' ∉ comment → '"' ∉ first) →
      keyOfArgument? (argument ++ (pad ++ '/' :: '/' :: first)) = keyOfArgument? argument := by
    intro first hfirst
    rcases h with hkey | ⟨-, hopen⟩
    · exact keyOfArgument?_append hkey _
    · exact keyOfArgument?_append_comment hpad fun hleft => hfirst (hopen hleft)
  have hcomma : ∀ first : List Char, ',' ∉ first →
      ',' ∉ argument ++ (pad ++ '/' :: '/' :: first) := by
    intro first hfirst
    have hblank : ',' ∉ pad := hpad.not_mem (by decide)
    simp [hargument, hblank, hfirst]
  cases hcut : cutAt? ',' comment with
  | none =>
    rw [keyIn?_of_argument (hcomma comment (cutAt?_eq_none_iff.mp hcut))]
    exact here comment id
  | some cut =>
    obtain ⟨first, behind⟩ := cut
    obtain ⟨htext, hfirst⟩ := cutAt?_eq_some.mp hcut
    have hquote : '"' ∉ comment → '"' ∉ first := by
      rw [htext]
      exact fun hnone mem => hnone (List.mem_append_left _ mem)
    have hassoc : argument ++ (pad ++ '/' :: '/' :: comment) =
        (argument ++ (pad ++ '/' :: '/' :: first)) ++ ',' :: behind := by
      simp [htext]
    rw [hassoc, keyIn?_append, keyIn?_of_argument (hcomma first hfirst), here first hquote]
    rcases h with hkey | ⟨hnone, -⟩
    · exact Option.or_of_isSome hkey
    · rw [hnone _ hcut, Option.or_none]

/-- A comment behind arguments declares no key. -/
theorem keyIn?_append_comment {arguments comment pad : List Char} (hpad : IsBlankText pad)
    (h : (keyIn? arguments).isSome ∨
      (∀ cut ∈ cutAt? ',' comment, keyIn? cut.2 = none) ∧
        (beginsKey (lastArgument arguments) = true → '"' ∉ comment)) :
    keyIn? (arguments ++ (pad ++ '/' :: '/' :: comment)) = keyIn? arguments := by
  induction arguments using arguments_induction with
  | one argument hargument =>
    rw [lastArgument_eq_self hargument, keyIn?_of_argument hargument] at h
    rw [keyIn?_of_argument hargument]
    exact keyIn?_argument_comment hargument hpad h
  | more argument rest hargument ih =>
    rw [List.append_assoc, List.cons_append, keyIn?_append, keyIn?_append]
    rw [keyIn?_append, lastArgument_append] at h
    cases hkey : keyIn? argument with
    | some key => rfl
    | none =>
      rw [hkey, Option.none_or] at h
      rw [Option.none_or, Option.none_or]
      exact ih h

/-- A comment completes no list that the arguments before it lack. -/
theorem listText?_append_comment {arguments comment pad : List Char} (hpad : IsBlankText pad)
    (h : IsAside arguments comment) :
    listText? (arguments ++ (pad ++ '/' :: '/' :: comment)) = listText? arguments := by
  have hcomplete := isSome_fieldList? arguments
  cases hlist : listText? arguments with
  | some list => exact listText?_append hlist _
  | none =>
    rw [hlist, Option.isSome_none] at hcomplete
    rcases h.list with hsome | hclose | ⟨hopen, hinner⟩
    · rw [hcomplete] at hsome
      cases hsome
    · have hblank : ']' ∉ pad := hpad.not_mem (by decide)
      exact listText?_append_eq_none hlist (by simp [hclose, hblank])
    · have hblank : '[' ∉ pad := hpad.not_mem (by decide)
      exact listText?_of_not_mem (by simp [hopen, hinner, hblank])

/-- A comment is no part of the arguments before it, if it holds nothing that they lack. -/
theorem ofArguments?_append_comment {arguments comment pad : List Char} (hpad : IsBlankText pad)
    (h : IsAside arguments comment) :
    CompositeId.ofArguments? (arguments ++ (pad ++ '/' :: '/' :: comment)) =
      CompositeId.ofArguments? arguments := by
  rw [CompositeId.ofArguments?, CompositeId.ofArguments?, fieldList?_eq, fieldList?_eq,
    listText?_append_comment hpad h]
  cases hlist : listText? arguments with
  | none => rfl
  | some list =>
    have hkey : keyName? (arguments ++ (pad ++ '/' :: '/' :: comment)) = keyName? arguments := by
      obtain ⟨⟨before, behind⟩, hcut⟩ := exists_cutAt?_of_listText? hlist
      have hcase := h.key (by rw [isSome_fieldList?, hlist, Option.isSome_some])
      rw [keyName?_eq, hcut, Option.bind_some, leavesKeyOpen, hcut, Option.any_some] at hcase
      rw [keyName?_eq, keyName?_eq, hcut, cutAt?_append_of_eq_some hcut, Option.bind_some,
        Option.bind_some]
      exact keyIn?_append_comment hpad hcase
    rw [hkey]

/-! ### Literals -/

/-- Whether a quote behind the arguments begins the key. -/
def expectsKey (arguments : List Char) : Bool :=
  (cutAt? ']' arguments).any fun (_, behind) => isKeyLabel (lastArgument behind)

/-- What a literal behind some arguments holds, if it is not the key: it stands behind the list, or
before it and holds no bracket; and it does not end as if a key followed. -/
structure IsInert (arguments content : List Char) : Prop where
  list : (fieldList? arguments).isSome ∨ '[' ∉ arguments ∧ '[' ∉ content ∧ ']' ∉ content
  label : expectsKey arguments = false
  ending : expectsKey (arguments ++ '"' :: content) = false

/-- A backslash stands before every quote of the text. -/
def QuotesEscaped (text : List Char) : Prop :=
  ∀ before after, text = before ++ '"' :: after → before.getLast? = some '\\'

theorem quotesEscaped_of_isLiteral {content : List Char} (h : isLiteral .quoted content = true) :
    QuotesEscaped content := by
  rintro before after rfl
  rcases getLast?_of_isLiteral (by simp) h with ⟨hmode, -⟩ | hlast
  · cases hmode
  · exact hlast

/-- In each argument of such a text a backslash stands before every quote. -/
theorem QuotesEscaped.of_append {argument rest : List Char}
    (h : QuotesEscaped (argument ++ ',' :: rest)) :
    QuotesEscaped argument ∧ QuotesEscaped rest := by
  constructor
  · rintro before after rfl
    exact h before (after ++ ',' :: rest) (by simp)
  · rintro before after rfl
    have hlast := h (argument ++ ',' :: before) after (by simp)
    rw [List.getLast?_append, List.getLast?_cons] at hlast
    cases hbefore : before.getLast? with
    | none => simp [hbefore] at hlast
    | some c => simpa [hbefore] using hlast

/-- A label does not end with a backslash. -/
theorem isKeyLabel_eq_false_of_getLast? {label : List Char} (h : label.getLast? = some '\\') :
    isKeyLabel label = false := by
  cases hkey : isKeyLabel label with
  | false => rfl
  | true =>
    have := mem_of_isKeyLabel hkey (List.mem_of_getLast? h) (by decide)
    exact absurd this (by decide)

/-- An escaped quote begins no key. -/
theorem keyOfArgument?_of_quotesEscaped {argument : List Char} (h : QuotesEscaped argument) :
    keyOfArgument? argument = none := by
  cases hcut : cutAt? '"' argument with
  | none => exact keyOfArgument?_of_not_mem (cutAt?_eq_none_iff.mp hcut)
  | some cut =>
    obtain ⟨label, behind⟩ := cut
    obtain ⟨rfl, hlabel⟩ := cutAt?_eq_some.mp hcut
    rw [keyOfArgument?_eq hlabel, isKeyLabel_eq_false_of_getLast? (h label behind rfl)]
    rfl

/-- The end of a literal begins no key, if none is expected there. -/
theorem keyIn?_of_quotesEscaped {text : List Char} (h : QuotesEscaped text)
    (hlabel : isKeyLabel (lastArgument text) = false) {tail : List Char} (htail : ',' ∉ tail) :
    keyIn? (text ++ '"' :: tail) = none := by
  induction text using arguments_induction with
  | one argument hargument =>
    rw [lastArgument_eq_self hargument] at hlabel
    rw [keyIn?_of_argument (by simp [hargument, htail])]
    cases hcut : cutAt? '"' argument with
    | none =>
      rw [keyOfArgument?_eq (cutAt?_eq_none_iff.mp hcut), hlabel]
      rfl
    | some cut =>
      obtain ⟨label, behind⟩ := cut
      obtain ⟨rfl, hquote⟩ := cutAt?_eq_some.mp hcut
      rw [List.append_assoc, List.cons_append, keyOfArgument?_eq hquote,
        isKeyLabel_eq_false_of_getLast? (h label behind rfl)]
      rfl
  | more argument rest hargument ih =>
    obtain ⟨hfirst, hrest⟩ := h.of_append
    rw [lastArgument_append] at hlabel
    rw [List.append_assoc, List.cons_append, keyIn?_append, keyIn?_of_argument hargument,
      keyOfArgument?_of_quotesEscaped hfirst, Option.none_or]
    exact ih hrest hlabel

/-- Behind a quote that does not begin the key, an argument has its key already or has none. -/
theorem keyOfArgument?_literal {argument : List Char} (h : isKeyLabel argument = false)
    (tail other : List Char) :
    keyOfArgument? (argument ++ '"' :: tail) = keyOfArgument? (argument ++ '"' :: other) := by
  cases hcut : cutAt? '"' argument with
  | none =>
    have hquote := cutAt?_eq_none_iff.mp hcut
    rw [keyOfArgument?_eq hquote, keyOfArgument?_eq hquote, h]
    rfl
  | some cut =>
    obtain ⟨label, key⟩ := cut
    obtain ⟨rfl, hlabel⟩ := cutAt?_eq_some.mp hcut
    have hkey : ∀ more : List Char,
        quotedKey? (key ++ '"' :: more) = quotedKey? (key ++ ['"']) := by
      intro more
      have hclosed : '"' ∈ key ++ ['"'] := by simp
      have := quotedKey?_append hclosed more
      rwa [List.append_assoc, List.singleton_append] at this
    rw [List.append_assoc, List.append_assoc, List.cons_append, List.cons_append,
      keyOfArgument?_eq hlabel, keyOfArgument?_eq hlabel, hkey tail, hkey other]

/-- What a literal holds declares no key, in the argument that the literal ends. -/
theorem keyIn?_argument_literal {argument content first : List Char} (hargument : ',' ∉ argument)
    (hcontent : QuotesEscaped content) (hlabel : isKeyLabel argument = false)
    (hending : isKeyLabel (lastArgument (argument ++ '"' :: content)) = false)
    (hfirst : ',' ∉ first) :
    keyIn? (argument ++ '"' :: (content ++ '"' :: first)) =
      keyIn? (argument ++ '"' :: '"' :: first) := by
  have hempty : ',' ∉ argument ++ '"' :: '"' :: first := by simp [hargument, hfirst]
  rw [keyIn?_of_argument hempty]
  cases hcut : cutAt? ',' content with
  | none =>
    have hnone := cutAt?_eq_none_iff.mp hcut
    rw [keyIn?_of_argument (by simp [hargument, hnone, hfirst])]
    exact keyOfArgument?_literal hlabel _ _
  | some cut =>
    obtain ⟨before, rest⟩ := cut
    obtain ⟨rfl, hbefore⟩ := cutAt?_eq_some.mp hcut
    have hassoc : argument ++ '"' :: (before ++ ',' :: rest) =
        (argument ++ '"' :: before) ++ ',' :: rest := by
      simp
    rw [hassoc, lastArgument_append] at hending
    have hsplit : argument ++ '"' :: (before ++ ',' :: rest ++ '"' :: first) =
        (argument ++ '"' :: before) ++ ',' :: (rest ++ '"' :: first) := by
      simp
    rw [hsplit, keyIn?_append, keyIn?_of_argument (by simp [hargument, hbefore]),
      keyIn?_of_quotesEscaped hcontent.of_append.2 hending hfirst, Option.or_none]
    exact keyOfArgument?_literal hlabel _ _

/-- What a literal behind some arguments holds declares no key, if the literal is not the key. -/
theorem keyIn?_literal {arguments content : List Char} (hcontent : QuotesEscaped content)
    (hlabel : isKeyLabel (lastArgument arguments) = false)
    (hending : isKeyLabel (lastArgument (arguments ++ '"' :: content)) = false)
    (tail : List Char) :
    keyIn? (arguments ++ '"' :: (content ++ '"' :: tail)) =
      keyIn? (arguments ++ '"' :: '"' :: tail) := by
  induction arguments using arguments_induction with
  | one argument hargument =>
    rw [lastArgument_eq_self hargument] at hlabel
    have here : ∀ first : List Char, ',' ∉ first →
        keyIn? (argument ++ '"' :: (content ++ '"' :: first)) =
          keyIn? (argument ++ '"' :: '"' :: first) :=
      fun first => keyIn?_argument_literal hargument hcontent hlabel hending
    cases hcut : cutAt? ',' tail with
    | none => exact here tail (cutAt?_eq_none_iff.mp hcut)
    | some cut =>
      obtain ⟨first, later⟩ := cut
      obtain ⟨rfl, hfirst⟩ := cutAt?_eq_some.mp hcut
      have hassoc : ∀ inner : List Char,
          argument ++ '"' :: (inner ++ '"' :: (first ++ ',' :: later)) =
            (argument ++ '"' :: (inner ++ '"' :: first)) ++ ',' :: later := by
        simp
      have hempty := hassoc []
      rw [List.nil_append, List.nil_append] at hempty
      rw [hassoc, hempty, keyIn?_append, keyIn?_append, here first hfirst]
  | more argument rest hargument ih =>
    rw [lastArgument_append] at hlabel
    rw [List.append_assoc, List.cons_append, lastArgument_append] at hending
    rw [List.append_assoc, List.append_assoc, List.cons_append, List.cons_append, keyIn?_append,
      keyIn?_append, ih hlabel hending]

/-- What a literal holds has no part in the list. -/
theorem listText?_literal {arguments content : List Char} (h : IsInert arguments content)
    (tail : List Char) :
    listText? (arguments ++ '"' :: (content ++ '"' :: tail)) =
      listText? (arguments ++ '"' :: '"' :: tail) := by
  rcases h.list with hlist | ⟨harguments, hinner, -⟩
  · rw [isSome_fieldList?] at hlist
    obtain ⟨list, hlist⟩ := Option.isSome_iff_exists.mp hlist
    rw [listText?_append hlist, listText?_append hlist]
  · have hfront : '[' ∉ arguments ++ '"' :: (content ++ ['"']) := by simp [harguments, hinner]
    have hempty : '[' ∉ arguments ++ ['"', '"'] := by simp [harguments]
    have hfilled := listText?_append_of_not_mem hfront tail
    have hemptied := listText?_append_of_not_mem hempty tail
    simp only [List.append_assoc, List.cons_append, List.nil_append] at hfilled hemptied
    rw [hfilled, hemptied]

/-- What a literal holds has no part in the key. -/
theorem keyName?_literal {arguments content : List Char}
    (hcontent : isLiteral .quoted content = true) (h : IsInert arguments content)
    (tail : List Char) :
    keyName? (arguments ++ '"' :: (content ++ '"' :: tail)) =
      keyName? (arguments ++ '"' :: '"' :: tail) := by
  cases hcut : cutAt? ']' arguments with
  | some cut =>
    have hlabel := h.label
    have hending := h.ending
    rw [expectsKey, hcut, Option.any_some] at hlabel
    rw [expectsKey, cutAt?_append_of_eq_some hcut, Option.any_some] at hending
    rw [keyName?_eq, keyName?_eq, cutAt?_append_of_eq_some hcut, cutAt?_append_of_eq_some hcut,
      Option.bind_some, Option.bind_some]
    exact keyIn?_literal (quotesEscaped_of_isLiteral hcontent) hlabel hending tail
  | none =>
    have hbracket := cutAt?_eq_none_iff.mp hcut
    have hclose : ']' ∉ content := by
      rcases h.list with hlist | ⟨-, -, hclose⟩
      · rw [isSome_fieldList?, listText?_eq_none hbracket] at hlist
        cases hlist
      · exact hclose
    have hfront : ']' ∉ arguments ++ '"' :: (content ++ ['"']) := by simp [hbracket, hclose]
    have hempty : ']' ∉ arguments ++ ['"', '"'] := by simp [hbracket]
    have hfilled := keyName?_append_of_not_mem hfront tail
    have hemptied := keyName?_append_of_not_mem hempty tail
    simp only [List.append_assoc, List.cons_append, List.nil_append] at hfilled hemptied
    rw [hfilled, hemptied]

/-- What a literal holds is no part of the arguments that it stands in, if it is inert. -/
theorem ofArguments?_literal {arguments content : List Char}
    (hcontent : isLiteral .quoted content = true) (h : IsInert arguments content)
    (tail : List Char) :
    CompositeId.ofArguments? (arguments ++ '"' :: (content ++ '"' :: tail)) =
      CompositeId.ofArguments? (arguments ++ '"' :: '"' :: tail) := by
  rw [CompositeId.ofArguments?, CompositeId.ofArguments?, fieldList?_eq, fieldList?_eq,
    listText?_literal h, keyName?_literal hcontent h]

end Scaffold.Schema
