import Scaffold.Proofs.Schema.Draft
import Scaffold.Proofs.Schema.IdentityText

/-!
Composite identities whose arguments are named: the list of fields, and before and behind it
arguments with a string for their value, the name of the lookup key and the name of the constraint.
However they are ordered and spaced, the fields are read as they are listed, and the key is the
`name` behind the list (`NamedIdentity.reads_as_listed`). A `name` before the list is not read: what
follows the list is all that a key is looked for in.
-/

namespace Scaffold.Schema

open Text

/-! ### Named arguments -/

/-- What an argument with a string for its value is named. -/
inductive StringLabel where
  /-- The lookup key. -/
  | name
  /-- The constraint of the database. -/
  | map
deriving DecidableEq

def StringLabel.text : StringLabel → List Char
  | .name => "name".toList
  | .map => "map".toList

/-- An argument `label: "value"`, and the blank space around its parts. -/
structure StringArgument where
  left : Margin
  label : StringLabel
  beforeColon : Margin
  behindColon : Margin
  value : Name
  right : Margin

namespace StringArgument

/-- The label of the argument, up to its value. -/
def head (argument : StringArgument) : List Char :=
  argument.left.text ++ (argument.label.text ++
    (argument.beforeColon.text ++ ':' :: argument.behindColon.text))

def text (argument : StringArgument) : List Char :=
  argument.head ++ '"' :: (argument.value.text ++ '"' :: argument.right.text)

/-- The lookup key that the argument names. -/
def key? (argument : StringArgument) : Option String :=
  match argument.label with
  | .name => some argument.value.string
  | .map => none

end StringArgument

/-- A field in a list, and the blank space around it. -/
structure ListedField where
  left : Margin
  name : Name
  right : Margin

def ListedField.text (listed : ListedField) : List Char :=
  listed.left.text ++ listed.name.text ++ listed.right.text

/-- The argument `fields: [..]`, and the blank space around its parts. -/
structure ListArgument where
  left : Margin
  beforeColon : Margin
  behindColon : Margin
  listed : List ListedField
  listed_ne_nil : listed ≠ []
  right : Margin

namespace ListArgument

/-- The label of the argument, up to its opening bracket. -/
def head (argument : ListArgument) : List Char :=
  argument.left.text ++ ("fields".toList ++
    (argument.beforeColon.text ++ ':' :: argument.behindColon.text))

/-- What stands in the brackets. -/
def list (argument : ListArgument) : List Char :=
  [','].intercalate (argument.listed.map ListedField.text)

def text (argument : ListArgument) : List Char :=
  argument.head ++ '[' :: (argument.list ++ ']' :: argument.right.text)

end ListArgument

/-- A composite identity with named arguments: the list, and arguments before and behind it. -/
structure NamedIdentity where
  gap : Margin
  before : List StringArgument
  list : ListArgument
  behind : List StringArgument

namespace NamedIdentity

/-- The arguments, with a comma between two of them. -/
def arguments (written : NamedIdentity) : List Char :=
  [','].intercalate (written.before.map StringArgument.text ++
    written.list.text :: written.behind.map StringArgument.text)

def text (written : NamedIdentity) : List Char :=
  "@@id".toList ++ (written.gap.text ++ '(' :: (written.arguments ++ [')']))

theorem text_eq (written : NamedIdentity) :
    written.text = "@@id".toList ++ (written.gap.text ++ '(' :: (written.arguments ++ [')'])) :=
  rfl

/-- The fields in the order of the list. -/
def fields (written : NamedIdentity) : List String :=
  written.list.listed.map fun listed => listed.name.string

end NamedIdentity

/-! ### Reading one argument -/

/-- A character that stands neither in blank space nor in a name. -/
structure IsSign (c : Char) : Prop where
  not_blank : isBlank c = false
  not_wordChar : isWordChar c = false

theorem isSign_comma : IsSign ',' := ⟨rfl, rfl⟩

theorem isSign_quote : IsSign '"' := ⟨rfl, rfl⟩

theorem isSign_open : IsSign '[' := ⟨rfl, rfl⟩

theorem isSign_close : IsSign ']' := ⟨rfl, rfl⟩

/-- Signs are what the reader looks for, and a search for one passes over margins and names. -/
theorem Margin.not_mem (margin : Margin) {c : Char} (hc : IsSign c) : c ∉ margin.text :=
  margin.isBlank_text.not_mem hc.not_blank

theorem Name.not_mem (name : Name) {c : Char} (hc : IsSign c) : c ∉ name.text :=
  not_mem_of_isWord name.isWord_text hc.not_wordChar

theorem Name.isTrimmed_text (name : Name) : IsTrimmed name.text :=
  isTrimmed_of_isWord name.isWord_text

namespace StringLabel

theorem text_name : name.text = "name".toList := rfl

theorem isWord_text (label : StringLabel) : isWord label.text = true := by
  cases label with
  | name => decide
  | map => decide

end StringLabel

namespace StringArgument

variable (argument : StringArgument)

/-- The colon is the one sign in front of a value. -/
theorem not_mem_head {c : Char} (hc : IsSign c) (hcolon : c ≠ ':') : c ∉ argument.head := by
  have hlabel := not_mem_of_isWord argument.label.isWord_text hc.not_wordChar
  simp [head, hlabel, hcolon, Margin.not_mem _ hc]

/-- What an argument is made of: blank space, word characters, its colon and its quotes. -/
theorem not_mem_text {c : Char} (hc : IsSign c) (hmarks : c ∉ [':', '"']) :
    c ∉ argument.text := by
  obtain ⟨hcolon, hquote⟩ : c ≠ ':' ∧ c ≠ '"' := by simpa using hmarks
  simp [text, hquote, argument.not_mem_head hc hcolon, Name.not_mem _ hc, Margin.not_mem _ hc]

/-- The label of the lookup key, and no other, announces a key. -/
theorem isKeyLabel_head : isKeyLabel argument.head = decide (argument.label = .name) := by
  have hlabel : trimLeft argument.head = argument.label.text ++
      (argument.beforeColon.text ++ ':' :: argument.behindColon.text) := by
    rw [head, trimLeft_append argument.left.isBlank_text]
    cases argument.label with
    | name => rfl
    | map => rfl
  have hcolon : trimLeft (argument.beforeColon.text ++ ':' :: argument.behindColon.text) =
      ':' :: argument.behindColon.text := by
    rw [trimLeft_append argument.beforeColon.isBlank_text]
    rfl
  have hend : trimLeft argument.behindColon.text = [] := by
    have := trimLeft_append argument.behindColon.isBlank_text []
    rwa [List.append_nil] at this
  rw [isKeyLabel, hlabel]
  cases hname : argument.label with
  | name =>
    have hdrop : dropPrefix? [':'] (':' :: argument.behindColon.text) =
        some argument.behindColon.text := dropPrefix?_append [':'] _
    rw [StringLabel.text_name, dropPrefix?_append, Option.bind_some, hcolon, hdrop, Option.any_some,
      hend]
    rfl
  | map => rfl

/-- An argument is read as the key that it names, whatever stands behind it. -/
theorem keyOfArgument?_text (more : List Char) :
    keyOfArgument? (argument.text ++ more) = argument.key? := by
  have hquote : '"' ∉ argument.head := argument.not_mem_head isSign_quote (by decide)
  have hvalue : '"' ∉ argument.value.text := argument.value.not_mem isSign_quote
  have hempty : argument.value.text.isEmpty = false :=
    List.isEmpty_eq_false_iff.mpr (isWord_iff.mp argument.value.isWord_text).1
  have htext : argument.text ++ more = argument.head ++
      '"' :: (argument.value.text ++ '"' :: (argument.right.text ++ more)) := by
    simp [text]
  rw [htext, keyOfArgument?_eq hquote, isKeyLabel_head, quotedKey?, cutAt?_append hvalue,
    Option.bind_some, key?]
  cases argument.label with
  | name => simp [hempty, Name.string]
  | map => rfl

end StringArgument

/-! ### Reading the arguments -/

/-- The key that some arguments name is found in them, and else in what stands before them. -/
theorem keyIn?_arguments {start : List Char} (hcomma : ',' ∉ start) {key : Option String}
    (hkey : ∀ more, '"' ∉ more → keyOfArgument? (start ++ more) = key)
    (arguments : List StringArgument) :
    keyIn? (start ++ (arguments.flatMap (fun argument => ',' :: argument.text) ++ [')'])) =
      key.or (arguments.findSome? StringArgument.key?) := by
  induction arguments generalizing start key with
  | nil =>
    have hlast : ',' ∉ start ++ [')'] := by simp [hcomma]
    rw [List.flatMap_nil, List.nil_append, keyIn?_of_argument hlast, hkey [')'] (by decide)]
    simp
  | cons argument rest ih =>
    have hfirst : keyIn? start = key := by
      have := hkey [] (by simp)
      rwa [List.append_nil, ← keyIn?_of_argument hcomma] at this
    have hargument : ',' ∉ argument.text := argument.not_mem_text isSign_comma (by decide)
    rw [List.flatMap_cons, List.cons_append, List.cons_append, keyIn?_append, hfirst,
      List.append_assoc, ih hargument fun more _ => argument.keyOfArgument?_text more,
      List.findSome?_cons]
    cases argument.key? with
    | none => rw [Option.none_or]
    | some found => rfl

/-- An enumeration around one of its parts. -/
theorem intercalate_append_cons (before behind : List (List Char)) (part : List Char) :
    [','].intercalate (before ++ part :: behind) =
      before.flatMap (· ++ [',']) ++ (part ++ behind.flatMap (',' :: ·)) := by
  induction before with
  | nil =>
    induction behind generalizing part with
    | nil => simp
    | cons next rest ih =>
      have hrest := ih next
      rw [List.nil_append, List.flatMap_nil, List.nil_append] at hrest
      rw [List.nil_append, List.intercalate_cons_cons, hrest]
      simp
  | cons first rest ih =>
    obtain ⟨next, more, hnext⟩ : ∃ next more, rest ++ part :: behind = next :: more :=
      List.exists_cons_of_ne_nil (by simp)
    rw [hnext] at ih
    rw [List.cons_append, hnext, List.intercalate_cons_cons, ih]
    simp

/-- A list is read as the fields that it is made of. -/
theorem ListArgument.listEntries_list (argument : ListArgument) :
    listEntries argument.list = argument.listed.map fun listed => listed.name.string := by
  have hcomma : ∀ part ∈ argument.listed.map ListedField.text, ',' ∉ part := by
    refine List.forall_mem_map.mpr fun listed _ => ?_
    simp [ListedField.text, Margin.not_mem _ isSign_comma, Name.not_mem _ isSign_comma]
  have htrim : ∀ listed : ListedField, trim listed.text = listed.name.text := fun listed =>
    trim_pad listed.left.isBlank_text listed.right.isBlank_text listed.name.isTrimmed_text
  have hparts : (argument.list.splitOn ',').map trim =
      argument.listed.map fun listed => listed.name.text := by
    rw [list, List.splitOn_intercalate ',' hcomma (by simpa using argument.listed_ne_nil),
      List.map_map]
    exact List.map_congr_left fun listed _ => htrim listed
  have hfilter : (argument.listed.map fun listed => listed.name.text).filter
      (fun entry => !entry.isEmpty) = argument.listed.map fun listed => listed.name.text := by
    refine List.filter_eq_self.mpr (List.forall_mem_map.mpr fun listed _ => ?_)
    simpa using (isWord_iff.mp listed.name.isWord_text).1
  rw [listEntries, hparts, hfilter, List.map_map]
  rfl

/-- The first closing bracket ends the list, as it has none inside. -/
theorem ListArgument.not_mem_list (argument : ListArgument) : ']' ∉ argument.list := by
  intro mem
  rcases mem_intercalate mem with mem | ⟨part, hpart, mem⟩
  · exact absurd mem (by decide)
  · obtain ⟨listed, -, rfl⟩ := List.mem_map.mp hpart
    simp [ListedField.text, Margin.not_mem _ isSign_close, Name.not_mem _ isSign_close] at mem

namespace NamedIdentity

variable (written : NamedIdentity)

/-- What stands before the list. -/
def front : List Char :=
  (written.before.flatMap fun argument => argument.text ++ [',']) ++ written.list.head

/-- What stands behind the list. -/
def rest : List Char :=
  written.list.right.text ++
    (written.behind.flatMap (fun argument => ',' :: argument.text) ++ [')'])

/-- In front of the list stand the signs of other arguments, but neither bracket. -/
theorem not_mem_front {c : Char} (hc : IsSign c) (hmarks : c ∉ [':', '"', ',']) :
    c ∉ written.front := by
  obtain ⟨hcolon, hquote, hcomma⟩ : c ≠ ':' ∧ c ≠ '"' ∧ c ≠ ',' := by simpa using hmarks
  have hlabel : c ∉ "fields".toList := not_mem_of_isWord (by decide) hc.not_wordChar
  have hbefore : c ∉ written.before.flatMap fun argument => argument.text ++ [','] := by
    rw [List.mem_flatMap]
    rintro ⟨argument, -, mem⟩
    rcases List.mem_append.mp mem with mem | mem
    · exact argument.not_mem_text hc (by simp [hcolon, hquote]) mem
    · exact hcomma (List.mem_singleton.mp mem)
  have hhead : c ∉ written.list.head := by
    simp only [ListArgument.head, List.mem_append, List.mem_cons, not_or]
    exact ⟨Margin.not_mem _ hc, hlabel, Margin.not_mem _ hc, hcolon, Margin.not_mem _ hc⟩
  rw [front, List.mem_append]
  exact not_or.mpr ⟨hbefore, hhead⟩

theorem open_not_mem_front : '[' ∉ written.front :=
  written.not_mem_front isSign_open (by decide)

theorem close_not_mem_front : ']' ∉ written.front :=
  written.not_mem_front isSign_close (by decide)

/-- The annotation in the parts that a composite identity is read from. -/
def parts : IdentityText where
  gap := written.gap.text
  front := written.front
  list := written.list.list
  behind := written.rest
  isBlank_gap := written.gap.isBlank_text
  no_open := written.open_not_mem_front
  no_close := written.list.not_mem_list
  has_entry := by
    rw [← listEntries_ne_nil_iff, ListArgument.listEntries_list]
    simpa using written.list.listed_ne_nil

/-- Taking the annotation apart around its list leaves nothing out. -/
theorem text_parts : written.parts.text = written.text := by
  have harguments : written.arguments ++ [')'] = written.parts.arguments := by
    rw [arguments, intercalate_append_cons]
    simp [IdentityText.arguments, parts, front, rest, ListArgument.text, List.flatMap_map]
  rw [IdentityText.text_eq, text_eq, harguments]
  rfl

theorem entries_parts : written.parts.entries = written.fields :=
  written.list.listEntries_list

/-- Behind the list, a margin and then arguments follow: the margin names no key, and the first
argument called `name` does. -/
theorem keyName?_parts :
    keyName? written.parts.arguments = written.behind.findSome? StringArgument.key? := by
  have hfront : ']' ∉ written.front ++ '[' :: written.list.list := by
    simp [written.close_not_mem_front, written.list.not_mem_list]
  have hcomma : ',' ∉ written.list.right.text := Margin.not_mem _ isSign_comma
  have hkey : ∀ more, '"' ∉ more → keyOfArgument? (written.list.right.text ++ more) = none := by
    intro more hmore
    have hquote : '"' ∉ written.list.right.text := Margin.not_mem _ isSign_quote
    exact keyOfArgument?_of_not_mem (by simp [hquote, hmore])
  have harguments : written.parts.arguments =
      (written.front ++ '[' :: written.list.list) ++ ']' :: written.rest := by
    simp [IdentityText.arguments, parts]
  rw [harguments, keyName?_eq, cutAt?_append hfront, Option.bind_some]
  exact (keyIn?_arguments hcomma hkey written.behind).trans (Option.none_or ..)

/-- An identity with named arguments is read as it is meant, in whatever order and spacing they
stand: the fields are those of the list, and the key is what the first `name` behind the list says. -/
theorem reads_as_listed :
    (∀ number, ∃ composite,
      Entry.ofLine ⟨number, written.text⟩ = .identity (some composite) ∧
        composite.fields = written.fields ∧
        composite.key = written.behind.findSome? StringArgument.key?) ∧
    ∀ block : Block, written.text ∈ block.identityLines.head? →
      ∃ composite, block.model.compositeId = some composite ∧
        composite.fields = written.fields ∧
        composite.key = written.behind.findSome? StringArgument.key? := by
  constructor
  · intro number
    refine ⟨written.parts.compositeId, ?_, written.entries_parts, written.keyName?_parts⟩
    rw [← written.text_parts]
    exact written.parts.ofLine_text number
  · intro block hfirst
    rw [← written.text_parts] at hfirst
    exact ⟨written.parts.compositeId, block.compositeId_model.2 written.parts hfirst,
      written.entries_parts, written.keyName?_parts⟩

end NamedIdentity

/-! ### An annotation with its key behind the list, and one with its key before it -/

/-- No blank space. -/
def Margin.empty : Margin := ⟨[], by decide, by decide⟩

theorem newline_not_mem_space : '\n' ∉ [' '] := by decide

/-- One space. -/
def Margin.space : Margin := ⟨[' '], isBlankText_space, newline_not_mem_space⟩

/-- The argument `name: "at"`. -/
def atArgument : StringArgument where
  left := .space
  label := .name
  beforeColon := .empty
  behindColon := .space
  value := ⟨"at".toList, by decide⟩
  right := .empty

/-- The argument `fields : [ row ,no]`. -/
def rowNoArgument : ListArgument where
  left := .empty
  beforeColon := .space
  behindColon := .space
  listed :=
    [⟨.space, ⟨"row".toList, by decide⟩, .space⟩, ⟨.empty, ⟨"no".toList, by decide⟩, .empty⟩]
  listed_ne_nil := List.cons_ne_nil _ _
  right := .space

/-- The list between the name of a constraint and the key. -/
def keyLast : NamedIdentity where
  gap := .space
  before := [{ atArgument with label := .map, value := ⟨"pk".toList, by decide⟩ }]
  list := rowNoArgument
  behind := [atArgument]

/-- The list behind the key. -/
def keyFirst : NamedIdentity where
  gap := .empty
  before := [atArgument]
  list := rowNoArgument
  behind := []

/-- The key stands behind the list here, and the name of the constraint in front of it. -/
theorem reads_as_listed_keyLast :
    keyLast.text = "@@id ( map: \"pk\",fields : [ row ,no] , name: \"at\")".toList ∧
      ∃ composite,
        (⟨"model", "Seat", 1, [⟨2, "row Int".toList⟩, ⟨3, keyLast.text⟩]⟩ : Block).model.compositeId =
            some composite ∧
          composite.fields = ["row", "no"] ∧ composite.key = some "at" :=
  ⟨by decide, keyLast.reads_as_listed.2 _ (by decide)⟩

/-- A key before the list is not read, so not every order of the arguments is read alike. -/
theorem not_forall_key_read :
    ¬ ∀ written : NamedIdentity,
      ((written.before ++ written.behind).map StringArgument.label).Nodup → ∀ number,
        ∃ composite, Entry.ofLine ⟨number, written.text⟩ = .identity (some composite) ∧
          composite.fields = written.fields ∧
          composite.key = (written.before ++ written.behind).findSome? StringArgument.key? := by
  intro h
  obtain ⟨composite, hread, -, hkey⟩ := h keyFirst (by decide) 3
  have hentry : Entry.ofLine ⟨3, keyFirst.text⟩ =
      .identity (some ⟨["row", "no"], none, List.cons_ne_nil _ _⟩) := by
    decide
  rw [hentry] at hread
  obtain rfl := Option.some.inj (Entry.identity.inj hread)
  exact absurd hkey (by decide)

end Scaffold.Schema
