import Scaffold.Proofs.Schema.FieldText

/-!
Attributes as tokens. A line that is made of a name, a type and attributes, with blank space between
them, is read alike in whatever order the attributes stand and however much space is left, and an
attribute is found on the line exactly when one of the tokens mentions it (`TokenLine.read_alike`).
Whether the type is one does not matter: if it is none, no such line declares a field.
-/

namespace Scaffold.Schema

open Text

/-- An attribute as it stands on a line: an at sign, and what follows it up to blank space. -/
structure AttributeToken where
  text : List Char
  at_start : text.head? = some '@'
  no_blank : ∀ c ∈ text, isBlank c = false

theorem AttributeToken.text_ne_nil (token : AttributeToken) : token.text ≠ [] := by
  intro heq
  have hstart := token.at_start
  simp [heq] at hstart

/-- A line of a name, a type and attributes. -/
structure TokenLine where
  name : Name
  gap : List Char
  type : List Char
  /-- The attributes in the order of writing, each with the blank space before it. -/
  attributes : List (List Char × AttributeToken)
  isBlank_gap : IsBlankText gap
  gap_ne_nil : gap ≠ []
  type_no_blank : ∀ c ∈ type, isBlank c = false
  type_no_at : '@' ∉ type
  isBlank_pad : ∀ placed ∈ attributes, IsBlankText placed.1
  /-- Only the first attribute may stand right behind what is before it. -/
  pad_ne_nil : ∀ placed ∈ attributes.tail, placed.1 ≠ []

/-- Attributes as they are written. -/
def attributesText (attributes : List (List Char × AttributeToken)) : List Char :=
  attributes.flatMap fun (pad, token) => pad ++ token.text

@[simp] theorem attributesText_nil : attributesText [] = [] := rfl

@[simp] theorem attributesText_cons (pad : List Char) (token : AttributeToken)
    (rest : List (List Char × AttributeToken)) :
    attributesText ((pad, token) :: rest) = pad ++ token.text ++ attributesText rest := rfl

/-- Attributes that blank space separates from what is before them begin with blank space. -/
theorem isBlank_head_attributesText {attributes : List (List Char × AttributeToken)}
    (hblank : ∀ placed ∈ attributes, IsBlankText placed.1)
    (hne : ∀ placed ∈ attributes, placed.1 ≠ []) :
    ∀ c ∈ (attributesText attributes).head?, isBlank c = true := by
  intro c hc
  cases attributes with
  | nil => simp at hc
  | cons placed rest =>
    obtain ⟨pad, token⟩ := placed
    have hpad : IsBlankText pad := hblank (pad, token) (List.mem_cons_self ..)
    obtain ⟨b, more, rfl⟩ := List.exists_cons_of_ne_nil (hne (pad, token) (List.mem_cons_self ..))
    obtain rfl : b = c := by simpa using hc
    exact hpad b (List.mem_cons_self ..)

/-- What holds no blank space is found in one of the tokens, if it is found at all. -/
theorem occursIn_attributesText {sought : List Char} (sought_ne_nil : sought ≠ [])
    (hsought : ∀ c ∈ sought, isBlank c = false) {attributes : List (List Char × AttributeToken)}
    (hblank : ∀ placed ∈ attributes, IsBlankText placed.1)
    (hne : ∀ placed ∈ attributes.tail, placed.1 ≠ []) :
    occursIn sought (attributesText attributes) = true ↔
      ∃ placed ∈ attributes, occursIn sought placed.2.text = true := by
  induction attributes with
  | nil => simp [occursIn_nil sought_ne_nil]
  | cons placed rest ih =>
    obtain ⟨pad, token⟩ := placed
    obtain ⟨hpad, hrest⟩ := List.forall_mem_cons.mp hblank
    have hhead := isBlank_head_attributesText hrest hne
    rw [attributesText_cons, occursIn_append_of_isBlank sought_ne_nil hsought _ hhead,
      occursIn_blank_append sought_ne_nil hsought hpad, Bool.or_eq_true,
      ih hrest fun other hother => hne other (List.mem_of_mem_tail hother)]
    simp

namespace TokenLine

/-- The line as a whole. -/
def text (line : TokenLine) : List Char :=
  line.name.text ++ (line.gap ++ (line.type ++ attributesText line.attributes))

/-- The texts of the attributes. -/
def tokens (line : TokenLine) : List (List Char) :=
  line.attributes.map fun placed => placed.2.text

/-- What stands behind the type ends it. -/
theorem endsType_head_attributesText (line : TokenLine) :
    ∀ c ∈ (attributesText line.attributes).head?, Declaration.endsType c = true := by
  intro c hc
  cases hattributes : line.attributes with
  | nil => simp [hattributes] at hc
  | cons placed rest =>
    obtain ⟨pad, token⟩ := placed
    have hpad : IsBlankText pad := line.isBlank_pad (pad, token) (by simp [hattributes])
    rw [hattributes, attributesText_cons] at hc
    cases pad with
    | nil =>
      obtain ⟨d, more, htoken⟩ := List.exists_cons_of_ne_nil token.text_ne_nil
      have hat : d = '@' := by simpa [htoken] using token.at_start
      obtain rfl : d = c := by simpa [htoken] using hc
      rw [hat]
      decide
    | cons b more =>
      obtain rfl : b = c := by simpa using hc
      simp [Declaration.endsType, hpad b (List.mem_cons_self ..)]

/-- Trimming does not move the at sign that ends an empty type. -/
theorem endsType_head_trimLeft (line : TokenLine) :
    ∀ c ∈ (trimLeft (attributesText line.attributes)).head?, Declaration.endsType c = true := by
  intro c hc
  cases hattributes : line.attributes with
  | nil => simp [hattributes, trimLeft] at hc
  | cons placed rest =>
    obtain ⟨pad, token⟩ := placed
    have hpad : IsBlankText pad := line.isBlank_pad (pad, token) (by simp [hattributes])
    obtain ⟨d, more, htoken⟩ := List.exists_cons_of_ne_nil token.text_ne_nil
    have hat : d = '@' := by simpa [htoken] using token.at_start
    have hstart : trimLeft (attributesText line.attributes) = d :: more ++ attributesText rest := by
      rw [hattributes, attributesText_cons, List.append_assoc, trimLeft_append hpad, htoken]
      exact trimLeft_eq_self (by simp [hat, isBlank])
    obtain rfl : d = c := by simpa [hstart] using hc
    rw [hat]
    decide

/-- Whether a line of tokens is a declaration depends on its type alone. -/
theorem ofLine?_text (line : TokenLine) :
    Declaration.ofLine? line.text =
      if isWord (TypeToken.ofText line.type).bare then
        some ⟨line.name.text, line.type, attributesText line.attributes⟩
      else none := by
  have htype : ∀ c ∈ line.type, Declaration.endsType c = false := by
    intro c hc
    have hat : c ≠ '@' := fun heq => line.type_no_at (heq ▸ hc)
    simp [Declaration.endsType, line.type_no_blank c hc, hat]
  rw [text, Declaration.ofLine?_append line.name.isWord_text line.isBlank_gap line.gap_ne_nil]
  cases hcases : line.type with
  | nil =>
    -- Without a type the attributes are trimmed, too; but no word is empty.
    have hnone : isWord (TypeToken.ofText []).bare = false := rfl
    have hbody := @Declaration.ofBody?_append [] _ (by simp) line.endsType_head_trimLeft
      line.name.text
    rw [List.nil_append] at hbody
    rw [List.nil_append, hbody, hnone, if_neg Bool.false_ne_true, if_neg Bool.false_ne_true]
  | cons first more =>
    have htrimmed : trimLeft (first :: more ++ attributesText line.attributes) =
        first :: more ++ attributesText line.attributes :=
      trimLeft_eq_self (by simp [line.type_no_blank first (by simp [hcases])])
    rw [htrimmed, ← hcases,
      Declaration.ofBody?_append htype line.endsType_head_attributesText]

/-- What is sought is found on the line exactly when a token holds it. -/
theorem occursIn_iff_exists_token (line : TokenLine) {sought : List Char}
    (sought_ne_nil : sought ≠ []) (hsought : ∀ c ∈ sought, isBlank c = false) :
    occursIn sought (attributesText line.attributes) = true ↔
      ∃ token ∈ line.tokens, sought <:+: token := by
  have hpart : ∀ token : List Char, occursIn sought token = true ↔ sought <:+: token := by
    intro token
    rw [occursIn_iff]
    exact exists_congr fun before => exists_congr fun after => eq_comm
  rw [occursIn_attributesText sought_ne_nil hsought line.isBlank_pad line.pad_ne_nil]
  constructor
  · rintro ⟨placed, hplaced, hfound⟩
    exact ⟨placed.2.text, List.mem_map_of_mem hplaced, (hpart _).mp hfound⟩
  · rintro ⟨token, htoken, hfound⟩
    obtain ⟨placed, hplaced, rfl⟩ := List.mem_map.mp htoken
    exact ⟨placed, hplaced, (hpart _).mpr hfound⟩

/-- The order of attributes does not matter, nor does the blank space before them. Two lines of the
same name, the same type and the same attributes, in whatever order and spacing, declare the same
field or none; and a declared field has an attribute exactly when one of the tokens mentions it. -/
theorem read_alike (line : TokenLine) (number : Nat) :
    (∀ other : TokenLine, other.name.text = line.name.text → other.type = line.type →
      other.tokens.Perm line.tokens →
        Field.ofLine? other.text number = Field.ofLine? line.text number) ∧
    ∀ field, Field.ofLine? line.text number = some field →
      (field.isId = true ↔ ∃ token ∈ line.tokens, "@id".toList <:+: token) ∧
      (field.isUnique = true ↔ ∃ token ∈ line.tokens, "@unique".toList <:+: token) ∧
      (field.hasDefault = true ↔ ∃ token ∈ line.tokens, "@default".toList <:+: token) := by
  have hid := fun line => @occursIn_iff_exists_token line "@id".toList (by decide) (by decide)
  have hunique := fun line =>
    @occursIn_iff_exists_token line "@unique".toList (by decide) (by decide)
  have hdefault := fun line =>
    @occursIn_iff_exists_token line "@default".toList (by decide) (by decide)
  constructor
  · intro other hname htype hperm
    have hsame : ∀ sought : List Char, (∃ token ∈ other.tokens, sought <:+: token) ↔
        ∃ token ∈ line.tokens, sought <:+: token :=
      fun sought => exists_congr fun token => and_congr_left' hperm.mem_iff
    rw [Field.ofLine?, Field.ofLine?, ofLine?_text, ofLine?_text, hname, htype]
    split
    · simp only [Option.map_some, Declaration.field, Option.some.injEq, Field.mk.injEq, true_and,
        and_true]
      refine ⟨?_, ?_, ?_⟩
      · rw [Bool.eq_iff_iff, hid, hid, hsame]
      · rw [Bool.eq_iff_iff, hunique, hunique, hsame]
      · rw [Bool.eq_iff_iff, hdefault, hdefault, hsame]
    · rfl
  · intro field hfield
    rw [Field.ofLine?, ofLine?_text] at hfield
    split at hfield
    · obtain rfl := Option.some.inj hfield
      exact ⟨hid line, hunique line, hdefault line⟩
    · cases hfield

/-- An attribute of an identity. -/
def idToken : AttributeToken := ⟨"@id".toList, by decide, by decide⟩

/-- Two attributes in one token. -/
def uniqueDefaultToken : AttributeToken := ⟨"@unique@default(1)".toList, by decide, by decide⟩

/-- A line whose first attribute stands right behind the type. -/
def codeLine : TokenLine where
  name := ⟨"code".toList, by decide⟩
  gap := [' ', ' ']
  type := "Int?".toList
  attributes := [([], idToken), ([' '], uniqueDefaultToken)]
  isBlank_gap := by decide
  gap_ne_nil := by decide
  type_no_blank := by decide
  type_no_at := by decide
  isBlank_pad := by simp +decide
  pad_ne_nil := by simp

/-- The line with its attributes the other way round, and wider. -/
def wideCodeLine : TokenLine where
  name := ⟨"code".toList, by decide⟩
  gap := ['\t']
  type := "Int?".toList
  attributes := [([' ', ' '], uniqueDefaultToken), (['\t'], idToken)]
  isBlank_gap := by decide
  gap_ne_nil := by decide
  type_no_blank := by decide
  type_no_at := by decide
  isBlank_pad := by simp +decide
  pad_ne_nil := by simp

theorem read_alike_code :
    codeLine.text = "code  Int?@id @unique@default(1)".toList ∧
      wideCodeLine.text = "code\tInt?  @unique@default(1)\t@id".toList ∧
      Field.ofLine? wideCodeLine.text 2 = Field.ofLine? codeLine.text 2 ∧
      ∃ field, Field.ofLine? codeLine.text 2 = some field ∧ field.isId = true ∧
        field.isUnique = true := by
  have hcode : codeLine.text = "code  Int?@id @unique@default(1)".toList := by decide
  obtain ⟨hsame, hflags⟩ := read_alike codeLine 2
  have hperm : wideCodeLine.tokens.Perm codeLine.tokens := List.Perm.swap ..
  obtain ⟨field, hfield⟩ : ∃ field, Field.ofLine? codeLine.text 2 = some field :=
    Option.isSome_iff_exists.mp (by rw [hcode]; decide)
  obtain ⟨hid, hunique, -⟩ := hflags field hfield
  exact ⟨hcode, by decide, hsame wideCodeLine rfl rfl hperm, field, hfield,
    hid.mpr ⟨"@id".toList, by decide, by decide⟩,
    hunique.mpr ⟨"@unique@default(1)".toList, by decide, by decide⟩⟩

end TokenLine

end Scaffold.Schema
