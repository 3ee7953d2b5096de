import Scaffold.Schema.Document
import Scaffold.Proofs.Schema.Arguments
import Scaffold.Proofs.Schema.Entry

/-!
What a comment or a literal on a body line adds to what is read from the line. Attributes count
wherever their text stands behind the type, so a field gains those that the comment or the literal
mentions (`Field.gain`); otherwise the line is read as it is without the comment, or with nothing in
the literal (`Entry.ofLine_append_comment`, `Entry.ofLine_literal`).
-/

namespace Scaffold.Schema

open Text

/-- The field with the attributes that a text mentions. -/
def Field.gain (text : List Char) (field : Field) : Field :=
  { field with
    isId := field.isId || occursIn "@id".toList text
    isUnique := field.isUnique || occursIn "@unique".toList text
    hasDefault := field.hasDefault || occursIn "@default".toList text }

/-- The entry with the attributes that a text mentions, if it is a field. -/
def Entry.gain (text : List Char) : Entry → Entry
  | .declared field => .declared (field.gain text)
  | entry => entry

/-- The declaration with more text behind it. -/
def Declaration.extend (more : List Char) (declaration : Declaration) : Declaration :=
  { declaration with rest := declaration.rest ++ more }

/-- A declaration whose type has ended. -/
def Declaration.isEnded (declaration : Declaration) : Bool :=
  !declaration.rest.isEmpty

/-! ### Declarations -/

/-- A mark that no type holds and that ends no type: before it the type has ended, or there is no
declaration. -/
theorem Declaration.ofBody?_append_mark {mark : Char} (hword : isWordChar mark = false)
    (hends : endsType mark = false) (hmarker : mark ∉ ['?', '[', ']'])
    (name body more : List Char) :
    ofBody? name (body ++ mark :: more) =
      ((ofBody? name body).filter isEnded).map (extend (mark :: more)) := by
  have hsplit := List.takeWhile_append_dropWhile (p := fun c => !endsType c) (l := body)
  have htoken : ∀ c ∈ body.takeWhile fun c => !endsType c, (!endsType c) = true :=
    fun c hc => List.all_eq_true.mp List.all_takeWhile c hc
  unfold ofBody?
  cases hrest : body.dropWhile fun c => !endsType c with
  | nil =>
    -- The type goes on up to the mark, which no word holds.
    rw [hrest, List.append_nil] at hsplit
    have hmark : mark ∈ (body ++ mark :: more).takeWhile fun c => !endsType c := by
      rw [List.takeWhile_append_of_pos (by rwa [hsplit] at htoken),
        List.takeWhile_cons_of_pos (by simp [hends])]
      simp
    rw [if_neg fun h => absurd (TypeToken.mem_bare hmarker hmark) (not_mem_of_isWord h hword)]
    split
    · rfl
    · rfl
  | cons e rest =>
    have he : ∀ c ∈ (e :: rest ++ mark :: more).head?, (!endsType c) = false := by
      intro c hc
      obtain rfl : e = c := by simpa using hc
      have := List.head?_dropWhile_not (fun c => !endsType c) body
      simpa [hrest] using this
    have hbody : body ++ mark :: more =
        (body.takeWhile fun c => !endsType c) ++ (e :: rest ++ mark :: more) := by
      rw [← List.append_assoc, ← hrest, hsplit]
    simp only [hbody, takeWhile_append_stop htoken he, dropWhile_append_stop htoken he]
    split
    · rfl
    · rfl

theorem Declaration.ofLine?_append_mark {mark : Char} (hword : isWordChar mark = false)
    (hends : endsType mark = false) (hmarker : mark ∉ ['?', '[', ']']) (front more : List Char) :
    ofLine? (front ++ mark :: more) =
      ((ofLine? front).filter isEnded).map (extend (mark :: more)) := by
  have hblank : isBlank mark = false := by
    simp only [endsType, Bool.or_eq_false_iff] at hends
    exact hends.1
  have hhead : ∀ text : List Char,
      (text ++ mark :: more).head?.any isBlank = text.head?.any isBlank := by
    intro text
    cases text with
    | nil => simp [hblank]
    | cons c rest => rfl
  rw [ofLine?_eq, ofLine?_eq, takeWhile_append_cons hword, dropWhile_append_cons hword, hhead,
    trimLeft_append_cons hblank]
  split
  · rfl
  · exact ofBody?_append_mark hword hends hmarker _ _ _

/-- Blank space ends a type. -/
theorem Declaration.ofBody?_append_blank {b : Char} (hb : isBlank b = true)
    (name body rest : List Char) :
    ofBody? name (body ++ b :: rest) = (ofBody? name body).map (extend (b :: rest)) := by
  have hends : (!endsType b) = false := by simp [endsType, hb]
  unfold ofBody?
  rw [takeWhile_append_cons (p := fun c => !endsType c) hends,
    dropWhile_append_cons (p := fun c => !endsType c) hends]
  split
  · rfl
  · rfl

theorem Declaration.ofLine?_append_blank {pad : List Char} (hpad : IsBlankText pad)
    (pad_ne_nil : pad ≠ []) (line : List Char) :
    ofLine? (line ++ pad) = (ofLine? line).map (extend pad) := by
  obtain ⟨b, rest, rfl⟩ := List.exists_cons_of_ne_nil pad_ne_nil
  have hb : isBlank b = true := hpad b (List.mem_cons_self ..)
  have hword : isWordChar b = false := isWordChar_eq_false_of_isBlank hb
  have hnone : ∀ name : List Char, ofBody? name [] = none := fun name => rfl
  rw [ofLine?_eq, ofLine?_eq, takeWhile_append_cons hword, dropWhile_append_cons hword,
    trimLeft_append_blank hpad]
  cases line.dropWhile isWordChar with
  | nil => simp [hnone, trimLeft]
  | cons a after =>
    rw [List.cons_append, List.head?_cons, List.head?_cons]
    split
    · rfl
    · split
      next hempty => rw [List.isEmpty_iff.mp hempty, hnone, Option.map_none]
      next => exact ofBody?_append_blank hb _ _ _

/-! ### Attributes -/

/-- The attributes that are looked for. -/
def soughtAttributes : List (List Char) :=
  ["@id".toList, "@unique".toList, "@default".toList]

/-- What is sought behind a comment sign is found before it or in the comment. -/
theorem occursIn_append_comment {sought : List Char} (h : sought ∈ soughtAttributes)
    {pad : List Char} (hpad : IsBlankText pad) (rest comment : List Char) :
    occursIn sought (rest ++ (pad ++ '/' :: '/' :: comment)) =
      (occursIn sought rest || occursIn sought comment) := by
  have table : ∀ sought ∈ soughtAttributes, '/' ∉ sought ∧ (∀ c ∈ sought, isBlank c = false) ∧
      sought ≠ [] ∧ occursIn sought [] = false := by
    decide
  obtain ⟨hslash, hblank, hne, hempty⟩ := table sought h
  have hsecond := occursIn_append_cons hslash [] comment
  rw [List.nil_append] at hsecond
  rw [← List.append_assoc, occursIn_append_cons hslash, occursIn_append_blank hne hblank hpad,
    hsecond, hempty, Bool.false_or]

/-- What is sought is found before a literal, in it, or behind it. -/
theorem occursIn_append_literal {sought : List Char} (h : sought ∈ soughtAttributes)
    (rest content tail : List Char) :
    occursIn sought (rest ++ '"' :: (content ++ '"' :: tail)) =
      (occursIn sought (rest ++ '"' :: '"' :: tail) || occursIn sought content) := by
  have table : ∀ sought ∈ soughtAttributes, '"' ∉ sought ∧ occursIn sought [] = false := by decide
  obtain ⟨hquote, hempty⟩ := table sought h
  have hsecond := occursIn_append_cons hquote [] tail
  rw [List.nil_append] at hsecond
  rw [occursIn_append_cons hquote, occursIn_append_cons hquote, occursIn_append_cons hquote,
    hsecond, hempty, Bool.false_or, Bool.or_assoc, Bool.or_comm (occursIn sought content)]

theorem Field.gain_nil (field : Field) : field.gain [] = field := by
  have table : ∀ sought ∈ soughtAttributes, occursIn sought [] = false := by decide
  unfold gain
  rw [table "@id".toList (by decide), table "@unique".toList (by decide),
    table "@default".toList (by decide)]
  simp

/-- What a text mentions that mentions no more than two others is gained from them one by one. -/
theorem Field.gain_gain {text first second : List Char}
    (h : ∀ sought ∈ soughtAttributes,
      occursIn sought text = (occursIn sought first || occursIn sought second))
    (field : Field) : field.gain text = (field.gain first).gain second := by
  unfold gain
  simp only [h "@id".toList (by decide), h "@unique".toList (by decide),
    h "@default".toList (by decide), Bool.or_assoc]

/-- Blank space behind a text mentions nothing. -/
theorem Field.gain_trimRight (text : List Char) (field : Field) :
    field.gain (trimRight text) = field.gain text := by
  have table : ∀ sought ∈ soughtAttributes, (∀ c ∈ sought, isBlank c = false) ∧ sought ≠ [] ∧
      occursIn sought [] = false := by
    decide
  have found : ∀ sought ∈ soughtAttributes,
      occursIn sought (trimRight text) = (occursIn sought [] || occursIn sought text) := by
    intro sought h
    obtain ⟨hblank, hne, hempty⟩ := table sought h
    obtain ⟨right, hright, happend⟩ := exists_trimRight_append text
    have hsame := occursIn_append_blank hne hblank hright (trimRight text)
    rw [hempty, Bool.false_or, ← hsame, happend]
  rw [gain_gain found, gain_nil]

/-- The attributes of a declaration are those that what follows its type mentions. -/
theorem Declaration.field_eq_gain (declaration : Declaration) (line : Nat) :
    declaration.field line = ({ declaration with rest := [] }.field line).gain declaration.rest :=
  rfl

theorem Declaration.field_extend_comment (declaration : Declaration) {pad : List Char}
    (hpad : IsBlankText pad) (comment : List Char) (line : Nat) :
    (declaration.extend (pad ++ '/' :: '/' :: comment)).field line =
      (declaration.field line).gain comment := by
  rw [field_eq_gain, field_eq_gain declaration]
  exact Field.gain_gain (fun _ h => occursIn_append_comment h hpad declaration.rest comment) _

theorem Declaration.field_extend_literal (declaration : Declaration) (content tail : List Char)
    (line : Nat) :
    (declaration.extend ('"' :: (content ++ '"' :: tail))).field line =
      ((declaration.extend ('"' :: '"' :: tail)).field line).gain content := by
  rw [field_eq_gain, field_eq_gain (declaration.extend ('"' :: '"' :: tail))]
  exact Field.gain_gain (fun _ h => occursIn_append_literal h declaration.rest content tail) _

/-! ### Entries -/

theorem Entry.gain_trimRight (text : List Char) (entry : Entry) :
    entry.gain (trimRight text) = entry.gain text := by
  cases entry with
  | declared field => exact congrArg Entry.declared (field.gain_trimRight text)
  | comment | identity id? | «attribute» | unrecognized => rfl

theorem isBlockAttribute_eq (text : List Char) :
    isBlockAttribute text = "@@".toList.isPrefixOf text := by
  unfold isBlockAttribute
  split
  next rest => simp [List.isPrefixOf]
  next hne =>
    symm
    rw [Bool.eq_false_iff]
    intro h
    obtain ⟨rest, rfl⟩ := List.isPrefixOf_iff_prefix.mp h
    exact hne rest rfl

/-- Text that does not go on with an at sign is no block attribute because of what follows. -/
theorem isBlockAttribute_append_cons {mark : Char} (hmark : mark ∉ "@@".toList)
    (text more : List Char) : isBlockAttribute (text ++ mark :: more) = isBlockAttribute text := by
  rw [isBlockAttribute_eq, isBlockAttribute_eq, isPrefixOf_append_cons hmark]

/-- The arguments of a composite identity go on behind a mark that is none of its own. -/
theorem identityArguments?_append_mark {mark : Char} (hname : mark ∉ "@@id".toList)
    (hblank : isBlank mark = false) (hopen : mark ∉ ['(']) (front more : List Char) :
    identityArguments? (front ++ mark :: more) =
      (identityArguments? front).map (· ++ mark :: more) := by
  rw [identityArguments?, identityArguments?, dropPrefix?_append_cons hname]
  cases dropPrefix? "@@id".toList front with
  | none => rfl
  | some rest =>
    rw [Option.map_some, Option.bind_some, Option.bind_some, trimLeft_append_cons hblank,
      dropPrefix?_append_cons hopen]

theorem identityArguments?_append_blank {pad : List Char} (hpad : IsBlankText pad)
    (text : List Char) :
    identityArguments? (text ++ pad) = (identityArguments? text).map (· ++ pad) := by
  cases pad with
  | nil => simp
  | cons b more =>
    have hb : isBlank b = true := hpad b (List.mem_cons_self ..)
    have hname : b ∉ "@@id".toList := not_mem_of_isBlank hb (by decide)
    rw [identityArguments?, identityArguments?, dropPrefix?_append_cons hname]
    cases dropPrefix? "@@id".toList text with
    | none => rfl
    | some rest =>
      have hopen : b ∉ ['('] := not_mem_of_isBlank hb (by decide)
      rw [Option.map_some, Option.bind_some, Option.bind_some, trimLeft_append_blank hpad]
      split
      next hempty =>
        rw [List.isEmpty_iff.mp hempty]
        rfl
      next => exact dropPrefix?_append_cons hopen _ _

/-- The field on a line gains what a comment behind the line mentions. -/
theorem Field.ofLine?_append_comment {pad : List Char} (hpad : IsBlankText pad)
    (pad_ne_nil : pad ≠ []) (text comment : List Char) (line : Nat) :
    Field.ofLine? (text ++ (pad ++ '/' :: '/' :: comment)) line =
      (Field.ofLine? text line).map (gain comment) := by
  have hended : ∀ declaration : Declaration, (declaration.extend pad).isEnded = true := by
    intro declaration
    simp [Declaration.isEnded, Declaration.extend, pad_ne_nil]
  rw [ofLine?, ofLine?, ← List.append_assoc,
    Declaration.ofLine?_append_mark (by decide) (by decide) (by decide),
    Declaration.ofLine?_append_blank hpad pad_ne_nil]
  cases Declaration.ofLine? text with
  | none => rfl
  | some declaration =>
    rw [Option.map_some, Option.filter_some_pos (hended declaration), Option.map_some,
      Option.map_some, Option.map_some, Option.map_some]
    have hfield := declaration.field_extend_comment hpad comment line
    rw [← hfield, Declaration.extend, Declaration.extend, Declaration.extend, List.append_assoc]

/-- The field on a line gains what a literal on the line mentions. -/
theorem Field.ofLine?_literal (front content tail : List Char) (line : Nat) :
    Field.ofLine? (front ++ '"' :: (content ++ '"' :: tail)) line =
      (Field.ofLine? (front ++ '"' :: '"' :: tail) line).map (gain content) := by
  have split : ∀ more : List Char, Declaration.ofLine? (front ++ '"' :: more) =
      ((Declaration.ofLine? front).filter Declaration.isEnded).map
        (Declaration.extend ('"' :: more)) :=
    fun more => Declaration.ofLine?_append_mark (by decide) (by decide) (by decide) front more
  rw [ofLine?, ofLine?, split, split, Option.map_map, Option.map_map, Option.map_map]
  congr 1
  funext declaration
  exact declaration.field_extend_literal content tail line

/-- A comment behind a body line adds the attributes that it mentions, and nothing else if it holds
no part of a composite identity. -/
theorem Entry.ofLine_append_comment {text pad comment : List Char} (hpad : IsBlankText pad)
    (pad_ne_nil : pad ≠ [])
    (h : ∀ arguments, identityArguments? text = some arguments → IsAside arguments comment)
    (number : Nat) :
    ofLine ⟨number, text ++ (pad ++ '/' :: '/' :: comment)⟩ =
      (ofLine ⟨number, text⟩).gain comment := by
  have hcomment : isComment (text ++ (pad ++ '/' :: '/' :: comment)) = isComment text :=
    isComment_append text (hpad.head?_append_ne pad_ne_nil (by decide) _)
  have hattribute : isBlockAttribute (text ++ (pad ++ '/' :: '/' :: comment)) =
      isBlockAttribute text := by
    obtain ⟨b, more, rfl⟩ := List.exists_cons_of_ne_nil pad_ne_nil
    exact isBlockAttribute_append_cons
      (not_mem_of_isBlank (hpad b (List.mem_cons_self ..)) (by decide)) _ _
  have hidentity : identityArguments? (text ++ (pad ++ '/' :: '/' :: comment)) =
      (identityArguments? text).map (· ++ (pad ++ '/' :: '/' :: comment)) := by
    rw [← List.append_assoc, identityArguments?_append_mark (by decide) (by decide) (by decide),
      identityArguments?_append_blank hpad, Option.map_map]
    congr 1
    funext arguments
    exact List.append_assoc ..
  rw [ofLine, ofLine, hcomment, hattribute, hidentity, Field.ofLine?_append_comment hpad pad_ne_nil]
  split
  · rfl
  · split
    · cases harguments : identityArguments? text with
      | none => rfl
      | some arguments =>
        change Entry.identity _ = Entry.identity _
        rw [ofArguments?_append_comment hpad (h arguments harguments)]
    · cases Field.ofLine? text number with
      | none => rfl
      | some field => rfl

/-- A literal on a body line adds the attributes that it mentions, and nothing else if it is no part
of a composite identity. -/
theorem Entry.ofLine_literal {front content : List Char}
    (hcontent : isLiteral .quoted content = true)
    (h : ∀ arguments, identityArguments? front = some arguments → IsInert arguments content)
    (tail : List Char) (number : Nat) :
    ofLine ⟨number, front ++ '"' :: (content ++ '"' :: tail)⟩ =
      (ofLine ⟨number, front ++ '"' :: '"' :: tail⟩).gain content := by
  have hcomment : ∀ more, isComment (front ++ '"' :: more) = isComment front :=
    fun more => isComment_append front (by simp)
  have hattribute : ∀ more, isBlockAttribute (front ++ '"' :: more) = isBlockAttribute front :=
    isBlockAttribute_append_cons (by decide) front
  have hidentity : ∀ more, identityArguments? (front ++ '"' :: more) =
      (identityArguments? front).map (· ++ '"' :: more) :=
    identityArguments?_append_mark (by decide) (by decide) (by decide) front
  rw [ofLine, ofLine, hcomment, hcomment, hattribute, hattribute, hidentity, hidentity,
    Field.ofLine?_literal]
  split
  · rfl
  · split
    · cases harguments : identityArguments? front with
      | none => rfl
      | some arguments =>
        change Entry.identity _ = Entry.identity _
        rw [ofArguments?_literal hcontent (h arguments harguments)]
    · cases Field.ofLine? (front ++ '"' :: '"' :: tail) number with
      | none => rfl
      | some field => rfl

end Scaffold.Schema
