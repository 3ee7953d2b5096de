import Scaffold.Text.NameForm
import Scaffold.Proofs.Text.Blank

/-!
The forms of a word. Capitalizing, uncapitalizing and lower case make a word of a word;
hyphenating makes a word with hyphens, which is not empty, and which tells words apart that differ
in more than the case of letters (`toLower_eq_of_hyphenate_eq`). What only needs ASCII characters is
stated for ASCII texts (`toList_lowercase`, `toList_hyphenate`, `filter_hyphenate`).
-/

namespace Scaffold.Text

theorem toNat_lt_of_isWordChar {c : Char} (h : isWordChar c = true) : c.toNat < 0x80 := by
  have := toNat_of_isWordChar h
  omega

theorem toNat_lt_of_isWord {text : List Char} (h : isWord text = true) :
    ∀ c ∈ text, c.toNat < 0x80 :=
  fun c hc => toNat_lt_of_isWordChar ((isWord_iff.mp h).2 c hc)

/-- What holds of each entry of the ASCII table holds of an ASCII character. -/
theorem forall_ascii (p : Char → Prop) (table : ∀ code < 0x80, p (Char.ofNat code)) {c : Char}
    (h : c.toNat < 0x80) : p c := by
  have entry := table c.toNat h
  rwa [Char.ofNat_toNat] at entry

theorem isWordChar_toUpper {c : Char} (h : isWordChar c = true) : isWordChar c.toUpper = true :=
  forall_ascii (fun d => isWordChar d = true → isWordChar d.toUpper = true) (by decide)
    (toNat_lt_of_isWordChar h) h

theorem isWordChar_toLower {c : Char} (h : isWordChar c = true) : isWordChar c.toLower = true :=
  forall_ascii (fun d => isWordChar d = true → isWordChar d.toLower = true) (by decide)
    (toNat_lt_of_isWordChar h) h

/-- In lower case an ASCII character is a hyphen only if it was one. -/
theorem toLower_eq_hyphen_iff {c : Char} (h : c.toNat < 0x80) : c.toLower = '-' ↔ c = '-' :=
  forall_ascii (fun d => d.toLower = '-' ↔ d = '-') (by decide) h

theorem isWord_append {first second : List Char} (hfirst : isWord first = true)
    (hsecond : ∀ c ∈ second, isWordChar c = true) : isWord (first ++ second) = true := by
  obtain ⟨hne, hchars⟩ := isWord_iff.mp hfirst
  refine isWord_iff.mpr ⟨by simp [hne], fun c hc => ?_⟩
  rcases List.mem_append.mp hc with hc | hc
  · exact hchars c hc
  · exact hsecond c hc

/-- A word with another word character in place of its first one is a word. -/
theorem exists_cons_of_isWord {name : String} (h : isWord name.toList = true) :
    ∃ c rest, name.toList = c :: rest ∧ c.toNat < 0x80 ∧ isWordChar c = true ∧
      ∀ d, isWordChar d = true → isWord (d :: rest) = true := by
  obtain ⟨hne, hchars⟩ := isWord_iff.mp h
  obtain ⟨c, rest, htext⟩ := List.exists_cons_of_ne_nil hne
  rw [htext] at hchars
  have hc := hchars c (List.mem_cons_self ..)
  refine ⟨c, rest, htext, toNat_lt_of_isWordChar hc, hc, fun d hd => ?_⟩
  exact isWord_iff.mpr ⟨List.cons_ne_nil d rest,
    List.forall_mem_cons.mpr ⟨hd, fun e he => hchars e (List.mem_cons_of_mem _ he)⟩⟩

theorem isWord_capitalize {name : String} (h : isWord name.toList = true) :
    isWord (capitalize name).toList = true := by
  obtain ⟨c, rest, htext, hascii, hc, hword⟩ := exists_cons_of_isWord h
  have hupper : upper c = [c.toUpper] := if_pos hascii
  rw [capitalize, htext]
  simpa [hupper] using hword c.toUpper (isWordChar_toUpper hc)

/-- The first character of a capitalized word is in upper case, and the rest is as it was. -/
theorem toList_capitalize {name : String} (h : isWord name.toList = true) :
    ∃ c rest, name.toList = c :: rest ∧ c.toNat < 0x80 ∧
      (capitalize name).toList = c.toUpper :: rest := by
  obtain ⟨c, rest, htext, hascii, _, _⟩ := exists_cons_of_isWord h
  have hupper : upper c = [c.toUpper] := if_pos hascii
  refine ⟨c, rest, htext, hascii, ?_⟩
  rw [capitalize, htext]
  simp [hupper]

theorem length_capitalize {name : String} (h : isWord name.toList = true) :
    (capitalize name).toList.length = name.toList.length := by
  obtain ⟨c, rest, htext, _, hcapitalize⟩ := toList_capitalize h
  rw [hcapitalize, htext]
  rfl

/-- Capitalizing leaves alone the words that do not begin with a small letter. -/
theorem capitalize_eq_self_iff {name : String} (h : isWord name.toList = true) :
    capitalize name = name ↔ ∀ c ∈ name.toList.head?, c.isLower = false := by
  obtain ⟨c, rest, htext, hascii, hcapitalize⟩ := toList_capitalize h
  have hupper : c.toUpper = c ↔ c.isLower = false :=
    forall_ascii (fun d => d.toUpper = d ↔ d.isLower = false) (by decide) hascii
  rw [← String.toList_inj, hcapitalize, htext, List.cons.injEq, and_iff_left rfl, hupper]
  simp

theorem isWord_uncapitalize {name : String} (h : isWord name.toList = true) :
    isWord (uncapitalize name).toList = true := by
  obtain ⟨c, rest, htext, hascii, hc, hword⟩ := exists_cons_of_isWord h
  have hlower : lower c = [c.toLower] := if_pos hascii
  rw [uncapitalize, htext]
  simpa [hlower] using hword c.toLower (isWordChar_toLower hc)

theorem toList_lowercase {name : String} (h : ∀ c ∈ name.toList, c.toNat < 0x80) :
    (lowercase name).toList = name.toList.map Char.toLower := by
  rw [lowercase, String.toList_ofList, lowerText_of_ascii h]

theorem isWord_lowercase {name : String} (h : isWord name.toList = true) :
    isWord (lowercase name).toList = true := by
  obtain ⟨hne, hchars⟩ := isWord_iff.mp h
  rw [toList_lowercase (toNat_lt_of_isWord h)]
  refine isWord_iff.mpr ⟨by simpa using hne, fun c hc => ?_⟩
  obtain ⟨d, hd, rfl⟩ := List.mem_map.mp hc
  exact isWordChar_toLower (hchars d hd)

theorem mem_markHumps {afterSmall : Bool} {text : List Char} {c : Char}
    (h : c ∈ markHumps afterSmall text) : c = '-' ∨ c ∈ text := by
  induction text generalizing afterSmall with
  | nil => cases h
  | cons d rest ih =>
    rw [markHumps] at h
    split at h
    · rcases List.mem_cons.mp h with rfl | h
      · exact Or.inl rfl
      · rcases List.mem_cons.mp h with rfl | h
        · exact Or.inr (List.mem_cons_self ..)
        · exact (ih h).imp_right (List.mem_cons_of_mem _)
    · rcases List.mem_cons.mp h with rfl | h
      · exact Or.inr (List.mem_cons_self ..)
      · exact (ih h).imp_right (List.mem_cons_of_mem _)

theorem markHumps_ne_nil {text : List Char} (h : text ≠ []) (afterSmall : Bool) :
    markHumps afterSmall text ≠ [] := by
  cases text with
  | nil => exact absurd rfl h
  | cons c rest =>
    rw [markHumps]
    split
    · simp
    · simp

theorem toNat_lt_of_mem_markHumps {text : List Char} (h : ∀ c ∈ text, c.toNat < 0x80)
    {afterSmall : Bool} : ∀ c ∈ markHumps afterSmall text, c.toNat < 0x80 := by
  intro c hc
  rcases mem_markHumps hc with rfl | hc
  · decide
  · exact h c hc

/-- Without the hyphens a text is what it was before they were put in. -/
theorem filter_markHumps {text : List Char} (h : '-' ∉ text) (afterSmall : Bool) :
    ((markHumps afterSmall text).filter fun c => c != '-') = text := by
  induction text generalizing afterSmall with
  | nil => rfl
  | cons c rest ih =>
    rw [List.mem_cons, not_or] at h
    have hkeep : c ≠ '-' := Ne.symm h.1
    rw [markHumps]
    split
    · simp [hkeep, ih h.2]
    · simp [hkeep, ih h.2]

/-- Hyphenating an ASCII text marks its humps and then takes each character in lower case. -/
theorem toList_hyphenate {name : String} (h : ∀ c ∈ name.toList, c.toNat < 0x80) :
    (hyphenate name).toList = (markHumps false name.toList).map Char.toLower := by
  rw [hyphenate, String.toList_ofList, lowerText_of_ascii (toNat_lt_of_mem_markHumps h)]

/-- A hyphenated word is word characters and hyphens. -/
theorem mem_hyphenate {name : String} (h : isWord name.toList = true) {c : Char}
    (hc : c ∈ (hyphenate name).toList) : c = '-' ∨ isWordChar c = true := by
  obtain ⟨_, hchars⟩ := isWord_iff.mp h
  rw [toList_hyphenate (toNat_lt_of_isWord h)] at hc
  obtain ⟨d, hd, rfl⟩ := List.mem_map.mp hc
  rcases mem_markHumps hd with rfl | hd
  · exact Or.inl (by decide)
  · exact Or.inr (isWordChar_toLower (hchars d hd))

theorem hyphenate_ne_nil {name : String} (h : isWord name.toList = true) :
    (hyphenate name).toList ≠ [] := by
  obtain ⟨hne, _⟩ := isWord_iff.mp h
  rw [toList_hyphenate (toNat_lt_of_isWord h)]
  simpa using markHumps_ne_nil hne false

/-- Without the hyphens a hyphenated text that had none is the text in lower case. -/
theorem filter_hyphenate {name : String} (hascii : ∀ c ∈ name.toList, c.toNat < 0x80)
    (hplain : '-' ∉ name.toList) :
    ((hyphenate name).toList.filter fun c => c != '-') = name.toList.map Char.toLower := by
  have hlower : ∀ d ∈ markHumps false name.toList,
      ((fun c => c != '-') ∘ Char.toLower) d = (d != '-') := by
    intro d hd
    rw [Bool.eq_iff_iff, Function.comp_apply, bne_iff_ne, bne_iff_ne, Ne, Ne,
      toLower_eq_hyphen_iff (toNat_lt_of_mem_markHumps hascii d hd)]
  rw [toList_hyphenate hascii, List.filter_map, List.filter_congr hlower, filter_markHumps hplain]

/-- Words that are hyphenated alike differ in the case of letters at most. -/
theorem toLower_eq_of_hyphenate_eq {first second : String} (hfirst : isWord first.toList = true)
    (hsecond : isWord second.toList = true) (h : hyphenate first = hyphenate second) :
    first.toList.map Char.toLower = second.toList.map Char.toLower := by
  have hplain : ∀ {text : List Char}, isWord text = true → '-' ∉ text :=
    fun hword => not_mem_of_isWord hword (by decide)
  rw [← filter_hyphenate (toNat_lt_of_isWord hfirst) (hplain hfirst),
    ← filter_hyphenate (toNat_lt_of_isWord hsecond) (hplain hsecond), h]

end Scaffold.Text
