import Mathlib.Data.List.SplitBy
import Scaffold.Proofs.Text.NameForm

/-!
Humps. A hump is a small letter with a capital right behind it, and every text comes apart at its
humps into parts that have none (`exists_isCutAtHumps`). Marking the humps joins the parts with
hyphens (`IsCutAtHumps.markHumps_eq`), so a text without hyphens gets none at its ends and no two
side by side (`hyphensApart_hyphenate`), and a text without capitals stays as it is
(`hyphenate_of_small`). `hyphenate_at_humps` puts this together for ASCII texts.
-/

namespace Scaffold.Text

/-! ### Cuts at humps -/

/-- Whether two neighbours are a hump: a small letter, and a capital behind it. -/
def isHump (before after : Char) : Bool :=
  before.isLower && after.isUpper

/-- The parts that a text comes apart into when it is cut in each of its humps. -/
structure IsCutAtHumps (text : List Char) (parts : List (List Char)) : Prop where
  flatten : parts.flatten = text
  nil_notMem : [] ∉ parts
  /-- No part has a hump in it. -/
  within : ∀ part ∈ parts, part.IsChain fun c d => isHump c d = false
  /-- The last character of a part and the first one of the next part are a hump. -/
  between : parts.IsChain fun first second =>
    ∃ c ∈ first.getLast?, ∃ d ∈ second.head?, isHump c d = true

/-- Every text can be cut at its humps. -/
theorem exists_isCutAtHumps (text : List Char) : ∃ parts, IsCutAtHumps text parts := by
  refine ⟨text.splitBy fun c d => !isHump c d, List.flatten_splitBy _ _,
    List.nil_notMem_splitBy _ _, ?_, ?_⟩
  · intro part hpart
    exact (List.isChain_of_mem_splitBy hpart).imp fun c d h => by simpa using h
  · refine (List.isChain_getLast_head_splitBy _ text).imp fun first second h => ?_
    obtain ⟨hfirst, hsecond, hhump⟩ := h
    exact ⟨_, List.getLast_mem_getLast? hfirst, _, List.head_mem_head? hsecond,
      by simpa using hhump⟩

/-! ### Marks -/

/-- Behind a text what counts is its last character, if it has one. -/
theorem markHumps_append (first second : List Char) (afterSmall : Bool) :
    markHumps afterSmall (first ++ second) =
      markHumps afterSmall first ++
        markHumps (first.getLast?.elim afterSmall Char.isLower) second := by
  induction first generalizing afterSmall with
  | nil => rfl
  | cons c rest ih =>
    have hlast : (c :: rest).getLast?.elim afterSmall Char.isLower =
        rest.getLast?.elim c.isLower Char.isLower := by
      rw [List.getLast?_cons]
      cases rest.getLast? <;> rfl
    rw [List.cons_append, markHumps, markHumps, hlast, ih]
    split
    · rfl
    · rfl

theorem markHumps_capital {c : Char} (h : c.isUpper = true) (rest : List Char) :
    markHumps true (c :: rest) = '-' :: markHumps false (c :: rest) := by
  simp [markHumps, h]

/-- A text without a hump, which makes none with what stands before it, gets no mark. -/
theorem markHumps_of_isChain {text : List Char} (h : text.IsChain fun c d => isHump c d = false)
    {afterSmall : Bool} (hfirst : ∀ c ∈ text.head?, (afterSmall && c.isUpper) = false) :
    markHumps afterSmall text = text := by
  induction text generalizing afterSmall with
  | nil => rfl
  | cons c rest ih =>
    obtain ⟨hnext, hrest⟩ := List.isChain_cons.mp h
    rw [markHumps, hfirst c rfl, if_neg Bool.false_ne_true, ih hrest hnext]

/-- Marking the humps joins the parts between them with hyphens. -/
theorem IsCutAtHumps.markHumps_eq {text : List Char} {parts : List (List Char)}
    (h : IsCutAtHumps text parts) : markHumps false text = ['-'].intercalate parts := by
  obtain ⟨rfl, -, hwithin, hbetween⟩ := h
  induction parts with
  | nil => rfl
  | cons part rest ih =>
    have hpart : markHumps false part = part :=
      markHumps_of_isChain (hwithin part List.mem_cons_self) fun _ _ => rfl
    cases rest with
    | nil => simpa using hpart
    | cons next others =>
      obtain ⟨⟨c, hc, d, hd, hhump⟩, hchain⟩ := List.isChain_cons_cons.mp hbetween
      obtain ⟨hsmall, hcapital⟩ := Bool.and_eq_true_iff.mp hhump
      -- At the border what follows begins with a capital and stands behind a small letter.
      have hborder : markHumps (part.getLast?.elim false Char.isLower) (next :: others).flatten =
          '-' :: markHumps false (next :: others).flatten := by
        rw [Option.mem_def.mp hc, Option.elim_some, hsmall, List.flatten_cons,
          List.eq_cons_of_mem_head? hd, List.cons_append, markHumps_capital hcapital]
      rw [List.flatten_cons, markHumps_append, hpart, hborder, List.intercalate_cons_cons,
        ih (fun p hp => hwithin p (List.mem_cons_of_mem _ hp)) hchain, List.append_assoc]
      rfl

theorem head?_markHumps (text : List Char) : (markHumps false text).head? = text.head? := by
  cases text with
  | nil => rfl
  | cons c rest => simp [markHumps]

theorem getLast?_markHumps (text : List Char) (afterSmall : Bool) :
    (markHumps afterSmall text).getLast? = text.getLast? := by
  rcases List.eq_nil_or_concat text with rfl | ⟨init, c, rfl⟩
  · rfl
  · rw [List.concat_eq_append, markHumps_append, markHumps]
    split
    · simp [markHumps]
    · simp [markHumps]

/-- What no character of a text is, no two neighbours are after marking: marks do not touch. -/
theorem isChain_markHumps {p : Char → Prop} {text : List Char} (h : ∀ c ∈ text, ¬p c)
    (afterSmall : Bool) : (markHumps afterSmall text).IsChain fun c d => ¬(p c ∧ p d) := by
  induction text generalizing afterSmall with
  | nil => exact List.isChain_nil
  | cons c rest ih =>
    obtain ⟨hc, hrest⟩ := List.forall_mem_cons.mp h
    have hkept : (c :: markHumps c.isLower rest).IsChain fun c d => ¬(p c ∧ p d) :=
      List.isChain_cons.mpr ⟨fun _ _ hboth => hc hboth.1, ih hrest _⟩
    rw [markHumps]
    split
    · exact List.isChain_cons_cons.mpr ⟨fun hboth => hc hboth.2, hkept⟩
    · exact hkept

/-! ### Hyphenated texts -/

/-- Hyphens that stand apart: none is first, none is last and no two are side by side. -/
structure HyphensApart (text : List Char) : Prop where
  head : text.head? ≠ some '-'
  last : text.getLast? ≠ some '-'
  inside : ¬['-', '-'] <:+: text

theorem map_intercalate {α β : Type} (f : α → β) (separator : List α) (parts : List (List α)) :
    (separator.intercalate parts).map f =
      (separator.map f).intercalate (parts.map (List.map f)) := by
  induction parts with
  | nil => rfl
  | cons part rest ih =>
    cases rest with
    | nil => simp
    | cons next others =>
      rw [List.intercalate_cons_cons, List.map_append, List.map_append, ih]
      simp only [List.map_cons, List.intercalate_cons_cons]

section Ascii

variable {name : String} (hascii : ∀ c ∈ name.toList, c.toNat < 0x80)

include hascii

/-- Hyphenating joins the parts between the humps, in lower case, with hyphens. -/
theorem IsCutAtHumps.toList_hyphenate_eq {parts : List (List Char)}
    (h : IsCutAtHumps name.toList parts) :
    (hyphenate name).toList = ['-'].intercalate (parts.map (List.map Char.toLower)) := by
  rw [toList_hyphenate hascii, h.markHumps_eq, map_intercalate]
  rfl

/-- The lower case of the parts between the humps is the lower case of the text. -/
theorem IsCutAtHumps.toList_lowercase_eq {parts : List (List Char)}
    (h : IsCutAtHumps name.toList parts) :
    (lowercase name).toList = (parts.map (List.map Char.toLower)).flatten := by
  rw [toList_lowercase hascii, ← h.flatten, List.map_flatten]

/-- What holds of every ASCII character in lower case holds throughout a hyphenated text. -/
theorem forall_mem_hyphenate (p : Char → Prop)
    (table : ∀ code < 0x80, p (Char.ofNat code).toLower) : ∀ c ∈ (hyphenate name).toList, p c := by
  intro c hc
  rw [toList_hyphenate hascii] at hc
  obtain ⟨d, hd, rfl⟩ := List.mem_map.mp hc
  exact forall_ascii (fun e => p e.toLower) table (toNat_lt_of_mem_markHumps hascii d hd)

/-- A text without capitals has no hump and stays as it is. -/
theorem hyphenate_of_small (h : ∀ c ∈ name.toList, isUpper c = false) : hyphenate name = name := by
  have hsmall : ∀ c ∈ name.toList, c.isUpper = false ∧ c.toLower = c := fun c hc =>
    forall_ascii (fun d => isUpper d = false → d.isUpper = false ∧ d.toLower = d) (by decide)
      (hascii c hc) (h c hc)
  have hchain : name.toList.IsChain fun c d => isHump c d = false :=
    (List.pairwise_of_forall_mem_list fun c _ d hd => by simp [isHump, hsmall d hd]).isChain
  rw [← String.toList_inj, toList_hyphenate hascii, markHumps_of_isChain hchain fun _ _ => rfl]
  exact (List.map_congr_left fun c hc => (hsmall c hc).2).trans (List.map_id _)

theorem hyphensApart_hyphenate (hplain : '-' ∉ name.toList) :
    HyphensApart (hyphenate name).toList := by
  have hlower : ∀ c ∈ name.toList, ¬c.toLower = '-' := by
    rintro c hc heq
    exact hplain ((toLower_eq_hyphen_iff (hascii c hc)).mp heq ▸ hc)
  have hmem : '-' ∉ name.toList.map Char.toLower := by simpa using hlower
  rw [toList_hyphenate hascii]
  refine ⟨?_, ?_, fun hinside => ?_⟩
  · rw [List.head?_map, head?_markHumps, ← List.head?_map]
    exact fun hhead => hmem (List.mem_of_head? hhead)
  · rw [List.getLast?_map, getLast?_markHumps, ← List.getLast?_map]
    exact fun hlast => hmem (List.mem_of_getLast? hlast)
  · have hchain : ((markHumps false name.toList).map Char.toLower).IsChain
        fun c d => ¬(c = '-' ∧ d = '-') :=
      (List.isChain_map _).mpr (isChain_markHumps hlower false)
    have hpair := List.IsChain.infix hchain hinside
    exact (List.isChain_cons_cons.mp hpair).1 ⟨rfl, rfl⟩

end Ascii

/-- Hyphenating an ASCII text leaves no capital, and changes nothing when it is done again. What it
gives is the text in lower case with one hyphen in each hump and nowhere else. So if the text had no
hyphens, then without those put in it is the text in lower case, these stand apart, and other
texts without hyphens that come to the same differ in the case of letters at most. -/
theorem hyphenate_at_humps (name : String) (hascii : ∀ c ∈ name.toList, c.toNat < 0x80) :
    (∀ c ∈ (hyphenate name).toList, isUpper c = false) ∧
    hyphenate (hyphenate name) = hyphenate name ∧
    (∃ parts, IsCutAtHumps name.toList parts ∧
      (lowercase name).toList = (parts.map (List.map Char.toLower)).flatten ∧
      (hyphenate name).toList = ['-'].intercalate (parts.map (List.map Char.toLower))) ∧
    ('-' ∉ name.toList →
      ((hyphenate name).toList.filter fun c => c != '-') = (lowercase name).toList ∧
      HyphensApart (hyphenate name).toList ∧
      ∀ other : String, (∀ c ∈ other.toList, c.toNat < 0x80) → '-' ∉ other.toList →
        hyphenate other = hyphenate name → lowercase other = lowercase name) := by
  have hsmall := forall_mem_hyphenate hascii (fun c => isUpper c = false) (by decide)
  have hagain := forall_mem_hyphenate hascii (fun c => c.toNat < 0x80) (by decide)
  obtain ⟨parts, hparts⟩ := exists_isCutAtHumps name.toList
  refine ⟨hsmall, hyphenate_of_small hagain hsmall,
    ⟨parts, hparts, hparts.toList_lowercase_eq hascii, hparts.toList_hyphenate_eq hascii⟩, ?_⟩
  intro hplain
  have hfilter := filter_hyphenate hascii hplain
  rw [← toList_lowercase hascii] at hfilter
  refine ⟨hfilter, hyphensApart_hyphenate hascii hplain, ?_⟩
  intro other hother hplainOther heq
  rw [← String.toList_inj, ← hfilter, ← heq, filter_hyphenate hother hplainOther,
    toList_lowercase hother]

theorem hyphenate_at_humps_keyword :
    hyphenate "DomMetaKeyword" = "dom-meta-keyword" ∧
      hyphenate "dom-meta-keyword" = "dom-meta-keyword" ∧
      HyphensApart "dom-meta-keyword".toList ∧
      lowercase "domMetaKeyword" = lowercase "DomMetaKeyword" := by
  have hform : hyphenate "DomMetaKeyword" = "dom-meta-keyword" := by decide
  obtain ⟨-, hagain, -, hplain⟩ := hyphenate_at_humps "DomMetaKeyword" (by decide)
  obtain ⟨-, hapart, hinjective⟩ := hplain (by decide)
  rw [hform] at hagain hapart
  exact ⟨hform, hagain, hapart, hinjective "domMetaKeyword" (by decide) (by decide) (by decide)⟩

end Scaffold.Text
