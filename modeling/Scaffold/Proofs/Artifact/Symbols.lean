import Scaffold.Artifact.Symbols
import Scaffold.Proofs.Artifact.Import
import Scaffold.Proofs.Text.NameForm

/-!
The names of a model in generated code: for a name that is a word, the classes are words, and the
stem of file names holds neither a slash nor a quote.
-/

namespace Scaffold.Artifact

open Text

/-- Names that generated code can use: words, and a stem of words and hyphens. -/
structure Symbols.AreWords (symbols : Symbols) : Prop where
  entity : isWord symbols.entity.toList = true
  accessor : isWord symbols.accessor.toList = true
  phrase : isWord symbols.phrase.toList = true
  stem_ne_nil : symbols.stem.toList ≠ []
  stem : ∀ c ∈ symbols.stem.toList, c = '-' ∨ isWordChar c = true

/-- All names are made from that of the model by case alone, the stem with hyphens put in. -/
theorem Symbols.areWords_ofName {name : String} (h : isWord name.toList = true) :
    (ofName name).AreWords where
  entity := isWord_capitalize h
  accessor := isWord_uncapitalize h
  phrase := isWord_lowercase h
  stem_ne_nil := hyphenate_ne_nil h
  stem := fun _ => mem_hyphenate h

/-- A character that is no hyphen and stands in no word does not stand in the stem. -/
theorem Symbols.AreWords.not_mem_stem {symbols : Symbols} (h : symbols.AreWords) {c : Char}
    (hhyphen : c ≠ '-') (hc : isWordChar c = false) : c ∉ symbols.stem.toList := by
  intro mem
  rcases h.stem c mem with h' | h'
  · exact hhyphen h'
  · rw [hc] at h'
    cases h'

theorem Symbols.AreWords.isPlainPath_stem {symbols : Symbols} (h : symbols.AreWords) :
    IsPlainPath symbols.stem :=
  ⟨h.not_mem_stem (by decide) (by decide), h.not_mem_stem (by decide) (by decide)⟩

/-- A class is named after the entity with fixed letters in front of it, behind it, or both. -/
theorem Symbols.AreWords.isWord_className {symbols : Symbols} (h : symbols.AreWords) (kind : Kind) :
    isWord (symbols.className kind).toList = true := by
  have before : ∀ front : String, isWord front.toList = true → ∀ back : String,
      (∀ c ∈ back.toList, isWordChar c = true) →
      isWord (front ++ symbols.entity ++ back).toList = true := by
    intro front hfront back hback
    rw [String.toList_append, String.toList_append]
    exact isWord_append (isWord_append hfront (isWord_iff.mp h.entity).2) hback
  have behind : ∀ back : String, (∀ c ∈ back.toList, isWordChar c = true) →
      isWord (symbols.entity ++ back).toList = true := by
    intro back hback
    rw [String.toList_append]
    exact isWord_append h.entity hback
  cases kind with
  | createDto => exact before "Create" (by decide) "Dto" (by decide)
  | updateDto => exact before "Update" (by decide) "Dto" (by decide)
  | repository => exact behind "Repository" (by decide)
  | service => exact behind "Service" (by decide)
  | controller => exact behind "Controller" (by decide)
  | wiring => exact behind "Module" (by decide)

/-- The fixed letters of a class are six at least, and the entity adds to them. -/
theorem Symbols.AreWords.length_className {symbols : Symbols} (h : symbols.AreWords) (kind : Kind) :
    6 < (symbols.className kind).toList.length := by
  have hentity : 0 < symbols.entity.toList.length :=
    List.length_pos_iff.mpr (isWord_iff.mp h.entity).1
  cases kind with
  | createDto => simp [className, createDto]
  | updateDto => simp [className, updateDto]
  | repository => simp [className, repository]
  | service => simp [className, service]
  | controller => simp [className, controller]
  | wiring => simpa [className, wiring] using hentity

end Scaffold.Artifact
