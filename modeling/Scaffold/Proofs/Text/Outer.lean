import Scaffold.Proofs.Text.Cut

/-!
Cuts that look beyond the first occurrence of a character: a cut at the last occurrence
(`cutAtLast?_append`), and a split at the commas that stand in no parentheses, which gives back
the parts of an enumeration even if commas stand in the parentheses of a part
(`splitOuter_enumeration`).
-/

namespace Scaffold.Text

/-- The text before and after the last occurrence of `mark`, if it occurs. -/
def cutAtLast? (mark : Char) (text : List Char) : Option (List Char × List Char) :=
  (cutAt? mark text.reverse).map fun (after, before) => (before.reverse, after.reverse)

theorem cutAtLast?_append {mark : Char} {after : List Char} (h : mark ∉ after)
    (before : List Char) : cutAtLast? mark (before ++ mark :: after) = some (before, after) := by
  have hreverse : (before ++ mark :: after).reverse = after.reverse ++ mark :: before.reverse := by
    simp
  rw [cutAtLast?, hreverse, cutAt?_append (by simpa using h)]
  simp

theorem dropSuffix?_append (text finish : List Char) :
    dropSuffix? finish (text ++ finish) = some text :=
  dropSuffix?_eq_some_iff.mpr rfl

/-- A text with another last character than the ending does not end so. -/
theorem dropSuffix?_eq_none {finish text : List Char} (hfinish : finish ≠ [])
    (h : text.getLast? ≠ finish.getLast?) : dropSuffix? finish text = none := by
  rw [Option.eq_none_iff_forall_not_mem]
  intro rest hrest
  rw [Option.mem_def, dropSuffix?_eq_some_iff] at hrest
  rw [hrest, getLast?_append_of_ne_nil hfinish] at h
  exact h rfl

/-! ### Parentheses -/

/-- How many parentheses are open behind a character. -/
def depthAfter (depth : Nat) (c : Char) : Nat :=
  if c = '(' then depth + 1 else if c = ')' then depth - 1 else depth

/-- The texts between the commas that stand in no parentheses, given how many are open. -/
def splitOuter (depth : Nat) : List Char → List (List Char)
  | [] => [[]]
  | c :: rest =>
    if depth = 0 ∧ c = ',' then [] :: splitOuter 0 rest
    else (splitOuter (depthAfter depth c) rest).modifyHead (c :: ·)

/-- A text that is not split, and from one depth leads to another. -/
def Leads (text : List Char) (before after : Nat) : Prop :=
  ∀ rest, splitOuter before (text ++ rest) = (splitOuter after rest).modifyHead (text ++ ·)

theorem Leads.append {first second : List Char} {before between after : Nat}
    (hfirst : Leads first before between) (hsecond : Leads second between after) :
    Leads (first ++ second) before after := by
  intro rest
  rw [List.append_assoc, hfirst, hsecond, List.modifyHead_modifyHead]
  congr 1
  funext part
  simp

theorem leads_cons {c : Char} {depth : Nat} (h : depth ≠ 0 ∨ c ≠ ',') :
    Leads [c] depth (depthAfter depth c) := by
  intro rest
  have hcut : ¬(depth = 0 ∧ c = ',') := by
    rintro ⟨hdepth, hc⟩
    rcases h with h | h
    · exact h hdepth
    · exact h hc
  rw [List.singleton_append, splitOuter, if_neg hcut]
  rfl

/-- Without parentheses the depth stays the same. -/
theorem leads_plain {text : List Char} (hopen : '(' ∉ text) (hclose : ')' ∉ text) {depth : Nat}
    (hcomma : depth ≠ 0 ∨ ',' ∉ text) : Leads text depth depth := by
  induction text with
  | nil =>
    intro rest
    have hid : (fun part : List Char => [] ++ part) = id := rfl
    rw [List.nil_append, hid, List.modifyHead_id, id]
  | cons c more ih =>
    simp only [List.mem_cons, not_or] at hopen hclose hcomma
    have hc : Leads [c] depth (depthAfter depth c) :=
      leads_cons (hcomma.imp_right fun h => Ne.symm h.1)
    have hsame : depthAfter depth c = depth := by
      rw [depthAfter, if_neg (Ne.symm hopen.1), if_neg (Ne.symm hclose.1)]
    rw [hsame] at hc
    exact hc.append (ih hopen.2 hclose.2 (hcomma.imp_right And.right))

/-- What stands in parentheses is not split. -/
theorem leads_parentheses {inner : List Char} (hopen : '(' ∉ inner) (hclose : ')' ∉ inner) :
    Leads ('(' :: (inner ++ [')'])) 0 0 := by
  have hfirst : Leads ['('] 0 1 := leads_cons (Or.inr (by decide))
  have hlast : Leads [')'] 1 0 := leads_cons (Or.inl Nat.one_ne_zero)
  exact hfirst.append ((leads_plain hopen hclose (Or.inl Nat.one_ne_zero)).append hlast)

/-- Splitting an enumeration at its outer commas and trimming gives back its parts. -/
theorem splitOuter_enumeration {parts : List (List Char)} (parts_ne_nil : parts ≠ [])
    (leads : ∀ part ∈ parts, Leads part 0 0) (trimmed : ∀ part ∈ parts, IsTrimmed part) :
    (splitOuter 0 (enumeration parts)).map trim = parts := by
  induction parts with
  | nil => exact absurd rfl parts_ne_nil
  | cons part rest ih =>
    have hpart := leads part (List.mem_cons_self ..)
    have htrim := trim_eq_self (trimmed part (List.mem_cons_self ..))
    cases rest with
    | nil =>
      have hsplit := hpart []
      rw [List.append_nil] at hsplit
      rw [enumeration_singleton, hsplit]
      simp [splitOuter, htrim]
    | cons next more =>
      have later := ih (by simp) (fun p hp => leads p (List.mem_cons_of_mem _ hp))
        (fun p hp => trimmed p (List.mem_cons_of_mem _ hp))
      -- The space behind the comma belongs to the first part of the rest, which is trimmed.
      have space : (splitOuter 0 (' ' :: enumeration (next :: more))).map trim =
          (splitOuter 0 (enumeration (next :: more))).map trim := by
        have hdepth : depthAfter 0 ' ' = 0 := by decide
        rw [splitOuter, if_neg (by decide), hdepth]
        generalize splitOuter 0 (enumeration (next :: more)) = texts
        cases texts with
        | nil => rfl
        | cons first others => rfl
      rw [enumeration_cons_cons, hpart, splitOuter, if_pos (by decide)]
      rw [List.modifyHead_cons, List.map_cons, List.append_nil, htrim, space, later]

end Scaffold.Text
