import Mathlib.Data.List.TakeWhile
import SourcePrint.Text.Blank

namespace SourcePrint

theorem any_head?_dropWhile (p : Char → Bool) (cs : List Char) :
    (cs.dropWhile p).head?.any p = false := by
  have hhead := List.head?_dropWhile_not p cs
  cases hd : (cs.dropWhile p).head? with
  | none => rfl
  | some d => simpa [hd] using hhead

theorem dropWhile_eq_self {p : Char → Bool} {cs : List Char} (h : cs.head?.any p = false) :
    cs.dropWhile p = cs := by
  cases cs with
  | nil => rfl
  | cons c cs => exact List.dropWhile_cons_of_neg (by simpa using h)

namespace Text

theorem trim_eq_self_of_ends {cs : List Char} (hfirst : cs.head?.any isBlank = false)
    (hlast : cs.getLast?.any isBlank = false) : trim cs = cs := by
  rw [← List.head?_reverse] at hlast
  rw [trim, trimStart, dropWhile_eq_self hfirst, trimEnd, dropWhile_eq_self hlast,
    List.reverse_reverse]

theorem trim_eq_self {cs : List Char} (h : ∀ c ∈ cs, isBlank c = false) : trim cs = cs := by
  apply trim_eq_self_of_ends
  · cases hfirst : cs.head? with
    | none => rfl
    | some c => exact h c (List.mem_of_mem_head? hfirst)
  · cases hlast : cs.getLast? with
    | none => rfl
    | some c => exact h c (List.mem_of_getLast? hlast)

theorem any_getLast?_trimEnd (cs : List Char) : (trimEnd cs).getLast?.any isBlank = false := by
  rw [trimEnd, List.getLast?_reverse, any_head?_dropWhile]

theorem any_getLast?_trim (cs : List Char) : (trim cs).getLast?.any isBlank = false :=
  any_getLast?_trimEnd (trimStart cs)

theorem trimEnd_append {cs after : List Char} (h : after.all isBlank = true) :
    trimEnd (cs ++ after) = trimEnd cs := by
  have hblank : ∀ c ∈ after.reverse, isBlank c = true := by simpa using h
  rw [trimEnd, List.reverse_append, List.dropWhile_append_of_pos hblank, trimEnd]

/-- Blanks around a text change nothing of what is left of it. -/
theorem trim_padded {before after : List Char} (hbefore : before.all isBlank = true)
    (hafter : after.all isBlank = true) (cs : List Char) :
    trim (before ++ cs ++ after) = trim cs := by
  have hstart : trimStart (before ++ cs ++ after) = trimStart (cs ++ after) := by
    rw [trimStart, List.append_assoc, List.dropWhile_append_of_pos (List.all_eq_true.mp hbefore),
      trimStart]
  rw [trim, hstart, trimStart, List.dropWhile_append]
  split
  · rename_i hempty
    have hgone : after.dropWhile isBlank = [] :=
      List.dropWhile_eq_nil_iff.mpr (List.all_eq_true.mp hafter)
    rw [hgone, trim, trimStart, List.isEmpty_iff.mp hempty]
  · rw [trimEnd_append hafter, trim, trimStart]

theorem exists_trimEnd (cs : List Char) :
    ∃ blanks, cs = trimEnd cs ++ blanks ∧ blanks.all isBlank = true := by
  refine ⟨(cs.reverse.takeWhile isBlank).reverse, ?_, ?_⟩
  · rw [trimEnd, ← List.reverse_append, List.takeWhile_append_dropWhile, List.reverse_reverse]
  · rw [List.all_reverse]
    exact List.all_takeWhile

/-- A text is what is left of it between the blanks that are taken off. -/
theorem exists_trim (cs : List Char) :
    ∃ before after, cs = before ++ trim cs ++ after ∧ before.all isBlank = true ∧
      after.all isBlank = true := by
  obtain ⟨after, hafter, hblank⟩ := exists_trimEnd (trimStart cs)
  refine ⟨cs.takeWhile isBlank, after, ?_, List.all_takeWhile, hblank⟩
  rw [trim, List.append_assoc, ← hafter, trimStart, List.takeWhile_append_dropWhile]

theorem any_head?_trim (cs : List Char) : (trim cs).head?.any isBlank = false := by
  obtain ⟨blanks, hsplit, -⟩ := exists_trimEnd (trimStart cs)
  have hhead : (trimStart cs).head?.any isBlank = false := any_head?_dropWhile isBlank cs
  rw [hsplit, List.head?_append] at hhead
  rw [trim]
  cases h : (trimEnd (trimStart cs)).head? with
  | none => rfl
  | some c => simpa [h] using hhead

/-- What is left between the blanks at the ends of a text. -/
structure IsTrimmed (cs trimmed : List Char) : Prop where
  between : ∃ before after, cs = before ++ trimmed ++ after ∧ before.all isBlank = true ∧
    after.all isBlank = true
  first : trimmed.head?.any isBlank = false
  last : trimmed.getLast?.any isBlank = false

theorem isTrimmed_iff {cs trimmed : List Char} : IsTrimmed cs trimmed ↔ trimmed = trim cs := by
  constructor
  · rintro ⟨⟨before, after, rfl, hbefore, hafter⟩, hfirst, hlast⟩
    rw [trim_padded hbefore hafter, trim_eq_self_of_ends hfirst hlast]
  · rintro rfl
    exact ⟨exists_trim cs, any_head?_trim cs, any_getLast?_trim cs⟩

theorem trim_trim (cs : List Char) : trim (trim cs) = trim cs :=
  trim_eq_self_of_ends (any_head?_trim cs) (any_getLast?_trim cs)

theorem trim_eq_nil_iff {cs : List Char} : trim cs = [] ↔ cs.all isBlank = true := by
  constructor
  · intro hnil
    obtain ⟨before, after, hcs, hbefore, hafter⟩ := exists_trim cs
    rw [hcs, hnil, List.append_nil, List.all_append, hbefore, hafter]
    rfl
  · intro hblank
    rw [trim, trimStart, List.dropWhile_eq_nil_iff.mpr (List.all_eq_true.mp hblank)]
    rfl

theorem trim_sublist (cs : List Char) : (trim cs).Sublist cs := by
  obtain ⟨before, after, hcs, -, -⟩ := exists_trim cs
  have hinner : (trim cs).Sublist (before ++ trim cs ++ after) :=
    (List.sublist_append_right _ _).trans (List.sublist_append_left _ _)
  rwa [← hcs] at hinner

end Text

end SourcePrint
