import SourcePrint.Lexeme.Basic

namespace SourcePrint.Lexeme

def punctuationMarks : List String := ["...", "(", ")", "[", "]", "\x7b", "\x7d", ",", ";", "."]

def operatorSigns : List String :=
  [">>>=", "<<=", ">>=", ">>>", "->*", "<=>", "::", "->", "++", "--", "<<", ">>", "<=", ">=",
   "==", "!=", "&&", "||", "+=", "-=", "*=", "/=", "%=", "&=", "|=", "^=", "+", "-", "*", "/",
   "%", "=", "<", ">", "!", "&", "|", "^", "~", "?", ":"]

/-- The longer of two matches, the first of two equally long ones. -/
def longer (best : Option (List Char)) (entry : List Char) : Option (List Char) :=
  if best.all fun b => decide (b.length < entry.length) then some entry else best

/-- The longest entry of a table that the text begins with. -/
def longestMatch? (table : List String) (cs : List Char) : Option (List Char) :=
  ((table.map String.toList).filter (·.isPrefixOf cs)).foldl longer none

/-- A punctuation mark, else an operator, else one character that fits nowhere. -/
def readSign (c : Char) (cs : List Char) : Reading :=
  match longestMatch? punctuationMarks (c :: cs) with
  | some mark => .one .punctuation mark ((c :: cs).drop mark.length)
  | none =>
    match longestMatch? operatorSigns (c :: cs) with
    | some sign => .one .operator sign ((c :: cs).drop sign.length)
    | none => .one .error [c] cs

theorem foldl_longer_mem {entries : List (List Char)} {best : Option (List Char)} {x : List Char}
    (h : entries.foldl longer best = some x) : x ∈ entries ∨ best = some x := by
  induction entries generalizing best with
  | nil => exact .inr h
  | cons entry entries ih =>
    rcases ih h with h | h
    · exact .inl (List.mem_cons_of_mem _ h)
    · unfold longer at h
      split at h
      · exact .inl (by simp_all)
      · exact .inr h

theorem longestMatch?_mem {table : List String} {cs x : List Char}
    (h : longestMatch? table cs = some x) : x ∈ table.map String.toList ∧ x <+: cs := by
  rcases foldl_longer_mem h with h | h
  · obtain ⟨hmem, hstart⟩ := List.mem_filter.mp h
    exact ⟨hmem, List.isPrefixOf_iff_prefix.mp hstart⟩
  · simp at h

theorem length_readSign_le (c : Char) (cs : List Char) :
    (readSign c cs).rest.length ≤ cs.length := by
  have hmark : ∀ x ∈ punctuationMarks.map String.toList, 0 < x.length := by decide
  have hsign : ∀ x ∈ operatorSigns.map String.toList, 0 < x.length := by decide
  unfold readSign
  split
  · rename_i mark h
    have := hmark mark (longestMatch?_mem h).1
    simp only [Reading.one, List.length_drop, List.length_cons]
    omega
  · split
    · rename_i sign h
      have := hsign sign (longestMatch?_mem h).1
      simp only [Reading.one, List.length_drop, List.length_cons]
      omega
    · exact Nat.le_refl _

end SourcePrint.Lexeme
