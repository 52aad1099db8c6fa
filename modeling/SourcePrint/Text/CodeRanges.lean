namespace SourcePrint.Text

/-- A property of characters, as closed intervals of code points in increasing order. -/
abbrev CodeRanges := List (Nat × Nat)

/-- The intervals increase, so the search ends at the first one that begins past `n`. -/
def CodeRanges.has : CodeRanges → Nat → Bool
  | [], _ => false
  | (first, last) :: rest, n => decide (first ≤ n) && (decide (n ≤ last) || has rest n)

end SourcePrint.Text
