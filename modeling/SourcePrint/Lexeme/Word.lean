import SourcePrint.Language.Words
import SourcePrint.Lexeme.Quoted
import SourcePrint.Text.Alphabetic
import SourcePrint.Text.Numeric

namespace SourcePrint.Lexeme

def isNameStart (c : Char) : Bool := Text.isAlphabetic c || c == '_' || c == '$'

def isNameContinue (c : Char) : Bool :=
  Text.isAlphabetic c || Text.isNumeric c || c == '_' || c == '$'

/-- Words that belong to the quoted literal right after them, except in Java. -/
def encodingWords : List (List Char) := [['L'], ['u'], ['U'], ['u', '8']]

/-- In Java `class` after a dot names a class object and declares nothing. -/
def wordCategory (language : Language) (afterDot : Bool) (word : List Char) : Category :=
  match language.wordCategory? (String.ofList word) with
  | none => .name .plain
  | some category =>
    if language = .java ∧ afterDot ∧ word = ['c', 'l', 'a', 's', 's'] then .keyword .pseudo
    else category

/-- A word, or the quoted literal that it begins. -/
def readWord (language : Language) (afterDot : Bool) (cs : List Char) : Reading :=
  let word := cs.takeWhile isNameContinue
  let rest := cs.dropWhile isNameContinue
  let plain := Reading.one (wordCategory language afterDot word) word rest
  if language ≠ .java ∧ encodingWords.contains word then
    match rest with
    | '"' :: after => stringParts (word ++ ['"']) after
    | '\'' :: after => characterLiteral (word ++ ['\'']) after
    | _ => plain
  else plain

/-- A Java annotation, the dots of its name included. `@interface` declares one. -/
def readDecorator (cs : List Char) : Reading :=
  let name := cs.takeWhile fun c => isNameContinue c || c == '.'
  let category : Category :=
    if name = "interface".toList then .keyword .declaration else .name .decorator
  .one category ('@' :: name) (cs.dropWhile fun c => isNameContinue c || c == '.')

theorem isNameContinue_of_isNameStart {c : Char} (h : isNameStart c = true) :
    isNameContinue c = true := by
  simp only [isNameStart, isNameContinue, Bool.or_eq_true] at h ⊢
  rcases h with (h | h) | h <;> simp [h]

theorem length_readWord_le (language : Language) (afterDot : Bool) {c : Char} (cs : List Char)
    (hc : isNameStart c = true) :
    (readWord language afterDot (c :: cs)).rest.length ≤ cs.length := by
  have hrest : ((c :: cs).dropWhile isNameContinue).length ≤ cs.length := by
    rw [List.dropWhile_cons_of_pos (isNameContinue_of_isNameStart hc)]
    exact length_dropWhile_le _ cs
  simp only [readWord]
  split
  · split
    · rename_i after h
      have := length_stringParts_le ((c :: cs).takeWhile isNameContinue ++ ['"']) after
      rw [h, List.length_cons] at hrest
      omega
    · rename_i after h
      have := length_characterLiteral_le ((c :: cs).takeWhile isNameContinue ++ ['\'']) after
      rw [h, List.length_cons] at hrest
      omega
    · exact hrest
  · exact hrest

theorem length_readDecorator_le (cs : List Char) :
    (readDecorator cs).rest.length ≤ cs.length :=
  length_dropWhile_le _ cs

end SourcePrint.Lexeme
