import Mathlib.Data.Bool.AllAny
import SourcePrint.Proofs.Blanks
import SourcePrint.Proofs.Kinds

namespace SourcePrint

/-- The mark that may stand between digits. -/
def Language.digitMark? : Language → Option Char
  | .c => none
  | .cpp => some '\''
  | .java => some '_'

/-- The letters that may end a floating literal. -/
def Language.floatLetters : Language → List Char
  | .c | .cpp => ['f', 'F', 'l', 'L']
  | .java => ['f', 'F', 'd', 'D']

/-- Digits, with marks only between them. -/
structure Digits (language : Language) where
  text : List Char
  parts : (text.all fun c => c.isDigit || language.digitMark? == some c) = true
  first : text.head?.any Char.isDigit = true
  last : text.getLast?.any Char.isDigit = true

structure Exponent (language : Language) where
  letter : Char
  sign : Option Char
  digits : Digits language
  letter_mem : letter ∈ ['e', 'E']
  sign_mem : ∀ c ∈ sign, c ∈ ['+', '-']

/-- The digits of a literal up to its exponent, and its point if it has one. -/
inductive Mantissa (language : Language) where
  | plain (whole : Digits language)
  | pointed (whole fraction : Digits language)
  | pointLast (whole : Digits language)
  | pointFirst (fraction : Digits language)

/-- A decimal floating literal: it has a point or an exponent. -/
structure FloatLiteral (language : Language) where
  mantissa : Mantissa language
  exponent : Option (Exponent language)
  letter : Option Char
  marked : ∀ whole, mantissa = .plain whole → exponent.isSome = true
  letter_mem : ∀ c ∈ letter, c ∈ language.floatLetters

namespace Mantissa

variable {language : Language}

def whole : Mantissa language → List Char
  | plain whole | pointed whole _ | pointLast whole => whole.text
  | pointFirst _ => []

def point : Mantissa language → List Char
  | plain _ => []
  | pointed _ fraction | pointFirst fraction => '.' :: fraction.text
  | pointLast _ => ['.']

end Mantissa

namespace FloatLiteral

variable {language : Language} (literal : FloatLiteral language)

def power : List Char :=
  match literal.exponent with
  | none => []
  | some exponent => exponent.letter :: (exponent.sign.toList ++ exponent.digits.text)

def text : List Char :=
  literal.mantissa.whole ++
    (literal.mantissa.point ++ (literal.power ++ literal.letter.toList))

/-- The point is the last of the mantissa, and a letter stands right behind it. -/
def letterBehindPoint : Bool :=
  literal.mantissa.point == ['.'] && (literal.exponent.isSome || literal.letter.isSome)

/-- Marks stand between the digits of the exponent. -/
def marksInExponent : Bool :=
  literal.exponent.any fun exponent => !exponent.digits.text.all Char.isDigit

/-- Neither of the two forms in which a literal is cut. -/
def isUncut : Bool := !literal.letterBehindPoint && !literal.marksInExponent

end FloatLiteral

namespace Lexeme

variable {language : Language}

theorem isDigitPart_of_digits (digits : Digits language) :
    digits.text.all (isDigitPart language) = true := by
  refine List.all_eq_true.mpr ?_
  intro c hc
  have hpart := List.all_eq_true.mp digits.parts c hc
  simp only [Bool.or_eq_true, beq_iff_eq] at hpart
  rcases hpart with hdigit | hmark
  · simp [isDigitPart, hdigit]
  · cases language <;> cases hmark <;> rfl

theorem exists_digit (digits : Digits language) :
    ∃ d more, digits.text = d :: more ∧ d.isDigit = true := by
  have hfirst := digits.first
  cases htext : digits.text with
  | nil => simp [htext] at hfirst
  | cons d more => exact ⟨d, more, rfl, by simpa [htext] using hfirst⟩

def exponentOrEndLetters : List Char := ['e', 'E', 'f', 'F', 'l', 'L', 'd', 'D']

theorem letter_facts (language : Language) {c : Char} (hc : c ∈ exponentOrEndLetters) :
    isDigitPart language c = false ∧ isNameStart c = true ∧ c.isAlphanum = true ∧ c ≠ '.' := by
  have hall : ∀ c ∈ exponentOrEndLetters, isDigitPart language c = false ∧ isNameStart c = true ∧
      c.isAlphanum = true ∧ c ≠ '.' := by
    cases language <;> exact List.all_iff_forall_prop.mp (by decide)
  exact hall c hc

theorem mem_letters_of_floatLetters {c : Char} (h : c ∈ language.floatLetters) :
    c ∈ exponentOrEndLetters ∧ c ∉ ['e', 'E'] := by
  have hall : ∀ c ∈ language.floatLetters, c ∈ exponentOrEndLetters ∧ c ∉ ['e', 'E'] := by
    cases language <;> exact List.all_iff_forall_prop.mp (by decide)
  exact hall c h

theorem behind_mantissa (literal : FloatLiteral language) :
    literal.exponent = none ∧ literal.letter = none ∨
      (literal.exponent.isSome || literal.letter.isSome) = true ∧
        ∃ c ∈ exponentOrEndLetters, ∃ more, literal.power ++ literal.letter.toList = c :: more := by
  cases hexponent : literal.exponent with
  | some exponent =>
    have hletters : ∀ c ∈ ['e', 'E'], c ∈ exponentOrEndLetters :=
      List.all_iff_forall_prop.mp (by decide)
    refine .inr ⟨rfl, exponent.letter, hletters _ exponent.letter_mem, ?_⟩
    exact ⟨_, by rw [FloatLiteral.power, hexponent, List.cons_append]⟩
  | none =>
    cases hletter : literal.letter with
    | none => exact .inl ⟨rfl, rfl⟩
    | some c =>
      refine .inr ⟨rfl, c, (mem_letters_of_floatLetters (literal.letter_mem c hletter)).1, [], ?_⟩
      simp [FloatLiteral.power, hexponent]

theorem not_isDigitPart_behind (literal : FloatLiteral language) (back : List Char) :
    (literal.power ++ (literal.letter.toList ++ ';' :: back)).head?.any (isDigitPart language) =
      false := by
  rcases behind_mantissa literal with ⟨hexponent, hletter⟩ | ⟨_, c, hc, more, hbehind⟩
  · have hend : isDigitPart language ';' = false := by cases language <;> rfl
    simp [FloatLiteral.power, hexponent, hletter, hend]
  · rw [← List.append_assoc, hbehind]
    simpa using (letter_facts language hc).1

theorem fraction_digits (digits : Digits language) {rest : List Char}
    (hrest : rest.head?.any (isDigitPart language) = false) :
    fraction language ('.' :: (digits.text ++ rest)) = ('.' :: digits.text, rest) := by
  obtain ⟨d, more, htext, hd⟩ := exists_digit digits
  have hdot : d ≠ '.' := by
    rintro rfl
    cases hd
  obtain ⟨htake, hdrop⟩ := takeWhile_of_all (isDigitPart_of_digits digits) hrest
  rw [fraction_of_digits, htake, hdrop]
  simp [htext, hdot, not_isNameStart_of_isDigit hd]

theorem fraction_float (literal : FloatLiteral language) (back : List Char)
    (h : literal.letterBehindPoint = false) :
    fraction language (literal.mantissa.point ++
        (literal.power ++ (literal.letter.toList ++ ';' :: back))) =
      (literal.mantissa.point, literal.power ++ (literal.letter.toList ++ ';' :: back)) := by
  have hbehind := not_isDigitPart_behind literal back
  cases hmantissa : literal.mantissa with
  | plain whole =>
    apply fraction_of_other
    intro after hafter
    obtain ⟨exponent, hexponent⟩ := Option.isSome_iff_exists.mp (literal.marked whole hmantissa)
    simp only [Mantissa.point, FloatLiteral.power, hexponent] at hafter
    have hletter := exponent.letter_mem
    rw [(List.cons.inj hafter).1] at hletter
    simp at hletter
  | pointed whole fraction => exact fraction_digits fraction hbehind
  | pointFirst fraction => exact fraction_digits fraction hbehind
  | pointLast whole =>
    have hnone : literal.exponent = none ∧ literal.letter = none := by
      simpa [FloatLiteral.letterBehindPoint, hmantissa, Mantissa.point] using h
    have hend : isDigitPart language ';' = false := by cases language <;> rfl
    simp only [Mantissa.point, FloatLiteral.power, hnone, Option.toList_none, List.nil_append,
      List.singleton_append]
    rw [fraction_of_digits (by simp; decide)]
    simp [hend]

theorem exponentMark_of_other {e : Char} (rest : List Char) (h : e ∉ ['e', 'E']) :
    exponentMark (e :: rest) = [] := by
  have hmark : (e == 'e' || e == 'E') = false := by simpa using h
  cases rest with
  | nil => rfl
  | cons d rest => simp [exponentMark, hmark]

theorem exponent_of_other {e : Char} (rest : List Char) (h : e ∉ ['e', 'E']) :
    Lexeme.exponent (e :: rest) = ([], e :: rest) := by
  rw [Lexeme.exponent, exponentMark_of_other rest h]

theorem exponent_of_digit (exponent : Exponent language) {rest : List Char}
    (hrest : rest.head?.any Char.isDigit = true) :
    Lexeme.exponent (exponent.letter :: (exponent.sign.toList ++ rest)) =
      (exponent.letter :: (exponent.sign.toList ++ rest.takeWhile Char.isDigit),
        rest.dropWhile Char.isDigit) := by
  have hletter : (exponent.letter == 'e' || exponent.letter == 'E') = true := by
    simpa using exponent.letter_mem
  cases rest with
  | nil => cases hrest
  | cons d rest =>
    have hd : d.isDigit = true := by simpa using hrest
    cases hsign : exponent.sign with
    | none => simp [Lexeme.exponent, exponentMark, hletter, hd]
    | some sign =>
      have hmem := exponent.sign_mem sign hsign
      have hsigns : ∀ c ∈ ['+', '-'], c.isDigit = false ∧ (c == '+' || c == '-') = true :=
        List.all_iff_forall_prop.mp (by decide)
      obtain ⟨hdigit, hmark⟩ := hsigns sign hmem
      simp [Lexeme.exponent, exponentMark, hletter, hdigit, hmark, hd]

theorem exists_behind_exponent (literal : FloatLiteral language) (back : List Char) :
    ∃ c more, literal.letter.toList ++ ';' :: back = c :: more ∧ c.isDigit = false ∧
      c ∉ ['e', 'E'] := by
  cases hletter : literal.letter with
  | none => exact ⟨';', back, rfl, rfl, by decide⟩
  | some c =>
    have hletters : ∀ c ∈ exponentOrEndLetters, c.isDigit = false :=
      List.all_iff_forall_prop.mp (by decide)
    obtain ⟨hmem, hother⟩ := mem_letters_of_floatLetters (literal.letter_mem c hletter)
    exact ⟨c, ';' :: back, rfl, hletters c hmem, hother⟩

theorem exponent_float (literal : FloatLiteral language) (back : List Char)
    (h : literal.marksInExponent = false) :
    Lexeme.exponent (literal.power ++ (literal.letter.toList ++ ';' :: back)) =
      (literal.power, literal.letter.toList ++ ';' :: back) := by
  obtain ⟨c, more, hbehind, hdigit, hother⟩ := exists_behind_exponent literal back
  rw [hbehind]
  cases hexponent : literal.exponent with
  | none =>
    rw [FloatLiteral.power, hexponent]
    exact exponent_of_other more hother
  | some exponent =>
    have hall : exponent.digits.text.all Char.isDigit = true := by
      simpa [FloatLiteral.marksInExponent, hexponent] using h
    obtain ⟨d, digits, htext, hd⟩ := exists_digit exponent.digits
    obtain ⟨htake, hdrop⟩ :=
      takeWhile_of_all hall (show (c :: more).head?.any Char.isDigit = false by simpa using hdigit)
    simp only [FloatLiteral.power, hexponent, List.cons_append, List.append_assoc]
    rw [exponent_of_digit exponent (by simp [htext, hd]), htake, hdrop]

theorem isDigitPart_whole (mantissa : Mantissa language) :
    mantissa.whole.all (isDigitPart language) = true := by
  cases mantissa with
  | plain whole => exact isDigitPart_of_digits whole
  | pointed whole _ => exact isDigitPart_of_digits whole
  | pointLast whole => exact isDigitPart_of_digits whole
  | pointFirst _ => rfl

theorem not_isDigitPart_point (literal : FloatLiteral language) (back : List Char) :
    (literal.mantissa.point ++
      (literal.power ++ (literal.letter.toList ++ ';' :: back))).head?.any (isDigitPart language) =
      false := by
  have hdot : isDigitPart language '.' = false := by cases language <;> rfl
  cases literal.mantissa with
  | plain _ => exact not_isDigitPart_behind literal back
  | pointed _ _ => exact hdot
  | pointLast _ => exact hdot
  | pointFirst _ => exact hdot

theorem exists_first_two_of_digits (digits : Digits language) {e : Char} (after : List Char)
    (he : e ∈ ['.', 'e', 'E']) :
    ∃ c d rest, digits.text ++ e :: after = c :: d :: rest ∧ startsNumber c (d :: rest) = true ∧
      (c = '.' ∨ isDigitPart language d = true ∨ d ∈ ['.', 'e', 'E']) := by
  obtain ⟨c, more, htext, hc⟩ := exists_digit digits
  have hparts := isDigitPart_of_digits digits
  rw [htext] at hparts ⊢
  cases more with
  | nil => exact ⟨c, e, after, rfl, by simp [startsNumber, hc], .inr (.inr he)⟩
  | cons d more =>
    have hd : isDigitPart language d = true := List.all_eq_true.mp hparts d (by simp)
    exact ⟨c, d, more ++ e :: after, rfl, by simp [startsNumber, hc], .inr (.inl hd)⟩

theorem exists_first_two (literal : FloatLiteral language) (back : List Char) :
    ∃ c d rest, literal.text ++ ';' :: back = c :: d :: rest ∧ startsNumber c (d :: rest) = true ∧
      (c = '.' ∨ isDigitPart language d = true ∨ d ∈ ['.', 'e', 'E']) := by
  unfold FloatLiteral.text
  cases hmantissa : literal.mantissa with
  | plain whole =>
    obtain ⟨exponent, hexponent⟩ := Option.isSome_iff_exists.mp (literal.marked whole hmantissa)
    simp only [Mantissa.whole, Mantissa.point, FloatLiteral.power, hexponent, List.nil_append,
      List.append_assoc, List.cons_append]
    exact exists_first_two_of_digits whole _ (List.mem_cons_of_mem _ exponent.letter_mem)
  | pointed whole fraction =>
    simp only [Mantissa.whole, Mantissa.point, List.append_assoc, List.cons_append]
    exact exists_first_two_of_digits whole _ (by simp)
  | pointLast whole =>
    simp only [Mantissa.whole, Mantissa.point, List.append_assoc, List.cons_append]
    exact exists_first_two_of_digits whole _ (by simp)
  | pointFirst fraction =>
    obtain ⟨d, more, htext, hd⟩ := exists_digit fraction
    simp only [Mantissa.whole, Mantissa.point, htext, List.nil_append, List.append_assoc,
      List.cons_append]
    exact ⟨'.', d, _, rfl, by simp [startsNumber, hd], .inl rfl⟩

theorem numeral_float (literal : FloatLiteral language) (back : List Char) :
    numeral language (literal.text ++ ';' :: back) =
      decimal language (literal.text ++ ';' :: back) := by
  obtain ⟨c, d, rest, htext, _, hfirst⟩ := exists_first_two literal back
  have hbase : c = '0' → d ∉ ['x', 'X', 'b', 'B'] := by
    rintro rfl hd
    rcases hfirst with hdot | hpart | hpoint
    · cases hdot
    · have hno : ∀ x ∈ ['x', 'X', 'b', 'B'], isDigitPart language x = false := by
        cases language <;> exact List.all_iff_forall_prop.mp (by decide)
      rw [hno d hd] at hpart
      cases hpart
    · have hno : ∀ x ∈ ['x', 'X', 'b', 'B'], x ∉ ['.', 'e', 'E'] :=
        List.all_iff_forall_prop.mp (by decide)
      exact hno d hd hpoint
  have hmark : ∀ test : Char → List Char → Bool,
      (∀ base after, test base after = true → base ∈ ['x', 'X', 'b', 'B']) →
      baseMark test (c :: d :: rest) = false := by
    intro test htest
    rw [← Bool.not_eq_true]
    intro hmark
    simp only [baseMark, Bool.and_eq_true, beq_iff_eq] at hmark
    exact hbase hmark.1 (htest d rest hmark.2)
  have hhex : hexMark (c :: d :: rest) = false := by
    refine hmark _ fun base after h => ?_
    simp only [Bool.or_eq_true, beq_iff_eq] at h
    rcases h with rfl | rfl <;> decide
  have hbinary : binaryMark (c :: d :: rest) = false := by
    refine hmark _ fun base after h => ?_
    simp only [Bool.and_eq_true, Bool.or_eq_true, beq_iff_eq] at h
    rcases h.1 with rfl | rfl <;> decide
  rw [numeral_eq, htext, hhex, hbinary]
  rfl

theorem decimal_of_parts {whole s point rest power last : List Char}
    (hwhole : whole.all (isDigitPart language) = true)
    (hs : s.head?.any (isDigitPart language) = false)
    (hpoint : fraction language s = (point, rest)) (hpower : Lexeme.exponent rest = (power, last)) :
    (decimal language (whole ++ s)).text = whole ++ point ++ power ∧
      (decimal language (whole ++ s)).rest = last ∧
      (point ≠ [] ∨ power ≠ [] → (decimal language (whole ++ s)).kind = .float) := by
  obtain ⟨htake, hdrop⟩ := takeWhile_of_all hwhole hs
  simp only [decimal, htake, hdrop, hpoint, hpower, true_and]
  exact fun h => if_pos h

theorem text_append (literal : FloatLiteral language) (back : List Char) :
    literal.text ++ back = literal.mantissa.whole ++ (literal.mantissa.point ++
      (literal.power ++ (literal.letter.toList ++ back))) := by
  simp only [FloatLiteral.text, List.append_assoc]

/-- A literal in neither of the two forms is read as one number. -/
theorem readNumber_float (literal : FloatLiteral language) (back : List Char)
    (h : literal.isUncut = true) :
    readNumber language (literal.text ++ ';' :: back) =
      ⟨[⟨.number .float, literal.text⟩], ';' :: back⟩ := by
  obtain ⟨hpoint, hpower⟩ := Bool.and_eq_true_iff.mp h
  obtain ⟨htext, hrest, hkind⟩ := decimal_of_parts (isDigitPart_whole literal.mantissa)
    (not_isDigitPart_point literal back) (fraction_float literal back (by simpa using hpoint))
    (exponent_float literal back (by simpa using hpower))
  have hfloat : literal.mantissa.point ≠ [] ∨ literal.power ≠ [] := by
    cases hmantissa : literal.mantissa with
    | plain whole =>
      obtain ⟨exponent, hexponent⟩ := Option.isSome_iff_exists.mp (literal.marked whole hmantissa)
      simp [FloatLiteral.power, hexponent]
    | pointed _ _ => simp [Mantissa.point]
    | pointLast _ => simp [Mantissa.point]
    | pointFirst _ => simp [Mantissa.point]
  have hletters : literal.letter.toList.all Char.isAlphanum = true := by
    refine List.all_eq_true.mpr fun c hc => ?_
    have hmem := literal.letter_mem c (Option.mem_toList.mp hc)
    exact (letter_facts language (mem_letters_of_floatLetters hmem).1).2.2.1
  obtain ⟨htake, hdrop⟩ :=
    takeWhile_of_all hletters (show (';' :: back).head?.any Char.isAlphanum = false from rfl)
  rw [readNumber, numeral_float, text_append]
  simp only [htext, hrest, hkind hfloat, htake, hdrop, reduceCtorEq, false_and, if_false]
  simp only [Reading.one, FloatLiteral.text, List.append_assoc]

theorem exists_mark (digits : Digits language) (h : digits.text.all Char.isDigit = false) :
    ∃ numerals mark more, digits.text = numerals ++ mark :: more ∧
      numerals.all Char.isDigit = true ∧ mark ∈ ['_', '\''] := by
  have happend : digits.text.takeWhile Char.isDigit ++ digits.text.dropWhile Char.isDigit =
      digits.text := List.takeWhile_append_dropWhile
  have hnumerals : (digits.text.takeWhile Char.isDigit).all Char.isDigit = true :=
    List.all_takeWhile
  have hend := any_head?_dropWhile Char.isDigit digits.text
  cases hdrop : digits.text.dropWhile Char.isDigit with
  | nil =>
    rw [hdrop, List.append_nil] at happend
    rw [happend, h] at hnumerals
    cases hnumerals
  | cons mark more =>
    rw [hdrop] at happend hend
    refine ⟨_, mark, more, happend.symm, hnumerals, ?_⟩
    have hmem : mark ∈ digits.text := by
      rw [← happend]
      simp
    have hpart := List.all_eq_true.mp digits.parts mark hmem
    have hdigit : mark.isDigit = false := by simpa using hend
    rw [hdigit, Bool.false_or, beq_iff_eq] at hpart
    cases language <;> cases hpart <;> decide

/-- With a letter right behind its point the literal is cut at the point. -/
theorem decimal_of_letterBehindPoint (literal : FloatLiteral language) (back : List Char)
    (h : literal.letterBehindPoint = true) :
    ∃ more, (decimal language (literal.text ++ ';' :: back)).rest = '.' :: more := by
  obtain ⟨hlast, hsome⟩ := Bool.and_eq_true_iff.mp h
  have hpoint := not_isDigitPart_point literal back
  rw [text_append]
  rcases behind_mantissa literal with ⟨hexponent, hletter⟩ | ⟨_, c, hc, more, hbehind⟩
  · simp [hexponent, hletter] at hsome
  · have hcut : literal.mantissa.point ++ (literal.power ++ (literal.letter.toList ++ ';' :: back)) =
        '.' :: c :: (more ++ ';' :: back) := by
      rw [beq_iff_eq.mp hlast, ← List.append_assoc literal.power, hbehind]
      rfl
    rw [hcut] at hpoint ⊢
    have hfraction : fraction language ('.' :: c :: (more ++ ';' :: back)) =
        ([], '.' :: c :: (more ++ ';' :: back)) := by
      apply fraction_of_other
      rintro after ⟨⟩
      simp [(letter_facts language hc).2.1]
    have hparts := decimal_of_parts (isDigitPart_whole literal.mantissa) hpoint hfraction
      (exponent_of_other _ (by decide))
    exact ⟨_, hparts.2.1⟩

/-- With marks in its exponent the literal is cut at the first of them. -/
theorem decimal_of_marksInExponent (literal : FloatLiteral language) (back : List Char)
    (hletter : literal.letterBehindPoint = false) (h : literal.marksInExponent = true) :
    ∃ mark more, (decimal language (literal.text ++ ';' :: back)).rest = mark :: more ∧
      mark ∈ ['_', '\''] := by
  cases hexponent : literal.exponent with
  | none => simp [FloatLiteral.marksInExponent, hexponent] at h
  | some exponent =>
    have hsome : exponent.digits.text.all Char.isDigit = false := by
      simpa [FloatLiteral.marksInExponent, hexponent] using h
    obtain ⟨numerals, mark, more, htext, hnumerals, hmark⟩ := exists_mark exponent.digits hsome
    have hdigit : ∀ c ∈ ['_', '\''], c.isDigit = false := List.all_iff_forall_prop.mp (by decide)
    let rest := mark :: (more ++ (literal.letter.toList ++ ';' :: back))
    have hend : rest.head?.any Char.isDigit = false := hdigit mark hmark
    have hfirst : (numerals ++ rest).head?.any Char.isDigit = true := by
      have hfirst := exponent.digits.first
      rw [htext] at hfirst
      cases numerals with
      | nil => exact absurd (hend.symm.trans hfirst) (by decide)
      | cons d numerals => exact hfirst
    have hpower : literal.power ++ (literal.letter.toList ++ ';' :: back) =
        exponent.letter :: (exponent.sign.toList ++ (numerals ++ rest)) := by
      simp [FloatLiteral.power, hexponent, htext, rest]
    have hpoint := not_isDigitPart_point literal back
    have hfraction := fraction_float literal back hletter
    rw [text_append]
    rw [hpower] at hfraction hpoint ⊢
    have hparts := decimal_of_parts (isDigitPart_whole literal.mantissa) hpoint hfraction
      (exponent_of_digit exponent hfirst)
    rw [(takeWhile_of_all hnumerals hend).2] at hparts
    exact ⟨mark, _, hparts.2.1, hmark⟩

/-- In the two forms a literal is cut. -/
theorem readNumber_cut (literal : FloatLiteral language) (back : List Char)
    (h : literal.isUncut = false) :
    (readNumber language (literal.text ++ ';' :: back)).rest ≠ ';' :: back := by
  have hcut : ∃ c more, (decimal language (literal.text ++ ';' :: back)).rest = c :: more ∧
      c ∈ ['.', '_', '\''] := by
    cases hletter : literal.letterBehindPoint with
    | true =>
      obtain ⟨more, hrest⟩ := decimal_of_letterBehindPoint literal back hletter
      exact ⟨'.', more, hrest, by simp⟩
    | false =>
      have hmarks : literal.marksInExponent = true := by
        simpa [FloatLiteral.isUncut, hletter] using h
      obtain ⟨mark, more, hrest, hmark⟩ := decimal_of_marksInExponent literal back hletter hmarks
      exact ⟨mark, more, hrest, List.mem_cons_of_mem _ hmark⟩
  obtain ⟨c, more, hrest, hc⟩ := hcut
  have hends : ∀ c ∈ ['.', '_', '\''], c.isAlphanum = false ∧ c ≠ ';' :=
    List.all_iff_forall_prop.mp (by decide)
  obtain ⟨halphanum, hne⟩ := hends c hc
  have hread : (readNumber language (literal.text ++ ';' :: back)).rest = c :: more := by
    simp only [readNumber, numeral_float, Reading.one, hrest]
    exact List.dropWhile_cons_of_neg (by simp [halphanum])
  rw [hread]
  exact fun h => hne (List.cons.inj h).1

theorem digit_or_dot_of_startsNumber {c : Char} {cs : List Char}
    (h : startsNumber c cs = true) : c.isDigit = true ∨ c = '.' := by
  simp only [startsNumber, Bool.or_eq_true, Bool.and_eq_true, beq_iff_eq] at h
  exact h.imp_right And.left

theorem not_isBlank_of_startsNumber {c : Char} {cs : List Char} (h : startsNumber c cs = true) :
    Text.isBlank c = false := by
  rcases digit_or_dot_of_startsNumber h with hdigit | rfl
  · rw [← Bool.not_eq_true]
    intro hblank
    rw [eq_false_of_isBlank (p := Char.isDigit) hblank (by decide +kernel)] at hdigit
    cases hdigit
  · decide

variable {context : Context}

theorem readNext_of_startsNumber {c : Char} {cs : List Char} (h : startsNumber c cs = true) :
    readNext language context (c :: cs) = readNumber language (c :: cs) := by
  have hne : ∀ {x : Char}, x.isDigit = false → x ≠ '.' → c ≠ x := by
    rintro x hdigit hdot rfl
    rcases digit_or_dot_of_startsNumber h with hc | hc
    · rw [hc] at hdigit
      cases hdigit
    · exact hdot hc
  have hslash : c ≠ '/' := hne rfl (by decide)
  have hhash : c ≠ '#' := hne rfl (by decide)
  have hbackslash : c ≠ '\\' := hne rfl (by decide)
  have hquote : c ≠ '"' := hne rfl (by decide)
  have hapostrophe : c ≠ '\'' := hne rfl (by decide)
  rw [readNext, if_neg (by simp [not_isBlank_of_startsNumber h])]
  simp [readToken, hslash, hhash, hbackslash, hquote, hapostrophe, h]

theorem readNext_semicolon (back : List Char) :
    readNext language context (';' :: back) = ⟨[⟨.punctuation, [';']⟩], back⟩ := by
  have hblank : ¬Text.isBlank ';' = true := by decide
  have hname : isNameStart ';' = false := by decide
  have hmark : longestMatch? punctuationMarks (';' :: back) = some [';'] := by
    simp [longestMatch?, punctuationMarks, longer]
  rw [readNext, if_neg hblank]
  simp [readToken, startsNumber, hname, readSign, hmark, Reading.one]

theorem next_semicolon (back : List Char) :
    context.next language (';' :: back) = ⟨false, false⟩ :=
  next_of_readNext (congrArg Reading.lexemes (readNext_semicolon back)) (by simp)

/-- A literal in neither of the two forms leaves one lexeme, wherever it is read. -/
theorem lexemes_float (literal : FloatLiteral language) (back : List Char)
    (h : literal.isUncut = true) :
    lexemes language context (literal.text ++ ';' :: back) =
      ⟨.number .float, literal.text⟩ :: ⟨.punctuation, [';']⟩ ::
        lexemes language ⟨false, false⟩ back := by
  have hread : readNext language context (literal.text ++ ';' :: back) =
      ⟨[⟨.number .float, literal.text⟩], ';' :: back⟩ := by
    obtain ⟨c, d, rest, htext, hstarts, _⟩ := exists_first_two literal back
    rw [htext, readNext_of_startsNumber hstarts, ← htext, readNumber_float literal back h]
  rw [lexemes_eq_readNext, hread, lexemes_eq_readNext, readNext_semicolon, next_semicolon]
  rfl

theorem lexemes_float_iff (context : Context) (literal : FloatLiteral language) :
    lexemes language context (literal.text ++ [';']) =
        [⟨.number .float, literal.text⟩, ⟨.punctuation, [';']⟩] ↔ literal.isUncut = true := by
  constructor
  · intro h
    by_contra hcut
    obtain ⟨c, d, rest, htext, hstarts, _⟩ := exists_first_two literal []
    have hcovers := (covers_readNext language context (literal.text ++ [';'])).text
    rw [lexemes_eq_readNext] at h
    rw [htext, readNext_of_startsNumber hstarts, ← htext] at hcovers h
    have hfirst := (List.cons.inj h).1
    rw [readNumber, Reading.one, textOf_cons, textOf_nil, List.append_nil,
      (Lexeme.mk.inj hfirst).2] at hcovers
    exact readNumber_cut literal [] (by simpa using hcut) (List.append_cancel_left hcovers)
  · intro h
    rw [lexemes_float literal [] h, lexemes]

theorem lexemes_float_between {front : List Char} (literal : FloatLiteral language)
    (back : List Char) (h : literal.isUncut = true)
    (hfront : ∀ last ∈ (lexemes language .start front).getLast?, last.isBlank = true) :
    lexemes language .start (front ++ (literal.text ++ ';' :: back)) =
      lexemes language .start front ++ ⟨.number .float, literal.text⟩ :: ⟨.punctuation, [';']⟩ ::
        lexemes language ⟨false, false⟩ back := by
  have hall : lexemes language .start front = lexemes language .start front ++ [] :=
    (List.append_nil _).symm
  obtain ⟨before, blanks, here, hbefore, hblanks, hreads, hempty, _⟩ := exists_gap_before hall hfront
  have htext : textOf before ++ blanks = front := by
    simpa using hreads.covers.text
  have hreads' := hreads.exchange_gap hblanks hempty (literal.text ++ ';' :: back)
  have hstart : (literal.text ++ ';' :: back).head?.any Text.isBlank = false := by
    obtain ⟨c, d, rest, hfirst, hstarts, _⟩ := exists_first_two literal back
    rw [hfirst]
    simpa using not_isBlank_of_startsNumber hstarts
  rw [← List.append_assoc, htext] at hreads'
  rw [hreads'.lexemes_eq, lexemes_blanks hblanks hstart, lexemes_float literal back h, hbefore,
    List.append_assoc]

end Lexeme

/-- Floating values do not matter: a decimal floating literal is read as one number exactly when no
letter stands right behind its point and no marks stand in its exponent, and in any text such a
literal may become any other one, between blanks and a semicolon. -/
theorem Language.float_literal_invariant (language : Language)
    (literal other : FloatLiteral language) (front back sourceName : String)
    (classifier : Classifier) :
    (language.spans (String.ofList literal.text ++ ";") =
        [⟨0, Text.byteLength literal.text, .number .float⟩,
          ⟨Text.byteLength literal.text, Text.byteLength literal.text + 1, .punctuation⟩] ↔
      literal.isUncut = true) ∧
    (literal.isUncut = true → other.isUncut = true →
      (∀ last ∈ (language.spans front).getLast?, last.isBlank front = true) →
      ∃ tokens changed,
        Token.normalize language.lexer (front ++ String.ofList literal.text ++ ";" ++ back)
          sourceName classifier = .ok tokens ∧
        Token.normalize language.lexer (front ++ String.ofList other.text ++ ";" ++ back)
          sourceName classifier = .ok changed ∧
        Token.canonicalText changed = Token.canonicalText tokens ∧
        ∀ version, Fingerprint.ofTokens sourceName changed version =
          Fingerprint.ofTokens sourceName tokens version) := by
  constructor
  · have htext : Lexeme.textOf [⟨.number .float, literal.text⟩, ⟨.punctuation, [';']⟩] =
        (String.ofList literal.text ++ ";").toList := by
      simp
    have hsemicolon : Text.byteLength [';'] = 1 := rfl
    have hspans : language.spans _ = _ ↔ language.scan _ = _ := Language.spans_eq_layOut_iff htext
    simp only [Span.layOut, mapThread_cons, mapThread_nil, Span.place, Nat.zero_add,
      hsemicolon] at hspans
    rw [hspans, ← htext, language.scan_eq, ← Lexeme.lexemes_float_iff .start literal]
    simp
  · intro hliteral hother hfront
    have hlast := Span.isBlank_last (language.slices_spans front) hfront
    rw [language.scan_eq] at hlast
    have hsymbols : ∀ literal : FloatLiteral language, literal.isUncut = true →
        ((language.scan (front ++ String.ofList literal.text ++ ";" ++ back).toList).filterMap
          fun lexeme => classifier.classify lexeme.category lexeme.text) =
        ((Lexeme.lexemes language .start front.toList).filterMap
            fun lexeme => classifier.classify lexeme.category lexeme.text) ++
          .literal :: .verbatim ";" :: (Lexeme.lexemes language ⟨false, false⟩ back.toList).filterMap
            fun lexeme => classifier.classify lexeme.category lexeme.text := by
      intro literal huncut
      have htext : (front ++ String.ofList literal.text ++ ";" ++ back).toList =
          front.toList ++ (literal.text ++ ';' :: back.toList) := by
        simp
      rw [language.scan_eq, htext, Lexeme.lexemes_float_between literal back.toList huncut hlast,
        List.filterMap_append]
      rfl
    have hjoined := congrArg Symbol.joinLiterals
      ((hsymbols other hother).trans (hsymbols literal hliteral).symm)
    obtain ⟨tokens, changed, htokens, hchanged, hkinds⟩ :=
      Language.normalize_kinds_congr hjoined sourceName
    exact ⟨tokens, changed, htokens, hchanged, Token.canonicalText_congr hkinds,
      Fingerprint.ofTokens_congr hkinds sourceName⟩

/-- A literal with all its parts, marks between its digits too, for one without digits in front. -/
theorem Language.float_literal_invariant_parts :
    ∃ literal other : FloatLiteral .cpp, literal.text = "1'0.5e-3L".toList ∧
      other.text = ".5".toList ∧
      Language.cpp.spans (String.ofList literal.text ++ ";") =
        [⟨0, 9, .number .float⟩, ⟨9, 10, .punctuation⟩] ∧
      (∀ last ∈ (Language.cpp.spans "x =\n").getLast?, last.isBlank "x =\n" = true) ∧
      ∃ tokens changed,
        Token.normalize Language.cpp.lexer ("x =\n" ++ String.ofList literal.text ++ ";" ++ " y")
          "a.cc" ⟨[]⟩ = .ok tokens ∧
        Token.normalize Language.cpp.lexer ("x =\n" ++ String.ofList other.text ++ ";" ++ " y")
          "a.cc" ⟨[]⟩ = .ok changed ∧
        Token.canonicalText changed = Token.canonicalText tokens ∧
        ∀ version, Fingerprint.ofTokens "a.cc" changed version =
          Fingerprint.ofTokens "a.cc" tokens version := by
  have hfront : ∀ last ∈ (Language.cpp.spans "x =\n").getLast?, last.isBlank "x =\n" = true := by
    have hspans : Language.cpp.spans "x =\n" =
        [⟨0, 1, .name .plain⟩, ⟨1, 2, .text⟩, ⟨2, 3, .operator⟩, ⟨3, 4, .text⟩] := by
      decide +kernel
    rw [hspans]
    rintro last ⟨⟩
    decide +kernel
  let literal : FloatLiteral .cpp :=
    { mantissa := .pointed ⟨"1'0".toList, by decide, by decide, by decide⟩
        ⟨"5".toList, by decide, by decide, by decide⟩
      exponent := some ⟨'e', some '-', ⟨"3".toList, by decide, by decide, by decide⟩, by decide,
        by simp⟩
      letter := some 'L'
      marked := by simp
      letter_mem := by simp [Language.floatLetters] }
  let other : FloatLiteral .cpp :=
    { mantissa := .pointFirst ⟨"5".toList, by decide, by decide, by decide⟩
      exponent := none
      letter := none
      marked := by simp
      letter_mem := by simp }
  obtain ⟨hspans, hsame⟩ :=
    Language.float_literal_invariant .cpp literal other "x =\n" " y" "a.cc" ⟨[]⟩
  exact ⟨literal, other, by decide, by decide, hspans.mpr (by decide), hfront,
    hsame (by decide) (by decide) hfront⟩

/-- A letter behind the point, and marks in the exponent: the literal is cut, and what it is cut into
even takes in the semicolon. -/
theorem Language.float_literal_cut :
    (∃ literal : FloatLiteral .c, literal.text = "1.f".toList) ∧
    Language.c.spans "1.f;" = [⟨0, 1, .number .integer⟩, ⟨1, 2, .punctuation⟩,
      ⟨2, 3, .name .plain⟩, ⟨3, 4, .punctuation⟩] ∧
    (Token.normalize Language.c.lexer "1.f;" "a.c" ⟨[]⟩).map Token.canonicalText = .ok "$.$;" ∧
    (Token.normalize Language.c.lexer "1.5f;" "a.c" ⟨[]⟩).map Token.canonicalText = .ok "$;" ∧
    (∃ literal : FloatLiteral .cpp, literal.text = "1e1'0".toList) ∧
    Language.cpp.spans "1e1'0;" = [⟨0, 3, .number .float⟩, ⟨3, 6, .string .character⟩] ∧
    (∃ literal : FloatLiteral .java, literal.text = "1e1_0".toList) ∧
    Language.java.spans "1e1_0;" = [⟨0, 3, .number .float⟩, ⟨3, 5, .name .plain⟩,
      ⟨5, 6, .punctuation⟩] := by
  have hpoint : ∃ literal : FloatLiteral .c, literal.text = "1.f".toList :=
    ⟨{ mantissa := .pointLast ⟨['1'], by decide, by decide, by decide⟩
       exponent := none
       letter := some 'f'
       marked := by simp
       letter_mem := by simp [Language.floatLetters] }, by decide⟩
  have hapostrophe : ∃ literal : FloatLiteral .cpp, literal.text = "1e1'0".toList :=
    ⟨{ mantissa := .plain ⟨['1'], by decide, by decide, by decide⟩
       exponent := some ⟨'e', none, ⟨"1'0".toList, by decide, by decide, by decide⟩, by decide,
         by simp⟩
       letter := none
       marked := by simp
       letter_mem := by simp }, by decide⟩
  have hunderscore : ∃ literal : FloatLiteral .java, literal.text = "1e1_0".toList :=
    ⟨{ mantissa := .plain ⟨['1'], by decide, by decide, by decide⟩
       exponent := some ⟨'e', none, ⟨"1_0".toList, by decide, by decide, by decide⟩, by decide,
         by simp⟩
       letter := none
       marked := by simp
       letter_mem := by simp }, by decide⟩
  exact ⟨hpoint, by decide +kernel, by decide +kernel, by decide +kernel, hapostrophe,
    by decide +kernel, hunderscore, by decide +kernel⟩

end SourcePrint
