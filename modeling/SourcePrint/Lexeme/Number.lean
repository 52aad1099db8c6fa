import SourcePrint.Lexeme.Word

namespace SourcePrint.Lexeme

/-- Marks that may stand between digits. -/
def isSeparator (language : Language) (c : Char) : Bool :=
  c == '_' || (language == .cpp && c == '\'')

def isDigitPart (language : Language) (c : Char) : Bool := c.isDigit || isSeparator language c

def isBit (c : Char) : Bool := c == '0' || c == '1'

/-- A numeral without its suffix, and the text after it. -/
structure Numeral where
  kind : NumberKind
  text : List Char
  rest : List Char
  deriving DecidableEq, Repr

/-- A dot and the digits after it. A dot before a name or another dot is an operator's. -/
def fraction (language : Language) (cs : List Char) : List Char × List Char :=
  match cs with
  | '.' :: after =>
    if after.head?.any fun c => c == '.' || isNameStart c then ([], cs)
    else ('.' :: after.takeWhile (isDigitPart language), after.dropWhile (isDigitPart language))
  | _ => ([], cs)

/-- The mark of an exponent, with its sign if it has one, when a digit follows. -/
def exponentMark (cs : List Char) : List Char :=
  match cs with
  | e :: d :: after =>
    if e == 'e' || e == 'E' then
      if d.isDigit then [e]
      else if (d == '+' || d == '-') && after.head?.any Char.isDigit then [e, d]
      else []
    else []
  | _ => []

/-- An exponent has no separators. -/
def exponent (cs : List Char) : List Char × List Char :=
  match exponentMark cs with
  | [] => ([], cs)
  | mark =>
    let after := cs.drop mark.length
    (mark ++ after.takeWhile Char.isDigit, after.dropWhile Char.isDigit)

/-- A decimal numeral. A whole one of more than one character that begins with zero is octal. -/
def decimal (language : Language) (cs : List Char) : Numeral :=
  let whole := cs.takeWhile (isDigitPart language)
  let part := fraction language (cs.dropWhile (isDigitPart language))
  let power := exponent part.2
  let kind : NumberKind :=
    if part.1 ≠ [] ∨ power.1 ≠ [] then .float
    else if 1 < whole.length ∧ whole.head? = some '0' then .octal
    else .integer
  ⟨kind, whole ++ part.1 ++ power.1, power.2⟩

def numeral (language : Language) (cs : List Char) : Numeral :=
  match cs with
  | '0' :: base :: after =>
    if base == 'x' || base == 'X' then
      let p := fun c => isHexDigit c || isSeparator language c
      ⟨.hex, '0' :: base :: after.takeWhile p, after.dropWhile p⟩
    else if (base == 'b' || base == 'B') && after.head?.any isBit then
      let p := fun c => isBit c || isSeparator language c
      ⟨.binary, '0' :: base :: after.takeWhile p, after.dropWhile p⟩
    else decimal language cs
  | _ => decimal language cs

/-- A numeral and the letters and digits that follow it. Only a plain integer can be long. -/
def readNumber (language : Language) (cs : List Char) : Reading :=
  let n := numeral language cs
  let suffix := n.rest.takeWhile Char.isAlphanum
  let kind : NumberKind :=
    if n.kind = .integer ∧ suffix.any fun c => c == 'l' || c == 'L' then .longInteger else n.kind
  .one (.number kind) (n.text ++ suffix) (n.rest.dropWhile Char.isAlphanum)

theorem fraction_append (language : Language) (cs : List Char) :
    (fraction language cs).1 ++ (fraction language cs).2 = cs := by
  unfold fraction
  split
  · split
    · rfl
    · simp
  · rfl

theorem exponentMark_append (cs : List Char) :
    exponentMark cs ++ cs.drop (exponentMark cs).length = cs := by
  unfold exponentMark
  split
  · split
    · split
      · rfl
      · split <;> rfl
    · rfl
  · rfl

theorem exponent_append (cs : List Char) : (exponent cs).1 ++ (exponent cs).2 = cs := by
  have h := exponentMark_append cs
  unfold exponent
  split
  · rfl
  · simpa using h

theorem decimal_append (language : Language) (cs : List Char) :
    (decimal language cs).text ++ (decimal language cs).rest = cs := by
  simp only [decimal, List.append_assoc, exponent_append, fraction_append,
    List.takeWhile_append_dropWhile]

theorem numeral_append (language : Language) (cs : List Char) :
    (numeral language cs).text ++ (numeral language cs).rest = cs := by
  unfold numeral
  split
  · split
    · simp
    · split
      · simp
      · exact decimal_append language _
  · exact decimal_append language _

/-- Where a number begins: at a digit, or at a dot before a digit. -/
def startsNumber (c : Char) (cs : List Char) : Bool :=
  c.isDigit || (c == '.' && cs.head?.any Char.isDigit)

theorem isAlpha_iff {c : Char} :
    c.isAlpha = true ↔ 65 ≤ c.toNat ∧ c.toNat ≤ 90 ∨ 97 ≤ c.toNat ∧ c.toNat ≤ 122 := by
  have hupper : c.isUpper = true ↔ 65 ≤ c.toNat ∧ c.toNat ≤ 90 :=
    decide_eq_true_iff.trans (and_congr UInt32.le_iff_toNat_le UInt32.le_iff_toNat_le)
  have hlower : c.isLower = true ↔ 97 ≤ c.toNat ∧ c.toNat ≤ 122 :=
    Bool.and_eq_true_iff.trans
      (and_congr (decide_eq_true_iff.trans UInt32.le_iff_toNat_le)
        (decide_eq_true_iff.trans UInt32.le_iff_toNat_le))
  exact Bool.or_eq_true_iff.trans (or_congr hupper hlower)

theorem not_isNameStart_of_isDigit {c : Char} (h : c.isDigit = true) : isNameStart c = false := by
  have hc : 48 ≤ c.toNat ∧ c.toNat ≤ 57 := by
    simpa [Char.isDigit, UInt32.le_iff_toNat_le] using h
  have halpha : c.isAlpha = false := by
    rw [Bool.eq_false_iff]
    intro halpha
    have hletter := isAlpha_iff.mp halpha
    omega
  have hmark : c ≠ '_' ∧ c ≠ '$' := by
    constructor <;> rintro rfl <;> simp at hc
  simp [isNameStart, Text.isAlphabetic, halpha, hmark, show c.toNat < 0x80 by omega]

theorem text_numeral_ne_nil (language : Language) {c : Char} {cs : List Char}
    (h : startsNumber c cs = true) : (numeral language (c :: cs)).text ≠ [] := by
  have hdecimal : (decimal language (c :: cs)).text ≠ [] := by
    simp only [startsNumber, Bool.or_eq_true, Bool.and_eq_true, beq_iff_eq] at h
    rcases h with h | ⟨rfl, h⟩
    · simp [decimal, isDigitPart, h]
    · cases cs with
      | nil => simp at h
      | cons d cs =>
        have hd : d.isDigit = true := by simpa using h
        have hdot : d ≠ '.' := by rintro rfl; simp at hd
        have hpart : isDigitPart language '.' = false := by
          cases language <;> decide
        simp [decimal, hpart, fraction, hdot, not_isNameStart_of_isDigit hd]
  unfold numeral
  split
  · split
    · simp
    · split
      · simp
      · exact hdecimal
  · exact hdecimal

theorem length_readNumber_le (language : Language) {c : Char} {cs : List Char}
    (h : startsNumber c cs = true) :
    (readNumber language (c :: cs)).rest.length ≤ cs.length := by
  have hall := congrArg List.length (numeral_append language (c :: cs))
  have htext := List.length_pos_iff.mpr (text_numeral_ne_nil language h)
  have hrest := length_dropWhile_le Char.isAlphanum (numeral language (c :: cs)).rest
  simp only [List.length_append, List.length_cons] at hall
  exact Nat.le_trans hrest (by omega)

end SourcePrint.Lexeme
