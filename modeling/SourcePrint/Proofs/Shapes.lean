import SourcePrint.Proofs.Quotations
import SourcePrint.Proofs.Spelling

namespace SourcePrint

namespace Run

variable {σ : Type} {move : σ → Char → Move σ} {holds : List Char → σ → Prop}

/-- How a run can end, where `holds` says what has been taken once a state is reached. -/
inductive Ended (move : σ → Char → Move σ) (holds : List Char → σ → Prop) : Run → Prop where
  | exhausted {taken : List Char} {state : σ} (before : holds taken state) :
      Ended move holds ⟨taken, [], false⟩
  | stopped {taken rest : List Char} {state : σ} {c : Char} (before : holds taken state)
      (stop : move state c = .stop) : Ended move holds ⟨taken, c :: rest, false⟩
  | closed {taken rest : List Char} {state : σ} {c : Char} (before : holds taken state)
      (close : move state c = .close) : Ended move holds ⟨taken ++ [c], rest, true⟩

theorem ended_resume
    (step : ∀ taken state c next, holds taken state → move state c = .take next →
      holds (taken ++ [c]) next)
    {taken : List Char} {state : σ} (start : holds taken.reverse state) (cs : List Char) :
    Ended move holds (resume move taken state cs) := by
  induction cs generalizing taken state with
  | nil => exact .exhausted start
  | cons c cs ih =>
    rw [resume]
    cases hmove : move state c with
    | take next =>
      apply ih
      rw [List.reverse_cons]
      exact step _ _ _ _ start hmove
    | close =>
      simp only [List.reverse_cons]
      exact .closed start hmove
    | stop => exact .stopped start hmove

/-- What every step of a run keeps, holds where the run ends. -/
theorem ended_read
    (step : ∀ taken state c next, holds taken state → move state c = .take next →
      holds (taken ++ [c]) next)
    {state : σ} (start : holds [] state) (cs : List Char) :
    Ended move holds (read move state cs) :=
  ended_resume step (show holds ([] : List Char).reverse state from start) cs

end Run

/-- The categories of words. -/
def Category.isWord : Category → Bool
  | .keyword _ | .wordOperator | .name .plain => true
  | _ => false

namespace Lexeme

/-- A word that stands for itself, and not the annotation that is a reserved word. -/
def isWord (lexeme : Lexeme) : Bool := lexeme.category.isWord && isName lexeme.text

/-- All of a class of characters that there is from where the run begins. -/
structure MaximalRun (p : Char → Bool) (run behind : List Char) : Prop where
  all : ∀ c ∈ run, p c = true
  ended : behind.head?.any p = false

/-- It goes on to the end of the line. -/
structure LineComment (text behind : List Char) : Prop where
  opening : ['/', '/'] <+: text
  inside : '\n' ∉ text
  ended : behind = [] ∨ behind.head? = some '\n'

/-- It ends at the first star and slash behind its opening, or with the text if there are none. -/
def BlockComment (text behind : List Char) : Prop :=
  ∃ body, text = '/' :: '*' :: body ∧
    (['*', '/'] <:+ body ∧ ¬ ['*', '/'] <:+: body.dropLast ∨
      behind = [] ∧ ¬ ['*', '/'] <:+: body)

/-- A line that goes on behind its newline: a backslash, and at most carriage returns behind it. -/
def Continued (line : List Char) : Prop :=
  ∃ front returns, line = front ++ '\\' :: returns ∧ ∀ c ∈ returns, c = '\r'

/-- It goes over the newlines of continued lines and ends in front of any other. -/
structure Directive (language : Language) (text behind : List Char) : Prop where
  language : language ≠ .java
  opening : text.head? = some '#'
  inside : ∀ front back, text = front ++ '\n' :: back → Continued front
  ended : behind = [] ∨ behind.head? = some '\n' ∧ ¬ Continued text

structure Number (text behind : List Char) : Prop where
  opening : text.head?.any Char.isDigit = true ∨
    ∃ d more, text = '.' :: d :: more ∧ d.isDigit = true
  ended : behind.head?.any Char.isAlphanum = false

/-- A whole name with the category that the language's table has for it. Only the class object of
Java has another one. -/
structure Word (language : Language) (lexeme : Lexeme) (behind : List Char) : Prop where
  name : isName lexeme.text = true
  ended : behind.head?.any isNameContinue = false
  category : lexeme.category =
      (language.wordCategory? (String.ofList lexeme.text)).getD (.name .plain) ∨
    language = .java ∧ lexeme.text = "class".toList ∧ lexeme.category = .keyword .pseudo

/-- The annotation of Java with this name, which may have dots. -/
structure Annotation (language : Language) (name text behind : List Char) : Prop where
  language : language = .java
  text : text = '@' :: name
  opening : name.head?.any isNameStart = true
  run : MaximalRun (fun c => isNameContinue c || c == '.') name behind

/-- The longest sign of a table that can be read where only a sign can begin. -/
structure LongestSign (language : Language) (table : List String) (text behind : List Char) :
    Prop where
  mem : text ∈ table.map String.toList
  longest : ∀ sign ∈ table, sign.toList <+: text ++ behind → sign.toList.length ≤ text.length
  begins : ∃ c cs, text ++ behind = c :: cs ∧ Text.isBlank c = false ∧ BeginsSign language c cs

/-- One character at which nothing begins. -/
def Stray (language : Language) (text behind : List Char) : Prop :=
  ∃ c, text = [c] ∧ Text.isBlank c = false ∧ BeginsSign language c behind ∧
    ∀ sign ∈ punctuationMarks ++ operatorSigns, ¬ sign.toList <+: c :: behind

/-- A stretch of a string literal. It ends at a quote of its own, or in front of an escape, a
newline or the end of the text. -/
structure Stretch (text behind : List Char) : Prop where
  nonempty : text ≠ []
  inside : ∀ c ∈ text, c ≠ '\\' ∧ c ≠ '\n'
  ended : text.getLast? = some '"' ∨ ∀ c ∈ behind.head?, c = '\\' ∨ c = '\n'

/-- A backslash with the character behind it, and with the digits behind an `x` or an octal
digit. -/
def Escape (text behind : List Char) : Prop :=
  text = ['\\'] ∧ behind = [] ∨
  (∃ digits, text = '\\' :: 'x' :: digits ∧ MaximalRun isHexDigit digits behind) ∨
  (∃ digits, text = '\\' :: digits ∧ digits ≠ [] ∧ (∀ d ∈ digits, isOctalDigit d = true) ∧
    digits.length ≤ 3 ∧ (digits.length < 3 → behind.head?.any isOctalDigit = false)) ∨
  ∃ c, text = ['\\', c] ∧ c ≠ 'x' ∧ isOctalDigit c = false

/-- It ends at the first quote that no backslash takes with it, or else in front of a newline or
with the text, whose last backslash may have nothing to take. -/
def Character (language : Language) (text behind : List Char) : Prop :=
  ∃ encoding body, text = encoding ++ '\'' :: body ∧
    (encoding = [] ∨ language ≠ .java ∧ encoding ∈ encodingWords) ∧
    ((∃ inside, body = inside ++ ['\''] ∧ isBody '\'' inside = true) ∨
      behind.head? = some '\n' ∧ isBody '\'' body = true ∨
      behind = [] ∧ ∃ inside, isBody '\'' inside = true ∧ (body = inside ∨ body = inside ++ ['\\']))

/-- What the category of a lexeme says of its text and of the text right behind it. No scan gives a
category that is not named here. -/
def Shaped (language : Language) (lexeme : Lexeme) (behind : List Char) : Prop :=
  match lexeme.category with
  | .text =>
    lexeme.text ≠ [] ∧ MaximalRun Text.isBlank lexeme.text behind ∨
      lexeme.text = ['\\'] ∧ (behind.head? = some '\n' ∨ behind.head? = some '\r')
  | .comment .single => LineComment lexeme.text behind
  | .comment .multiline => BlockComment lexeme.text behind
  | .comment .directive => Directive language lexeme.text behind
  | .number _ => Number lexeme.text behind
  | .keyword .declaration =>
    Word language lexeme behind ∨ Annotation language "interface".toList lexeme.text behind
  | .keyword _ | .wordOperator | .name .plain => Word language lexeme behind
  | .name .decorator =>
    ∃ name, Annotation language name lexeme.text behind ∧ name ≠ "interface".toList
  | .punctuation => LongestSign language punctuationMarks lexeme.text behind
  | .operator =>
    LongestSign language operatorSigns lexeme.text behind ∧
      ∀ mark ∈ punctuationMarks, ¬ mark.toList <+: lexeme.text ++ behind
  | .error => Stray language lexeme.text behind
  | .string .plain => Stretch lexeme.text behind
  | .string .escape => Escape lexeme.text behind
  | .string .character => Character language lexeme.text behind
  | _ => False

/-- Each of the lexemes has its shape in front of those behind it and `rest`. -/
def AllShaped (language : Language) (rest : List Char) : List Lexeme → Prop
  | [] => True
  | lexeme :: lexemes =>
    Shaped language lexeme (textOf lexemes ++ rest) ∧ AllShaped language rest lexemes

variable {language : Language} {context : Context}

theorem allShaped_append {rest : List Char} {a b : List Lexeme} :
    AllShaped language rest (a ++ b) ↔
      AllShaped language (textOf b ++ rest) a ∧ AllShaped language rest b := by
  induction a with
  | nil => simp [AllShaped]
  | cons lexeme a ih => simp [AllShaped, ih, and_assoc]

theorem allShaped_one {category : Category} {text rest : List Char}
    (h : Shaped language ⟨category, text⟩ rest) :
    AllShaped language rest (Reading.one category text rest).lexemes :=
  ⟨h, trivial⟩

/-! A run that takes a class of characters takes all there is. -/

theorem maximalRun_takeWhile (p : Char → Bool) (cs : List Char) :
    MaximalRun p (cs.takeWhile p) (cs.dropWhile p) :=
  ⟨List.all_eq_true.mp List.all_takeWhile, any_head?_dropWhile p cs⟩

theorem lineComment_takeWhile {cs : List Char} (h : cs.head? = some '/') :
    LineComment (('/' :: cs).takeWhile (· != '\n')) (('/' :: cs).dropWhile (· != '\n')) := by
  obtain ⟨after, rfl⟩ := List.head?_eq_some_iff.mp h
  have hrun := maximalRun_takeWhile (· != '\n') ('/' :: '/' :: after)
  constructor
  · simp
  · intro hmem
    simpa using hrun.all '\n' hmem
  · have hended := hrun.ended
    generalize ('/' :: '/' :: after).dropWhile (· != '\n') = behind at hended
    cases behind with
    | nil => exact .inl rfl
    | cons c behind => exact .inr (by simpa using hended)

/-- What a block comment has taken: nothing that would have closed it, and a last star if it knows
of one. -/
def OpenBlock (taken : List Char) (star : Bool) : Prop :=
  ¬ ['*', '/'] <:+: taken ∧ (star = true ↔ ['*'] <:+ taken)

theorem openBlock_step (taken : List Char) (star : Bool) (c : Char) (next : Bool)
    (h : OpenBlock taken star) (hmove : blockMove star c = .take next) :
    OpenBlock (taken ++ [c]) next := by
  unfold blockMove at hmove
  split at hmove
  · cases hmove
  · rename_i hopen
    cases hmove
    constructor
    · rw [List.infix_concat_iff, List.suffix_concat_iff]
      rintro ((hnil | ⟨front, hfront, hsuffix⟩) | hinfix)
      · cases hnil
      · obtain ⟨rfl, hc⟩ := List.append_inj' (show ['*'] ++ ['/'] = front ++ [c] from hfront) rfl
        exact hopen ⟨h.2.mpr hsuffix, (List.singleton_inj.mp hc).symm⟩
      · exact h.1 hinfix
    · rw [List.suffix_concat_iff, beq_iff_eq]
      constructor
      · rintro rfl
        exact .inr ⟨[], rfl, List.nil_suffix⟩
      · rintro (hnil | ⟨front, hfront, -⟩)
        · cases hnil
        · obtain ⟨-, hc⟩ := List.append_inj' (show [] ++ ['*'] = front ++ [c] from hfront) rfl
          exact (List.singleton_inj.mp hc).symm

theorem blockComment_read (cs : List Char) :
    BlockComment ('/' :: '*' :: (Run.read blockMove false cs).taken)
      (Run.read blockMove false cs).rest := by
  have hstart : OpenBlock [] false := by simp [OpenBlock]
  have hended := Run.ended_read openBlock_step hstart cs
  generalize Run.read blockMove false cs = run at hended
  refine ⟨_, rfl, ?_⟩
  cases hended with
  | exhausted before => exact .inr ⟨rfl, before.1⟩
  | stopped before stop =>
    unfold blockMove at stop
    split at stop <;> cases stop
  | closed before close =>
    unfold blockMove at close
    split at close
    · rename_i hclose
      left
      rw [List.dropLast_concat, hclose.2]
      exact ⟨List.suffix_concat_iff.mpr (.inr ⟨['*'], rfl, before.2.mp hclose.1⟩), before.1⟩
    · cases close

theorem continued_concat {line : List Char} {c : Char} :
    Continued (line ++ [c]) ↔ c = '\\' ∨ c = '\r' ∧ Continued line := by
  constructor
  · rintro ⟨front, returns, hline, hreturns⟩
    induction returns using List.reverseRecOn with
    | nil =>
      obtain ⟨-, hc⟩ := List.append_inj' hline rfl
      exact .inl (List.singleton_inj.mp hc)
    | append_singleton returns d _ =>
      rw [← List.cons_append, ← List.append_assoc] at hline
      obtain ⟨rfl, hc⟩ := List.append_inj' hline rfl
      obtain rfl := List.singleton_inj.mp hc
      refine .inr ⟨hreturns c (by simp), front, returns, rfl, ?_⟩
      intro e he
      exact hreturns e (by simp [he])
  · rintro (rfl | ⟨rfl, front, returns, rfl, hreturns⟩)
    · exact ⟨line, [], rfl, by simp⟩
    · refine ⟨front, returns ++ ['\r'], by simp, ?_⟩
      intro e he
      rcases List.mem_append.mp he with he | he
      · exact hreturns e he
      · simpa using he

/-- What a directive has taken: continued lines, and it knows whether its last one is continued. -/
def OpenDirective (taken : List Char) (escaped : Bool) : Prop :=
  (∀ front back, '#' :: taken = front ++ '\n' :: back → Continued front) ∧
    (escaped = true ↔ Continued ('#' :: taken))

theorem openDirective_start : OpenDirective [] false := by
  constructor
  · intro front back h
    have hmem : '\n' ∈ ['#'] := by simp [h]
    simp at hmem
  · have hhash : ¬ Continued ([] ++ ['#']) := by
      rw [continued_concat]
      simp
    simpa using hhash

theorem directiveMove_cases (escaped : Bool) (c : Char) :
    directiveMove escaped c = .stop ∧ c = '\n' ∧ escaped = false ∨
      ∃ next, directiveMove escaped c = .take next ∧ (c = '\n' → escaped = true) ∧
        (next = true ↔ c = '\\' ∨ c = '\r' ∧ escaped = true) := by
  unfold directiveMove
  by_cases hnewline : c = '\n'
  · cases escaped <;> simp [hnewline]
  by_cases hbackslash : c = '\\'
  · simp [hbackslash]
  by_cases hreturn : c = '\r'
  · simp [hreturn]
  · simp [hnewline, hbackslash, hreturn]

theorem openDirective_step (taken : List Char) (escaped : Bool) (c : Char) (next : Bool)
    (h : OpenDirective taken escaped) (hmove : directiveMove escaped c = .take next) :
    OpenDirective (taken ++ [c]) next := by
  obtain ⟨hstop, -⟩ | ⟨state, htake, hnewline, hnext⟩ := directiveMove_cases escaped c
  · rw [hstop] at hmove
    cases hmove
  rw [htake] at hmove
  obtain rfl := Move.take.inj hmove
  unfold OpenDirective
  rw [← List.cons_append, continued_concat, ← h.2]
  refine ⟨?_, hnext⟩
  intro front back hline
  induction back using List.reverseRecOn with
  | nil =>
    obtain ⟨rfl, hc⟩ := List.append_inj' hline rfl
    exact h.2.mp (hnewline (List.singleton_inj.mp hc))
  | append_singleton back d _ =>
    rw [← List.cons_append, ← List.append_assoc] at hline
    obtain ⟨hline, -⟩ := List.append_inj' hline rfl
    exact h.1 front back hline

theorem directive_read (hlanguage : language ≠ .java) (cs : List Char) :
    Directive language ('#' :: (Run.read directiveMove false cs).taken)
      (Run.read directiveMove false cs).rest := by
  have hended := Run.ended_read openDirective_step openDirective_start cs
  generalize Run.read directiveMove false cs = run at hended
  cases hended with
  | exhausted before => exact ⟨hlanguage, rfl, before.1, .inl rfl⟩
  | @stopped taken rest escaped c before stop =>
    obtain ⟨-, rfl, rfl⟩ | ⟨next, htake, -⟩ := directiveMove_cases escaped c
    · refine ⟨hlanguage, rfl, before.1, .inr ⟨rfl, ?_⟩⟩
      intro hcontinued
      cases before.2.mpr hcontinued
    · rw [htake] at stop
      cases stop
  | @closed taken rest escaped c before close =>
    obtain ⟨hstop, -⟩ | ⟨next, htake, -⟩ := directiveMove_cases escaped c
    · rw [hstop] at close
      cases close
    · rw [htake] at close
      cases close

theorem number_readNumber {c : Char} {cs : List Char} (h : startsNumber c cs = true) :
    Number ((numeral language (c :: cs)).text ++
        (numeral language (c :: cs)).rest.takeWhile Char.isAlphanum)
      ((numeral language (c :: cs)).rest.dropWhile Char.isAlphanum) := by
  refine ⟨?_, any_head?_dropWhile _ _⟩
  have hne := text_numeral_ne_nil language h
  have happend := numeral_append language (c :: cs)
  by_cases hc : c.isDigit = true
  · left
    obtain ⟨d, text, htext⟩ := List.exists_cons_of_ne_nil hne
    rw [htext, List.cons_append] at happend
    rw [htext, (List.cons.inj happend).1]
    simpa using hc
  · right
    obtain ⟨rfl, hdigit⟩ : c = '.' ∧ cs.head?.any Char.isDigit = true := by
      simpa [startsNumber, hc] using h
    obtain ⟨d, more, rfl, hd⟩ : ∃ d more, cs = d :: more ∧ d.isDigit = true := by
      cases cs with
      | nil => cases hdigit
      | cons d more => exact ⟨d, more, rfl, hdigit⟩
    have hpoint : isDigitPart language '.' = false := by cases language <;> rfl
    have hother : ((d :: more).head?.any fun c => c == '.' || isNameStart c) = false := by
      have hdot : d ≠ '.' := by
        rintro rfl
        cases hd
      simp [hdot, not_isNameStart_of_isDigit hd]
    have hpart : isDigitPart language d = true := by simp [isDigitPart, hd]
    simp only [numeral, decimal, List.takeWhile_cons, List.dropWhile_cons, hpoint,
      fraction_of_digits hother, hpart, Bool.false_eq_true, if_false, if_true]
    exact ⟨d, _, rfl, hd⟩

theorem wordCategory_cases (language : Language) (afterDot : Bool) (word : List Char) :
    wordCategory language afterDot word = .wordOperator ∨
      wordCategory language afterDot word = .name .plain ∨
      ∃ kind, wordCategory language afterDot word = .keyword kind := by
  unfold wordCategory
  cases hreserved : language.wordCategory? (String.ofList word) with
  | none => exact .inr (.inl rfl)
  | some category =>
    simp only
    split
    · exact .inr (.inr ⟨_, rfl⟩)
    · rcases category_of_wordCategory? hreserved with h | h
      · exact .inl h
      · exact .inr (.inr h)

theorem shaped_word {afterDot : Bool} {word behind : List Char} (hname : isName word = true)
    (hended : behind.head?.any isNameContinue = false) :
    Shaped language ⟨wordCategory language afterDot word, word⟩ behind := by
  have hword : Word language ⟨wordCategory language afterDot word, word⟩ behind := by
    refine ⟨hname, hended, ?_⟩
    unfold wordCategory
    cases language.wordCategory? (String.ofList word) with
    | none => exact .inl rfl
    | some category =>
      simp only
      split
      · rename_i hclass
        exact .inr ⟨hclass.1, hclass.2.2, rfl⟩
      · exact .inl rfl
  rcases wordCategory_cases language afterDot word with h | h | ⟨kind, h⟩
  · rw [h] at hword ⊢
    exact hword
  · rw [h] at hword ⊢
    exact hword
  · rw [h] at hword ⊢
    cases kind with
    | declaration => exact .inl hword
    | _ => exact hword

theorem allShaped_readDecorator {cs : List Char} (hjava : language = .java)
    (hcs : cs.head?.any isNameStart = true) :
    AllShaped language (readDecorator cs).rest (readDecorator cs).lexemes := by
  have hopening : (cs.takeWhile fun c => isNameContinue c || c == '.').head?.any isNameStart =
      true := by
    cases cs with
    | nil => cases hcs
    | cons c cs =>
      have hc : isNameStart c = true := hcs
      simpa [isNameContinue_of_isNameStart hc] using hc
  have hannotation : Annotation language (cs.takeWhile fun c => isNameContinue c || c == '.')
      ('@' :: cs.takeWhile fun c => isNameContinue c || c == '.')
      (cs.dropWhile fun c => isNameContinue c || c == '.') :=
    ⟨hjava, rfl, hopening, maximalRun_takeWhile _ _⟩
  apply allShaped_one
  by_cases hname : (cs.takeWhile fun c => isNameContinue c || c == '.') = "interface".toList
  · rw [if_pos hname]
    rw [hname] at hannotation ⊢
    exact .inr hannotation
  · rw [if_neg hname]
    exact ⟨_, hannotation, hname⟩

/-! The longest entry of a table that matches is found, if any does. -/

theorem length_le_of_foldl_longer {entries : List (List Char)} {best : Option (List Char)}
    {x : List Char} (h : entries.foldl longer best = some x) :
    (∀ entry ∈ entries, entry.length ≤ x.length) ∧ ∀ b ∈ best, b.length ≤ x.length := by
  induction entries generalizing best with
  | nil =>
    obtain rfl : best = some x := h
    simp
  | cons entry entries ih =>
    obtain ⟨hentries, hlonger⟩ := ih h
    unfold longer at hlonger
    split at hlonger
    · rename_i hshorter
      have hentry := hlonger entry rfl
      refine ⟨by simpa [hentry] using hentries, ?_⟩
      rintro b rfl
      have hb : b.length < entry.length := by simpa using hshorter
      omega
    · rename_i hlong
      refine ⟨?_, hlonger⟩
      cases best with
      | none => simp at hlong
      | some b =>
        have hb := hlonger b rfl
        have hentry : entry.length ≤ b.length := by simpa using hlong
        simpa [Nat.le_trans hentry hb] using hentries

theorem eq_nil_of_foldl_longer {entries : List (List Char)} {best : Option (List Char)}
    (h : entries.foldl longer best = none) : entries = [] ∧ best = none := by
  induction entries generalizing best with
  | nil => exact ⟨rfl, h⟩
  | cons entry entries ih =>
    have hnone := (ih h).2
    unfold longer at hnone
    split at hnone
    · cases hnone
    · rename_i hlong
      simp [hnone] at hlong

theorem length_le_of_longestMatch? {table : List String} {cs x : List Char}
    (h : longestMatch? table cs = some x) :
    ∀ sign ∈ table, sign.toList <+: cs → sign.toList.length ≤ x.length := by
  intro sign hsign hbegins
  apply (length_le_of_foldl_longer h).1
  exact List.mem_filter.mpr
    ⟨List.mem_map_of_mem hsign, List.isPrefixOf_iff_prefix.mpr hbegins⟩

theorem not_prefix_of_longestMatch? {table : List String} {cs : List Char}
    (h : longestMatch? table cs = none) : ∀ sign ∈ table, ¬ sign.toList <+: cs := by
  intro sign hsign hbegins
  have hempty := (eq_nil_of_foldl_longer h).1
  have hmem : sign.toList ∈ (table.map String.toList).filter (·.isPrefixOf cs) :=
    List.mem_filter.mpr ⟨List.mem_map_of_mem hsign, List.isPrefixOf_iff_prefix.mpr hbegins⟩
  rw [hempty] at hmem
  cases hmem

theorem longestSign_of_longestMatch? {table : List String} {c : Char} {cs sign : List Char}
    (h : longestMatch? table (c :: cs) = some sign) (hc : Text.isBlank c = false)
    (hbegins : BeginsSign language c cs) :
    sign ++ (c :: cs).drop sign.length = c :: cs ∧
      LongestSign language table sign ((c :: cs).drop sign.length) := by
  obtain ⟨hmem, rest, hrest⟩ := longestMatch?_mem h
  have htext : sign ++ (c :: cs).drop sign.length = c :: cs := by rw [← hrest, List.drop_left]
  refine ⟨htext, hmem, ?_, ⟨c, cs, htext, hc, hbegins⟩⟩
  rw [htext]
  exact length_le_of_longestMatch? h

theorem allShaped_readSign {c : Char} {cs : List Char} (hc : Text.isBlank c = false)
    (hbegins : BeginsSign language c cs) :
    AllShaped language (readSign c cs).rest (readSign c cs).lexemes := by
  unfold readSign
  cases hmark : longestMatch? punctuationMarks (c :: cs) with
  | some mark => exact allShaped_one (longestSign_of_longestMatch? hmark hc hbegins).2
  | none =>
    have hnone := not_prefix_of_longestMatch? hmark
    cases hsign : longestMatch? operatorSigns (c :: cs) with
    | some sign =>
      obtain ⟨htext, hlongest⟩ := longestSign_of_longestMatch? hsign hc hbegins
      rw [← htext] at hnone
      exact allShaped_one ⟨hlongest, hnone⟩
    | none =>
      refine allShaped_one ⟨c, rfl, hc, hbegins, ?_⟩
      intro sign hmem
      rcases List.mem_append.mp hmem with hmem | hmem
      · exact hnone sign hmem
      · exact not_prefix_of_longestMatch? hsign sign hmem

/-! Quoted literals. -/

/-- What a stretch has taken: neither a backslash nor a newline. -/
def OpenStretch (taken : List Char) (_ : Unit) : Prop := ∀ c ∈ taken, c ≠ '\\' ∧ c ≠ '\n'

theorem openStretch_concat {taken : List Char} {c : Char} (h : OpenStretch taken ())
    (hc : c ≠ '\\' ∧ c ≠ '\n') : OpenStretch (taken ++ [c]) () := by
  intro d hd
  rcases List.mem_append.mp hd with hd | hd
  · exact h d hd
  · rw [List.mem_singleton.mp hd]
    exact hc

theorem openStretch_step (taken : List Char) (state : Unit) (c : Char) (next : Unit)
    (h : OpenStretch taken state) (hmove : stringMove state c = .take next) :
    OpenStretch (taken ++ [c]) next := by
  apply openStretch_concat h
  rw [← not_or]
  intro hc
  rw [(stringMove_eq_stop state c).mpr hc.symm] at hmove
  cases hmove

theorem stretch_read (cs : List Char) :
    OpenStretch (Run.read stringMove () cs).taken () ∧
      ((Run.read stringMove () cs).closed = true →
        (Run.read stringMove () cs).taken.getLast? = some '"') ∧
      ((Run.read stringMove () cs).closed = false →
        ∀ c ∈ (Run.read stringMove () cs).rest.head?, c = '\\' ∨ c = '\n') := by
  have hstart : OpenStretch [] () := by simp [OpenStretch]
  have hended := Run.ended_read openStretch_step hstart cs
  generalize Run.read stringMove () cs = run at hended
  cases hended with
  | exhausted before => exact ⟨before, by simp, by simp⟩
  | @stopped taken rest state c before stop =>
    refine ⟨before, by simp, ?_⟩
    rintro - d ⟨⟩
    exact ((stringMove_eq_stop state c).mp stop).symm
  | @closed taken rest state c before close =>
    have hquote : c = '"' := by
      unfold stringMove at close
      split at close
      · assumption
      · split at close <;> cases close
    subst hquote
    exact ⟨openStretch_concat before (by simp), by simp, by simp⟩

theorem allShaped_stretch {text behind : List Char} (hinside : OpenStretch text ())
    (hended : text.getLast? = some '"' ∨ ∀ c ∈ behind.head?, c = '\\' ∨ c = '\n') :
    AllShaped language behind (stretch text) := by
  unfold stretch
  split
  · trivial
  · rename_i hne
    exact ⟨⟨hne, hinside, hended⟩, trivial⟩

theorem escape_escapeTail (cs : List Char) :
    Escape ('\\' :: (escapeTail cs).1) (escapeTail cs).2 := by
  cases cs with
  | nil => exact .inl ⟨rfl, rfl⟩
  | cons c cs =>
    right
    simp only [escapeTail]
    by_cases hx : c = 'x'
    · rw [if_pos hx, hx]
      exact .inl ⟨_, rfl, maximalRun_takeWhile isHexDigit cs⟩
    rw [if_neg hx]
    by_cases hc : isOctalDigit c = true
    · rw [if_pos hc]
      have hall : ∀ d ∈ (cs.take 2).takeWhile isOctalDigit, isOctalDigit d = true :=
        List.all_eq_true.mp List.all_takeWhile
      have hlength := (List.takeWhile_prefix (l := cs.take 2) isOctalDigit).length_le
      have htake := List.length_take_le 2 cs
      refine .inr (.inl ⟨c :: (cs.take 2).takeWhile isOctalDigit, rfl, by simp, ?_, ?_, ?_⟩)
      · simpa [hc] using hall
      · simp only [List.length_cons]
        omega
      · intro hfew
        rcases cs with _ | ⟨d, _ | ⟨e, cs⟩⟩
        · rfl
        · by_cases hd : isOctalDigit d = true <;> simp [hd]
        · by_cases hd : isOctalDigit d = true
          · by_cases he : isOctalDigit e = true
            · simp [hd, he] at hfew
            · simp [hd, he]
          · simp [hd]
    · rw [if_neg hc]
      exact .inr (.inr ⟨c, rfl, hx, by simpa using hc⟩)

theorem allShaped_stringParts {opening : List Char} (hopening : OpenStretch opening ())
    (cs : List Char) :
    AllShaped language (stringParts opening cs).rest (stringParts opening cs).lexemes := by
  have hread := stretch_read cs
  rcases hrun : Run.read stringMove () cs with ⟨taken, rest, closed⟩
  rw [hrun] at hread
  obtain ⟨htaken, hclosed, hopen⟩ := hread
  have hinside : OpenStretch (opening ++ taken) () := by
    intro c hc
    rcases List.mem_append.mp hc with hc | hc
    · exact hopening c hc
    · exact htaken c hc
  cases closed with
  | true =>
    rw [stringParts_of_closed hrun]
    apply allShaped_stretch hinside
    left
    rw [List.getLast?_append, hclosed rfl]
    rfl
  | false =>
    by_cases hback : rest.head? = some '\\'
    · obtain ⟨after, rfl⟩ := List.head?_eq_some_iff.mp hback
      have hshorter := length_escaped_lt (congrArg Run.rest hrun)
      have hmore : AllShaped language (stringParts [] (escapeTail after).2).rest
          (stringParts [] (escapeTail after).2).lexemes :=
        allShaped_stringParts (by simp [OpenStretch]) _
      have hescape := escape_escapeTail after
      have hbehind := (covers_stringParts [] (escapeTail after).2).text
      rw [List.nil_append] at hbehind
      rw [stringParts_of_escape hrun, allShaped_append]
      refine ⟨allShaped_stretch hinside (.inr ?_), ?_, hmore⟩
      · rintro c ⟨⟩
        exact .inl rfl
      · rw [hbehind]
        exact hescape
    · rw [stringParts_of_stop hrun hback]
      exact allShaped_stretch hinside (.inr (hopen rfl))
termination_by cs.length

theorem isBody_append {quote : Char} {a b : List Char} (ha : isBody quote a = true)
    (hb : isBody quote b = true) : isBody quote (a ++ b) = true := by
  fun_induction isBody quote a with
  | case1 => exact hb
  | case2 c cs ih => exact ih ha
  | case3 c cs _ ih =>
    obtain ⟨hc, hcs⟩ := Bool.and_eq_true_iff.mp ha
    have hback := (ne_of_isPlain hc).1
    rw [List.cons_append, isBody.eq_3 _ _ _ (by simp [hback]), hc, ih hcs]
    rfl

/-- What a character literal has taken: whole parts of a body, and behind them the backslash that is
to take the next character with it. -/
def OpenCharacter (taken : List Char) (escaped : Bool) : Prop :=
  ∃ inside, isBody '\'' inside = true ∧ taken = if escaped then inside ++ ['\\'] else inside

theorem openCharacter_step (taken : List Char) (escaped : Bool) (c : Char) (next : Bool)
    (h : OpenCharacter taken escaped) (hmove : characterMove escaped c = .take next) :
    OpenCharacter (taken ++ [c]) next := by
  obtain ⟨inside, hinside, rfl⟩ := h
  cases escaped with
  | true =>
    obtain rfl : false = next := Move.take.inj hmove
    exact ⟨inside ++ ['\\', c], isBody_append hinside rfl, by simp⟩
  | false =>
    simp only [characterMove, Bool.false_eq_true, if_false] at hmove
    split at hmove
    · cases hmove
    rename_i hnewline
    split at hmove
    · cases hmove
    rename_i hquote
    obtain rfl := Move.take.inj hmove
    by_cases hback : c = '\\'
    · exact ⟨inside, hinside, by simp [hback]⟩
    · have hplain : isBody '\'' [c] = true := by
        rw [isBody.eq_3 _ _ _ (by simp [hback])]
        simp [isPlain, hback, hnewline, hquote, isBody]
      exact ⟨inside ++ [c], isBody_append hinside hplain, by simp [hback]⟩

theorem character_read {encoding : List Char}
    (hencoding : encoding = [] ∨ language ≠ .java ∧ encoding ∈ encodingWords) (cs : List Char) :
    Character language (encoding ++ '\'' :: (Run.read characterMove false cs).taken)
      (Run.read characterMove false cs).rest := by
  have hstart : OpenCharacter [] false := ⟨[], rfl, rfl⟩
  have hended := Run.ended_read openCharacter_step hstart cs
  generalize Run.read characterMove false cs = run at hended
  refine ⟨encoding, _, rfl, hencoding, ?_⟩
  cases hended with
  | @exhausted taken escaped before =>
    obtain ⟨inside, hinside, rfl⟩ := before
    refine .inr (.inr ⟨rfl, inside, hinside, ?_⟩)
    cases escaped with
    | false => exact .inl rfl
    | true => exact .inr rfl
  | @stopped taken rest escaped c before stop =>
    obtain ⟨inside, hinside, rfl⟩ := before
    cases escaped with
    | true => cases stop
    | false =>
      have hnewline : c = '\n' := by
        simp only [characterMove, Bool.false_eq_true, if_false] at stop
        split at stop
        · assumption
        · split at stop <;> cases stop
      exact .inr (.inl ⟨by rw [hnewline]; rfl, hinside⟩)
  | @closed taken rest escaped c before close =>
    obtain ⟨inside, hinside, rfl⟩ := before
    cases escaped with
    | true => cases close
    | false =>
      have hquote : c = '\'' := by
        simp only [characterMove, Bool.false_eq_true, if_false] at close
        split at close
        · cases close
        · split at close
          · assumption
          · cases close
      exact .inl ⟨inside, by rw [hquote]; rfl, hinside⟩

theorem allShaped_wordReading {afterDot : Bool} {word rest : List Char}
    (hname : isName word = true) (hended : rest.head?.any isNameContinue = false) :
    AllShaped language (wordReading language afterDot word rest).rest
      (wordReading language afterDot word rest).lexemes := by
  unfold wordReading
  split
  · rename_i hword
    have hmem : word ∈ encodingWords := List.contains_iff_mem.mp hword.2
    have hletters : ∀ word ∈ encodingWords, OpenStretch word () := by
      simp [encodingWords, OpenStretch]
    split
    · exact allShaped_stringParts (openStretch_concat (hletters word hmem) (by simp)) _
    · apply allShaped_one
      rw [List.append_assoc]
      exact character_read (.inr ⟨hword.1, hmem⟩) _
    · exact allShaped_one (shaped_word hname hended)
  · exact allShaped_one (shaped_word hname hended)

theorem allShaped_readWord {afterDot : Bool} {c : Char} {cs : List Char}
    (hc : isNameStart c = true) :
    AllShaped language (readWord language afterDot (c :: cs)).rest
      (readWord language afterDot (c :: cs)).lexemes := by
  have hname : isName ((c :: cs).takeWhile isNameContinue) = true := by
    rw [List.takeWhile_cons_of_pos (isNameContinue_of_isNameStart hc)]
    simp [isName, hc]
  rw [readWord_eq rfl rfl]
  exact allShaped_wordReading hname (any_head?_dropWhile isNameContinue (c :: cs))

/-- Every lexeme that is read has the shape of its category. -/
theorem allShaped_readNext (cs : List Char) :
    AllShaped language (readNext language context cs).rest
      (readNext language context cs).lexemes := by
  cases cs with
  | nil => trivial
  | cons c cs =>
    rw [readNext]
    split
    · rename_i hc
      apply allShaped_one
      exact .inl ⟨by simp [hc], maximalRun_takeWhile Text.isBlank (c :: cs)⟩
    · rename_i hblank
      have hc : Text.isBlank c = false := by simpa using hblank
      apply readToken_branches (motive := fun reading =>
        AllShaped language reading.rest reading.lexemes)
      case line =>
        rintro rfl hslash
        exact allShaped_one (lineComment_takeWhile hslash)
      case block =>
        intro after _ _
        exact allShaped_one (blockComment_read after)
      case directive =>
        intro _ hlanguage
        exact allShaped_one (directive_read hlanguage cs)
      case continued =>
        rintro rfl hnext
        exact allShaped_one (.inr ⟨rfl, hnext⟩)
      case string =>
        rintro rfl
        exact allShaped_stringParts (by simp [OpenStretch]) cs
      case character =>
        rintro rfl
        exact allShaped_one (character_read (.inl rfl) cs)
      case number =>
        intro hnumber
        exact allShaped_one (number_readNumber hnumber)
      case decorator =>
        intro _ hjava hname
        exact allShaped_readDecorator hjava hname
      case word => exact allShaped_readWord
      case sign => exact allShaped_readSign hc

theorem allShaped_lexemes (context : Context) (cs : List Char) :
    AllShaped language [] (lexemes language context cs) := by
  induction context, cs using scan_induction language with
  | nil context => simp [lexemes, AllShaped]
  | step context cs _ ih =>
    rw [lexemes_eq_readNext, allShaped_append, textOf_lexemes, List.append_nil]
    exact ⟨allShaped_readNext cs, ih⟩

theorem shaped_of_lexemes_eq {cs : List Char} {before after : List Lexeme} {lexeme : Lexeme}
    (h : lexemes language context cs = before ++ lexeme :: after) :
    Shaped language lexeme (textOf after) := by
  have hall : AllShaped language [] (before ++ lexeme :: after) := by
    rw [← h]
    exact allShaped_lexemes context cs
  obtain ⟨-, hlexeme, -⟩ := allShaped_append.mp hall
  rwa [List.append_nil] at hlexeme

/-- Two runs that would be one. -/
def Splits (a b : Lexeme) : Prop :=
  a.isBlank = true ∧ b.isBlank = true ∨ a.isWord = true ∧ b.isWord = true

theorem isNameContinue_of_isWord {lexeme : Lexeme} (h : lexeme.isWord = true) (rest : List Char) :
    (lexeme.text ++ rest).head?.any isNameContinue = true := by
  obtain ⟨-, hname⟩ := Bool.and_eq_true_iff.mp h
  obtain ⟨category, text⟩ := lexeme
  cases text with
  | nil => cases hname
  | cons c text =>
    obtain ⟨hc, -⟩ := Bool.and_eq_true_iff.mp hname
    exact isNameContinue_of_isNameStart hc

theorem Shaped.word_ended {lexeme : Lexeme} {behind : List Char}
    (h : Shaped language lexeme behind) (hword : lexeme.isWord = true) :
    behind.head?.any isNameContinue = false := by
  obtain ⟨hcategory, hname⟩ := Bool.and_eq_true_iff.mp hword
  obtain ⟨category, text⟩ := lexeme
  have hended : Word language ⟨category, text⟩ behind → behind.head?.any isNameContinue = false :=
    Word.ended
  cases category with
  | keyword kind =>
    cases kind with
    | declaration =>
      rcases h with h | h
      · exact hended h
      · rw [h.text] at hname
        cases hname
    | _ => exact hended h
  | wordOperator => exact hended h
  | name kind =>
    cases kind with
    | plain => exact hended h
    | _ => cases hcategory
  | _ => cases hcategory

theorem Shaped.blank_ended {lexeme : Lexeme} {behind : List Char}
    (h : Shaped language lexeme behind) (hblank : lexeme.isBlank = true) :
    lexeme.text ≠ [] ∧ behind.head?.any Text.isBlank = false := by
  obtain ⟨hcategory, hall⟩ := isBlank_iff.mp hblank
  rw [Shaped, hcategory] at h
  rcases h with ⟨hne, hrun⟩ | ⟨htext, -⟩
  · exact ⟨hne, hrun.ended⟩
  · rw [htext] at hall
    cases hall

theorem isChain_of_allShaped {rest : List Char} {lexemes : List Lexeme}
    (h : AllShaped language rest lexemes) : lexemes.IsChain fun a b => ¬ Splits a b := by
  induction lexemes with
  | nil => exact .nil
  | cons lexeme lexemes ih =>
    obtain ⟨hlexeme, hlexemes⟩ := h
    refine List.isChain_cons.mpr ⟨?_, ih hlexemes⟩
    intro next hnext
    obtain ⟨more, rfl⟩ := List.head?_eq_some_iff.mp hnext
    rw [textOf_cons, List.append_assoc] at hlexeme
    rintro (⟨hblank, hblank'⟩ | ⟨hword, hword'⟩)
    · have hnone := (hlexeme.blank_ended hblank).2
      obtain ⟨hne, -⟩ := hlexemes.1.blank_ended hblank'
      obtain ⟨c, text, htext⟩ := List.exists_cons_of_ne_nil hne
      have hc : Text.isBlank c = true :=
        List.all_eq_true.mp (isBlank_iff.mp hblank').2 c (by simp [htext])
      simp [htext, hc] at hnone
    · have hnone := hlexeme.word_ended hword
      rw [isNameContinue_of_isWord hword'] at hnone
      cases hnone

end Lexeme

/-- The span of a word, and not of the annotation that is a reserved word. -/
def Span.isWord (span : Span) (text : String) : Bool :=
  span.category.isWord && (span.text? text).any fun slice => Lexeme.isName slice.toList

theorem Span.isWord_eq {span : Span} {text : String} {lexeme : Lexeme}
    (h : (span.category, span.text? text) =
      (lexeme.category, some (String.ofList lexeme.text))) :
    span.isWord text = lexeme.isWord := by
  obtain ⟨hcategory, htext⟩ := Prod.mk.inj h
  simp [isWord, Lexeme.isWord, hcategory, htext]

namespace Language

variable (language : Language) (text : String)

/-- No run of blanks and no word is cut in two. -/
theorem spans_unsplit :
    (language.spans text).IsChain fun a b =>
      ¬ (a.isBlank text = true ∧ b.isBlank text = true) ∧
        ¬ (a.isWord text = true ∧ b.isWord text = true) := by
  rw [List.isChain_iff_forall_rel_of_append_cons_cons]
  intro a b front back hspans
  obtain ⟨before, lexeme, after, hscan, hcategories, hcategory, hover⟩ := exists_lexeme hspans
  have hlength : front.length = before.length := by simpa using congrArg List.length hcategories
  obtain ⟨next, more, rfl, hnext, -⟩ :=
    List.map_eq_cons_iff.mp (slices_around hspans hscan hlength).2.symm
  have hchain : (before ++ lexeme :: next :: more).IsChain fun a b => ¬ Lexeme.Splits a b := by
    rw [← hscan, language.scan_eq]
    exact Lexeme.isChain_of_allShaped (Lexeme.allShaped_lexemes .start text.toList)
  have hslice : (a.category, a.text? text) =
      (lexeme.category, some (String.ofList lexeme.text)) := by rw [hcategory, hover.text?_eq]
  rw [Span.isBlank_eq hslice, Span.isBlank_eq hnext.symm, Span.isWord_eq hslice,
    Span.isWord_eq hnext.symm, ← not_or]
  exact (List.isChain_append_cons_cons.mp hchain).2.1

/-- Every span has the shape that its category promises, and the runs among them are whole: neither
does the text behind one go on with it nor is the span in front of one a part of it. -/
theorem spans_shaped :
    (∀ span ∈ language.spans text, ∃ front slice behind, span.Over text front slice behind ∧
      Lexeme.Shaped language ⟨span.category, slice⟩ behind) ∧
    (language.spans text).IsChain fun a b =>
      ¬ (a.isBlank text = true ∧ b.isBlank text = true) ∧
        ¬ (a.isWord text = true ∧ b.isWord text = true) := by
  refine ⟨?_, language.spans_unsplit text⟩
  intro span hspan
  obtain ⟨front, back, hspans⟩ := List.append_of_mem hspan
  obtain ⟨before, lexeme, after, hscan, -, hcategory, hover⟩ := exists_lexeme hspans
  have hshaped : Lexeme.AllShaped language [] (before ++ lexeme :: after) := by
    rw [← hscan, language.scan_eq]
    exact Lexeme.allShaped_lexemes .start text.toList
  obtain ⟨-, hlexeme, -⟩ := Lexeme.allShaped_append.mp hshaped
  rw [List.append_nil] at hlexeme
  rw [hcategory]
  exact ⟨_, _, _, hover, hlexeme⟩

/-- A directive over two lines, in front of a line that it does not take. -/
theorem spans_shaped_directive :
    (⟨0, 11, .comment .directive⟩ : Span) ∈ Language.cpp.spans "#if\\\r\n /* \r\n*/" ∧
    ∃ front slice behind,
      Span.Over ⟨0, 11, .comment .directive⟩ "#if\\\r\n /* \r\n*/" front slice behind ∧
      Lexeme.Shaped .cpp ⟨.comment .directive, slice⟩ behind := by
  have hspan : (⟨0, 11, .comment .directive⟩ : Span) ∈
      Language.cpp.spans "#if\\\r\n /* \r\n*/" := by decide +kernel
  exact ⟨hspan, (Language.cpp.spans_shaped "#if\\\r\n /* \r\n*/").1 _ hspan⟩

end Language

end SourcePrint
