import SourcePrint.Lexeme.Number
import SourcePrint.Lexeme.Sign
import SourcePrint.Text.Blank

namespace SourcePrint

namespace Lexeme

/-- A block comment ends at the first star and slash after its opening. -/
def blockMove (star : Bool) (c : Char) : Move Bool :=
  if star ∧ c = '/' then .close else .take (c == '*')

/-- A directive goes on over a newline after a backslash, carriage returns between them apart. -/
def directiveMove (escaped : Bool) (c : Char) : Move Bool :=
  if c = '\n' then (if escaped then .take false else .stop)
  else if c = '\\' then .take true
  else if c = '\r' then .take escaped
  else .take false

/-- What the lexemes so far say about the next one. -/
structure Context where
  /-- Nothing but blanks since the start of the text or the last newline outside a lexeme. -/
  lineStart : Bool
  /-- The last lexeme that is not trivia reads as a single dot. -/
  afterDot : Bool
  deriving DecidableEq, Repr

def Context.start : Context := ⟨true, false⟩

/-- Trivia does not come between a dot and what follows it. -/
def dotAfter (afterDot : Bool) (lexeme : Lexeme) : Bool :=
  if lexeme.category.isTrivia then afterDot else lexeme.text == ['.']

def Context.after (context : Context) (lexemes : List Lexeme) : Context :=
  ⟨false, lexemes.foldl dotAfter context.afterDot⟩

/-- Blanks keep the start of a line, and a newline among them makes one. -/
def Context.afterBlanks (context : Context) (blanks : List Char) : Context :=
  ⟨context.lineStart || blanks.contains '\n', context.afterDot⟩

def readToken (language : Language) (context : Context) (c : Char) (cs : List Char) : Reading :=
  if c = '/' ∧ cs.head? = some '/' then
    .while (.comment .single) (· != '\n') (c :: cs)
  else if c = '/' ∧ cs.head? = some '*' then
    let run := Run.read blockMove false cs.tail
    .one (.comment .multiline) ('/' :: '*' :: run.taken) run.rest
  else if c = '#' ∧ context.lineStart ∧ language ≠ .java then
    let run := Run.read directiveMove false cs
    .one (.comment .directive) ('#' :: run.taken) run.rest
  else if c = '\\' ∧ (cs.head? = some '\n' ∨ cs.head? = some '\r') then .one .text [c] cs
  else if c = '"' then stringParts [c] cs
  else if c = '\'' then characterLiteral [c] cs
  else if startsNumber c cs then readNumber language (c :: cs)
  else if c = '@' ∧ language = .java ∧ cs.head?.any isNameStart then readDecorator cs
  else if isNameStart c then readWord language context.afterDot (c :: cs)
  else readSign c cs

theorem length_readToken_le (language : Language) (context : Context) (c : Char)
    (cs : List Char) : (readToken language context c cs).rest.length ≤ cs.length := by
  unfold readToken
  split
  · rename_i h
    rw [h.1]
    exact length_dropWhile_le _ cs
  split
  · exact Nat.le_trans (Run.length_read_rest_le _ _ _) (by simp)
  split
  · exact Run.length_read_rest_le _ _ _
  split
  · exact Nat.le_refl _
  split
  · exact length_stringParts_le _ _
  split
  · exact length_characterLiteral_le _ _
  split
  · rename_i h
    exact length_readNumber_le language h
  split
  · exact length_readDecorator_le _
  split
  · rename_i h
    exact length_readWord_le language _ cs h
  · exact length_readSign_le c cs

def lexemes (language : Language) (context : Context) : List Char → List Lexeme
  | [] => []
  | c :: cs =>
    if Text.isBlank c then
      let blanks := c :: cs.takeWhile Text.isBlank
      ⟨.text, blanks⟩ ::
        lexemes language (context.afterBlanks blanks) (cs.dropWhile Text.isBlank)
    else
      let reading := readToken language context c cs
      reading.lexemes ++ lexemes language (context.after reading.lexemes) reading.rest
termination_by cs => cs.length
decreasing_by
  · exact Nat.lt_succ_of_le (length_dropWhile_le _ cs)
  · exact Nat.lt_succ_of_le (length_readToken_le language context c cs)

/-- Collects the lexemes of a text behind `done`, last one first, in constant stack space. -/
def collect (language : Language) (context : Context) (done : List Lexeme) :
    List Char → List Lexeme
  | [] => done.reverse
  | c :: cs =>
    if Text.isBlank c then
      let blanks := c :: cs.takeWhile Text.isBlank
      collect language (context.afterBlanks blanks) (⟨.text, blanks⟩ :: done)
        (cs.dropWhile Text.isBlank)
    else
      let reading := readToken language context c cs
      collect language (context.after reading.lexemes) (reading.lexemes.reverse ++ done)
        reading.rest
termination_by cs => cs.length
decreasing_by
  · exact Nat.lt_succ_of_le (length_dropWhile_le _ cs)
  · exact Nat.lt_succ_of_le (length_readToken_le language context c cs)

theorem collect_eq (language : Language) (context : Context) (done : List Lexeme)
    (cs : List Char) :
    collect language context done cs = done.reverse ++ lexemes language context cs := by
  fun_induction collect language context done cs with
  | case1 => simp [lexemes]
  | case2 context done c cs hc blanks ih => simp [ih, lexemes, hc, blanks]
  | case3 context done c cs hc reading ih => simp [ih, lexemes, hc, reading]

end Lexeme

def Language.scan (language : Language) (cs : List Char) : List Lexeme :=
  Lexeme.collect language .start [] cs

theorem Language.scan_eq (language : Language) (cs : List Char) :
    language.scan cs = Lexeme.lexemes language .start cs :=
  Lexeme.collect_eq language .start [] cs

end SourcePrint
