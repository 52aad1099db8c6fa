import SourcePrint.Lexeme.Basic

namespace SourcePrint.Lexeme

def isHexDigit (c : Char) : Bool :=
  c.isDigit || ('a' ≤ c && c ≤ 'f') || ('A' ≤ c && c ≤ 'F')

def isOctalDigit (c : Char) : Bool := '0' ≤ c && c ≤ '7'

/-- What follows the backslash of an escape: one character, then every hex digit after an `x` or
up to two more digits after an octal one. -/
def escapeTail : List Char → List Char × List Char
  | [] => ([], [])
  | c :: cs =>
    if c = 'x' then (c :: cs.takeWhile isHexDigit, cs.dropWhile isHexDigit)
    else if isOctalDigit c then
      let digits := (cs.take 2).takeWhile isOctalDigit
      (c :: digits, cs.drop digits.length)
    else ([c], cs)

theorem length_escapeTail_le (cs : List Char) : (escapeTail cs).2.length ≤ cs.length := by
  cases cs with
  | nil => simp [escapeTail]
  | cons c cs =>
    simp only [escapeTail]
    split
    · exact Nat.le_succ_of_le (length_dropWhile_le _ cs)
    · split
      · exact Nat.le_succ_of_le (by simp)
      · simp

/-- A stretch of a string literal without escapes. A newline is never part of it. -/
def stringMove (_ : Unit) (c : Char) : Move Unit :=
  if c = '"' then .close else if c = '\n' ∨ c = '\\' then .stop else .take ()

/-- An empty stretch leaves no lexeme. -/
def stretch (text : List Char) : List Lexeme :=
  if text = [] then [] else [⟨.string .plain, text⟩]

theorem length_escaped_lt {cs after : List Char}
    (h : (Run.read stringMove () cs).rest = '\\' :: after) :
    (escapeTail after).2.length < cs.length := by
  have hrest := Run.length_read_rest_le stringMove () cs
  have htail := length_escapeTail_le after
  rw [h, List.length_cons] at hrest
  omega

/-- The parts of a string literal of which `opening` has been read: stretches of plain characters
and the escapes between them. -/
def stringParts (opening cs : List Char) : Reading :=
  let run := Run.read stringMove () cs
  if run.closed then ⟨stretch (opening ++ run.taken), run.rest⟩
  else
    match h : run.rest with
    | '\\' :: after =>
      have := length_escaped_lt h
      let tail := escapeTail after
      let more := stringParts [] tail.2
      ⟨stretch (opening ++ run.taken) ++ ⟨.string .escape, '\\' :: tail.1⟩ :: more.lexemes,
        more.rest⟩
    | rest => ⟨stretch (opening ++ run.taken), rest⟩
termination_by cs.length

theorem length_stringParts_le (opening cs : List Char) :
    (stringParts opening cs).rest.length ≤ cs.length := by
  fun_induction stringParts opening cs with
  | case1 opening cs run _ => exact Run.length_read_rest_le stringMove () cs
  | case2 opening cs run _ after h shorter tail more ih =>
    exact Nat.le_of_lt (Nat.lt_of_le_of_lt ih shorter)
  | case3 opening cs run _ _ => exact Run.length_read_rest_le stringMove () cs

/-- Inside a character literal a backslash takes any character with it, a newline too. -/
def characterMove (escaped : Bool) (c : Char) : Move Bool :=
  if escaped then .take false
  else if c = '\n' then .stop
  else if c = '\'' then .close
  else .take (c == '\\')

/-- A character literal of which `opening` has been read. -/
def characterLiteral (opening cs : List Char) : Reading :=
  let run := Run.read characterMove false cs
  .one (.string .character) (opening ++ run.taken) run.rest

theorem length_characterLiteral_le (opening cs : List Char) :
    (characterLiteral opening cs).rest.length ≤ cs.length :=
  Run.length_read_rest_le characterMove false cs

end SourcePrint.Lexeme
