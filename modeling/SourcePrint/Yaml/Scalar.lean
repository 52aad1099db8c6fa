import SourcePrint.Text.Hex
import SourcePrint.Yaml.Glyph

namespace SourcePrint.Yaml

/-- What lies between two visible characters of a scalar. -/
structure Gap where
  /-- Blanks before any line break, last one first. -/
  blanks : List Char := []
  /-- A line break was crossed. -/
  broken : Bool := false
  /-- The first line break, unless it was escaped. -/
  first : Option Char := none
  /-- Further line breaks, last one first. -/
  more : List Char := []

namespace Gap

def add (gap : Gap) (c : Char) : Gap :=
  if isBreak c then
    if gap.broken then { gap with more := c :: gap.more }
    else { blanks := [], broken := true, first := some c, more := [] }
  else if gap.broken then gap
  else { gap with blanks := c :: gap.blanks }

/-- What a gap becomes in the scalar: blanks stay, a single newline becomes a space, and of
several newlines the first goes. -/
def fill (gap : Gap) : List Char :=
  if gap.broken then
    match gap.first with
    | some '\n' => if gap.more = [] then [' '] else gap.more.reverse
    | some c => c :: gap.more.reverse
    | none => gap.more.reverse
  else gap.blanks.reverse

/-- After an escaped line break. -/
def escaped : Gap := { broken := true }

end Gap

/-- A plain scalar, whether a line break follows it, and the glyphs after it. -/
structure Plain where
  text : String
  broken : Bool
  rest : List Glyph

/-- Characters that end a plain scalar in a flow collection. -/
def isFlowIndicator (c : Char) : Bool :=
  c == ',' || c == '[' || c == ']' || c == '\x7b' || c == '\x7d'

/-- Whether a plain scalar ends at a visible glyph. After a gap so do a comment, a document mark
and, outside flow collections, a lesser indentation. -/
def endsPlain (flow inGap : Bool) (indent : Nat) (g : Glyph) (rest : List Glyph) : Bool :=
  g.char == endMark ||
    (inGap && ((!flow && g.column < indent) || atDocumentMark (g :: rest) || g.char == '#')) ||
    (g.char == ':' && gapAhead rest) || (flow && isFlowIndicator g.char)

/-- Reads on in a plain scalar of which `done` was read, last character first, then `gap`. Its
further lines are indented by `indent` at least. -/
def readPlain (flow : Bool) (indent : Nat) (done : List Char) (gap : Gap) (inGap : Bool) :
    List Glyph → Option Plain
  | [] => some ⟨String.ofList done.reverse, gap.broken, []⟩
  | g :: rest =>
    if isSpaceOrTab g.char || isBreak g.char then
      if g.char = '\t' ∧ gap.broken ∧ g.column < indent then none
      else readPlain flow indent done (gap.add g.char) true rest
    else if flow && g.char == ':' &&
        rest.head?.any fun next => isFlowIndicator next.char || next.char == '?' then none
    else if endsPlain flow inGap indent g rest then
      some ⟨String.ofList done.reverse, gap.broken, g :: rest⟩
    else readPlain flow indent (g.char :: (gap.fill.reverse ++ done)) {} false rest

/-- The character that a letter after a backslash stands for. -/
def escapeValue? (c : Char) : Option Char :=
  match c with
  | '0' => some '\x00'
  | 'a' => some '\x07'
  | 'b' => some '\x08'
  | 't' | '\t' => some '\t'
  | 'n' => some '\n'
  | 'v' => some '\x0b'
  | 'f' => some '\x0c'
  | 'r' => some '\r'
  | 'e' => some '\x1b'
  | ' ' => some ' '
  | '"' => some '"'
  | '/' => some '/'
  | '\\' => some '\\'
  | 'N' => some '\u0085'
  | '_' => some '\u00A0'
  | 'L' => some '\u2028'
  | 'P' => some '\u2029'
  | _ => none

/-- How many hexadecimal digits follow a letter that introduces a code point. -/
def codeWidth? (c : Char) : Option Nat :=
  match c with
  | 'x' => some 2
  | 'u' => some 4
  | 'U' => some 8
  | _ => none

def codeValue? (width : Nat) (gs : List Glyph) : Option Char := do
  let digits ← (gs.take width).mapM fun g => Text.hexValue? g.char
  let n := digits.foldl (fun n d => n * 16 + d) 0
  if digits.length = width ∧ n.isValidChar then return Char.ofNat n else none

/-- Reads on in a double-quoted scalar of which `done` was read, last character first, then
`gap`. -/
def readDouble (done : List Char) (gap : Gap) : List Glyph → Option (String × List Glyph)
  | [] => none
  | g :: rest =>
    if g.char == endMark || atDocumentMark (g :: rest) then none
    else if isSpaceOrTab g.char || isBreak g.char then readDouble done (gap.add g.char) rest
    else
      let done := gap.fill.reverse ++ done
      if g.char = '"' then some (String.ofList done.reverse, rest)
      else if g.char ≠ '\\' then readDouble (g.char :: done) {} rest
      else
        match rest with
        | [] => none
        | e :: rest =>
          if isBreak e.char then readDouble done .escaped rest
          else
            match codeWidth? e.char with
            | some width =>
              match codeValue? width rest with
              | some c => readDouble (c :: done) {} (rest.drop width)
              | none => none
            | none =>
              match escapeValue? e.char with
              | some c => readDouble (c :: done) {} rest
              | none => none
termination_by gs => gs.length

/-- Reads on in a single-quoted scalar, where a quote is written twice. -/
def readSingle (done : List Char) (gap : Gap) : List Glyph → Option (String × List Glyph)
  | [] => none
  | g :: rest =>
    if g.char == endMark || atDocumentMark (g :: rest) then none
    else if isSpaceOrTab g.char || isBreak g.char then readSingle done (gap.add g.char) rest
    else
      let done := gap.fill.reverse ++ done
      if g.char ≠ '\'' then readSingle (g.char :: done) {} rest
      else
        match rest with
        | [] => some (String.ofList done.reverse, [])
        | next :: more =>
          if next.char = '\'' then readSingle ('\'' :: done) {} more
          else some (String.ofList done.reverse, next :: more)

end SourcePrint.Yaml
