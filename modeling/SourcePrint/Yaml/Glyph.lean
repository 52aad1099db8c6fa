import SourcePrint.MapThread
import SourcePrint.SourcePolicy

namespace SourcePrint.Yaml

/-- A character with the line and the column it stands in, both counted from zero. -/
structure Glyph where
  char : Char
  line : Nat
  column : Nat
  deriving DecidableEq, Repr

/-- The character after the last one. No text may contain it. -/
def endMark : Char := '\x00'

def isSpaceOrTab (c : Char) : Bool := c == ' ' || c == '\t'

def isBreak (c : Char) : Bool := c == '\n' || c == '\u2028' || c == '\u2029'

/-- A blank, a line break or the end of the text. -/
def isGap (c : Char) : Bool := isSpaceOrTab c || isBreak c || c == endMark

def isBreakOrEnd (c : Char) : Bool := isBreak c || c == endMark

def isPrintable (c : Char) : Bool :=
  let n := c.toNat
  n == 0x9 || n == 0xA || n == 0xD || (0x20 ≤ n && n ≤ 0x7E) || n == 0x85 ||
    (0xA0 ≤ n && n ≤ 0xFFFD) || 0x10000 ≤ n

/-- One kind of line break, a next-line character included, except for the separators of lines
and paragraphs, which stay. -/
def unifyBreaks (cs : List Char) : List Char :=
  (SourcePolicy.unifyNewlines cs).map fun c => if c = '\u0085' then '\n' else c

def placeGlyph (position : Nat × Nat) (c : Char) : Glyph × (Nat × Nat) :=
  (⟨c, position.1, position.2⟩,
    if isBreak c then (position.1 + 1, 0) else (position.1, position.2 + 1))

/-- The glyphs of a text and its end mark. -/
def glyphs? (cs : List Char) : Option (List Glyph) :=
  if cs.all isPrintable then some (mapThread placeGlyph (0, 0) (unifyBreaks cs ++ [endMark]))
  else none

/-- The characters of anchors, of tag handles and of directive names. -/
def isNameChar (c : Char) : Bool := c.isAlphanum || c == '_' || c == '-'

def takeName (gs : List Glyph) : String × List Glyph :=
  (String.ofList ((gs.takeWhile fun g => isNameChar g.char).map (·.char)),
    gs.dropWhile fun g => isNameChar g.char)

def dropSpaces (gs : List Glyph) : List Glyph := gs.dropWhile fun g => isSpaceOrTab g.char

/-- What is left after the line, on which only blanks and a comment may still follow. -/
def endLine? (gs : List Glyph) : Option (List Glyph) :=
  let gs := dropSpaces gs
  let gs := if gs.head?.any (·.char == '#') then gs.dropWhile fun g => !isBreakOrEnd g.char else gs
  match gs with
  | [] => some []
  | g :: rest =>
    if isBreak g.char then some rest else if g.char = endMark then some gs else none

def gapAhead (gs : List Glyph) : Bool := gs.head?.all fun g => isGap g.char

/-- Three dashes or three dots at the start of a line, on their own. -/
def atDocumentMark (gs : List Glyph) : Bool :=
  match gs with
  | a :: b :: c :: rest =>
    a.column == 0 && gapAhead rest && a.char == b.char && b.char == c.char &&
      (a.char == '-' || a.char == '.')
  | _ => false

end SourcePrint.Yaml
