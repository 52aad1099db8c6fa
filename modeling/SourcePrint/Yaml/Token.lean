import SourcePrint.Yaml.BlockScalar
import SourcePrint.Yaml.Directive
import SourcePrint.Yaml.Scalar

namespace SourcePrint.Yaml

inductive Style where
  | plain | quoted | literal | folded
  deriving DecidableEq, Repr

/-- What the glyphs of a text amount to. Indentation shows as starts and ends of blocks. -/
inductive Token where
  | directive (directive : Directive)
  | documentStart
  | documentEnd
  | blockSequenceStart
  | blockMappingStart
  | blockEnd
  | flowSequenceStart
  | flowSequenceEnd
  | flowMappingStart
  | flowMappingEnd
  | blockEntry
  | flowEntry
  | key
  | value
  | anchor (name : String)
  | reference (name : String)
  | tag (name : TagName)
  | scalar (text : String) (style : Style)
  deriving DecidableEq, Repr

/-- A place where a key may turn out to have begun, once a colon follows it on the same line. -/
structure PossibleKey where
  /-- Nothing but a key may stand here. -/
  required : Bool
  /-- How many tokens came before it. -/
  index : Nat
  line : Nat
  column : Nat

/-- What has been found so far. -/
structure Tokens where
  found : Array Token := #[]
  /-- The indentation of the innermost block, or -1. -/
  indent : Int := -1
  /-- The indentations of the blocks around it. -/
  outer : List Int := []
  /-- A key may begin here. -/
  keyAllowed : Bool := true
  /-- The possible key outside flow collections, or in the innermost one. -/
  possible : Option PossibleKey := none
  /-- Possible keys around the open flow collections, innermost first. -/
  suspended : List (Option PossibleKey) := []

namespace Tokens

def inFlow (s : Tokens) : Bool := !s.suspended.isEmpty

def push (s : Tokens) (t : Token) : Tokens := { s with found := s.found.push t }

def insertAt (s : Tokens) (i : Nat) (t : Token) : Tokens :=
  { s with found := s.found.insertIdxIfInBounds i t }

/-- A key has to end on the line where it begins, within 1024 characters. -/
def isStale (g : Glyph) (key : PossibleKey) : Bool :=
  key.line < g.line || key.column + 1024 < g.column

/-- Gives up a possible key that can no longer be one. -/
def expire? (g : Glyph) : Option PossibleKey → Option (Option PossibleKey)
  | none => some none
  | some key =>
    if isStale g key then (if key.required then none else some none) else some (some key)

def expireAll? (s : Tokens) (g : Glyph) : Option Tokens := do
  return { s with possible := ← expire? g s.possible, suspended := ← s.suspended.mapM (expire? g) }

/-- There is no key at the possible place. -/
def dropKey? (s : Tokens) : Option Tokens :=
  match s.possible with
  | some key => if key.required then none else some { s with possible := none }
  | none => some s

/-- Remembers that a key may begin at `g`. -/
def saveKey? (s : Tokens) (g : Glyph) : Option Tokens :=
  if s.keyAllowed then do
    let required := !s.inFlow && s.indent == g.column
    let s ← s.dropKey?
    return { s with possible := some ⟨required, s.found.size, g.line, g.column⟩ }
  else some s

/-- Begins a block at a column further in, with its first token before token `index`. -/
def indentTo (s : Tokens) (column : Nat) (index : Nat) (t : Token) : Tokens :=
  if !s.inFlow && s.indent < column then
    { s with indent := column, outer := s.indent :: s.outer }.insertAt index t
  else s

def dedent (column indent : Int) (found : Array Token) :
    List Int → Array Token × Int × List Int
  | [] => (found, indent, [])
  | next :: outer =>
    if column < indent then dedent column next (found.push .blockEnd) outer
    else (found, indent, next :: outer)

def dedentTo (s : Tokens) (column : Int) : Tokens :=
  if s.inFlow then s
  else
    let (found, indent, outer) := dedent column s.indent s.found s.outer
    { s with found := found, indent := indent, outer := outer }

/-- Skips blanks, comments and line breaks, and a byte order mark at the start of a line, which takes
up a column. A tab is no indentation where a key may begin. Outside flow collections a key may begin
on a new line. -/
def skipGap (flow keyAllowed inComment : Bool) : List Glyph → Bool × List Glyph
  | [] => (keyAllowed, [])
  | g :: rest =>
    if isBreak g.char then skipGap flow (keyAllowed || !flow) false rest
    else if g.char == endMark then (keyAllowed, g :: rest)
    else if inComment || g.char == '#' then skipGap flow keyAllowed true rest
    else if g.char == ' ' || ((flow || !keyAllowed) && g.char == '\t') ||
        (g.column == 0 && g.char == '\uFEFF') then skipGap flow keyAllowed false rest
    else (keyAllowed, g :: rest)

def readAnchorName (gs : List Glyph) : Option (String × List Glyph) :=
  let (name, rest) := takeName gs
  let ended := rest.head?.all fun g =>
    isGap g.char || ['?', ':', ',', ']', '\x7d', '%', '@', '\x60'].contains g.char
  if name ≠ "" ∧ ended then some (name, rest) else none

/-- Characters that cannot begin a plain scalar on their own. -/
def isIndicator (c : Char) : Bool :=
  ['-', '?', ':', ',', '[', ']', '\x7b', '\x7d', '#', '&', '*', '!', '|', '>', '\'', '"', '%', '@',
    '\x60'].contains c

def startsPlain (flow : Bool) (g : Glyph) (rest : List Glyph) : Bool :=
  !(isGap g.char || isIndicator g.char) ||
    (g.char == '-' && !rest.head?.any fun next => isSpaceOrTab next.char) ||
    (!flow && (g.char == '?' || g.char == ':') && !gapAhead rest)

/-- A directive ends all blocks and takes up its line. -/
def readDirective (s : Tokens) (rest : List Glyph) : Option (Tokens × List Glyph) := do
  let s ← (s.dedentTo (-1)).dropKey?
  let (directive, rest) ← Directive.read rest
  return ({ s with keyAllowed := false }.push (.directive directive), rest)

/-- A document mark ends all blocks. -/
def readDocumentMark (s : Tokens) (g : Glyph) (rest : List Glyph) :
    Option (Tokens × List Glyph) := do
  let s ← (s.dedentTo (-1)).dropKey?
  let s := { s with keyAllowed := false }
  return (s.push (if g.char = '-' then .documentStart else .documentEnd), rest.drop 2)

def openFlow (s : Tokens) (g : Glyph) (rest : List Glyph) (t : Token) :
    Option (Tokens × List Glyph) := do
  let s ← s.saveKey? g
  let s := { s with suspended := s.possible :: s.suspended, possible := none, keyAllowed := true }
  return (s.push t, rest)

def closeFlow (s : Tokens) (rest : List Glyph) (t : Token) : Option (Tokens × List Glyph) := do
  let s ← s.dropKey?
  let s :=
    match s.suspended with
    | key :: suspended => { s with possible := key, suspended := suspended }
    | [] => s
  return ({ s with keyAllowed := false }.push t, rest)

def readFlowEntry (s : Tokens) (rest : List Glyph) : Option (Tokens × List Glyph) := do
  let s ← s.dropKey?
  return ({ s with keyAllowed := true }.push .flowEntry, rest)

/-- Outside flow collections an entry of a sequence stands where a key could. -/
def readBlockEntry (s : Tokens) (g : Glyph) (rest : List Glyph) :
    Option (Tokens × List Glyph) :=
  if !s.inFlow && !s.keyAllowed then none
  else do
    let s ← (s.indentTo g.column s.found.size .blockSequenceStart).dropKey?
    return ({ s with keyAllowed := true }.push .blockEntry, rest)

def readKey (s : Tokens) (g : Glyph) (rest : List Glyph) : Option (Tokens × List Glyph) :=
  if !s.inFlow && !s.keyAllowed then none
  else do
    let s ← (s.indentTo g.column s.found.size .blockMappingStart).dropKey?
    return ({ s with keyAllowed := !s.inFlow }.push .key, rest)

/-- A colon turns the possible key into a key, or gives a value to an empty one. -/
def readValue (s : Tokens) (g : Glyph) (rest : List Glyph) : Option (Tokens × List Glyph) :=
  match s.possible with
  | some key =>
    let s := (s.insertAt key.index .key).indentTo key.column key.index .blockMappingStart
    some ({ s with possible := none, keyAllowed := false }.push .value, rest)
  | none =>
    if !s.inFlow && !s.keyAllowed then none
    else
      let s := s.indentTo g.column s.found.size .blockMappingStart
      some ({ s with keyAllowed := !s.inFlow }.push .value, rest)

/-- A token that may itself be a key. -/
def readContent (s : Tokens) (g : Glyph) (read : Option (Token × List Glyph)) :
    Option (Tokens × List Glyph) := do
  let s ← s.saveKey? g
  let (t, rest) ← read
  return ({ s with keyAllowed := false }.push t, rest)

def readPlainScalar (s : Tokens) (g : Glyph) (rest : List Glyph) :
    Option (Tokens × List Glyph) := do
  let s ← s.saveKey? g
  let plain ← readPlain s.inFlow (s.indent + 1).toNat [] {} false (g :: rest)
  return ({ s with keyAllowed := plain.broken }.push (.scalar plain.text .plain), plain.rest)

def readBlockScalar (s : Tokens) (g : Glyph) (rest : List Glyph) :
    Option (Tokens × List Glyph) := do
  let s ← s.dropKey?
  let literal := g.char == '|'
  let (text, rest) ← readBlock literal s.indent rest
  let style : Style := if literal then .literal else .folded
  return ({ s with keyAllowed := true }.push (.scalar text style), rest)

def readToken (s : Tokens) (g : Glyph) (rest : List Glyph) : Option (Tokens × List Glyph) :=
  if g.column == 0 && g.char == '%' then s.readDirective rest
  else if atDocumentMark (g :: rest) then s.readDocumentMark g rest
  else if g.char == '[' then s.openFlow g rest .flowSequenceStart
  else if g.char == '\x7b' then s.openFlow g rest .flowMappingStart
  else if g.char == ']' then s.closeFlow rest .flowSequenceEnd
  else if g.char == '\x7d' then s.closeFlow rest .flowMappingEnd
  else if g.char == ',' then s.readFlowEntry rest
  else if g.char == '-' && gapAhead rest then s.readBlockEntry g rest
  else if g.char == '?' && (s.inFlow || gapAhead rest) then s.readKey g rest
  else if g.char == ':' && (s.inFlow || gapAhead rest) then s.readValue g rest
  else if g.char == '*' then
    s.readContent g ((readAnchorName rest).map fun (name, rest) => (.reference name, rest))
  else if g.char == '&' then
    s.readContent g ((readAnchorName rest).map fun (name, rest) => (.anchor name, rest))
  else if g.char == '!' then
    s.readContent g ((TagName.read s.inFlow rest).map fun (name, rest) => (.tag name, rest))
  else if (g.char == '|' || g.char == '>') && !s.inFlow then s.readBlockScalar g rest
  else if g.char == '\'' then
    s.readContent g ((readSingle [] {} rest).map fun (text, rest) => (.scalar text .quoted, rest))
  else if g.char == '"' then
    s.readContent g ((readDouble [] {} rest).map fun (text, rest) => (.scalar text .quoted, rest))
  else if startsPlain s.inFlow g rest then s.readPlainScalar g rest
  else none

/-- Reads tokens up to the end of the text, one unit of fuel each. -/
def readAll (s : Tokens) : Nat → List Glyph → Option (List Token)
  | 0, _ => none
  | fuel + 1, gs =>
    match skipGap s.inFlow s.keyAllowed false gs with
    | (_, []) => none
    | (keyAllowed, g :: rest) =>
      match { s with keyAllowed := keyAllowed }.expireAll? g with
      | none => none
      | some s =>
        let s := s.dedentTo g.column
        if g.char = endMark then (s.dedentTo (-1)).dropKey?.map (·.found.toList)
        else
          match s.readToken g rest with
          | none => none
          | some (s, rest) => readAll s fuel rest

end Tokens

def tokens? (cs : List Char) : Option (List Token) :=
  (glyphs? cs).bind fun gs => Tokens.readAll {} (gs.length + 1) gs

end SourcePrint.Yaml
