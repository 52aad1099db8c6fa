import SourcePrint.Yaml.Glyph

namespace SourcePrint.Yaml

/-- What becomes of the line breaks at the end of a block scalar. -/
inductive Chomp where
  | strip | clip | keep
  deriving DecidableEq, Repr

def chomp? (c : Char) : Option Chomp :=
  match c with
  | '-' => some .strip
  | '+' => some .keep
  | _ => none

/-- An indentation from one to nine. -/
def indentDigit? (c : Char) : Option Nat :=
  if '1' ≤ c ∧ c ≤ '9' then some (c.toNat - '0'.toNat) else none

/-- The mark for the end and the indentation, each at most once and in either order. -/
def readHeader (gs : List Glyph) : Chomp × Nat × List Glyph :=
  match gs with
  | [] => (.clip, 0, [])
  | g :: rest =>
    match chomp? g.char with
    | some chomp =>
      match rest.head?.bind fun d => indentDigit? d.char with
      | some n => (chomp, n, rest.tail)
      | none => (chomp, 0, rest)
    | none =>
      match indentDigit? g.char with
      | some n =>
        match rest.head?.bind fun d => chomp? d.char with
        | some chomp => (chomp, n, rest.tail)
        | none => (.clip, n, rest)
      | none => (.clip, 0, gs)

/-- Passes over indentation and empty lines. Gives the widest indentation seen, the line breaks
behind `breaks`, last one first, and what is left. While `indent` is zero any number of spaces
belongs to the indentation. -/
def passBreaks (indent widest : Nat) (breaks : List Char) :
    List Glyph → Option (Nat × List Char × List Glyph)
  | [] => some (widest, breaks, [])
  | g :: rest =>
    let inside := indent == 0 || g.column < indent
    if inside && g.char == ' ' then passBreaks indent widest breaks rest
    else if inside && g.char == '\t' then none
    else if isBreak g.char then passBreaks indent (max widest g.column) (g.char :: breaks) rest
    else some (max widest g.column, breaks, g :: rest)

/-- The text of a block scalar so far. -/
structure BlockText where
  /-- Last character first. -/
  done : List Char := []
  /-- The break that ended the last line. -/
  ending : List Char := []
  /-- The last line began with a blank. -/
  wasBlank : Bool := false

/-- Joins a line to the text. In a folded scalar a break between two lines that begin with no
blank becomes a space, or goes if empty lines follow it. -/
def BlockText.join (text : BlockText) (literal isBlank : Bool) (breaks : List Char) : List Char :=
  let folded := !literal && text.ending == ['\n'] && !text.wasBlank && !isBlank
  let between := if folded then (if breaks = [] then [' '] else []) else text.ending
  breaks ++ between ++ text.done

/-- Reads the lines of a block scalar. `breaks` came before the next line, last one first. Every
line takes one unit of fuel. -/
def readLines (literal : Bool) (indent : Nat) (text : BlockText) (breaks : List Char) :
    Nat → List Glyph → Option (BlockText × List Char × List Glyph)
  | 0, gs => some (text, breaks, gs)
  | _, [] => some (text, breaks, [])
  | fuel + 1, g :: rest =>
    if g.column = indent ∧ g.char ≠ endMark then
      let isBlank := isSpaceOrTab g.char
      let line := (g :: rest).takeWhile fun g => !isBreakOrEnd g.char
      let after := (g :: rest).dropWhile fun g => !isBreakOrEnd g.char
      let ending := (after.head?.toList.map (·.char)).filter isBreak
      let after := after.drop ending.length
      let done := (line.map (·.char)).reverse ++ text.join literal isBlank breaks
      match passBreaks indent 0 [] after with
      | none => none
      | some (_, breaks, after) =>
        readLines literal indent ⟨done, ending, isBlank⟩ breaks fuel after
    else some (text, breaks, g :: rest)

/-- A block scalar, from its header on, inside a collection indented by `parent`. -/
def readBlock (literal : Bool) (parent : Int) (gs : List Glyph) :
    Option (String × List Glyph) := do
  let (chomp, increment, gs) := readHeader gs
  let gs ← endLine? gs
  let given := if increment = 0 then 0 else (max parent 0).toNat + increment
  let (widest, breaks, gs) ← passBreaks given 0 [] gs
  let indent := if given = 0 then max (max widest (parent + 1).toNat) 1 else given
  let (text, breaks, gs) ← readLines literal indent {} breaks gs.length gs
  let tail :=
    match chomp with
    | .strip => []
    | .clip => text.ending
    | .keep => breaks ++ text.ending
  return (String.ofList (tail ++ text.done).reverse, gs)

end SourcePrint.Yaml
