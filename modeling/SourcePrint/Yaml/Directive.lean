import SourcePrint.Yaml.Tag

namespace SourcePrint.Yaml

/-- What a document says about itself before it begins. -/
inductive Directive where
  | version (major minor : Nat)
  | handle (name : String) (start : Tag)
  deriving DecidableEq, Repr

namespace Directive

def version? : Directive → Option (Nat × Nat)
  | version major minor => some (major, minor)
  | handle _ _ => none

def handle? : Directive → Option (String × Tag)
  | version _ _ => none
  | handle name start => some (name, start)

def readNumber (gs : List Glyph) : Option (Nat × List Glyph) :=
  let digits := gs.takeWhile fun g => g.char.isDigit
  if digits ≠ [] ∧ digits.length ≤ 9 then
    some (digits.foldl (fun n g => n * 10 + (g.char.toNat - '0'.toNat)) 0,
      gs.dropWhile fun g => g.char.isDigit)
  else none

def readVersion (gs : List Glyph) : Option (Directive × List Glyph) := do
  let (major, rest) ← readNumber (dropSpaces gs)
  match rest with
  | dot :: rest =>
    if dot.char = '.' then
      let (minor, rest) ← readNumber rest
      return (version major minor, rest)
    else none
  | [] => none

/-- The name of a handle is an exclamation mark or stands between two. -/
def readHandleName (gs : List Glyph) : Option (String × List Glyph) :=
  match gs with
  | mark :: rest =>
    if mark.char = '!' then
      let (name, rest) := takeName rest
      if rest.head?.any (·.char == '!') then some ("!" ++ name ++ "!", rest.tail)
      else if name = "" then some ("!", rest)
      else none
    else none
  | [] => none

def readHandle (gs : List Glyph) : Option (Directive × List Glyph) := do
  let (name, rest) ← readHandleName (dropSpaces gs)
  if rest.head?.any fun g => isSpaceOrTab g.char then
    let (start, rest) ← readFullUri true (dropSpaces rest)
    if gapAhead rest then return (handle name start, rest) else none
  else none

/-- Reads a directive behind its percent sign, and the rest of its line. -/
def read (gs : List Glyph) : Option (Directive × List Glyph) := do
  let (name, rest) := takeName gs
  if gapAhead rest then
    let (directive, rest) ←
      if name = "YAML" then readVersion rest
      else if name = "TAG" then readHandle rest
      else none
    return (directive, ← endLine? rest)
  else none

end Directive

/-- What the handles of tags stand for, the one that counts first. -/
abbrev Handles := List (String × Tag)

namespace Handles

/-- Handles that need no directive. -/
def standard : Handles := [("!", Tag.ofAscii "!"), ("!!", Tag.standardStart)]

/-- The handles after a document's directives. There is at most one version, which is 1.1 or 1.2,
and no handle is declared twice. -/
def ofDirectives? (directives : List Directive) : Option Handles :=
  let versions := directives.filterMap Directive.version?
  let declared := directives.filterMap Directive.handle?
  if versions.length ≤ 1 ∧ (versions.all [(1, 1), (1, 2)].contains) ∧
      (declared.map (·.1)).Nodup then
    some (declared ++ standard)
  else none

/-- The tag that a written one stands for. -/
def resolve? (handles : Handles) (name : TagName) : Option Tag :=
  if name.handle = "" then some name.suffix
  else (handles.lookup name.handle).map (· ++ name.suffix)

end Handles

end SourcePrint.Yaml
