import SourcePrint.Text.Hex
import SourcePrint.Yaml.Glyph

namespace SourcePrint.Yaml

/-- A tag as the bytes of its name, since an escape may spell any byte. -/
abbrev Tag := List UInt8

namespace Tag

def ofAscii (text : String) : Tag := text.toList.map fun c => UInt8.ofNat c.toNat

/-- The start of the tags that every document knows. -/
def standardStart : Tag := ofAscii "tag:yaml.org,2002:"

def standard (name : String) : Tag := standardStart ++ ofAscii name

/-- The name in a local tag, which begins with an exclamation mark. -/
def localName? : Tag → Option String
  | [] => none
  | mark :: name => if mark = 0x21 then String.fromUTF8? ⟨name.toArray⟩ else none

/-- A zero byte ends a tag. -/
def untilZero (tag : Tag) : Tag := tag.takeWhile (· != 0)

end Tag

/-- Characters of a URI. Only a whole one may contain commas and brackets. -/
def isUriChar (whole : Bool) (c : Char) : Bool :=
  isNameChar c ||
    [';', '/', '?', ':', '@', '&', '=', '+', '$', '.', '!', '~', '*', '\'', '(', ')'].contains c ||
    (whole && [',', '[', ']'].contains c)

/-- How many bytes follow the first byte of a character. -/
def trailingBytes? (first : Nat) : Option Nat :=
  if first < 0x80 then some 0
  else if first < 0xC0 then none
  else if first < 0xE0 then some 1
  else if first < 0xF0 then some 2
  else if first < 0xF8 then some 3
  else none

/-- How many bytes are still owed after a byte, where `owed` were before it. -/
def owedAfter? (owed byte : Nat) : Option Nat :=
  if owed = 0 then trailingBytes? byte
  else if 0x80 ≤ byte ∧ byte < 0xC0 then some (owed - 1)
  else none

def escapedByte? (high low : Glyph) : Option Nat := do
  return 16 * (← Text.hexValue? high.char) + (← Text.hexValue? low.char)

/-- Reads a URI behind `done`, last byte first. The bytes of an escaped character are all escaped,
and `owed` of them are to come. -/
def readUriFrom (whole : Bool) (owed : Nat) (done : Tag) :
    List Glyph → Option (Tag × List Glyph)
  | [] => none
  | g :: rest =>
    if g.char = '%' then
      match rest with
      | high :: low :: rest =>
        match escapedByte? high low with
        | none => none
        | some byte =>
          match owedAfter? owed byte with
          | none => none
          | some owed => readUriFrom whole owed (UInt8.ofNat byte :: done) rest
      | _ => none
    else if owed ≠ 0 then none
    else if isUriChar whole g.char then
      readUriFrom whole 0 (UInt8.ofNat g.char.toNat :: done) rest
    else some (done.reverse, g :: rest)

def readUri (whole : Bool) (start : String) (gs : List Glyph) : Option (Tag × List Glyph) :=
  readUriFrom whole 0 (Tag.ofAscii start).reverse gs

def readFullUri (whole : Bool) (gs : List Glyph) : Option (Tag × List Glyph) :=
  match readUri whole "" gs with
  | some (uri, rest) => if uri = [] then none else some (uri.untilZero, rest)
  | none => none

/-- A tag as it is written: its handle and what follows that. A tag written out in full has an
empty handle. -/
structure TagName where
  handle : String
  suffix : Tag
  deriving DecidableEq, Repr

namespace TagName

/-- A tag in angle brackets, behind the opening one. -/
def readWhole (gs : List Glyph) : Option (TagName × List Glyph) :=
  match readFullUri true gs with
  | some (uri, close :: rest) => if close.char = '>' then some (⟨"", uri⟩, rest) else none
  | _ => none

/-- A tag behind its exclamation mark and the name `start`. It has a handle of its own if another
mark follows. The mark alone is a tag in full. -/
def readShort (start : String) (gs : List Glyph) : Option (TagName × List Glyph) :=
  if gs.head?.any (·.char == '!') then
    (readFullUri false gs.tail).map fun (uri, rest) => (⟨"!" ++ start ++ "!", uri⟩, rest)
  else
    (readUri false start gs).map fun (uri, rest) =>
      let suffix := uri.untilZero
      (if suffix = [] then ⟨"", Tag.ofAscii "!"⟩ else ⟨"!", suffix⟩, rest)

/-- Reads a tag behind its exclamation mark. A gap follows it, or in a flow collection a comma. -/
def read (flow : Bool) (gs : List Glyph) : Option (TagName × List Glyph) :=
  let found :=
    if gs.head?.any (·.char == '<') then readWhole gs.tail
    else
      let (name, rest) := takeName gs
      readShort name rest
  found.filter fun (_, rest) => gapAhead rest || (flow && rest.head?.any (·.char == ','))

end TagName

end SourcePrint.Yaml
