import SourcePrint.Text.Blank
import SourcePrint.Text.Utf8

namespace SourcePrint

/-- A text on its way to the reader: a stretch of the text as it was given, or, once a character had
to be changed, a text of its own. -/
inductive Prepared where
  | stretch (cs : List Char)
  | rewritten (cs : List Char)
  deriving DecidableEq, Repr

namespace Prepared

def chars : Prepared → List Char
  | stretch cs | rewritten cs => cs

/-- Takes the blanks off the ends. A text of its own that has none is kept as it is. -/
def trim : Prepared → Prepared
  | stretch cs => stretch (Text.trim cs)
  | rewritten cs =>
    let trimmed := Text.trim cs
    if Text.byteLength trimmed = Text.byteLength cs then rewritten cs else rewritten trimmed

end Prepared

/-- What is done to a text before it is read. -/
structure SourcePolicy where
  normalizeNewlines : Bool := true
  trim : Bool := true
  deriving DecidableEq, Repr

namespace SourcePolicy

def verbatim : SourcePolicy := ⟨false, false⟩

/-- One step from the right: a carriage return before a newline goes, any other becomes one. The
first component is the character just passed. -/
def unifyStep (c : Char) (done : Option Char × List Char) : Option Char × List Char :=
  if c = '\r' then (some c, if done.1 = some '\n' then done.2 else '\n' :: done.2)
  else (some c, c :: done.2)

/-- Every line ends in a single newline character. -/
def unifyNewlines (cs : List Char) : List Char := (cs.foldr unifyStep (none, [])).2

/-- Only a text with a carriage return in it is rewritten. -/
def unify (policy : SourcePolicy) (cs : List Char) : Prepared :=
  if policy.normalizeNewlines && cs.contains '\r' then .rewritten (unifyNewlines cs)
  else .stretch cs

/-- Newlines first, then the ends. -/
def prepared (policy : SourcePolicy) (text : String) : Prepared :=
  let lines := policy.unify text.toList
  if policy.trim then lines.trim else lines

def prepare (policy : SourcePolicy) (text : String) : String :=
  String.ofList (policy.prepared text).chars

end SourcePolicy

end SourcePrint
