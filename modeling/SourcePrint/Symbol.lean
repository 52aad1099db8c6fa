namespace SourcePrint

/-- What a lexeme contributes to the canonical form. -/
inductive Symbol where
  | identifier
  | literal
  | verbatim (text : String)
  deriving DecidableEq, Repr

namespace Symbol

def identifierMarker : String := "$"

def literalMarker : String := "$"

def render : Symbol → String
  | identifier => identifierMarker
  | literal => literalMarker
  | verbatim text => text

def isLiteral (symbol : Symbol) : Bool := symbol == literal

/-- Markers stand for any name or value. -/
def isMarker : Symbol → Bool
  | verbatim _ => false
  | _ => true

end Symbol

end SourcePrint
