import SourcePrint.Symbol

namespace SourcePrint

/-- A symbol with the source text it stands for and where that text begins. -/
structure Token where
  kind : Symbol
  text : String
  startOffset : Nat
  line : Nat
  column : Nat
  logicalLine : Option Nat := none
  sourceName : String
  deriving DecidableEq, Repr

namespace Token

def display (token : Token) : String :=
  token.kind.render ++ "\t" ++ token.text ++ "\t:(" ++ toString token.line ++ ":" ++
    toString token.column ++ ") " ++ token.sourceName ++ "@" ++ toString token.startOffset

/-- The canonical form: the symbols one after the other. -/
def canonicalText (tokens : List Token) : String :=
  String.join (tokens.map fun token => token.kind.render)

/-- The source text that is left in the tokens. -/
def sourceText (tokens : List Token) : String := String.join (tokens.map (·.text))

end Token

end SourcePrint
