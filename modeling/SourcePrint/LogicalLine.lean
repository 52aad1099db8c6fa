import SourcePrint.CanonicalError
import SourcePrint.MapThread
import SourcePrint.Text.Blank
import SourcePrint.Token.Basic

namespace SourcePrint

/-- The symbols that end a logical line. -/
structure LogicalLineConfig where
  breakSymbols : List String := [";", "\x7b", "\x7d"]
  deriving DecidableEq, Repr

namespace LogicalLineConfig

def fault? (config : LogicalLineConfig) : Option ConfigFault :=
  if config.breakSymbols.any Text.isBlankText then some .blankBreakSymbol else none

/-- Markers end no line, whatever their source text is. -/
def isBreak (config : LogicalLineConfig) : Symbol → Bool
  | .verbatim text => config.breakSymbols.contains text
  | _ => false

/-- A token and the line of the token after it. A break belongs to the line it ends. -/
def number (config : LogicalLineConfig) (line : Nat) (token : Token) : Token × Nat :=
  ({ token with logicalLine := some line }, if config.isBreak token.kind then line + 1 else line)

/-- Numbers the logical lines of a token stream from one. -/
def assign (config : LogicalLineConfig) (tokens : List Token) : List Token :=
  mapThread config.number 1 tokens

end LogicalLineConfig

end SourcePrint
