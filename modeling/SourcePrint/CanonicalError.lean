import SourcePrint.LexicalError

namespace SourcePrint

/-- The first setting found wrong. -/
inductive ConfigFault where
  | zeroVersion
  | blankTypeName (index : Nat)
  | blankBreakSymbol
  | zeroSizeLimit
  deriving DecidableEq, Repr

def ConfigFault.message : ConfigFault → String
  | zeroVersion => "config version must be >= 1"
  | blankTypeName index => "builtin_type_names[" ++ toString index ++ "] is empty"
  | blankBreakSymbol => "logical line break symbols must not be empty"
  | zeroSizeLimit => "max_source_bytes must be >= 1"

/-- What is wrong with a span, in the order of the checks. -/
inductive SpanFault where
  | backward | reversed | pastEnd | splitsCharacter
  deriving DecidableEq, Repr

def SpanFault.message : SpanFault → String
  | backward => "span starts before the previous span"
  | reversed => "span ends before it starts"
  | pastEnd => "span runs past the end of the text"
  | splitsCharacter => "span offsets split a UTF-8 character"

/-- Why a text has no canonical form. -/
inductive CanonicalError where
  | unknownCategory (tag : String)
  | invalidSpan (start stop : Nat) (fault : SpanFault)
  | invalidConfig (fault : ConfigFault)
  | lexical (error : LexicalError)
  deriving DecidableEq, Repr

namespace CanonicalError

/-- An unknown tag stays what it is, any other lexical error is passed on whole. -/
def ofLexical : LexicalError → CanonicalError
  | .unknownCategory tag => .unknownCategory tag
  | error => .lexical error

def message : CanonicalError → String
  | unknownCategory tag => "unknown lexical category: " ++ tag
  | invalidSpan start stop fault =>
    "invalid lexical span " ++ toString start ++ ".." ++ toString stop ++ ": " ++ fault.message
  | invalidConfig fault => "invalid configuration: " ++ fault.message
  | lexical error => "lexical failure: " ++ error.message

end CanonicalError

end SourcePrint
