namespace SourcePrint

/-- Why a language could not be chosen or a recorded tag could not be read. -/
inductive LexicalError where
  | unknownLanguage (filename : String)
  | unsupportedLanguage (extension : String)
  | unknownCategory (tag : String)
  deriving DecidableEq, Repr

namespace LexicalError

def message : LexicalError → String
  | unknownLanguage filename => "filename has no extension to identify its language: " ++ filename
  | unsupportedLanguage extension => "file extension not supported: " ++ extension
  | unknownCategory tag => "unknown lexical category: " ++ tag

/-- An unknown tag speaks of the recording, every other error of the caller's input. -/
def isClientError : LexicalError → Bool
  | unknownLanguage _ | unsupportedLanguage _ => true
  | unknownCategory _ => false

end LexicalError

end SourcePrint
