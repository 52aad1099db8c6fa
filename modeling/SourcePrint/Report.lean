import SourcePrint.Config

namespace SourcePrint

/-- Why a source has no report. -/
inductive ReportError where
  | lexical (error : LexicalError)
  | canonical (error : CanonicalError)
  | sourceTooLarge (sourceName : String) (size limit : Nat)
  deriving DecidableEq, Repr

namespace ReportError

def message : ReportError → String
  | lexical error => "lexical failure: " ++ error.message
  | canonical error => "canonicalization failure: " ++ error.message
  | sourceTooLarge sourceName size limit =>
    "source " ++ sourceName ++ " is " ++ toString size ++ " bytes, limit is " ++ toString limit ++
      " bytes"

/-- The message of the error that this one wraps. -/
def cause? : ReportError → Option String
  | lexical error => some error.message
  | canonical error => some error.message
  | sourceTooLarge _ _ _ => none

end ReportError

/-- Everything found out about one source. -/
structure Report where
  sourceName : String
  language : Language
  fingerprint : Fingerprint
  tokens : List Token
  deriving DecidableEq, Repr

namespace Report

def isCloneOf (a b : Report) : Bool := a.fingerprint.isCloneOf b.fingerprint

/-- Tokens with logical lines if the settings ask for them. -/
def numberLines (config : Config) (tokens : List Token) : List Token :=
  match config.logicalLines with
  | some lines => lines.assign tokens
  | none => tokens

/-- Reports on a source of a known language. The settings are checked first, then the size of the
text as it was given. -/
def ofSource (language : Language) (sourceName text : String) (config : Config) :
    Except ReportError Report :=
  match config.fault? with
  | some fault => .error (.canonical (.invalidConfig fault))
  | none =>
    if config.maxSourceBytes < text.utf8ByteSize then
      .error (.sourceTooLarge sourceName text.utf8ByteSize config.maxSourceBytes)
    else
      match CanonicalSource.ofText language.lexer (config.sourcePolicy.prepare text) sourceName
          config.canonical with
      | .error error => .error (.canonical error)
      | .ok source =>
        .ok ⟨sourceName, language, source.fingerprint, numberLines config source.tokens⟩

/-- Reports on a file, whose name decides the language before anything else is looked at. -/
def ofFile (filename text : String) (config : Config) : Except ReportError Report :=
  match config.languages.resolve filename with
  | .error error => .error (.lexical error)
  | .ok language => ofSource language filename text config

end Report

end SourcePrint
