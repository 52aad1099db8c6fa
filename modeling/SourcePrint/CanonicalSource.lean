import SourcePrint.Fingerprint
import SourcePrint.Token.Normalize

namespace SourcePrint

structure CanonicalConfig where
  version : UInt32 := 1
  classifier : ClassifierConfig := {}
  deriving DecidableEq, Repr

/-- The version is looked at before the type names. -/
def CanonicalConfig.fault? (config : CanonicalConfig) : Option ConfigFault :=
  if config.version = 0 then some .zeroVersion else config.classifier.fault?

/-- A source with its tokens and its fingerprint. -/
structure CanonicalSource where
  sourceName : String
  tokens : List Token
  fingerprint : Fingerprint
  config : CanonicalConfig
  deriving DecidableEq, Repr

namespace CanonicalSource

/-- The configuration is checked before the text is read. -/
def ofText (lexer : Lexer) (text sourceName : String) (config : CanonicalConfig) :
    Except CanonicalError CanonicalSource :=
  match config.fault? with
  | some fault => .error (.invalidConfig fault)
  | none => do
    let classifier ← Classifier.ofConfig config.classifier
    let tokens ← Token.normalize lexer text sourceName classifier
    let fingerprint ← Fingerprint.ofTokens sourceName tokens config.version
    return ⟨sourceName, tokens, fingerprint, config⟩

def isCloneOf (a b : CanonicalSource) : Bool := a.fingerprint.isCloneOf b.fingerprint

end CanonicalSource

end SourcePrint
