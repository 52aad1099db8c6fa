import SourcePrint.CanonicalError
import SourcePrint.Digest.Polynomial
import SourcePrint.Digest.Sha256
import SourcePrint.Token.Basic

namespace SourcePrint

/-- The identity of a token stream. -/
structure Fingerprint where
  sourceName : String
  canonicalText : String
  hash : Int32
  sha256Hex : String
  canonicalVersion : UInt32
  tokenCount : Nat
  deriving DecidableEq, Repr

namespace Fingerprint

/-- Versions start at one. -/
def ofTokens (sourceName : String) (tokens : List Token) (version : UInt32) :
    Except CanonicalError Fingerprint :=
  if version = 0 then .error (.invalidConfig .zeroVersion)
  else
    let text := Token.canonicalText tokens
    .ok { sourceName := sourceName, canonicalText := text, hash := Digest.polynomial text,
          sha256Hex := Digest.versionedHex version text, canonicalVersion := version,
          tokenCount := tokens.length }

/-- Clones have the same digest under the same version. -/
def isCloneOf (a b : Fingerprint) : Bool :=
  a.canonicalVersion == b.canonicalVersion && a.sha256Hex == b.sha256Hex

end Fingerprint

end SourcePrint
