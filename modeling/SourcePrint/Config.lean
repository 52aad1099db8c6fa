import SourcePrint.CanonicalSource
import SourcePrint.Language.Table
import SourcePrint.LogicalLine
import SourcePrint.SourcePolicy

namespace SourcePrint

/-- Sources of up to ten mebibytes are read unless another limit is set. -/
def defaultMaxSourceBytes : Nat := 10485760

structure Config where
  canonical : CanonicalConfig := {}
  languages : LanguageTable := .standard
  sourcePolicy : SourcePolicy := {}
  /-- Tokens are given logical lines only when this is set. -/
  logicalLines : Option LogicalLineConfig := none
  maxSourceBytes : Nat := defaultMaxSourceBytes
  deriving DecidableEq

/-- The first fault in the order: canonical settings, logical lines, size limit. -/
def Config.fault? (config : Config) : Option ConfigFault :=
  match config.canonical.fault? with
  | some fault => some fault
  | none =>
    match config.logicalLines.bind (·.fault?) with
    | some fault => some fault
    | none => if config.maxSourceBytes = 0 then some .zeroSizeLimit else none

end SourcePrint
