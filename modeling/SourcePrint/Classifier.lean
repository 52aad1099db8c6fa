import SourcePrint.CanonicalError
import SourcePrint.Category
import SourcePrint.Symbol
import SourcePrint.Text.Blank
import SourcePrint.Text.Lowercase

namespace SourcePrint

/-- Names of types that keep their spelling. -/
structure ClassifierConfig where
  builtinTypeNames : List String := ["CString", "UINT32", "u8", "u32"]
  deriving DecidableEq, Repr

namespace ClassifierConfig

def noBuiltinTypes : ClassifierConfig := ⟨[]⟩

/-- The first blank entry is a fault. -/
def fault? (config : ClassifierConfig) : Option ConfigFault :=
  (config.builtinTypeNames.findIdx? Text.isBlankText).map .blankTypeName

end ClassifierConfig

structure Classifier where
  /-- Type names without surrounding blanks, in the case they were given. -/
  typeNames : List String
  deriving DecidableEq, Repr

namespace Classifier

def ofConfig (config : ClassifierConfig) : Except CanonicalError Classifier :=
  match config.fault? with
  | some fault => .error (.invalidConfig fault)
  | none => .ok ⟨config.builtinTypeNames.map fun name => String.ofList (Text.trim name.toList)⟩

/-- The text is folded to lower case and the entries are not, so an entry with a capital letter
never matches. -/
def isBuiltinType (classifier : Classifier) (text : List Char) : Bool :=
  classifier.typeNames.contains (String.ofList (Text.lowercase (Text.trim text)))

/-- The symbol of a lexeme, if it leaves one. -/
def classify (classifier : Classifier) (category : Category) (text : List Char) : Option Symbol :=
  match category with
  | .keyword .constant | .keyword .pseudo => some .literal
  | .keyword _ => some (.verbatim (String.ofList text))
  | .name .attributeName | .name .entityName | .name .tagName | .name .decorator => none
  | .name _ =>
    some (if classifier.isBuiltinType text then .verbatim (String.ofList text) else .identifier)
  | .literal | .date | .string _ | .number _ => some .literal
  | .operator | .wordOperator | .punctuation => some (.verbatim (String.ofList text))
  | .text | .whitespace | .comment _ | .error => none

end Classifier

end SourcePrint
