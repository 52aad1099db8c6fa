import SourcePrint.Category
import SourcePrint.LexicalError
import SourcePrint.Text.Blank

namespace SourcePrint.Category

/-- `cs` without `start`, if it begins so. -/
def dropStart (start cs : List Char) : List Char :=
  if start.isPrefixOf cs then cs.drop start.length else cs

/-- A tag without its surrounding blanks and at most one leading `Token.`. -/
def bareTag (tag : String) : String :=
  String.ofList (dropStart "Token.".toList (Text.trim tag.toList))

/-- String and number tags may leave out their leading `Literal.`. -/
def isShorthand (bare : String) : Bool :=
  "String".toList.isPrefixOf bare.toList || "Number".toList.isPrefixOf bare.toList

/-- The tags that are known, each with its category. -/
def tagTable : List (String × Category) :=
  [("Keyword", .keyword .plain), ("Keyword.Constant", .keyword .constant),
   ("Keyword.Declaration", .keyword .declaration), ("Keyword.Namespace", .keyword .scope),
   ("Keyword.Pseudo", .keyword .pseudo), ("Keyword.Reserved", .keyword .reserved),
   ("Keyword.Type", .keyword .type),
   ("Name", .name .plain), ("Name.Attribute", .name .attributeName),
   ("Name.Builtin", .name .builtin), ("Name.Builtin.Pseudo", .name .builtinPseudo),
   ("Name.Class", .name .className), ("Name.Constant", .name .constantName),
   ("Name.Decorator", .name .decorator), ("Name.Entity", .name .entityName),
   ("Name.Exception", .name .exceptionName), ("Name.Function", .name .functionName),
   ("Name.Function.Magic", .name .magicFunction), ("Name.Label", .name .label),
   ("Name.Namespace", .name .namespaceName), ("Name.Other", .name .other),
   ("Name.Property", .name .propertyName), ("Name.Tag", .name .tagName),
   ("Name.Variable", .name .variableName), ("Name.Variable.Class", .name .classVariable),
   ("Name.Variable.Global", .name .globalVariable),
   ("Name.Variable.Instance", .name .instanceVariable),
   ("Name.Variable.Magic", .name .magicVariable),
   ("Literal", .literal), ("Literal.Date", .date), ("Literal.String", .string .plain),
   ("Literal.String.Affix", .string .affix), ("Literal.String.Backtick", .string .backtick),
   ("Literal.String.Char", .string .character), ("Literal.String.Delimiter", .string .delimiter),
   ("Literal.String.Doc", .string .doc), ("Literal.String.Double", .string .double),
   ("Literal.String.Escape", .string .escape), ("Literal.String.Heredoc", .string .heredoc),
   ("Literal.String.Interpol", .string .interpolated), ("Literal.String.Other", .string .other),
   ("Literal.String.Regex", .string .regex), ("Literal.String.Single", .string .single),
   ("Literal.String.Symbol", .string .symbol), ("Literal.Number", .number .plain),
   ("Literal.Number.Bin", .number .binary), ("Literal.Number.Float", .number .float),
   ("Literal.Number.Hex", .number .hex), ("Literal.Number.Integer", .number .integer),
   ("Literal.Number.Integer.Long", .number .longInteger), ("Literal.Number.Oct", .number .octal),
   ("Operator", .operator), ("Operator.Word", .wordOperator),
   ("Punctuation", .punctuation),
   ("Text", .text), ("Text.Whitespace", .whitespace),
   ("Comment", .comment .plain), ("Comment.Hashbang", .comment .hashbang),
   ("Comment.Multiline", .comment .multiline), ("Comment.Preproc", .comment .directive),
   ("Comment.PreprocFile", .comment .directiveFile), ("Comment.Single", .comment .single),
   ("Comment.Special", .comment .special),
   ("Error", .error)]

/-- The category written exactly as `tag`. -/
def withTag? (tag : String) : Option Category := tagTable.lookup tag

/-- The full spelling is tried first; an unknown tag is reported as it was given. -/
def ofTag (tag : String) : Except LexicalError Category :=
  let bare := bareTag tag
  match withTag? bare with
  | some c => .ok c
  | none =>
    if isShorthand bare then
      match withTag? ("Literal." ++ bare) with
      | some c => .ok c
      | none => .error (.unknownCategory tag)
    else .error (.unknownCategory tag)

end SourcePrint.Category
