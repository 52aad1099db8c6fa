namespace SourcePrint

inductive KeywordKind where
  | plain | constant | declaration | scope | pseudo | reserved | type
  deriving DecidableEq, Repr

inductive NameKind where
  | plain | attributeName | builtin | builtinPseudo | className | constantName | decorator
  | entityName | exceptionName | functionName | magicFunction | label | namespaceName | other
  | propertyName | tagName | variableName | classVariable | globalVariable | instanceVariable
  | magicVariable
  deriving DecidableEq, Repr

/-- Parts of quoted literals. -/
inductive StringKind where
  | plain | affix | backtick | character | delimiter | doc | double | escape | heredoc
  | interpolated | other | regex | single | symbol
  deriving DecidableEq, Repr

inductive NumberKind where
  | plain | binary | float | hex | integer | longInteger | octal
  deriving DecidableEq, Repr

/-- Comments and the lines addressed to tools. -/
inductive CommentKind where
  | plain | hashbang | multiline | directive | directiveFile | single | special
  deriving DecidableEq, Repr

/-- Lexical categories. The constructor is the family, its argument the kind within it. -/
inductive Category where
  | keyword (kind : KeywordKind)
  | name (kind : NameKind)
  | literal
  | date
  | string (kind : StringKind)
  | number (kind : NumberKind)
  | operator
  | wordOperator
  | punctuation
  | text
  | whitespace
  | comment (kind : CommentKind)
  | error
  deriving DecidableEq, Repr

inductive Family where
  | keyword | name | literal | operator | punctuation | text | comment | error
  deriving DecidableEq, Repr

def KeywordKind.tag : KeywordKind → String
  | .plain => "Keyword"
  | .constant => "Keyword.Constant"
  | .declaration => "Keyword.Declaration"
  | .scope => "Keyword.Namespace"
  | .pseudo => "Keyword.Pseudo"
  | .reserved => "Keyword.Reserved"
  | .type => "Keyword.Type"

def NameKind.tag : NameKind → String
  | .plain => "Name"
  | .attributeName => "Name.Attribute"
  | .builtin => "Name.Builtin"
  | .builtinPseudo => "Name.Builtin.Pseudo"
  | .className => "Name.Class"
  | .constantName => "Name.Constant"
  | .decorator => "Name.Decorator"
  | .entityName => "Name.Entity"
  | .exceptionName => "Name.Exception"
  | .functionName => "Name.Function"
  | .magicFunction => "Name.Function.Magic"
  | .label => "Name.Label"
  | .namespaceName => "Name.Namespace"
  | .other => "Name.Other"
  | .propertyName => "Name.Property"
  | .tagName => "Name.Tag"
  | .variableName => "Name.Variable"
  | .classVariable => "Name.Variable.Class"
  | .globalVariable => "Name.Variable.Global"
  | .instanceVariable => "Name.Variable.Instance"
  | .magicVariable => "Name.Variable.Magic"

def StringKind.tag : StringKind → String
  | .plain => "Literal.String"
  | .affix => "Literal.String.Affix"
  | .backtick => "Literal.String.Backtick"
  | .character => "Literal.String.Char"
  | .delimiter => "Literal.String.Delimiter"
  | .doc => "Literal.String.Doc"
  | .double => "Literal.String.Double"
  | .escape => "Literal.String.Escape"
  | .heredoc => "Literal.String.Heredoc"
  | .interpolated => "Literal.String.Interpol"
  | .other => "Literal.String.Other"
  | .regex => "Literal.String.Regex"
  | .single => "Literal.String.Single"
  | .symbol => "Literal.String.Symbol"

def NumberKind.tag : NumberKind → String
  | .plain => "Literal.Number"
  | .binary => "Literal.Number.Bin"
  | .float => "Literal.Number.Float"
  | .hex => "Literal.Number.Hex"
  | .integer => "Literal.Number.Integer"
  | .longInteger => "Literal.Number.Integer.Long"
  | .octal => "Literal.Number.Oct"

def CommentKind.tag : CommentKind → String
  | .plain => "Comment"
  | .hashbang => "Comment.Hashbang"
  | .multiline => "Comment.Multiline"
  | .directive => "Comment.Preproc"
  | .directiveFile => "Comment.PreprocFile"
  | .single => "Comment.Single"
  | .special => "Comment.Special"

namespace Category

def tag : Category → String
  | keyword kind => kind.tag
  | name kind => kind.tag
  | literal => "Literal"
  | date => "Literal.Date"
  | string kind => kind.tag
  | number kind => kind.tag
  | operator => "Operator"
  | wordOperator => "Operator.Word"
  | punctuation => "Punctuation"
  | text => "Text"
  | whitespace => "Text.Whitespace"
  | comment kind => kind.tag
  | error => "Error"

def family : Category → Family
  | keyword _ => .keyword
  | name _ => .name
  | literal | date | string _ | number _ => .literal
  | operator | wordOperator => .operator
  | punctuation => .punctuation
  | text | whitespace => .text
  | comment _ => .comment
  | error => .error

/-- Layout and comments carry no structure. -/
def isTrivia (c : Category) : Bool := c.family == .text || c.family == .comment

end Category

def Family.title : Family → String
  | .keyword => "Keyword"
  | .name => "Name"
  | .literal => "Literal"
  | .operator => "Operator"
  | .punctuation => "Punctuation"
  | .text => "Text"
  | .comment => "Comment"
  | .error => "Error"

end SourcePrint
