import SourcePrint.Category
import SourcePrint.Language.Basic

namespace SourcePrint

structure WordGroup where
  category : Category
  words : List String

def cWords : List WordGroup := [
  ⟨.keyword .plain,
    ["auto", "break", "case", "continue", "default", "do", "else", "for", "goto", "if", "return",
     "sizeof", "switch", "while", "asm", "_Alignof", "_Generic", "_Static_assert"]⟩,
  ⟨.keyword .declaration,
    ["const", "enum", "extern", "inline", "register", "restrict", "static", "struct", "typedef",
     "union", "volatile", "_Alignas", "_Atomic", "_Noreturn", "_Thread_local"]⟩,
  ⟨.keyword .type,
    ["char", "double", "float", "int", "long", "short", "signed", "unsigned", "void", "bool",
     "_Bool", "_Complex", "size_t", "ssize_t", "ptrdiff_t", "wchar_t", "off_t", "FILE", "va_list",
     "int8_t", "int16_t", "int32_t", "int64_t", "uint8_t", "uint16_t", "uint32_t", "uint64_t",
     "intptr_t", "uintptr_t"]⟩,
  ⟨.keyword .constant,
    ["NULL", "true", "false"]⟩]

def cppWords : List WordGroup := [
  ⟨.keyword .plain,
    ["auto", "break", "case", "catch", "continue", "default", "delete", "do", "else", "for",
     "goto", "if", "new", "return", "sizeof", "switch", "throw", "try", "while", "asm", "alignof",
     "decltype", "noexcept", "static_assert", "typeid", "static_cast", "dynamic_cast",
     "const_cast", "reinterpret_cast", "operator", "co_await", "co_return", "co_yield"]⟩,
  ⟨.keyword .declaration,
    ["alignas", "class", "const", "constexpr", "consteval", "constinit", "enum", "explicit",
     "export", "extern", "final", "friend", "inline", "mutable", "override", "private",
     "protected", "public", "register", "static", "struct", "template", "thread_local", "typedef",
     "typename", "union", "virtual", "volatile"]⟩,
  ⟨.keyword .scope,
    ["namespace", "using"]⟩,
  ⟨.keyword .type,
    ["bool", "char", "char8_t", "char16_t", "char32_t", "double", "float", "int", "long", "short",
     "signed", "unsigned", "void", "wchar_t", "size_t", "ptrdiff_t", "int8_t", "int16_t",
     "int32_t", "int64_t", "uint8_t", "uint16_t", "uint32_t", "uint64_t"]⟩,
  ⟨.keyword .constant,
    ["NULL", "nullptr", "true", "false"]⟩,
  ⟨.keyword .pseudo,
    ["this"]⟩,
  ⟨.wordOperator,
    ["and", "or", "not", "xor", "bitand", "bitor", "compl", "and_eq", "or_eq", "xor_eq", "not_eq"]⟩]

def javaWords : List WordGroup := [
  ⟨.keyword .plain,
    ["assert", "break", "case", "catch", "continue", "default", "do", "else", "finally", "for",
     "goto", "if", "instanceof", "new", "return", "switch", "throw", "try", "while", "yield"]⟩,
  ⟨.keyword .declaration,
    ["abstract", "class", "const", "enum", "extends", "final", "implements", "interface",
     "native", "private", "protected", "public", "record", "static", "strictfp", "super",
     "synchronized", "throws", "transient", "volatile"]⟩,
  ⟨.keyword .scope,
    ["import", "package"]⟩,
  ⟨.keyword .type,
    ["boolean", "byte", "char", "double", "float", "int", "long", "short", "var", "void"]⟩,
  ⟨.keyword .constant,
    ["true", "false", "null"]⟩,
  ⟨.keyword .pseudo,
    ["this"]⟩]

namespace Language

/-- The reserved words of a language, each in one group. -/
def wordGroups : Language → List WordGroup
  | c => cWords
  | cpp => cppWords
  | java => javaWords

def wordCategory? (language : Language) (word : String) : Option Category :=
  (language.wordGroups.find? fun group => group.words.contains word).map (·.category)

end Language

end SourcePrint
