namespace SourcePrint

/-- Languages with a lexer of their own. -/
inductive Language where
  | c | cpp | java
  deriving DecidableEq, Repr

namespace Language

/-- The name shown to people. -/
def title : Language → String
  | c => "C"
  | cpp => "C++"
  | java => "Java"

/-- The name used in records. -/
def key : Language → String
  | c => "c"
  | cpp => "cpp"
  | java => "java"

/-- Records may also use the title, and `c++` in lower case. -/
def ofKey? (key : String) : Option Language :=
  if key = "c" ∨ key = "C" then some c
  else if key = "cpp" ∨ key = "C++" ∨ key = "c++" then some cpp
  else if key = "java" ∨ key = "Java" then some java
  else none

theorem ofKey?_key (language : Language) : ofKey? language.key = some language := by
  cases language <;> decide

end Language

end SourcePrint
