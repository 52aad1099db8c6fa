import SourcePrint.Language.ExtensionMap
import SourcePrint.LexicalError
import SourcePrint.Text.Blank
import SourcePrint.Text.Lowercase

namespace SourcePrint

/-- An extension as a table stores it: no surrounding blanks, no leading dots, lower case. -/
def normalizeExtension (extension : String) : String :=
  String.ofList (Text.lowercase ((Text.trim extension.toList).dropWhile (· == '.')))

/-- The text after the last dot of a filename. -/
def extensionOf? (filename : String) : Option String :=
  if filename.toList.contains '.' then
    some (String.ofList (filename.toList.reverse.takeWhile (· != '.')).reverse)
  else none

/-- Which language each extension stands for, the extensions being normalized. -/
structure LanguageTable extends ExtensionMap
  deriving DecidableEq

namespace LanguageTable

def empty : LanguageTable := ⟨.empty⟩

def insert (table : LanguageTable) (extension : String) (language : Language) : LanguageTable :=
  ⟨table.put (normalizeExtension extension) language⟩

/-- Inserts in turn, so the last of two entries for one extension stays. -/
def insertAll (table : LanguageTable) (entries : List (String × Language)) : LanguageTable :=
  entries.foldl (fun table entry => table.insert entry.1 entry.2) table

/-- The extensions of C, C++ and Java sources. -/
def standard : LanguageTable :=
  empty.insertAll [("c", .c), ("h", .cpp), ("cc", .cpp), ("cpp", .cpp), ("c++", .cpp),
    ("hpp", .cpp), ("java", .java)]

def get? (table : LanguageTable) (extension : String) : Option Language :=
  table.find? (normalizeExtension extension)

/-- Only the text after the last dot counts, in lower case and otherwise as it stands. -/
def resolve (table : LanguageTable) (filename : String) : Except LexicalError Language :=
  match extensionOf? filename with
  | none => .error (.unknownLanguage filename)
  | some extension =>
    let key := String.ofList (Text.lowercase extension.toList)
    match table.find? key with
    | some language => .ok language
    | none => .error (.unsupportedLanguage key)

end LanguageTable

end SourcePrint
