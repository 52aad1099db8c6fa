namespace SourcePrint

/-- Why a file could not be read as text. -/
inductive FileError where
  | notFound | isDirectory | notDirectory | invalidText
  /-- Anything else, in the words of the operating system. -/
  | other (text : String)
  deriving DecidableEq, Repr

def FileError.message : FileError → String
  | notFound => "No such file or directory (os error 2)"
  | isDirectory => "Is a directory (os error 21)"
  | notDirectory => "Not a directory (os error 20)"
  | invalidText => "stream did not contain valid UTF-8"
  | other text => text

/-- The bytes under a path, or why there are none. -/
abbrev Disk := String → Except FileError ByteArray

/-- A file as text, which has to be UTF-8. -/
def Disk.readText (disk : Disk) (path : String) : Except FileError String :=
  match disk path with
  | .error error => .error error
  | .ok bytes =>
    match String.fromUTF8? bytes with
    | some text => .ok text
    | none => .error .invalidText

def pathParts (path : String) : List String := (path.toList.splitOn '/').map String.ofList

/-- Parts that name no file or directory of their own. -/
def isIdlePart (part : String) : Bool := part == "" || part == "."

/-- The last part of a path that says something, unless it leads upwards. -/
def fileName? (path : String) : Option String :=
  match (pathParts path).reverse.dropWhile isIdlePart with
  | [] => none
  | name :: _ => if name = ".." then none else some name

/-- Files by their paths from one directory, each path as the names along it. -/
structure FileTree where
  files : List (List String × ByteArray)

namespace FileTree

def ofFiles (files : List (String × ByteArray)) : FileTree :=
  ⟨files.map fun file => ((pathParts file.1).filter fun part => !isIdlePart part, file.2)⟩

/-- Where a walk along a path has come to. -/
inductive Place where
  /-- A directory of the tree, as the names that lead to it, last one first. -/
  | directory (names : List String)
  | file (content : ByteArray)
  /-- A directory above the tree, of which nothing is known. -/
  | outside

def enter (tree : FileTree) (names : List String) : Except FileError Place :=
  let path := names.reverse
  match tree.files.lookup path with
  | some content => .ok (.file content)
  | none =>
    if tree.files.any fun file => path.isPrefixOf file.1 then .ok (.directory names)
    else .error .notFound

/-- One part of a path. Nothing can follow the name of a file, not even a slash. -/
def step (tree : FileTree) (place : Place) (part : String) : Except FileError Place :=
  match place with
  | .file _ => .error .notDirectory
  | .outside => if isIdlePart part || part == ".." then .ok .outside else .error .notFound
  | .directory names =>
    if isIdlePart part then .ok place
    else if part = ".." then .ok (if names = [] then .outside else .directory names.tail)
    else tree.enter (part :: names)

/-- Follows a path from the tree's own directory, or from above it if it begins with a slash. -/
def disk (tree : FileTree) : Disk := fun path =>
  let start := if path.toList.head? = some '/' then Place.outside else .directory []
  match (pathParts path).foldlM tree.step start with
  | .error error => .error error
  | .ok (.file content) => .ok content
  | .ok _ => .error .isDirectory

end FileTree

end SourcePrint
