import SourcePrint.Command.Arguments
import SourcePrint.ConfigFile
import SourcePrint.Json.Printer
import SourcePrint.Record.Result

namespace SourcePrint.Command

structure Outcome where
  lines : List String
  exitCode : UInt32
  /-- Why the configuration could not be used. -/
  complaint : Option String := none
  deriving DecidableEq, Repr

/-- The name that decides the language of a path. Directories have no part in it. -/
def resolutionName (path : String) : String := (fileName? path).getD path

def loadConfig (disk : Disk) : Option String → Except String Config
  | none => .ok {}
  | some path =>
    match ConfigFile.load disk path with
    | .ok file => .ok file.toConfig
    | .error error => .error (path ++ ": " ++ error.message)

def languageLine (path : String) (language : Language) : Json :=
  .obj [("path", .str path), ("language", language.toJson)]

def reportLine (path : String) (withTokens : Bool) (report : Report) : Json :=
  .obj ([("path", .str path), ("language", report.language.toJson),
      ("fingerprint", report.fingerprint.toJson)] ++
    if withTokens then [("tokens", .arr (report.tokens.map Token.toJson))] else [])

def errorLine (path message : String) : Json :=
  .obj [("path", .str path), ("error", .str message)]

/-- The line for one path, or the message of its failure. A file is read before its language is
looked up, and not at all if only the language is asked for. -/
def process (disk : Disk) (args : Arguments) (config : Config) (path : String) :
    Except String Json :=
  let name := resolutionName path
  if args.typeOnly then
    match config.languages.resolve name with
    | .ok language => .ok (languageLine path language)
    | .error error => .error (ReportError.lexical error).message
  else
    match disk.readText path with
    | .error error => .error ("failed to read file: " ++ error.message)
    | .ok text =>
      match Report.ofFile name text config with
      | .ok report => .ok (reportLine path args.tokens report)
      | .error error => .error error.message

/-- The line that is printed for a path in either case. -/
def line (path : String) : Except String Json → String
  | .ok json => json.render
  | .error message => (errorLine path message).render

/-- Every path gets its line, in order, whatever becomes of the others. -/
def runPaths (disk : Disk) (args : Arguments) (config : Config) : Outcome :=
  let results := args.paths.map fun path => (path, process disk args config path)
  { lines := results.map fun result => line result.1 result.2,
    exitCode := if results.all fun result => result.2.isOk then 0 else 1 }

def runArguments (disk : Disk) (args : Arguments) : Outcome :=
  match loadConfig disk args.config with
  | .error message => ⟨[], 2, some ("codefp: " ++ message)⟩
  | .ok config => runPaths disk args config

def help : List String :=
  ["Identifier- and literal-insensitive fingerprints for C, C++ and Java sources", "",
   "Usage: codefp [OPTIONS] <PATHS>...", "",
   "Arguments:",
   "  <PATHS>...  Source files to fingerprint", "",
   "Options:",
   "  -c, --config <CONFIG>  YAML pipeline configuration",
   "      --tokens           Include the canonical token list in each report",
   "      --type-only        Only resolve and print each file's language",
   "      --log-json         Emit logs as JSON lines on stderr",
   "  -h, --help             Print help"]

def run (disk : Disk) (words : List String) : Outcome :=
  match Arguments.request? words with
  | none => ⟨[], 2, none⟩
  | some .help => ⟨help, 0, none⟩
  | some (.report args) => runArguments disk args

end SourcePrint.Command
