import SourcePrint.Config
import SourcePrint.FileTree
import SourcePrint.Text.Quoted
import SourcePrint.Yaml.Field

namespace SourcePrint

structure CanonicalSection where
  version : UInt32 := 1
  /-- Takes the place of the usual type names. -/
  builtinTypeNames : Option (List String) := none
  deriving DecidableEq, Repr

structure LanguageSection where
  /-- Start from an empty table. -/
  replaceDefaults : Bool := false
  /-- Extensions as they are spelled. -/
  extensions : ExtensionMap := .empty
  deriving DecidableEq

structure LineSection where
  enabled : Bool := false
  breakSymbols : List String := [";", "\x7b", "\x7d"]
  deriving DecidableEq, Repr

/-- A configuration as it is written in a file. -/
structure ConfigFile where
  version : String := "1.0"
  name : Option String := none
  canonical : CanonicalSection := {}
  languages : LanguageSection := {}
  source : SourcePolicy := {}
  logicalLines : LineSection := {}
  maxSourceBytes : Nat := defaultMaxSourceBytes
  deriving DecidableEq

/-- What is wrong with a configuration that could be read. -/
inductive ConfigFileFault where
  | zeroCanonicalVersion
  | typeNames (fault : ConfigFault)
  | emptyExtension (extension : String)
  | noExtensions
  | noBreakSymbols
  | breakSymbols (fault : ConfigFault)
  | zeroSizeLimit
  deriving DecidableEq, Repr

def ConfigFileFault.message : ConfigFileFault → String
  | zeroCanonicalVersion => "canonical.version must be >= 1"
  | typeNames fault => "canonical: " ++ (CanonicalError.invalidConfig fault).message
  | emptyExtension extension =>
    "languages.extensions has an empty extension: " ++ Text.quote extension
  | noExtensions => "languages.replace_defaults needs at least one extension"
  | noBreakSymbols => "logical_lines.break_symbols must not be empty when enabled"
  | breakSymbols fault => (CanonicalError.invalidConfig fault).message
  | zeroSizeLimit => "limits.max_source_bytes must be >= 1"

/-- Why a configuration file gives no settings. -/
inductive ConfigFileError where
  | unreadable (error : FileError)
  | malformed
  | invalid (fault : ConfigFileFault)
  | unsupportedVersion (version : String)
  deriving DecidableEq, Repr

def ConfigFileError.message : ConfigFileError → String
  | unreadable error => "failed to read config file: " ++ error.message
  | malformed => "failed to parse YAML"
  | invalid fault => "validation error: " ++ fault.message
  | unsupportedVersion version => "unsupported config version: " ++ version

namespace CanonicalSection

def toConfig (canonical : CanonicalSection) : CanonicalConfig :=
  ⟨canonical.version,
    match canonical.builtinTypeNames with
    | some names => ⟨names⟩
    | none => {}⟩

def fault? (canonical : CanonicalSection) : Option ConfigFileFault :=
  if canonical.version = 0 then some .zeroCanonicalVersion
  else canonical.toConfig.classifier.fault?.map .typeNames

def ofNode? (document : Yaml.Document) (node : Yaml.Node) : Option CanonicalSection := do
  match ← document.fields? ["version", "builtin_type_names"] node with
  | [version, names] =>
    return ⟨← Yaml.optional 1 (fun n => (document.natBelow? UInt32.size n).map UInt32.ofNat) version,
      ← Yaml.optional none (document.orNull? (document.list? document.text?)) names⟩
  | _ => none

end CanonicalSection

namespace LanguageSection

/-- Leading dots are taken off before blanks, so a blank before a dot is not noticed. -/
def isEmptyExtension (extension : String) : Bool :=
  (extension.toList.dropWhile (· == '.')).all Text.isBlank

def fault? (languages : LanguageSection) : Option ConfigFileFault :=
  match languages.extensions.extensions.find? isEmptyExtension with
  | some extension => some (.emptyExtension extension)
  | none =>
    if languages.replaceDefaults ∧ languages.extensions.entries = [] then some .noExtensions
    else none

/-- Extensions that normalize alike are inserted in the order of their spelling. -/
def toTable (languages : LanguageSection) : LanguageTable :=
  (if languages.replaceDefaults then LanguageTable.empty else .standard).insertAll
    languages.extensions.entries

def extensions? (document : Yaml.Document) (node : Yaml.Node) : Option ExtensionMap := do
  let entries ← (← document.entries? node).mapM fun entry => do
    return (entry.1, ← Language.ofKey? (← document.choice? entry.2))
  return .ofList entries

def ofNode? (document : Yaml.Document) (node : Yaml.Node) : Option LanguageSection := do
  match ← document.fields? ["replace_defaults", "extensions"] node with
  | [replaceDefaults, extensions] =>
    return ⟨← Yaml.optional false document.bool? replaceDefaults,
      ← Yaml.optional .empty (extensions? document) extensions⟩
  | _ => none

end LanguageSection

namespace LineSection

/-- Break symbols are checked even where they are not used. -/
def fault? (lines : LineSection) : Option ConfigFileFault :=
  if lines.enabled ∧ lines.breakSymbols = [] then some .noBreakSymbols
  else (LogicalLineConfig.fault? ⟨lines.breakSymbols⟩).map .breakSymbols

def toConfig? (lines : LineSection) : Option LogicalLineConfig :=
  if lines.enabled then some ⟨lines.breakSymbols⟩ else none

def ofNode? (document : Yaml.Document) (node : Yaml.Node) : Option LineSection := do
  match ← document.fields? ["enabled", "break_symbols"] node with
  | [enabled, symbols] =>
    let standard : LineSection := {}
    return ⟨← Yaml.optional false document.bool? enabled,
      ← Yaml.optional standard.breakSymbols (document.list? document.text?) symbols⟩
  | _ => none

end LineSection

/-- The section on the source text. -/
def SourcePolicy.ofNode? (document : Yaml.Document) (node : Yaml.Node) : Option SourcePolicy := do
  match ← document.fields? ["normalize_newlines", "trim"] node with
  | [newlines, trim] =>
    return ⟨← Yaml.optional true document.bool? newlines,
      ← Yaml.optional true document.bool? trim⟩
  | _ => none

namespace ConfigFile

/-- The section on limits has a single field. -/
def limit? (document : Yaml.Document) (node : Yaml.Node) : Option Nat := do
  match ← document.fields? ["max_source_bytes"] node with
  | [limit] => Yaml.optional defaultMaxSourceBytes (document.natBelow? UInt64.size) limit
  | _ => none

def ofNode? (document : Yaml.Document) (node : Yaml.Node) : Option ConfigFile := do
  match ← document.fields?
      ["version", "name", "canonical", "languages", "source", "logical_lines", "limits"] node with
  | [version, name, canonical, languages, source, lines, limits] =>
    return { version := ← Yaml.required document.text? version,
             name := ← Yaml.optional none (document.orNull? document.text?) name,
             canonical := ← Yaml.optional {} (CanonicalSection.ofNode? document) canonical,
             languages := ← Yaml.optional {} (LanguageSection.ofNode? document) languages,
             source := ← Yaml.optional {} (SourcePolicy.ofNode? document) source,
             logicalLines := ← Yaml.optional {} (LineSection.ofNode? document) lines,
             maxSourceBytes := ← Yaml.optional defaultMaxSourceBytes (limit? document) limits }
  | _ => none

/-- The first fault, section by section. -/
def fault? (file : ConfigFile) : Option ConfigFileFault :=
  match file.canonical.fault? with
  | some fault => some fault
  | none =>
    match file.languages.fault? with
    | some fault => some fault
    | none =>
      match file.logicalLines.fault? with
      | some fault => some fault
      | none => if file.maxSourceBytes = 0 then some .zeroSizeLimit else none

/-- The version is looked at before anything else. -/
def validate (file : ConfigFile) : Except ConfigFileError Unit :=
  if file.version = "1.0" ∨ file.version = "1" then
    match file.fault? with
    | some fault => .error (.invalid fault)
    | none => .ok ()
  else .error (.unsupportedVersion file.version)

def ofText (text : String) : Except ConfigFileError ConfigFile :=
  match (Yaml.Document.parse? text).bind fun document => ofNode? document document.root with
  | none => .error .malformed
  | some file => (file.validate).map fun _ => file

def load (disk : Disk) (path : String) : Except ConfigFileError ConfigFile :=
  match disk.readText path with
  | .error error => .error (.unreadable error)
  | .ok text => ofText text

/-- The settings that a file stands for. -/
def toConfig (file : ConfigFile) : Config :=
  { canonical := file.canonical.toConfig, languages := file.languages.toTable,
    sourcePolicy := file.source, logicalLines := file.logicalLines.toConfig?,
    maxSourceBytes := file.maxSourceBytes }

end ConfigFile

end SourcePrint
