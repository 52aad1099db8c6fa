import SourcePrint.ConfigFile
import SourcePrint.Record.Result

namespace SourcePrint

open Record

def ExtensionMap.toJson (map : ExtensionMap) : Json :=
  .obj (map.entries.map fun entry => (entry.1, entry.2.toJson))

namespace LanguageTable

def toJson (table : LanguageTable) : Json := table.toExtensionMap.toJson

/-- The last of several members with one name counts. Then every name is normalized as it is
inserted, in an order that is not that of the members. -/
def ofJson? (order : ExtensionMap.Order) : Json → Option LanguageTable
  | .obj members => do
    let entries ← members.mapM fun m => (Language.ofJson? m.2).map fun language => (m.1, language)
    return empty.insertAll (order.arrange (ExtensionMap.ofList entries).entries)
  | _ => none

end LanguageTable

namespace SourcePolicy

def toJson (policy : SourcePolicy) : Json :=
  .obj [("normalize_newlines", .bool policy.normalizeNewlines), ("trim", .bool policy.trim)]

def ofJson? (json : Json) : Option SourcePolicy := do
  match (← Fields.ofJson? ["normalize_newlines", "trim"] json).values with
  | [newlines, trim] =>
    return ⟨← optional true Json.bool? newlines, ← optional true Json.bool? trim⟩
  | _ => none

end SourcePolicy

namespace ClassifierConfig

def toJson (config : ClassifierConfig) : Json :=
  .obj [("builtin_type_names", .strs config.builtinTypeNames)]

def ofJson? (json : Json) : Option ClassifierConfig := do
  match (← Fields.ofJson? ["builtin_type_names"] json).values with
  | [names] =>
    let standard : ClassifierConfig := {}
    return ⟨← optional standard.builtinTypeNames Json.strs? names⟩
  | _ => none

end ClassifierConfig

namespace CanonicalConfig

def toJson (config : CanonicalConfig) : Json :=
  .obj [("version", .nat config.version.toNat), ("classifier", config.classifier.toJson)]

/-- The version has no default once a record is given. -/
def ofJson? (json : Json) : Option CanonicalConfig := do
  match (← Fields.ofJson? ["version", "classifier"] json).values with
  | [version, classifier] =>
    return ⟨← required word32? version, ← optional {} ClassifierConfig.ofJson? classifier⟩
  | _ => none

end CanonicalConfig

namespace LogicalLineConfig

def toJson (config : LogicalLineConfig) : Json :=
  .obj [("break_symbols", .strs config.breakSymbols)]

def ofJson? (json : Json) : Option LogicalLineConfig := do
  match (← Fields.ofJson? ["break_symbols"] json).values with
  | [symbols] =>
    let standard : LogicalLineConfig := {}
    return ⟨← optional standard.breakSymbols Json.strs? symbols⟩
  | _ => none

end LogicalLineConfig

namespace Config

def toJson (config : Config) : Json :=
  .obj [("canonical", config.canonical.toJson), ("languages", config.languages.toJson),
    ("source_policy", config.sourcePolicy.toJson),
    ("logical_lines", option LogicalLineConfig.toJson config.logicalLines),
    ("max_source_bytes", .nat config.maxSourceBytes)]

def ofJson? (order : ExtensionMap.Order) (json : Json) : Option Config := do
  let fields ← Fields.ofJson?
    ["canonical", "languages", "source_policy", "logical_lines", "max_source_bytes"] json
  match fields.values with
  | [canonical, languages, policy, lines, limit] =>
    return { canonical := ← optional {} CanonicalConfig.ofJson? canonical,
             languages := ← optional .standard (LanguageTable.ofJson? order) languages,
             sourcePolicy := ← optional {} SourcePolicy.ofJson? policy,
             logicalLines := ← optional none (nullable LogicalLineConfig.ofJson?) lines,
             maxSourceBytes := ← optional defaultMaxSourceBytes word64? limit }
  | _ => none

end Config

def ConfigFile.toJson (file : ConfigFile) : Json :=
  .obj [("version", .str file.version), ("name", option .str file.name),
    ("canonical", .obj [("version", .nat file.canonical.version.toNat),
      ("builtin_type_names", option .strs file.canonical.builtinTypeNames)]),
    ("languages", .obj [("replace_defaults", .bool file.languages.replaceDefaults),
      ("extensions", file.languages.extensions.toJson)]),
    ("source", file.source.toJson),
    ("logical_lines", .obj [("enabled", .bool file.logicalLines.enabled),
      ("break_symbols", .strs file.logicalLines.breakSymbols)]),
    ("limits", .obj [("max_source_bytes", .nat file.maxSourceBytes)])]

namespace CanonicalSource

def toJson (source : CanonicalSource) : Json :=
  .obj [("source_name", .str source.sourceName), ("tokens", .arr (source.tokens.map Token.toJson)),
    ("fingerprint", source.fingerprint.toJson), ("config", source.config.toJson)]

end CanonicalSource

end SourcePrint
