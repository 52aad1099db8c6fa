import SourcePrint.Record.Basic
import SourcePrint.Report

namespace SourcePrint

open Record

namespace Language

def toJson (language : Language) : Json := .str language.key

def ofJson? (json : Json) : Option Language := (caseName? json).bind ofKey?

end Language

namespace Category

def toJson (category : Category) : Json := .str category.tag

def ofJson? (json : Json) : Option Category := json.str?.bind fun tag => (ofTag tag).toOption

end Category

namespace Symbol

def toJson : Symbol → Json
  | identifier => .str "identifier"
  | literal => .str "literal"
  | verbatim text => .obj [("verbatim", .str text)]

/-- An object has a single member. -/
def ofJson? : Json → Option Symbol
  | .obj [("verbatim", .str text)] => some (verbatim text)
  | json =>
    match caseName? json with
    | some "identifier" => some identifier
    | some "literal" => some literal
    | _ => none

end Symbol

namespace Span

def toJson (span : Span) : Json :=
  .obj [("start", .nat span.start), ("end", .nat span.stop), ("category", span.category.toJson)]

def ofJson? (json : Json) : Option Span := do
  match (← Fields.ofJson? ["start", "end", "category"] json).values with
  | [start, stop, category] =>
    return ⟨← required word64? start, ← required word64? stop,
      ← required Category.ofJson? category⟩
  | _ => none

end Span

def TaggedSpan.ofJson? (json : Json) : Option TaggedSpan := do
  match (← Fields.ofJson? ["start", "end", "tag"] json).values with
  | [start, stop, tag] =>
    return ⟨← required word64? start, ← required word64? stop, ← required Json.str? tag⟩
  | _ => none

namespace Token

def toJson (token : Token) : Json :=
  .obj [("kind", token.kind.toJson), ("text", .str token.text),
    ("start_offset", .nat token.startOffset), ("line", .nat token.line),
    ("column", .nat token.column), ("logical_line", option .nat token.logicalLine),
    ("source_name", .str token.sourceName)]

/-- A logical line may be missing from an object, but not from an array. -/
def ofJson? (json : Json) : Option Token := do
  let fields ← Fields.ofJson?
    ["kind", "text", "start_offset", "line", "column", "logical_line", "source_name"] json
  match fields.values with
  | [kind, text, start, line, column, logical, name] =>
    let logicalLine ←
      if fields.positional then required (nullable word64?) logical
      else optional none (nullable word64?) logical
    return { kind := ← required Symbol.ofJson? kind, text := ← required Json.str? text,
             startOffset := ← required word64? start, line := ← required word64? line,
             column := ← required word64? column, logicalLine := logicalLine,
             sourceName := ← required Json.str? name }
  | _ => none

end Token

namespace Fingerprint

def toJson (fingerprint : Fingerprint) : Json :=
  .obj [("source_name", .str fingerprint.sourceName),
    ("canonical_text", .str fingerprint.canonicalText), ("hash", .int fingerprint.hash.toInt),
    ("sha256_hex", .str fingerprint.sha256Hex),
    ("canonical_version", .nat fingerprint.canonicalVersion.toNat),
    ("token_count", .nat fingerprint.tokenCount)]

def ofJson? (json : Json) : Option Fingerprint := do
  let fields ← Fields.ofJson?
    ["source_name", "canonical_text", "hash", "sha256_hex", "canonical_version", "token_count"] json
  match fields.values with
  | [name, text, hash, sha256, version, count] =>
    return { sourceName := ← required Json.str? name, canonicalText := ← required Json.str? text,
             hash := ← required int32? hash, sha256Hex := ← required Json.str? sha256,
             canonicalVersion := ← required word32? version,
             tokenCount := ← required word64? count }
  | _ => none

end Fingerprint

namespace Report

def toJson (report : Report) : Json :=
  .obj [("source_name", .str report.sourceName), ("language", report.language.toJson),
    ("fingerprint", report.fingerprint.toJson), ("tokens", .arr (report.tokens.map Token.toJson))]

def ofJson? (json : Json) : Option Report := do
  match (← Fields.ofJson? ["source_name", "language", "fingerprint", "tokens"] json).values with
  | [name, language, fingerprint, tokens] =>
    return { sourceName := ← required Json.str? name,
             language := ← required Language.ofJson? language,
             fingerprint := ← required Fingerprint.ofJson? fingerprint,
             tokens := ← required (list? Token.ofJson?) tokens }
  | _ => none

end Report

end SourcePrint
