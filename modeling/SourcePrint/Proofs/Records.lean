import SourcePrint.Proofs.JsonText
import SourcePrint.Proofs.Tags
import SourcePrint.Record.Result

namespace SourcePrint

open Json (Plain)

theorem plain_obj_iff {members : List (String × Json)} :
    Plain (.obj members) ↔ ∀ m ∈ members, Plain m.2 := by
  refine ⟨?_, .obj⟩
  rintro ⟨⟩
  assumption

namespace Record

variable {α : Type} {encode : α → Json} {decode : Json → Option α}

/-- A value is restored from its record, and the record from its text. -/
structure Restores (encode : α → Json) (decode : Json → Option α) (a : α) : Prop where
  decoded : decode (encode a) = some a
  plain : Plain (encode a)

theorem Restores.read {a : α} (h : Restores encode decode a) :
    (Json.parse? (encode a).render).bind decode = some a := by
  rw [Json.parse?_render h.plain, Option.bind_some, h.decoded]

theorem restores_str (s : String) : Restores .str Json.str? s := ⟨rfl, .str s⟩

theorem restores_bool (b : Bool) : Restores .bool Json.bool? b := ⟨rfl, .bool b⟩

theorem restores_nat {n : Nat} (h : n < UInt64.size) : Restores .nat word64? n := ⟨if_pos h, .int n⟩

theorem restores_word32 (n : UInt32) : Restores (fun n => .nat n.toNat) word32? n := by
  refine ⟨?_, .int _⟩
  have hbelow : Json.natBelow? UInt32.size (.nat n.toNat) = some n.toNat := if_pos n.toNat_lt_size
  rw [word32?, hbelow, Option.map_some, UInt32.ofNat_toNat]

theorem restores_int32 (n : Int32) : Restores (fun n => .int n.toInt) int32? n := by
  refine ⟨?_, .int _⟩
  have hlow := n.le_toInt
  have hhigh := n.toInt_lt
  rw [int32?, if_pos ⟨by omega, by omega⟩, Int32.ofInt_toInt]

theorem restores_list {as : List α} (h : ∀ a ∈ as, Restores encode decode a) :
    Restores (fun as => .arr (as.map encode)) (list? decode) as := by
  constructor
  · have hitems : (as.map encode).mapM decode = some as := by
      induction as with
      | nil => rfl
      | cons a as ih =>
        obtain ⟨ha, has⟩ := List.forall_mem_cons.mp h
        simp [List.mapM_cons, ha.decoded, ih has]
    simpa [list?, Json.items?] using hitems
  · refine .arr fun item hitem => ?_
    obtain ⟨a, ha, rfl⟩ := List.mem_map.mp hitem
    exact (h a ha).plain

/-- No value may be written as null, which stands for no value. -/
theorem restores_option {o : Option α} (h : ∀ a ∈ o, Restores encode decode a)
    (hnull : ∀ a ∈ o, encode a ≠ .null) : Restores (option encode) (nullable decode) o := by
  cases o with
  | none => exact ⟨rfl, .null⟩
  | some a =>
    refine ⟨?_, (h a rfl).plain⟩
    rw [option, nullable, (h a rfl).decoded, Option.map_some]
    exact hnull a rfl

end Record

open Record

theorem Language.restores (language : Language) : Restores toJson ofJson? language :=
  ⟨ofKey?_key language, .str _⟩

theorem Category.restores (category : Category) : Restores toJson ofJson? category := by
  refine ⟨?_, .str _⟩
  simp [toJson, ofJson?, Json.str?, ofTag_of_spells (spells_tag category), Except.toOption]

theorem Symbol.restores (symbol : Symbol) : Restores toJson ofJson? symbol := by
  cases symbol with
  | identifier => exact ⟨by decide, .str _⟩
  | literal => exact ⟨by decide, .str _⟩
  | verbatim text => exact ⟨rfl, .obj (by simpa using .str text)⟩

/-- Offsets are 64-bit numbers. -/
structure Span.Fits (span : Span) : Prop where
  start : span.start < UInt64.size
  stop : span.stop < UInt64.size

theorem Span.restores {span : Span} (h : span.Fits) : Restores toJson ofJson? span := by
  have hstart := restores_nat h.start
  have hstop := restores_nat h.stop
  have hcategory := span.category.restores
  constructor
  · simp [toJson, ofJson?, Fields.ofJson?, List.lookup_cons, required, hstart.decoded, hstop.decoded,
      hcategory.decoded]
  · simp [toJson, plain_obj_iff, hstart.plain, hstop.plain, hcategory.plain]

/-- Where a token stands is told in 64-bit numbers. -/
structure Token.Fits (token : Token) : Prop where
  startOffset : token.startOffset < UInt64.size
  line : token.line < UInt64.size
  column : token.column < UInt64.size
  logicalLine : ∀ n ∈ token.logicalLine, n < UInt64.size

theorem Token.plain_toJson (token : Token) : Plain token.toJson := by
  have hlogical : Plain (option .nat token.logicalLine) := by
    cases token.logicalLine with
    | none => exact .null
    | some n => exact .int n
  simp [toJson, plain_obj_iff, token.kind.restores.plain, Plain.str, Plain.int, Json.nat, hlogical]

theorem Token.restores {token : Token} (h : token.Fits) : Restores toJson ofJson? token := by
  have hkind := token.kind.restores
  have htext := restores_str token.text
  have hstart := restores_nat h.startOffset
  have hline := restores_nat h.line
  have hcolumn := restores_nat h.column
  have hlogical := restores_option (fun n hn => restores_nat (h.logicalLine n hn))
    (fun n _ => by simp [Json.nat])
  have hname := restores_str token.sourceName
  constructor
  · simp [toJson, ofJson?, Fields.ofJson?, List.lookup_cons, required, Record.optional, hkind.decoded,
      htext.decoded, hstart.decoded, hline.decoded, hcolumn.decoded, hlogical.decoded,
      hname.decoded]
  · exact token.plain_toJson

/-- Tokens are counted in a 64-bit number. -/
structure Fingerprint.Fits (fingerprint : Fingerprint) : Prop where
  tokenCount : fingerprint.tokenCount < UInt64.size

theorem Fingerprint.plain_toJson (fingerprint : Fingerprint) : Plain fingerprint.toJson := by
  simp [toJson, plain_obj_iff, Plain.str, Plain.int, Json.nat]

theorem Fingerprint.restores {fingerprint : Fingerprint} (h : fingerprint.Fits) :
    Restores toJson ofJson? fingerprint := by
  have hname := restores_str fingerprint.sourceName
  have htext := restores_str fingerprint.canonicalText
  have hhash := restores_int32 fingerprint.hash
  have hsha256 := restores_str fingerprint.sha256Hex
  have hversion := restores_word32 fingerprint.canonicalVersion
  have hcount := restores_nat h.tokenCount
  constructor
  · simp [toJson, ofJson?, Fields.ofJson?, List.lookup_cons, required, hname.decoded, htext.decoded,
      hhash.decoded, hsha256.decoded, hversion.decoded, hcount.decoded]
  · exact fingerprint.plain_toJson

structure Report.Fits (report : Report) : Prop where
  fingerprint : report.fingerprint.Fits
  tokens : ∀ token ∈ report.tokens, token.Fits

theorem Report.restores {report : Report} (h : report.Fits) : Restores toJson ofJson? report := by
  have hname := restores_str report.sourceName
  have hlanguage := report.language.restores
  have hfingerprint := Fingerprint.restores h.fingerprint
  have htokens := restores_list fun token htoken => Token.restores (h.tokens token htoken)
  constructor
  · simp [toJson, ofJson?, Fields.ofJson?, List.lookup_cons, required, hname.decoded,
      hlanguage.decoded, hfingerprint.decoded, htokens.decoded]
  · simp [toJson, plain_obj_iff, hname.plain, hlanguage.plain, hfingerprint.plain, htokens.plain]

/-- Whatever is written as a record is read back as it was, from the record and from its text: a
report, and each part of one by itself. Any text may stand in it, and every number that its type can
hold. -/
theorem Report.text_restores :
    (∀ report : Report, report.Fits →
      Report.ofJson? report.toJson = some report ∧
      (Json.parse? report.toJson.render).bind Report.ofJson? = some report) ∧
    (∀ token : Token, token.Fits →
      Token.ofJson? token.toJson = some token ∧
      (Json.parse? token.toJson.render).bind Token.ofJson? = some token) ∧
    (∀ fingerprint : Fingerprint, fingerprint.Fits →
      Fingerprint.ofJson? fingerprint.toJson = some fingerprint ∧
      (Json.parse? fingerprint.toJson.render).bind Fingerprint.ofJson? = some fingerprint) ∧
    (∀ span : Span, span.Fits →
      Span.ofJson? span.toJson = some span ∧
      (Json.parse? span.toJson.render).bind Span.ofJson? = some span) ∧
    ∀ symbol : Symbol,
      Symbol.ofJson? symbol.toJson = some symbol ∧
      (Json.parse? symbol.toJson.render).bind Symbol.ofJson? = some symbol := by
  refine ⟨fun report h => ?_, fun token h => ?_, fun fingerprint h => ?_, fun span h => ?_,
    fun symbol => ?_⟩
  · exact ⟨(Report.restores h).decoded, (Report.restores h).read⟩
  · exact ⟨(Token.restores h).decoded, (Token.restores h).read⟩
  · exact ⟨(Fingerprint.restores h).decoded, (Fingerprint.restores h).read⟩
  · exact ⟨(Span.restores h).decoded, (Span.restores h).read⟩
  · exact ⟨symbol.restores.decoded, symbol.restores.read⟩

theorem Report.text_restores_controls :
    let tokens : List Token :=
      [⟨.identifier, "na\u00EFve", 0, 1, 1, some 1, "a\"\\.c"⟩,
       ⟨.verbatim "\x00\u2028😀/", "\t", UInt64.size - 1, 2, 3, none, "a\"\\.c"⟩]
    let report : Report :=
      ⟨"a\"\\.c", .cpp, ⟨"a\"\\.c", "$\n", -2147483648, "", 4294967295, 2⟩, tokens⟩
    report.Fits ∧ Report.ofJson? report.toJson = some report ∧
      (Json.parse? report.toJson.render).bind Report.ofJson? = some report := by
  intro tokens report
  have hfits : report.Fits := by
    refine ⟨⟨by decide⟩, fun token htoken => ?_⟩
    simp only [report, tokens, List.mem_cons, List.not_mem_nil, or_false] at htoken
    rcases htoken with rfl | rfl
    · exact ⟨by decide, by decide, by decide, by simp [UInt64.size]⟩
    · exact ⟨by decide, by decide, by decide, by simp⟩
  exact ⟨hfits, Report.text_restores.1 report hfits⟩

end SourcePrint
