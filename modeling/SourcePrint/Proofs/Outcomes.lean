import Mathlib.Data.Prod.Lex
import SourcePrint.Proofs.Composition
import SourcePrint.Report

namespace SourcePrint

namespace ConfigFault

/-- Where the check that finds a fault stands: versions are looked at first, then the type names one
after the other, then break symbols, then the size limit. -/
def place : ConfigFault → Nat ×ₗ Nat
  | zeroVersion => toLex (0, 0)
  | blankTypeName index => toLex (1, index)
  | blankBreakSymbol => toLex (2, 0)
  | zeroSizeLimit => toLex (3, 0)

theorem place_injective : Function.Injective place := by
  intro a b h
  cases a <;> cases b <;> simp_all [place]

end ConfigFault

namespace Config

/-- One check, whatever the others find. -/
def Fails (config : Config) : ConfigFault → Prop
  | .zeroVersion => config.canonical.version = 0
  | .blankTypeName index =>
    ∃ name, config.canonical.classifier.builtinTypeNames[index]? = some name ∧
      ∀ c ∈ name.toList, Text.isBlank c = true
  | .blankBreakSymbol =>
    ∃ lines ∈ config.logicalLines, ∃ name ∈ lines.breakSymbols,
      ∀ c ∈ name.toList, Text.isBlank c = true
  | .zeroSizeLimit => config.maxSourceBytes = 0

/-- Every check passes. -/
def Valid (config : Config) : Prop := ∀ fault, ¬ config.Fails fault

/-- The check that fails before any other does. -/
structure FirstFault (config : Config) (fault : ConfigFault) : Prop where
  fails : config.Fails fault
  first : ∀ other, config.Fails other → fault.place ≤ other.place

variable {config : Config} {fault : ConfigFault}

theorem FirstFault.unique {other : ConfigFault} (h : config.FirstFault fault)
    (h' : config.FirstFault other) : fault = other :=
  ConfigFault.place_injective (le_antisymm (h.first other h'.fails) (h'.first fault h.fails))

theorem FirstFault.not_valid (h : config.FirstFault fault) : ¬ config.Valid :=
  fun hvalid => hvalid fault h.fails

theorem fault?_eq (config : Config) :
    config.fault? = (if config.canonical.version = 0 then some .zeroVersion else none).or
      (config.canonical.classifier.fault?.or
        ((config.logicalLines.bind (·.fault?)).or
          (if config.maxSourceBytes = 0 then some .zeroSizeLimit else none))) := by
  unfold fault? CanonicalConfig.fault?
  by_cases hversion : config.canonical.version = 0
  · rw [if_pos hversion, if_pos hversion]
    rfl
  · rw [if_neg hversion, if_neg hversion]
    cases config.canonical.classifier.fault? with
    | some fault => rfl
    | none => cases config.logicalLines.bind (·.fault?) <;> rfl

theorem fails_blankTypeName {index : Nat} :
    config.Fails (.blankTypeName index) ↔
      ∃ name, config.canonical.classifier.builtinTypeNames[index]? = some name ∧
        Text.isBlankText name = true := by
  simp [Fails, Text.isBlankText]

theorem fails_blankBreakSymbol (config : Config) [Decidable (config.Fails .blankBreakSymbol)] :
    config.logicalLines.bind (·.fault?) =
      if config.Fails .blankBreakSymbol then some .blankBreakSymbol else none := by
  cases hlines : config.logicalLines <;>
    simp [Fails, hlines, LogicalLineConfig.fault?, Text.isBlankText]

theorem not_fails_blankTypeName (h : config.canonical.classifier.fault? = none) (index : Nat) :
    ¬ config.Fails (.blankTypeName index) := by
  rw [fails_blankTypeName]
  rintro ⟨name, hname, hblank⟩
  have hnone := List.findIdx?_eq_none_iff.mp (Option.map_eq_none_iff.mp h)
  simp [hnone name (List.mem_of_getElem? hname)] at hblank

/-- The type name that is found wrong is the first blank one. -/
theorem exists_of_classifier (h : config.canonical.classifier.fault? = some fault) :
    ∃ index, fault = .blankTypeName index ∧ config.Fails (.blankTypeName index) ∧
      ∀ other, config.Fails (.blankTypeName other) → index ≤ other := by
  obtain ⟨index, hindex, rfl⟩ := Option.map_eq_some_iff.mp h
  obtain ⟨hlt, hblank, hbefore⟩ := List.findIdx?_eq_some_iff_getElem.mp hindex
  refine ⟨index, rfl, fails_blankTypeName.mpr ⟨_, List.getElem?_eq_getElem hlt, hblank⟩, ?_⟩
  intro other hother
  obtain ⟨name, hname, hblank⟩ := fails_blankTypeName.mp hother
  by_contra hless
  obtain ⟨_, rfl⟩ := List.getElem?_eq_some_iff.mp hname
  exact hbefore other (by omega) hblank

theorem firstFault_of_fault? (h : config.fault? = some fault) : config.FirstFault fault := by
  classical
  rw [fault?_eq, fails_blankBreakSymbol] at h
  simp only [Option.or_eq_some_iff, Option.ite_none_right_eq_some, Option.some.injEq,
    ite_eq_right_iff, reduceCtorEq, imp_false] at h
  obtain ⟨hversion, rfl⟩ | ⟨hversion, h | ⟨hnames, ⟨hlines, rfl⟩ | ⟨hlines, hlimit, rfl⟩⟩⟩ := h
  · refine ⟨hversion, fun other _ => ?_⟩
    cases other <;> simp [ConfigFault.place, Prod.Lex.toLex_le_toLex]
  · obtain ⟨index, rfl, hfails, hbefore⟩ := exists_of_classifier h
    refine ⟨hfails, fun other hother => ?_⟩
    cases other with
    | zeroVersion => exact absurd hother hversion
    | blankTypeName other =>
      simpa [ConfigFault.place, Prod.Lex.toLex_le_toLex] using hbefore other hother
    | blankBreakSymbol => simp [ConfigFault.place, Prod.Lex.toLex_le_toLex]
    | zeroSizeLimit => simp [ConfigFault.place, Prod.Lex.toLex_le_toLex]
  · refine ⟨hlines, fun other hother => ?_⟩
    cases other with
    | zeroVersion => exact absurd hother hversion
    | blankTypeName index => exact absurd hother (not_fails_blankTypeName hnames index)
    | blankBreakSymbol => exact le_refl _
    | zeroSizeLimit => simp [ConfigFault.place, Prod.Lex.toLex_le_toLex]
  · refine ⟨hlimit, fun other hother => ?_⟩
    cases other with
    | zeroVersion => exact absurd hother hversion
    | blankTypeName index => exact absurd hother (not_fails_blankTypeName hnames index)
    | blankBreakSymbol => exact absurd hother hlines
    | zeroSizeLimit => exact le_refl _

theorem valid_of_fault? (h : config.fault? = none) : config.Valid := by
  classical
  rw [fault?_eq, fails_blankBreakSymbol] at h
  simp only [Option.or_eq_none_iff, ite_eq_right_iff, reduceCtorEq, imp_false] at h
  obtain ⟨hversion, hnames, hlines, hlimit⟩ := h
  intro fault hfault
  cases fault with
  | zeroVersion => exact hversion hfault
  | blankTypeName index => exact not_fails_blankTypeName hnames index hfault
  | blankBreakSymbol => exact hlines hfault
  | zeroSizeLimit => exact hlimit hfault

theorem fault?_eq_some_iff : config.fault? = some fault ↔ config.FirstFault fault := by
  refine ⟨firstFault_of_fault?, fun hfirst => ?_⟩
  cases h : config.fault? with
  | none => exact absurd (valid_of_fault? h) hfirst.not_valid
  | some found => rw [(firstFault_of_fault? h).unique hfirst]

theorem fault?_eq_none_iff : config.fault? = none ↔ config.Valid := by
  refine ⟨valid_of_fault?, fun hvalid => ?_⟩
  cases h : config.fault? with
  | none => rfl
  | some found => exact absurd hvalid (firstFault_of_fault? h).not_valid

theorem canonical_of_fault? (h : config.fault? = none) : config.canonical.fault? = none := by
  unfold fault? at h
  split at h
  · cases h
  · assumption

end Config

theorem bind_eq_ok_iff {ε α β : Type} {x : Except ε α} {f : α → Except ε β} {b : β} :
    (x >>= f) = .ok b ↔ ∃ a, x = .ok a ∧ f a = .ok b := by
  cases x with
  | error e => simp [bind, Except.bind]
  | ok a => simp [bind, Except.bind]

theorem Fingerprint.exists_ofTokens {version : UInt32} (h : version ≠ 0) (sourceName : String)
    (tokens : List Token) :
    ∃ fingerprint, ofTokens sourceName tokens version = .ok fingerprint ∧
      fingerprint.canonicalText = Token.canonicalText tokens ∧
      fingerprint.hash = Digest.polynomial (Token.canonicalText tokens) := by
  rw [ofTokens, if_neg h]
  exact ⟨_, rfl, rfl, rfl⟩

namespace CanonicalSource

variable {lexer : Lexer} {text sourceName : String} {config : CanonicalConfig}

/-- A source has a canonical form when its settings pass their check and its lexer cuts it well. -/
theorem ofText_eq_ok_iff {source : CanonicalSource} :
    ofText lexer text sourceName config = .ok source ↔
      config.fault? = none ∧ ∃ classifier tokens fingerprint,
        Classifier.ofConfig config.classifier = .ok classifier ∧
        Token.normalize lexer text sourceName classifier = .ok tokens ∧
        Fingerprint.ofTokens sourceName tokens config.version = .ok fingerprint ∧
        source = ⟨sourceName, tokens, fingerprint, config⟩ := by
  unfold ofText
  cases config.fault? with
  | some fault => simp
  | none =>
    simp only [bind_eq_ok_iff, true_and, exists_and_left, pure, Except.pure, Except.ok.injEq]
    simp only [eq_comm]

/-- The rules of a language fail on no text, so only the settings can be at fault. -/
theorem exists_ofText (h : config.fault? = none) (language : Language) (text sourceName : String) :
    ∃ source, ofText language.lexer text sourceName config = .ok source := by
  have hnames : config.classifier.fault? = none ∧ config.version ≠ 0 := by
    unfold CanonicalConfig.fault? at h
    split at h
    · cases h
    · exact ⟨h, by assumption⟩
  have hclassifier : ∃ classifier, Classifier.ofConfig config.classifier = .ok classifier := by
    rw [Classifier.ofConfig, hnames.1]
    exact ⟨_, rfl⟩
  obtain ⟨classifier, hclassifier⟩ := hclassifier
  have htokens := language.normalize_eq text sourceName classifier
  obtain ⟨fingerprint, hfingerprint, -, -⟩ :=
    Fingerprint.exists_ofTokens hnames.2 sourceName _
  exact ⟨_, ofText_eq_ok_iff.mpr ⟨h, _, _, _, hclassifier, htokens, hfingerprint, rfl⟩⟩

end CanonicalSource

namespace Report

variable {filename text : String} {config : Config}

/-- What is found out about a source, once the settings and its size have passed their checks. -/
theorem exists_canonical (h : config.fault? = none)
    (hsize : text.utf8ByteSize ≤ config.maxSourceBytes) (language : Language) (sourceName : String) :
    ∃ source, CanonicalSource.ofText language.lexer (config.sourcePolicy.prepare text) sourceName
        config.canonical = .ok source ∧
      ofSource language sourceName text config =
        .ok ⟨sourceName, language, source.fingerprint, numberLines config source.tokens⟩ := by
  obtain ⟨source, hsource⟩ := CanonicalSource.exists_ofText (Config.canonical_of_fault? h) language
    (config.sourcePolicy.prepare text) sourceName
  refine ⟨source, hsource, ?_⟩
  simp only [ofSource, h, if_neg (Nat.not_lt.mpr hsize), hsource]

theorem exists_ofSource (h : config.fault? = none)
    (hsize : text.utf8ByteSize ≤ config.maxSourceBytes) (language : Language) (sourceName : String) :
    ∃ report, ofSource language sourceName text config = .ok report := by
  obtain ⟨source, -, hreport⟩ := exists_canonical h hsize language sourceName
  exact ⟨_, hreport⟩

/-- A file is looked at in this order: its name, the settings, its size. Nothing else fails. -/
theorem ofFile_cases (filename text : String) (config : Config) :
    (∃ error, config.languages.resolve filename = .error error ∧
      ofFile filename text config = .error (.lexical error)) ∨
    ∃ language, config.languages.resolve filename = .ok language ∧
      ((∃ fault, config.FirstFault fault ∧
          ofFile filename text config = .error (.canonical (.invalidConfig fault))) ∨
        config.Valid ∧ config.maxSourceBytes < text.utf8ByteSize ∧
          ofFile filename text config =
            .error (.sourceTooLarge filename text.utf8ByteSize config.maxSourceBytes) ∨
        config.Valid ∧ text.utf8ByteSize ≤ config.maxSourceBytes ∧
          ∃ report, ofFile filename text config = .ok report) := by
  unfold ofFile
  cases config.languages.resolve filename with
  | error error => exact .inl ⟨error, rfl, rfl⟩
  | ok language =>
    refine .inr ⟨language, rfl, ?_⟩
    cases hfault : config.fault? with
    | some fault =>
      refine .inl ⟨fault, Config.fault?_eq_some_iff.mp hfault, ?_⟩
      simp only [ofSource, hfault]
    | none =>
      have hvalid := Config.fault?_eq_none_iff.mp hfault
      by_cases hsize : config.maxSourceBytes < text.utf8ByteSize
      · refine .inr (.inl ⟨hvalid, hsize, ?_⟩)
        simp only [ofSource, hfault, if_pos hsize]
      · have hsize := Nat.not_lt.mp hsize
        exact .inr (.inr ⟨hvalid, hsize, exists_ofSource hfault hsize language filename⟩)

theorem ofFile_eq_lexical_iff {error : LexicalError} :
    ofFile filename text config = .error (.lexical error) ↔
      config.languages.resolve filename = .error error := by
  obtain ⟨found, hresolve, h⟩ | ⟨language, hresolve, ⟨fault, -, h⟩ | ⟨-, -, h⟩ |
      ⟨-, -, report, h⟩⟩ := ofFile_cases filename text config
  all_goals simp [hresolve, h]

theorem ofFile_eq_canonical_iff {error : CanonicalError} :
    ofFile filename text config = .error (.canonical error) ↔
      (∃ language, config.languages.resolve filename = .ok language) ∧
        ∃ fault, error = .invalidConfig fault ∧ config.FirstFault fault := by
  obtain ⟨found, hresolve, h⟩ | ⟨language, hresolve, ⟨fault, hfirst, h⟩ | ⟨hvalid, -, h⟩ |
      ⟨hvalid, -, report, h⟩⟩ := ofFile_cases filename text config
  · simp [hresolve, h]
  · rw [h, hresolve]
    constructor
    · rintro ⟨⟩
      exact ⟨⟨language, rfl⟩, fault, rfl, hfirst⟩
    · rintro ⟨-, other, rfl, hother⟩
      rw [hfirst.unique hother]
  all_goals
    have hnone (fault : ConfigFault) : ¬ config.FirstFault fault :=
      fun hfirst => hfirst.not_valid hvalid
    simp [h, hnone]

theorem ofFile_eq_sourceTooLarge_iff {name : String} {size limit : Nat} :
    ofFile filename text config = .error (.sourceTooLarge name size limit) ↔
      (∃ language, config.languages.resolve filename = .ok language) ∧ config.Valid ∧
        name = filename ∧ size = text.utf8ByteSize ∧ limit = config.maxSourceBytes ∧
        limit < size := by
  obtain ⟨found, hresolve, h⟩ | ⟨language, hresolve, ⟨fault, hfirst, h⟩ | ⟨hvalid, hsize, h⟩ |
      ⟨hvalid, hsize, report, h⟩⟩ := ofFile_cases filename text config
  · simp [hresolve, h]
  · simp [h, hfirst.not_valid]
  · rw [h, hresolve]
    constructor
    · rintro ⟨⟩
      exact ⟨⟨language, rfl⟩, hvalid, rfl, rfl, rfl, hsize⟩
    · rintro ⟨-, -, rfl, rfl, rfl, -⟩
      rfl
  · rw [h]
    constructor
    · rintro ⟨⟩
    · rintro ⟨-, -, rfl, rfl, rfl, hlarge⟩
      omega

theorem exists_ofFile_iff :
    (∃ report, ofFile filename text config = .ok report) ↔
      (∃ language, config.languages.resolve filename = .ok language) ∧ config.Valid ∧
        text.utf8ByteSize ≤ config.maxSourceBytes := by
  obtain ⟨found, hresolve, h⟩ | ⟨language, hresolve, ⟨fault, hfirst, h⟩ | ⟨hvalid, hsize, h⟩ |
      ⟨hvalid, hsize, report, h⟩⟩ := ofFile_cases filename text config
  · simp [hresolve, h]
  · simp [h, hfirst.not_valid]
  · simp [h, hsize]
  · simp [h, hresolve, hvalid, hsize]

/-- What comes of a file: an unknown language is an error whatever the settings are; then the first
setting that is wrong; then a text, as it was given, above the size limit. In every other case there
is a report, and no text makes the rules of a language fail. -/
theorem ofFile_outcomes (filename text : String) (config : Config) :
    (∀ error, ofFile filename text config = .error (.lexical error) ↔
      config.languages.resolve filename = .error error) ∧
    (∀ error, ofFile filename text config = .error (.canonical error) ↔
      (∃ language, config.languages.resolve filename = .ok language) ∧
        ∃ fault, error = .invalidConfig fault ∧ config.FirstFault fault) ∧
    (∀ name size limit, ofFile filename text config = .error (.sourceTooLarge name size limit) ↔
      (∃ language, config.languages.resolve filename = .ok language) ∧ config.Valid ∧
        name = filename ∧ size = text.utf8ByteSize ∧ limit = config.maxSourceBytes ∧
        limit < size) ∧
    ((∃ report, ofFile filename text config = .ok report) ↔
      (∃ language, config.languages.resolve filename = .ok language) ∧ config.Valid ∧
        text.utf8ByteSize ≤ config.maxSourceBytes) ∧
    ∀ (language : Language) (prepared : String) (classifier : Classifier),
      (∃ spans, language.lexer.scan prepared = .ok spans) ∧
      ∃ tokens, Token.normalize language.lexer prepared filename classifier = .ok tokens := by
  refine ⟨fun _ => ofFile_eq_lexical_iff, fun _ => ofFile_eq_canonical_iff,
    fun _ _ _ => ofFile_eq_sourceTooLarge_iff, exists_ofFile_iff, ?_⟩
  intro language prepared classifier
  exact ⟨⟨_, rfl⟩, _, language.normalize_eq prepared filename classifier⟩

end Report

end SourcePrint
