import SourcePrint.Proofs.Preparation
import SourcePrint.Proofs.SlackScan

namespace SourcePrint

namespace Lexeme

theorem Slack.append_blanks (returns : Prop) (cs : List Char) {blanks : List Char}
    (h : blanks.all Text.isBlank = true) : Slack returns cs (cs ++ blanks) := by
  induction cs with
  | nil => exact .ended h
  | cons c cs ih => exact .cons c ih

theorem Context.Agrees.refl (language : Language) (context : Context) :
    context.Agrees language context :=
  ⟨rfl, fun _ => rfl⟩

end Lexeme

namespace Language

/-- Blanks in front of a text are read as one lexeme, and the text behind them begins a line as
before. -/
theorem kinds_trimStart (language : Language) (classifier : Classifier) (cs : List Char) :
    classifier.kinds (language.scan (Text.trimStart cs)) = classifier.kinds (language.scan cs) := by
  have hscan : language.scan cs =
      Lexeme.gap (cs.takeWhile Text.isBlank) ++ language.scan (Text.trimStart cs) := by
    have hlexemes : Lexeme.lexemes language .start
        (cs.takeWhile Text.isBlank ++ cs.dropWhile Text.isBlank) = _ :=
      Lexeme.lexemes_blanks List.all_takeWhile (any_head?_dropWhile _ cs)
    rw [List.takeWhile_append_dropWhile] at hlexemes
    rw [language.scan_eq, language.scan_eq, hlexemes]
    rfl
  rw [hscan, Lexeme.gap]
  split
  · rfl
  · exact (Classifier.kinds_cons_of_none rfl _).symm

/-- Blanks at the ends of a text are seen by no rule, whatever they stand in. -/
theorem kinds_trim (language : Language) (classifier : Classifier) (cs : List Char) :
    classifier.kinds (language.scan (Text.trim cs)) = classifier.kinds (language.scan cs) := by
  obtain ⟨blanks, hsplit, hblanks⟩ := Text.exists_trimEnd (Text.trimStart cs)
  have hslack : Lexeme.Slack False (Text.trim cs) (Text.trimStart cs) := by
    rw [hsplit]
    exact .append_blanks False (Text.trim cs) hblanks
  rw [← language.kinds_trimStart classifier cs, language.scan_eq, language.scan_eq]
  exact (hslack.kinds_lexemes (.refl language .start) False.elim classifier).symm

end Language

/-- Texts whose lexemes leave the same kinds have the same fingerprint, or fail alike. -/
theorem CanonicalSource.fingerprint_congr {language : Language} {text text' : String}
    (h : ∀ classifier : Classifier, classifier.kinds (language.scan text'.toList) =
      classifier.kinds (language.scan text.toList)) (sourceName : String)
    (config : CanonicalConfig) :
    (ofText language.lexer text' sourceName config).map (·.fingerprint) =
      (ofText language.lexer text sourceName config).map (·.fingerprint) := by
  unfold ofText
  cases config.fault? with
  | some fault => rfl
  | none =>
    cases Classifier.ofConfig config.classifier with
    | error error => rfl
    | ok classifier =>
      obtain ⟨tokens, tokens', htokens, htokens', hkinds⟩ :=
        Language.normalize_kinds_congr (h classifier) sourceName
      have hsame := Fingerprint.ofTokens_congr hkinds sourceName config.version
      simp only [bind, Except.bind, htokens, htokens', hsame]
      cases Fingerprint.ofTokens sourceName tokens config.version <;> rfl

/-- The settings, with or without trimming. -/
def Config.trimming (config : Config) (trim : Bool) : Config :=
  { config with sourcePolicy := { config.sourcePolicy with trim := trim } }

@[simp] theorem Config.trimming_canonical (config : Config) (trim : Bool) :
    (config.trimming trim).canonical = config.canonical := rfl

theorem Language.kinds_prepare_trim (language : Language) (config : Config) (text : String)
    (classifier : Classifier) :
    classifier.kinds (language.scan ((config.trimming true).sourcePolicy.prepare text).toList) =
      classifier.kinds
        (language.scan ((config.trimming false).sourcePolicy.prepare text).toList) := by
  have hprepare : (config.trimming true).sourcePolicy.prepare text =
      String.ofList (Text.trim ((config.trimming false).sourcePolicy.prepare text).toList) := by
    simp only [SourcePolicy.prepare_eq, SourcePolicy.plain, Config.trimming, String.toList_ofList]
    rfl
  rw [hprepare, String.toList_ofList]
  exact language.kinds_trim classifier _

namespace Report

theorem exists_ofSource_iff (language : Language) (sourceName text : String) (config : Config) :
    (∃ report, ofSource language sourceName text config = .ok report) ↔
      config.fault? = none ∧ text.utf8ByteSize ≤ config.maxSourceBytes := by
  refine ⟨?_, fun h => exists_ofSource h.1 h.2 language sourceName⟩
  rintro ⟨report, hreport⟩
  unfold ofSource at hreport
  cases hfault : config.fault? with
  | some fault =>
    rw [hfault] at hreport
    cases hreport
  | none =>
    refine ⟨rfl, Nat.not_lt.mp fun hsize => ?_⟩
    rw [hfault] at hreport
    simp only [if_pos hsize] at hreport
    cases hreport

/-- Behind the checks of the settings and of the size, the fingerprint is that of the prepared
text. -/
theorem map_fingerprint_ofSource (language : Language) (sourceName text : String)
    (config : Config) : (ofSource language sourceName text config).map (·.fingerprint) =
      match config.fault? with
      | some fault => .error (.canonical (.invalidConfig fault))
      | none =>
        if config.maxSourceBytes < text.utf8ByteSize then
          .error (.sourceTooLarge sourceName text.utf8ByteSize config.maxSourceBytes)
        else ((CanonicalSource.ofText language.lexer (config.sourcePolicy.prepare text) sourceName
          config.canonical).map (·.fingerprint)).mapError .canonical := by
  unfold ofSource
  cases config.fault? with
  | some fault => rfl
  | none =>
    simp only
    split
    · rfl
    · cases CanonicalSource.ofText language.lexer _ sourceName config.canonical <;> rfl

/-- Trimming never changes the fingerprint. With it and without it a source has the same one or
fails with the same error, and it has one in both cases if the settings are valid and the text is
not too large. -/
theorem ofSource_trim (language : Language) (sourceName text : String) (config : Config) :
    (ofSource language sourceName text (config.trimming true)).map (·.fingerprint) =
        (ofSource language sourceName text (config.trimming false)).map (·.fingerprint) ∧
      ∀ trim, (∃ report, ofSource language sourceName text (config.trimming trim) = .ok report) ↔
        config.Valid ∧ text.utf8ByteSize ≤ config.maxSourceBytes := by
  constructor
  · have hsame := CanonicalSource.fingerprint_congr (language.kinds_prepare_trim config text)
      sourceName config.canonical
    rw [map_fingerprint_ofSource, map_fingerprint_ofSource]
    simp only [Config.trimming_canonical, hsame]
    rfl
  · intro trim
    rw [exists_ofSource_iff, ← Config.fault?_eq_none_iff]
    rfl

end Report

end SourcePrint
