import SourcePrint.Proofs.Clones

namespace SourcePrint

namespace Token

def relabel (sourceName : String) (token : Token) : Token := { token with sourceName := sourceName }

/-- What a token says about the source text: all but the name of the source and the logical line. -/
def unlabelled (token : Token) : Token := { token with logicalLine := none, sourceName := "" }

theorem map_unlabelled_relabel (sourceName : String) (tokens : List Token) :
    (tokens.map (relabel sourceName)).map unlabelled = tokens.map unlabelled :=
  List.map_map

theorem kinds_relabel (sourceName : String) (tokens : List Token) :
    (tokens.map (relabel sourceName)).map (·.kind) = tokens.map (·.kind) :=
  List.map_map

theorem ofPieces_relabel (classifier : Classifier) (name other : String) (pieces : List Piece) :
    ofPieces classifier other pieces = (ofPieces classifier name pieces).map (relabel other) := by
  have hpiece : ∀ located, ofPiece? classifier other located =
      (ofPiece? classifier name located).map (relabel other) := by
    intro located
    simp only [ofPiece?, Option.map_map]
    rfl
  have hjoin : ∀ token next : Token,
      absorb (relabel other token) [relabel other next] =
        (absorb token [next]).map (relabel other) := by
    intro token next
    simp only [absorb, apply_ite (List.map (relabel other))]
    rfl
  rw [ofPieces, ofPieces, ← mergeLiterals_map hjoin, List.map_filterMap]
  simp only [hpiece]

theorem normalize_relabel (lexer : Lexer) (text name other : String) (classifier : Classifier) :
    normalize lexer text other classifier =
      (normalize lexer text name classifier).map (List.map (relabel other)) := by
  simp only [normalize, collect_eq_ofPieces]
  cases lexer.scan text with
  | error error => rfl
  | ok spans =>
    cases hcut : Piece.cut text.toList spans with
    | error error => simp only [hcut]; rfl
    | ok pieces =>
      simp only [hcut]
      exact congrArg Except.ok (ofPieces_relabel classifier name other pieces)

end Token

def Fingerprint.relabel (sourceName : String) (fingerprint : Fingerprint) : Fingerprint :=
  { fingerprint with sourceName := sourceName }

theorem Fingerprint.ofTokens_relabel (name other : String) (tokens : List Token)
    (version : UInt32) :
    ofTokens other (tokens.map (Token.relabel other)) version =
      (ofTokens name tokens version).map (relabel other) := by
  rw [ofTokens_congr (Token.kinds_relabel other tokens), ofTokens, ofTokens]
  split <;> rfl

namespace CanonicalSource

/-- A source under another name has the same canonical form under that name. -/
theorem ofText_relabel {lexer : Lexer} {text name : String} {config : CanonicalConfig}
    {source : CanonicalSource} (h : ofText lexer text name config = .ok source) (other : String) :
    ofText lexer text other config = .ok ⟨other, source.tokens.map (Token.relabel other),
      source.fingerprint.relabel other, config⟩ := by
  obtain ⟨hfault, classifier, tokens, fingerprint, hclassifier, htokens, hfingerprint, rfl⟩ :=
    ofText_eq_ok_iff.mp h
  apply ofText_eq_ok_iff.mpr
  refine ⟨hfault, classifier, _, _, hclassifier, ?_, ?_, rfl⟩
  · rw [Token.normalize_relabel lexer text name other, htokens]
    rfl
  · rw [Fingerprint.ofTokens_relabel name other, hfingerprint]
    rfl

end CanonicalSource

namespace Report

variable {language : Language} {text : String} {config : Config}

/-- The tokens of a report, with their logical lines, give its fingerprint again. -/
theorem ofTokens_tokens {sourceName : String} {report : Report}
    (h : ofSource language sourceName text config = .ok report) :
    Fingerprint.ofTokens sourceName report.tokens config.canonical.version =
      .ok report.fingerprint := by
  obtain ⟨source, hsource, hfingerprint, hkinds⟩ := exists_source h
  obtain ⟨-, _, _, fingerprint, -, -, hofTokens, rfl⟩ := CanonicalSource.ofText_eq_ok_iff.mp hsource
  rw [Fingerprint.ofTokens_congr hkinds, hofTokens, hfingerprint]

/-- Reports are consistent, and labels do not leak into what identifies a source. The fingerprint of
a report is that of its own tokens. Settings that agree on what is canonical and on how a text is
prepared give the same fingerprint but for the name of the source, whatever that name, the logical
lines, the languages and the size limit are, and the same tokens but for the name of the source and
the logical line. -/
theorem ofSource_unlabelled (language : Language) (text : String) :
    (∀ (sourceName : String) (config : Config) (report : Report),
      ofSource language sourceName text config = .ok report →
      Fingerprint.ofTokens sourceName report.tokens config.canonical.version =
        .ok report.fingerprint) ∧
    ∀ (name other : String) (config config' : Config), config.Valid → config'.Valid →
      config'.canonical = config.canonical → config'.sourcePolicy = config.sourcePolicy →
      text.utf8ByteSize ≤ config.maxSourceBytes → text.utf8ByteSize ≤ config'.maxSourceBytes →
      ∃ report report', ofSource language name text config = .ok report ∧
        ofSource language other text config' = .ok report' ∧
        report'.fingerprint = { report.fingerprint with sourceName := other } ∧
        report'.tokens.map Token.unlabelled = report.tokens.map Token.unlabelled := by
  refine ⟨fun _ _ _ => ofTokens_tokens, ?_⟩
  intro name other config config' hvalid hvalid' hcanonical hpolicy hsize hsize'
  obtain ⟨source, hsource, hreport⟩ :=
    exists_canonical (Config.fault?_eq_none_iff.mpr hvalid) hsize language name
  obtain ⟨source', hsource', hreport'⟩ :=
    exists_canonical (Config.fault?_eq_none_iff.mpr hvalid') hsize' language other
  rw [hpolicy, hcanonical, CanonicalSource.ofText_relabel hsource other] at hsource'
  obtain rfl := Except.ok.inj hsource'
  refine ⟨_, _, hreport, hreport', rfl, ?_⟩
  have hlines : ∀ (token : Token) (line : Option Nat),
      Token.unlabelled { token with logicalLine := line } = token.unlabelled := fun _ _ => rfl
  rw [map_numberLines hlines, map_numberLines hlines, Token.map_unlabelled_relabel]

/-- A source with a joined literal under its own name, and under another name with logical lines, no
language and the least limit. -/
theorem ofSource_unlabelled_lines :
    let text := "s = \"a\" \"b\";\r\nf(é);"
    let config' : Config :=
      { languages := .empty, logicalLines := some ⟨[";"]⟩, maxSourceBytes := 20 }
    Config.Valid {} ∧ config'.Valid ∧ text.utf8ByteSize = 20 ∧
      ∃ report report', ofSource .c "a.c" text {} = .ok report ∧
        ofSource .c "b" text config' = .ok report' ∧
        report.tokens.map (·.logicalLine) ≠ report'.tokens.map (·.logicalLine) ∧
        Fingerprint.ofTokens "b" report'.tokens 1 = .ok report'.fingerprint ∧
        report'.fingerprint = { report.fingerprint with sourceName := "b" } ∧
        report'.tokens.map Token.unlabelled = report.tokens.map Token.unlabelled := by
  intro text config'
  have hvalid : Config.Valid {} := Config.fault?_eq_none_iff.mp (by decide +kernel)
  have hvalid' : config'.Valid := Config.fault?_eq_none_iff.mp (by decide +kernel)
  obtain ⟨hself, hlabels⟩ := ofSource_unlabelled .c text
  obtain ⟨report, report', hreport, hreport', hfingerprint, htokens⟩ :=
    hlabels "a.c" "b" {} config' hvalid hvalid' rfl rfl (by decide) (by decide)
  refine ⟨hvalid, hvalid', by decide, report, report', hreport, hreport', ?_,
    hself "b" config' report' hreport', hfingerprint, htokens⟩
  have hlines : (ofSource .c "a.c" text {}).map (·.tokens.map (·.logicalLine)) ≠
      (ofSource .c "b" text config').map (·.tokens.map (·.logicalLine)) := by
    decide +kernel
  rw [hreport, hreport'] at hlines
  exact fun hsame => hlines (congrArg Except.ok hsame)

end Report

end SourcePrint
