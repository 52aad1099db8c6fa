import SourcePrint.Proofs.Outcomes

namespace SourcePrint

namespace Text

theorem hexValue?_hexDigit : ∀ n < 16, hexValue? (hexDigit n) = some n := by
  decide

theorem hexDigit_inj {n m : Nat} (hn : n < 16) (hm : m < 16) (h : hexDigit n = hexDigit m) :
    n = m := by
  have hvalues := congrArg hexValue? h
  rwa [hexValue?_hexDigit n hn, hexValue?_hexDigit m hm, Option.some.injEq] at hvalues

end Text

namespace Digest

theorem hex_injective : Function.Injective hex := by
  intro a b h
  replace h := String.ofList_injective h
  induction a generalizing b with
  | nil =>
    cases b with
    | nil => rfl
    | cons y b => cases h
  | cons x a ih =>
    cases b with
    | nil => cases h
    | cons y b =>
      simp only [List.flatMap_cons, List.cons_append, List.nil_append, List.cons.injEq] at h
      obtain ⟨hhigh, hlow, htail⟩ := h
      have hx := x.toNat_lt
      have hy := y.toNat_lt
      have hhigh := Text.hexDigit_inj (by omega) (by omega) hhigh
      have hlow := Text.hexDigit_inj (by omega) (by omega) hlow
      rw [ih htail, UInt8.toNat_inj.mp (by omega : x.toNat = y.toNat)]

theorem bigEndian_inj {v v' : UInt32} (h : bigEndian 4 v.toNat = bigEndian 4 v'.toNat) :
    v = v' := by
  simp only [bigEndian, List.range, List.range.loop, List.map_cons, List.map_nil, List.cons.injEq,
    UInt8.ofNat_eq_iff_mod_eq_toNat, UInt8.toNat_ofNat'] at h
  have hv := v.toNat_lt
  have hv' := v'.toNat_lt
  exact UInt32.toNat_inj.mp (by omega)

theorem length_bigEndian (width n : Nat) : (bigEndian width n).length = width := by
  simp [bigEndian]

theorem textBytes_injective : Function.Injective textBytes := by
  intro a b h
  exact String.toByteArray_inj.mp (ByteArray.ext (Array.toList_inj.mp h))

/-- What is hashed gives back the version and the text, whatever bytes the text has. -/
theorem versioned_inj {version version' : UInt32} {text text' : String} :
    versioned version text = versioned version' text' ↔ version = version' ∧ text = text' := by
  constructor
  · intro h
    obtain ⟨hversion, htext⟩ := List.append_inj h (by rw [length_bigEndian, length_bigEndian])
    exact ⟨bigEndian_inj hversion, textBytes_injective (List.cons.inj htext).2⟩
  · rintro ⟨rfl, rfl⟩
    rfl

/-- The two messages are no collision. -/
def Separates (message message' : List UInt8) : Prop :=
  sha256 message = sha256 message' → message = message'

theorem versionedHex_eq_iff {version version' : UInt32} {text text' : String}
    (h : Separates (versioned version text) (versioned version' text')) :
    versionedHex version text = versionedHex version' text' ↔
      version = version' ∧ text = text' := by
  constructor
  · intro heq
    exact versioned_inj.mp (h (hex_injective heq))
  · intro heq
    rw [heq.1, heq.2]

end Digest

namespace Fingerprint

variable {sourceName sourceName' : String} {tokens tokens' : List Token} {version version' : UInt32}
variable {a b : Fingerprint}

theorem isCloneOf_eq_true :
    a.isCloneOf b = true ↔
      (a.canonicalVersion, a.sha256Hex) = (b.canonicalVersion, b.sha256Hex) := by
  simp [isCloneOf]

theorem fields_of_ofTokens (h : ofTokens sourceName tokens version = .ok a) :
    a.canonicalVersion = version ∧
      a.sha256Hex = Digest.versionedHex version (Token.canonicalText tokens) := by
  unfold ofTokens at h
  split at h
  · cases h
  · cases h
    exact ⟨rfl, rfl⟩

/-- Fingerprints agree on what was hashed, unless the digest fails to tell the two apart. -/
theorem isCloneOf_iff (ha : ofTokens sourceName tokens version = .ok a)
    (hb : ofTokens sourceName' tokens' version' = .ok b)
    (hseparates : Digest.Separates (Digest.versioned version (Token.canonicalText tokens))
      (Digest.versioned version' (Token.canonicalText tokens'))) :
    a.isCloneOf b = true ↔
      version = version' ∧ Token.canonicalText tokens = Token.canonicalText tokens' := by
  obtain ⟨hversion, hhex⟩ := fields_of_ofTokens ha
  obtain ⟨hversion', hhex'⟩ := fields_of_ofTokens hb
  rw [isCloneOf_eq_true, Prod.mk.injEq, hversion, hversion', hhex, hhex',
    Digest.versionedHex_eq_iff hseparates]
  exact ⟨And.right, fun h => ⟨h.1, h⟩⟩

theorem isCloneOf_equivalence : Equivalence fun a b : Fingerprint => a.isCloneOf b = true := by
  simp only [isCloneOf_eq_true]
  exact eq_equivalence.comap fun a : Fingerprint => (a.canonicalVersion, a.sha256Hex)

end Fingerprint

/-- Numbering leaves all of the tokens but their logical lines. -/
theorem LogicalLineConfig.map_assign {α : Type} {f : Token → α}
    (h : ∀ token line, f { token with logicalLine := line } = f token) (config : LogicalLineConfig)
    (tokens : List Token) : (config.assign tokens).map f = tokens.map f := by
  unfold assign
  generalize 1 = line
  induction tokens generalizing line with
  | nil => rfl
  | cons token tokens ih =>
    rw [mapThread_cons, List.map_cons, List.map_cons, ih]
    exact congrArg (· :: tokens.map f) (h token (some line))

namespace Report

variable {language : Language} {sourceName text : String} {config : Config}

theorem map_numberLines {α : Type} {f : Token → α}
    (h : ∀ token line, f { token with logicalLine := line } = f token) (config : Config)
    (tokens : List Token) : (numberLines config tokens).map f = tokens.map f := by
  unfold numberLines
  cases config.logicalLines with
  | none => rfl
  | some lines => exact lines.map_assign h tokens

/-- A report carries the fingerprint of the text as it was prepared, and its tokens. -/
theorem exists_source {report : Report}
    (h : ofSource language sourceName text config = .ok report) :
    ∃ source, CanonicalSource.ofText language.lexer (config.sourcePolicy.prepare text) sourceName
        config.canonical = .ok source ∧
      report.fingerprint = source.fingerprint ∧
      report.tokens.map (·.kind) = source.tokens.map (·.kind) := by
  unfold ofSource at h
  split at h
  · cases h
  · split at h
    · cases h
    · split at h
      · cases h
      · rename_i source hsource
        cases h
        exact ⟨source, hsource, rfl, map_numberLines (fun _ _ => rfl) config source.tokens⟩

end Report

theorem exists_of_map_eq_ok {ε α β : Type} {x : Except ε α} {f : α → β} {b : β}
    (h : x.map f = .ok b) : ∃ a, x = .ok a ∧ f a = b := by
  cases x with
  | error e => cases h
  | ok a => exact ⟨a, rfl, Except.ok.inj h⟩

namespace CanonicalSource

variable {lexer lexer' : Lexer} {text text' name name' : String} {config config' : CanonicalConfig}
variable {a b : CanonicalSource}

theorem isCloneOf_iff (ha : ofText lexer text name config = .ok a)
    (hb : ofText lexer' text' name' config' = .ok b)
    (hseparates : Digest.Separates
      (Digest.versioned config.version (Token.canonicalText a.tokens))
      (Digest.versioned config'.version (Token.canonicalText b.tokens))) :
    a.isCloneOf b = true ↔ config.version = config'.version ∧
      Token.canonicalText a.tokens = Token.canonicalText b.tokens := by
  obtain ⟨-, -, tokens, fingerprint, -, -, hfingerprint, rfl⟩ := ofText_eq_ok_iff.mp ha
  obtain ⟨-, -, tokens', fingerprint', -, -, hfingerprint', rfl⟩ := ofText_eq_ok_iff.mp hb
  exact Fingerprint.isCloneOf_iff hfingerprint hfingerprint' hseparates

/-- The clone test is exact. Two results are clones when their settings have one version and they
have one canonical text, unless what was hashed for them is a collision. Reports are clones when
the sources that they were made from are. What is hashed determines the version and the text, and
both tests are equivalences. -/
theorem clone_test_exact :
    (∀ {lexer lexer' : Lexer} {text text' name name' : String} {config config' : CanonicalConfig}
        {a b : CanonicalSource},
      ofText lexer text name config = .ok a → ofText lexer' text' name' config' = .ok b →
      Digest.Separates (Digest.versioned config.version (Token.canonicalText a.tokens))
        (Digest.versioned config'.version (Token.canonicalText b.tokens)) →
      (a.isCloneOf b = true ↔ config.version = config'.version ∧
        Token.canonicalText a.tokens = Token.canonicalText b.tokens)) ∧
    (∀ {language language' : Language} {text text' name name' : String} {config config' : Config}
        {r s : Report},
      Report.ofSource language name text config = .ok r →
      Report.ofSource language' name' text' config' = .ok s →
      (Digest.Separates (Digest.versioned config.canonical.version (Token.canonicalText r.tokens))
          (Digest.versioned config'.canonical.version (Token.canonicalText s.tokens)) →
        (r.isCloneOf s = true ↔ config.canonical.version = config'.canonical.version ∧
          Token.canonicalText r.tokens = Token.canonicalText s.tokens)) ∧
      ∃ a b, ofText language.lexer (config.sourcePolicy.prepare text) name config.canonical = .ok a ∧
        ofText language'.lexer (config'.sourcePolicy.prepare text') name' config'.canonical = .ok b ∧
        r.isCloneOf s = a.isCloneOf b) ∧
    (∀ version version' text text', Digest.versioned version text = Digest.versioned version' text' ↔
      version = version' ∧ text = text') ∧
    Equivalence (fun a b : CanonicalSource => a.isCloneOf b = true) ∧
    Equivalence (fun r s : Report => r.isCloneOf s = true) := by
  refine ⟨isCloneOf_iff, ?_, fun _ _ _ _ => Digest.versioned_inj,
    Fingerprint.isCloneOf_equivalence.comap fingerprint,
    Fingerprint.isCloneOf_equivalence.comap Report.fingerprint⟩
  intro language language' text text' name name' config config' r s hr hs
  obtain ⟨a, ha, hfingerprint, hkinds⟩ := Report.exists_source hr
  obtain ⟨b, hb, hfingerprint', hkinds'⟩ := Report.exists_source hs
  have hsame : r.isCloneOf s = a.isCloneOf b := by
    rw [Report.isCloneOf, hfingerprint, hfingerprint', isCloneOf]
  refine ⟨?_, a, b, ha, hb, hsame⟩
  rw [Token.canonicalText_congr hkinds, Token.canonicalText_congr hkinds', hsame]
  exact isCloneOf_iff ha hb

/-- Two clones, and the first of them under another version, on their own and in reports. -/
theorem clone_test_exact_versions :
    ∃ a b c r s, ofText Language.c.lexer "n = 'x';" "a.c" {} = .ok a ∧
      ofText Language.java.lexer "m=\"\"\"\"\"\" ;" "b.java" {} = .ok b ∧
      ofText Language.c.lexer "n = 'x';" "a.c" { version := 2 } = .ok c ∧
      Report.ofSource .c "a.c" "n = 'x';\r\n" {} = .ok r ∧
      Report.ofSource .java "b.java" "m=\"\"\"\"\"\" ;" { logicalLines := some {} } = .ok s ∧
      a.isCloneOf b = true ∧ a.isCloneOf c = false ∧ r.isCloneOf s = true := by
  obtain ⟨a, ha, hatext⟩ := exists_of_map_eq_ok (by decide +kernel :
    (ofText Language.c.lexer "n = 'x';" "a.c" {}).map (Token.canonicalText ·.tokens) = .ok "$=$;")
  obtain ⟨b, hb, hbtext⟩ := exists_of_map_eq_ok (by decide +kernel :
    (ofText Language.java.lexer "m=\"\"\"\"\"\" ;" "b.java" {}).map
      (Token.canonicalText ·.tokens) = .ok "$=$;")
  obtain ⟨c, hc, hctext⟩ := exists_of_map_eq_ok (by decide +kernel :
    (ofText Language.c.lexer "n = 'x';" "a.c" { version := 2 }).map
      (Token.canonicalText ·.tokens) = .ok "$=$;")
  obtain ⟨r, hr, hrtext⟩ := exists_of_map_eq_ok (by decide +kernel :
    (Report.ofSource .c "a.c" "n = 'x';\r\n" {}).map (Token.canonicalText ·.tokens) = .ok "$=$;")
  obtain ⟨s, hs, hstext⟩ := exists_of_map_eq_ok (by decide +kernel :
    (Report.ofSource .java "b.java" "m=\"\"\"\"\"\" ;" { logicalLines := some {} }).map
      (Token.canonicalText ·.tokens) = .ok "$=$;")
  refine ⟨a, b, c, r, s, ha, hb, hc, hr, hs, ?_, ?_, ?_⟩
  · refine (clone_test_exact.1 ha hb ?_).mpr ⟨rfl, hatext.trans hbtext.symm⟩
    rw [hatext, hbtext]
    exact fun _ => rfl
  · rw [Bool.eq_false_iff, ne_eq, clone_test_exact.1 ha hc ?_]
    · intro h
      exact absurd h.1 (by decide)
    · rw [hatext, hctext]
      intro h
      exact absurd h (by decide +kernel)
  · refine ((clone_test_exact.2.1 hr hs).1 ?_).mpr ⟨rfl, hrtext.trans hstext.symm⟩
    rw [hrtext, hstext]
    exact fun _ => rfl

end CanonicalSource

end SourcePrint
