import SourcePrint.Proofs.Blanks
import SourcePrint.Proofs.Kinds

namespace SourcePrint

namespace Lexeme

variable {language : Language}

/-- Other blanks in the place of a run of blanks leave every other lexeme as it is. Only the first
of them can end what is in front, and only a newline can begin a line for what is behind. -/
theorem lexemes_relayout {context : Context} {cs blanks : List Char} {before after : List Lexeme}
    {lexeme : Lexeme} (hsplit : lexemes language context cs = before ++ lexeme :: after)
    (hlexeme : lexeme.isBlank = true) (hne : blanks ≠ [])
    (hblanks : blanks.all Text.isBlank = true)
    (hnewline : blanks.contains '\n' = lexeme.text.contains '\n')
    (hfirst : ∀ c d, lexeme.text.head? = some c → blanks.head? = some d →
      c = d ∨ (c ≠ '\n' ∧ c ≠ '\r') ∧ d ≠ '\n' ∧ d ≠ '\r') :
    lexemes language context (textOf before ++ blanks ++ textOf after) =
      before ++ ⟨.text, blanks⟩ :: after := by
  obtain ⟨hcategory, hold⟩ := isBlank_iff.mp hlexeme
  have hstring : ∀ kind, lexeme.category ≠ .string kind := by simp [hcategory]
  obtain ⟨here, cs, hreads, hsingle, hafter⟩ := reads_of_lexemes_eq hstring hsplit
  obtain ⟨holdne, rest, rfl, hend, hrest, hnext⟩ := exists_of_readNext_isBlank hsingle hlexeme
  rw [hnext, hrest] at hafter
  have htail : textOf after = rest := by rw [← hafter, textOf_lexemes]
  obtain ⟨c, text, hc⟩ := List.exists_cons_of_ne_nil holdne
  obtain ⟨d, more, rfl⟩ := List.exists_cons_of_ne_nil hne
  have hnumber : NumberAlike (lexeme.text ++ rest) (d :: more ++ rest) := by
    rw [hc] at hold hfirst ⊢
    exact numberAlike_of_isBlank (Bool.and_eq_true_iff.mp hold).1 (Bool.and_eq_true_iff.mp hblanks).1
      (hfirst c d rfl rfl) _ _
  have hreads' := hreads.exchange hnumber.alike fun _ _ => hnumber
  have hcontext : here.afterBlanks (d :: more) = here.afterBlanks lexeme.text := by
    rw [Context.afterBlanks, Context.afterBlanks, hnewline]
  rw [htail, List.append_assoc, hreads'.lexemes_eq, lexemes_blanks hblanks hend, hcontext, hafter]
  rfl

end Lexeme

theorem Classifier.content?_text (classifier : Classifier) (text : List Char) :
    classifier.content? .text text = none := rfl

/-- Relayout: under a language's own rules any run of blanks may become any other one that has a
newline where it has one and does not begin with another kind of line break. The lexemes around it
stay as they are, and so does everything that is derived from the tokens but their places. -/
theorem Language.relayout_invariant (language : Language) (text blanks sourceName : String)
    (classifier : Classifier) {front back : List Span} {span : Span} {old : String}
    (hspans : language.spans text = front ++ span :: back) (hblank : span.isBlank text = true)
    (hold : span.text? text = some old) (hne : blanks ≠ "")
    (hblanks : Text.isBlankText blanks = true)
    (hnewline : '\n' ∈ blanks.toList ↔ '\n' ∈ old.toList)
    (hfirst : ∀ c d, old.toList.head? = some c → blanks.toList.head? = some d →
      c = d ∨ (c ≠ '\n' ∧ c ≠ '\r') ∧ d ≠ '\n' ∧ d ≠ '\r') :
    ∃ edited, span.replace? text blanks = some edited ∧
      (language.spans edited).map (fun span => (span.category, span.text? edited)) =
        ((language.spans text).map fun span => (span.category, span.text? text)).set front.length
          (.text, some blanks) ∧
      ∃ tokens relaid, Token.normalize language.lexer text sourceName classifier = .ok tokens ∧
        Token.normalize language.lexer edited sourceName classifier = .ok relaid ∧
        relaid.map Token.content = tokens.map Token.content ∧
        Token.canonicalText relaid = Token.canonicalText tokens ∧
        ∀ version, Fingerprint.ofTokens sourceName relaid version =
          Fingerprint.ofTokens sourceName tokens version := by
  obtain ⟨before, lexeme, after, hscan, hcategories, hlexeme, hover⟩ :=
    Language.exists_lexeme hspans
  obtain rfl : String.ofList lexeme.text = old := Option.some.inj (hover.text?_eq.symm.trans hold)
  have hlength : front.length = before.length := by simpa using congrArg List.length hcategories
  have hisBlank : lexeme.isBlank = true := by
    simpa [Span.isBlank, hold, Text.isBlankText, hlexeme, Lexeme.isBlank] using hblank
  have hcategory : lexeme.category = .text := (Lexeme.isBlank_iff.mp hisBlank).1
  rw [String.toList_ofList] at hnewline hfirst
  let edited := String.ofList (Lexeme.textOf before ++ blanks.toList ++ Lexeme.textOf after)
  have hedited : language.scan edited.toList = before ++ ⟨.text, blanks.toList⟩ :: after := by
    rw [language.scan_eq, String.toList_ofList]
    rw [language.scan_eq] at hscan
    refine Lexeme.lexemes_relayout hscan hisBlank (by simpa using hne) hblanks ?_ hfirst
    rw [Bool.eq_iff_iff, List.contains_iff_mem, List.contains_iff_mem, hnewline]
  refine ⟨edited, hover.replace?_eq blanks, ?_, ?_⟩
  · rw [language.slices_spans, language.slices_spans, hscan, hedited, hlength]
    simp
  · have hcontents : ((language.scan edited.toList).filterMap fun lexeme =>
          classifier.content? lexeme.category lexeme.text) =
        (language.scan text.toList).filterMap fun lexeme =>
          classifier.content? lexeme.category lexeme.text := by
      rw [hscan, hedited]
      simp only [List.filterMap_append, List.filterMap_cons, hcategory, classifier.content?_text]
    obtain ⟨tokens, relaid, htokens, hrelaid, hsame⟩ :=
      Language.normalize_congr hcontents sourceName
    have hkinds := Token.kinds_congr hsame
    exact ⟨tokens, relaid, htokens, hrelaid, hsame, Token.canonicalText_congr hkinds,
      Fingerprint.ofTokens_congr hkinds sourceName⟩

/-- Blanks that end a string without its quote and begin the line of a directive. -/
theorem Language.relayout_invariant_directive :
    Language.c.spans "f\"a\n #if 1" = [⟨0, 1, .name .plain⟩, ⟨1, 3, .string .plain⟩] ++
      ⟨3, 5, .text⟩ :: [⟨5, 10, .comment .directive⟩] ∧
    ∃ edited, (Span.mk 3 5 .text).replace? "f\"a\n #if 1" "\n\u2028\r\n" = some edited ∧
      (Language.c.spans edited).map (fun span => (span.category, span.text? edited)) =
        ((Language.c.spans "f\"a\n #if 1").map fun span =>
          (span.category, span.text? "f\"a\n #if 1")).set 2 (.text, some "\n\u2028\r\n") ∧
      ∃ tokens relaid,
        Token.normalize Language.c.lexer "f\"a\n #if 1" "a.c" ⟨[]⟩ = .ok tokens ∧
        Token.normalize Language.c.lexer edited "a.c" ⟨[]⟩ = .ok relaid ∧
        relaid.map Token.content = tokens.map Token.content ∧
        Token.canonicalText relaid = Token.canonicalText tokens ∧
        ∀ version, Fingerprint.ofTokens "a.c" relaid version =
          Fingerprint.ofTokens "a.c" tokens version := by
  have hspans : Language.c.spans "f\"a\n #if 1" =
      [⟨0, 1, .name .plain⟩, ⟨1, 3, .string .plain⟩] ++
        ⟨3, 5, .text⟩ :: [⟨5, 10, .comment .directive⟩] := by
    decide +kernel
  have hold : (Span.mk 3 5 .text).text? "f\"a\n #if 1" = some "\n " := by decide +kernel
  refine ⟨hspans, Language.relayout_invariant .c "f\"a\n #if 1" "\n\u2028\r\n" "a.c" ⟨[]⟩ hspans
    (by decide +kernel) hold (by decide) (by decide +kernel) (by decide +kernel) ?_⟩
  rintro c d ⟨⟩ ⟨⟩
  exact .inl rfl

end SourcePrint
