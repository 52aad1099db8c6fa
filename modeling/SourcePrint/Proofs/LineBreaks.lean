import SourcePrint.Proofs.Comments
import SourcePrint.Proofs.Trimming

namespace SourcePrint

theorem Lexeme.slack_crlf (text : String) : Slack True text.toList (Text.crlf text).toList := by
  rw [Text.crlf, String.toList_ofList]
  induction text.toList with
  | nil => exact .ended rfl
  | cons c cs ih =>
    rw [List.flatMap_cons]
    split
    · rename_i hc
      subst hc
      exact .broken trivial ih
    · exact .cons c ih

/-- Part of a string or character literal. -/
def Span.isQuoted (span : Span) : Bool :=
  match span.category with
  | .string _ => true
  | _ => false

namespace Language

variable {language : Language} {text : String}

theorem exists_span {before after : List Lexeme} {lexeme : Lexeme}
    (h : language.scan text.toList = before ++ lexeme :: after) :
    ∃ span ∈ language.spans text, span.category = lexeme.category ∧
      span.Over text (Lexeme.textOf before) lexeme.text (Lexeme.textOf after) := by
  have hspans := congrArg Span.layOut h
  rw [Span.layOut, Span.layOut, Span.place_append, mapThread_cons] at hspans
  refine ⟨_, ?_, ?_, over_of_length_eq hspans h (by simp)⟩
  · rw [spans, Span.layOut, hspans]
    simp
  · rfl

theorem allUnbroken_of_spans
    (hquoted : ∀ span ∈ language.spans text, span.isQuoted = true → span.breaksLine text = false)
    (hdot : language = .java → ∀ span ∈ language.spans text, span.isQuoted = true →
      span.text? text = some "." → span.behind? text ≠ some '\n') :
    Lexeme.AllUnbroken language (language.scan text.toList) [] := by
  intro before lexeme after hscan kind hkind
  obtain ⟨span, hspan, hcategory, hover⟩ := exists_span hscan
  have hstring : span.isQuoted = true := by rw [Span.isQuoted, hcategory, hkind]
  constructor
  · have hbreak := hquoted span hspan hstring
    rw [Span.breaksLine, hover.text?_eq] at hbreak
    simpa using hbreak
  · intro hjava htext
    rw [List.append_nil, ← hover.behind?_eq]
    refine hdot hjava span hspan hstring ?_
    rw [hover.text?_eq, htext]

/-- Carriage returns in front of the newlines do not matter, wherever these stand: between lexemes,
at the end of a directive, of a line comment or of a quoted literal that is not closed, inside
comments, and behind a backslash that continues a line or a directive. Only two newlines are not
covered: one inside a quoted literal, where a backslash takes the carriage return in its place, and
in Java one behind a quoted literal whose last part is a single dot. -/
theorem crlf_invariant (language : Language) (text sourceName : String) (classifier : Classifier)
    (hquoted : ∀ span ∈ language.spans text, span.isQuoted = true → span.breaksLine text = false)
    (hdot : language = .java → ∀ span ∈ language.spans text, span.isQuoted = true →
      span.text? text = some "." → span.behind? text ≠ some '\n') :
    ∃ tokens broken,
      Token.normalize language.lexer text sourceName classifier = .ok tokens ∧
      Token.normalize language.lexer (Text.crlf text) sourceName classifier = .ok broken ∧
      broken.map (·.kind) = tokens.map (·.kind) ∧
      Token.canonicalText broken = Token.canonicalText tokens ∧
      ∀ version, Fingerprint.ofTokens sourceName broken version =
        Fingerprint.ofTokens sourceName tokens version := by
  have hunbroken := allUnbroken_of_spans hquoted hdot
  rw [language.scan_eq] at hunbroken
  have hkinds : classifier.kinds (language.scan (Text.crlf text).toList) =
      classifier.kinds (language.scan text.toList) := by
    rw [language.scan_eq, language.scan_eq]
    exact (Lexeme.slack_crlf text).kinds_lexemes (.refl language .start) (fun _ => hunbroken)
      classifier
  obtain ⟨tokens, broken, htokens, hbroken, hsame⟩ := normalize_kinds_congr hkinds sourceName
  exact ⟨tokens, broken, htokens, hbroken, hsame, Token.canonicalText_congr hsame,
    Fingerprint.ofTokens_congr hsame sourceName⟩

/-- A string that is not closed, with a dot between two escapes and more than a dot at its end, then
a class object behind a dot and a newline, a continued line and a comment. -/
theorem crlf_invariant_java :
    Text.crlf "\"\\t.\\n..\na.\nclass\\\n//b\n;" =
        "\"\\t.\\n..\r\na.\r\nclass\\\r\n//b\r\n;" ∧
      (Token.normalize Language.java.lexer "\"\\t.\\n..\na.\nclass\\\n//b\n;" "A.java" ⟨[]⟩).map
        Token.canonicalText = .ok "$$.$;" ∧
      ∃ tokens broken,
        Token.normalize Language.java.lexer "\"\\t.\\n..\na.\nclass\\\n//b\n;" "A.java" ⟨[]⟩ =
          .ok tokens ∧
        Token.normalize Language.java.lexer (Text.crlf "\"\\t.\\n..\na.\nclass\\\n//b\n;") "A.java"
          ⟨[]⟩ = .ok broken ∧
        broken.map (·.kind) = tokens.map (·.kind) ∧
        Token.canonicalText broken = Token.canonicalText tokens ∧
        ∀ version, Fingerprint.ofTokens "A.java" broken version =
          Fingerprint.ofTokens "A.java" tokens version := by
  have hquoted : ((Language.java.spans "\"\\t.\\n..\na.\nclass\\\n//b\n;").all fun span =>
      !span.isQuoted || !span.breaksLine "\"\\t.\\n..\na.\nclass\\\n//b\n;") = true := by
    decide +kernel
  have hdot : ((Language.java.spans "\"\\t.\\n..\na.\nclass\\\n//b\n;").all fun span =>
      !span.isQuoted || span.text? "\"\\t.\\n..\na.\nclass\\\n//b\n;" != some "." ||
        span.behind? "\"\\t.\\n..\na.\nclass\\\n//b\n;" != some '\n') = true := by
    decide +kernel
  refine ⟨by decide +kernel, by decide +kernel, crlf_invariant .java _ "A.java" ⟨[]⟩ ?_ ?_⟩
  · intro span hspan hstring
    simpa [hstring] using List.all_eq_true.mp hquoted span hspan
  · intro _ span hspan hstring htext
    simpa [hstring, htext] using List.all_eq_true.mp hdot span hspan

/-- A newline that a backslash takes into a string or a character literal, and a string in Java that
ends in a part with a single dot: the carriage return ends the literals early, and hides the dot. -/
theorem crlf_changes_kinds :
    (Token.normalize Language.c.lexer "s = \"a\\\nb\";" "a.c" ⟨[]⟩).map Token.canonicalText =
        .ok "$=$;" ∧
      (Token.normalize Language.c.lexer (Text.crlf "s = \"a\\\nb\";") "a.c" ⟨[]⟩).map
        Token.canonicalText = .ok "$=$$$" ∧
      (Token.normalize Language.c.lexer "c = '\\\n';" "a.c" ⟨[]⟩).map Token.canonicalText =
        .ok "$=$;" ∧
      (Token.normalize Language.c.lexer (Text.crlf "c = '\\\n';") "a.c" ⟨[]⟩).map
        Token.canonicalText = .ok "$=$" ∧
      (Token.normalize Language.java.lexer "\"\\n.\nclass" "A.java" ⟨[]⟩).map Token.canonicalText =
        .ok "$" ∧
      (Token.normalize Language.java.lexer (Text.crlf "\"\\n.\nclass") "A.java" ⟨[]⟩).map
        Token.canonicalText = .ok "$class" := by
  decide +kernel

end Language

end SourcePrint
