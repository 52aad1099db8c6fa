import Mathlib.Data.Bool.AllAny
import SourcePrint.Proofs.Renaming

namespace SourcePrint

/-- What opens and closes a quoted literal: an encoding, which may be missing, and a quote. -/
structure Quotes where
  encoding : List Char
  quote : Char
  encoding_mem : encoding ∈ [] :: Lexeme.encodingWords
  quote_mem : quote ∈ ['"', '\'']

namespace Lexeme

/-- A character that stands for itself between quotes. -/
def isPlain (quote c : Char) : Bool := c != '\\' && c != '\n' && c != quote

/-- What may stand between quotes: plain characters, and backslashes each with any one character
behind it. -/
def isBody (quote : Char) : List Char → Bool
  | [] => true
  | '\\' :: _ :: cs => isBody quote cs
  | c :: cs => isPlain quote c && isBody quote cs

theorem ne_of_isPlain {quote c : Char} (h : isPlain quote c = true) :
    c ≠ '\\' ∧ c ≠ '\n' ∧ c ≠ quote := by
  simpa [isPlain, and_assoc] using h

theorem isBody_of_plain {quote : Char} {plain cs : List Char}
    (hplain : ∀ c ∈ plain, isPlain quote c = true) (h : isBody quote (plain ++ cs) = true) :
    isBody quote cs = true := by
  induction plain with
  | nil => exact h
  | cons c plain ih =>
    have hback := (ne_of_isPlain (hplain c (by simp))).1
    rw [List.cons_append, isBody.eq_3 _ _ _ (by simp [hback])] at h
    exact ih (fun d hd => hplain d (List.mem_cons_of_mem _ hd)) (Bool.and_eq_true_iff.mp h).2

theorem exists_plain_of_isBody {quote : Char} {body : List Char} (h : isBody quote body = true) :
    ∃ plain, (∀ c ∈ plain, isPlain quote c = true) ∧
      (body = plain ∨ ∃ c cs, body = plain ++ '\\' :: c :: cs ∧ isBody quote cs = true) := by
  fun_induction isBody quote body with
  | case1 => exact ⟨[], by simp, .inl rfl⟩
  | case2 c cs ih => exact ⟨[], by simp, .inr ⟨c, cs, rfl, h⟩⟩
  | case3 c cs hback ih =>
    obtain ⟨hc, hcs⟩ := Bool.and_eq_true_iff.mp h
    obtain ⟨plain, hplain, hbody⟩ := ih hcs
    refine ⟨c :: plain, by simpa [hc] using hplain, ?_⟩
    rcases hbody with rfl | ⟨d, more, rfl, hmore⟩
    · exact .inl rfl
    · exact .inr ⟨d, more, rfl, hmore⟩

theorem isPlain_of_isHexDigit {c : Char} (h : isHexDigit c = true) : isPlain '"' c = true := by
  have hne : ∀ x ∈ ['\\', '\n', '"'], isHexDigit x = false :=
    List.all_iff_forall_prop.mp (by decide)
  simp only [isPlain, Bool.and_eq_true, bne_iff_ne]
  refine ⟨⟨?_, ?_⟩, ?_⟩ <;> rintro rfl <;> cases (hne _ (by decide)).symm.trans h

theorem isHexDigit_of_isOctalDigit {c : Char} (h : isOctalDigit c = true) :
    isHexDigit c = true := by
  have hbounds : '0' ≤ c ∧ c ≤ '7' := by simpa [isOctalDigit] using h
  have hdigit : c.isDigit = true := by
    simp only [Char.isDigit, Bool.and_eq_true, decide_eq_true_eq]
    exact ⟨hbounds.1, Nat.le_trans hbounds.2 (by decide)⟩
  simp [isHexDigit, hdigit]

theorem escapeTail_digits (c : Char) (cs : List Char) :
    ∃ digits, (escapeTail (c :: cs)).1 = c :: digits ∧ ∀ d ∈ digits, isHexDigit d = true := by
  simp only [escapeTail]
  split
  · exact ⟨_, rfl, List.all_eq_true.mp List.all_takeWhile⟩
  · split
    · have hoctal : ∀ d ∈ (cs.take 2).takeWhile isOctalDigit, isOctalDigit d = true :=
        List.all_eq_true.mp List.all_takeWhile
      exact ⟨_, rfl, fun d hd => isHexDigit_of_isOctalDigit (hoctal d hd)⟩
    · exact ⟨[], rfl, by simp⟩

/-- An escape ends inside the body, and leaves a body. -/
theorem escapeTail_isBody {cs : List Char} (h : isBody '"' cs = true) (c : Char)
    (back : List Char) :
    ∃ rest, (escapeTail (c :: cs ++ '"' :: back)).2 = rest ++ '"' :: back ∧
      rest.length ≤ cs.length ∧ isBody '"' rest = true := by
  obtain ⟨digits, hdigits, hhex⟩ := escapeTail_digits c (cs ++ '"' :: back)
  have hplain : ∀ d ∈ digits, isPlain '"' d = true := fun d hd => isPlain_of_isHexDigit (hhex d hd)
  have htext := escapeTail_append (c :: (cs ++ '"' :: back))
  rw [hdigits, List.cons_append] at htext
  rcases List.append_eq_append_iff.mp (List.cons.inj htext).2 with
    ⟨rest, rfl, hrest⟩ | ⟨past, rfl, hpast⟩
  · exact ⟨rest, hrest, by simp, isBody_of_plain hplain h⟩
  · cases past with
    | nil => exact ⟨[], by simpa using hpast.symm, by simp, rfl⟩
    | cons d past =>
      have hquote := (ne_of_isPlain (hplain d (by simp))).2.2
      exact absurd (List.cons.inj hpast).1.symm hquote

theorem rest_stringParts {body : List Char} (h : isBody '"' body = true)
    (opening back : List Char) : (stringParts opening (body ++ '"' :: back)).rest = back := by
  obtain ⟨plain, hplain, hbody⟩ := exists_plain_of_isBody h
  have htake : ∀ c ∈ plain, stringMove () c = .take () := by
    intro c hc
    obtain ⟨hback, hnewline, hquote⟩ := ne_of_isPlain (hplain c hc)
    simp [stringMove, hback, hnewline, hquote]
  rcases hbody with hbody | ⟨c, cs, hbody, hcs⟩
  · have hrun : Run.read stringMove () (body ++ '"' :: back) = ⟨plain ++ ['"'], back, true⟩ := by
      rw [hbody, Run.read, Run.resume_of_take htake]
      simp [Run.resume, stringMove]
    rw [stringParts_of_closed hrun]
  · have hrun : Run.read stringMove () (body ++ '"' :: back) =
        ⟨plain, '\\' :: (c :: cs ++ '"' :: back), false⟩ := by
      rw [hbody, Run.read, List.append_assoc, Run.resume_of_take htake]
      simp [Run.resume, stringMove]
    obtain ⟨rest, htail, hle, hrest⟩ := escapeTail_isBody hcs c back
    have hshorter : rest.length < body.length := by
      simp only [hbody, List.length_append, List.length_cons]
      omega
    rw [stringParts_of_escape hrun, htail]
    exact rest_stringParts hrest [] back
termination_by body.length

theorem rest_characterLiteral {body : List Char} (h : isBody '\'' body = true)
    (opening back : List Char) :
    (characterLiteral opening (body ++ '\'' :: back)).rest = back := by
  have hrun : ∀ taken, (Run.resume characterMove taken false (body ++ '\'' :: back)).rest = back := by
    fun_induction isBody '\'' body with
    | case1 => intro taken; simp [Run.resume, characterMove]
    | case2 c cs ih =>
      intro taken
      simpa [Run.resume, characterMove] using ih h _
    | case3 c cs _ ih =>
      intro taken
      obtain ⟨hc, hcs⟩ := Bool.and_eq_true_iff.mp h
      obtain ⟨hback, hnewline, hquote⟩ := ne_of_isPlain hc
      have hstate : (c == '\\') = false := by simpa using hback
      simpa [Run.resume, characterMove, hnewline, hquote, hstate] using ih hcs _
  exact hrun []

end Lexeme

namespace Quotes

open Lexeme

variable (quotes : Quotes) {language : Language} {context : Context} {tail body back : List Char}

def opening : List Char := quotes.encoding ++ [quotes.quote]

/-- A whole literal. -/
def around (body : List Char) : List Char := quotes.opening ++ (body ++ [quotes.quote])

def admits (body : List Char) : Bool := isBody quotes.quote body

/-- What is read behind the opening, with it. -/
def read (tail : List Char) : Reading :=
  if quotes.quote = '"' then stringParts quotes.opening tail
  else characterLiteral quotes.opening tail

theorem quote_cases : quotes.quote = '"' ∨ quotes.quote = '\'' := by
  simpa using quotes.quote_mem

theorem string_of_mem_read (tail : List Char) :
    ∀ lexeme ∈ (quotes.read tail).lexemes, ∃ kind, lexeme.category = .string kind := by
  unfold read
  split
  · exact string_of_mem_stringParts _ tail
  · simp [characterLiteral, Reading.one]

/-- A body that the quotes admit is read up to the closing quote. -/
theorem rest_read (h : quotes.admits body = true) (back : List Char) :
    (quotes.read (body ++ quotes.quote :: back)).rest = back := by
  unfold read admits at *
  rcases quotes.quote_cases with hquote | hquote
  · rw [hquote] at h ⊢
    exact rest_stringParts h _ back
  · rw [hquote] at h ⊢
    exact rest_characterLiteral h _ back

theorem readNext_opening_of_encoding (hword : quotes.encoding ∈ encodingWords) :
    readNext language context (quotes.opening ++ tail) =
      wordReading language context.afterDot quotes.encoding (quotes.quote :: tail) := by
  have hletters : ∀ word ∈ encodingWords,
      word.all isNameContinue = true ∧ word.head?.any isNameStart = true := by
    decide
  have hquotes : ∀ quote ∈ ['"', '\''], isNameContinue quote = false :=
    List.all_iff_forall_prop.mp (by decide)
  obtain ⟨hall, hfirst⟩ := hletters _ hword
  have hend : (quotes.quote :: tail).head?.any isNameContinue = false := by
    simpa using hquotes _ quotes.quote_mem
  obtain ⟨htake, hdrop⟩ := takeWhile_of_all hall hend
  rw [opening, List.append_assoc, List.singleton_append]
  cases hencoding : quotes.encoding with
  | nil => simp [hencoding] at hfirst
  | cons c word =>
    rw [hencoding] at htake hdrop hfirst
    rw [List.cons_append, readNext_of_isNameStart (by simpa using hfirst), ← List.cons_append,
      readWord_eq htake hdrop]

theorem readNext_opening (h : quotes.encoding = [] ∨ language ≠ .java) :
    readNext language context (quotes.opening ++ tail) = quotes.read tail := by
  have hblank : Text.isBlank '"' = false ∧ Text.isBlank '\'' = false := by decide
  rcases List.mem_cons.mp quotes.encoding_mem with hencoding | hword
  · rcases quotes.quote_cases with hquote | hquote <;>
      simp [opening, read, hencoding, hquote, readNext, readToken, hblank]
  · have hjava : language ≠ .java := by
      rcases h with h | h
      · rw [h] at hword
        simp [encodingWords] at hword
      · exact h
    rw [quotes.readNext_opening_of_encoding hword]
    rcases quotes.quote_cases with hquote | hquote <;>
      simp [wordReading, opening, read, hquote, hjava, hword]

theorem encoding_of_rest (h : (readNext language context (quotes.around body ++ back)).rest = back) :
    quotes.encoding = [] ∨ language ≠ .java := by
  rcases List.mem_cons.mp quotes.encoding_mem with hencoding | hword
  · exact .inl hencoding
  · refine .inr ?_
    rintro rfl
    rw [around, List.append_assoc, quotes.readNext_opening_of_encoding hword,
      wordReading_plain (fun hjava => absurd rfl hjava)] at h
    have hlength := congrArg List.length h
    simp only [Reading.one, List.length_cons, List.length_append] at hlength
    omega

end Quotes

namespace Lexeme

variable {language : Language} {context : Context}

theorem next_of_string {cs text : List Char} {last : Char}
    (hstring : ∀ lexeme ∈ (readNext language context cs).lexemes,
      ∃ kind, lexeme.category = .string kind)
    (htext : textOf (readNext language context cs).lexemes = text ++ [last]) (hdot : last ≠ '.') :
    context.next language cs = ⟨false, false⟩ := by
  cases cs with
  | nil => simp [readNext] at htext
  | cons c cs =>
    by_cases hc : Text.isBlank c = true
    · simp [readNext, hc, Reading.while, Reading.one] at hstring
    · simp only [readNext, if_neg hc] at hstring htext
      rw [Context.next, if_neg hc, Context.after]
      generalize (readToken language context c cs).lexemes = parts at *
      rcases List.eq_nil_or_concat parts with rfl | ⟨before, part, rfl⟩
      · simp at htext
      · obtain ⟨kind, hkind⟩ := hstring part (by simp)
        have hpart : part.text ≠ ['.'] := by
          intro hpart
          rw [List.concat_eq_append, textOf_append] at htext
          simp only [textOf_cons, textOf_nil, hpart, List.append_nil] at htext
          exact hdot (List.cons.inj (List.append_inj_right' htext rfl)).1.symm
        have htrivia : (Category.string kind).isTrivia = false := rfl
        simp [dotAfter, hkind, htrivia, hpart]

/-- A quoted literal that is read up to its closing quote leaves nothing to see behind it. -/
theorem lexemes_around {quotes : Quotes} {body back : List Char}
    (h : (readNext language context (quotes.around body ++ back)).rest = back) :
    ∃ parts, lexemes language context (quotes.around body ++ back) =
        parts ++ lexemes language ⟨false, false⟩ back ∧
      textOf parts = quotes.around body ∧
      ∀ part ∈ parts, ∃ kind, part.category = .string kind := by
  have htext := (covers_readNext language context (quotes.around body ++ back)).text
  have hstring : ∀ part ∈ (readNext language context (quotes.around body ++ back)).lexemes,
      ∃ kind, part.category = .string kind := by
    rw [Quotes.around, List.append_assoc, quotes.readNext_opening (quotes.encoding_of_rest h)]
    exact quotes.string_of_mem_read _
  rw [h] at htext
  have htext := List.append_cancel_right htext
  have hclosing : quotes.around body = quotes.opening ++ body ++ [quotes.quote] := by
    simp [Quotes.around]
  have hdot : ∀ quote ∈ ['"', '\''], quote ≠ '.' := List.all_iff_forall_prop.mp (by decide)
  have hnext := next_of_string hstring (htext.trans hclosing) (hdot _ quotes.quote_mem)
  exact ⟨_, by rw [lexemes_eq_readNext, hnext, h], htext, hstring⟩

theorem rest_readNext_around {quotes : Quotes} {body : List Char}
    (hencoding : quotes.encoding = [] ∨ language ≠ .java) (h : quotes.admits body = true)
    (back : List Char) :
    (readNext language context (quotes.around body ++ back)).rest = back := by
  rw [Quotes.around, List.append_assoc, List.append_assoc, quotes.readNext_opening hencoding]
  exact quotes.rest_read h back

/-- No reading in front of a quoted literal sees what is between its quotes. -/
theorem Reads.exchange_body {quotes : Quotes} {start : Context} {cs body back : List Char}
    {before : List Lexeme}
    (h : Reads language start cs before context (quotes.around body ++ back)) (new : List Char) :
    Reads language start (textOf before ++ (quotes.around new ++ back)) before context
      (quotes.around new ++ back) := by
  have hquotes : ∀ quote ∈ ['"', '\''], quote.isDigit = false ∧ isSignCharacter quote = false ∧
      quote.isAlphanum = false :=
    List.all_iff_forall_prop.mp (by decide)
  obtain ⟨hdigit, hsign, halphanum⟩ := hquotes _ quotes.quote_mem
  have hnumber : NumberAlike (quotes.around body ++ back) (quotes.around new ++ back) := by
    simp only [Quotes.around, Quotes.opening, List.append_assoc]
    exact NumberAlike.append
      (.stop _ _ (Twin.refl hdigit hsign) ⟨halphanum, halphanum⟩ .rfl) quotes.encoding
  exact h.exchange hnumber.alike fun _ _ => hnumber

/-- Another body between the quotes of a literal leaves every other lexeme as it is. -/
theorem lexemes_requote {quotes : Quotes} {start : Context} {cs body new back : List Char}
    {before : List Lexeme}
    (hreads : Reads language start cs before context (quotes.around body ++ back))
    (hliteral : (readNext language context (quotes.around body ++ back)).rest = back)
    (hnew : quotes.admits new = true) :
    ∃ old parts after, lexemes language start cs = before ++ (old ++ after) ∧
      textOf old = quotes.around body ∧
      lexemes language start (textOf before ++ (quotes.around new ++ back)) =
        before ++ (parts ++ after) ∧
      textOf parts = quotes.around new ∧
      ∀ part ∈ old ++ parts, ∃ kind, part.category = .string kind := by
  have hrest : (readNext language context (quotes.around new ++ back)).rest = back :=
    rest_readNext_around (quotes.encoding_of_rest hliteral) hnew back
  obtain ⟨old, hold, holdText, holdString⟩ := lexemes_around hliteral
  obtain ⟨parts, hparts, hpartsText, hpartsString⟩ := lexemes_around hrest
  refine ⟨old, parts, lexemes language ⟨false, false⟩ back, ?_, holdText, ?_, hpartsText, ?_⟩
  · rw [hreads.lexemes_eq, hold]
  · rw [(hreads.exchange_body new).lexemes_eq, hparts]
  · intro part hpart
    exact (List.mem_append.mp hpart).elim (holdString part) (hpartsString part)

end Lexeme

theorem Classifier.joinLiterals_string (classifier : Classifier) {parts : List Lexeme}
    (hstring : ∀ part ∈ parts, ∃ kind, part.category = .string kind)
    (htext : Lexeme.textOf parts ≠ []) (before after : List Lexeme) :
    Symbol.joinLiterals ((before ++ (parts ++ after)).filterMap fun lexeme =>
        classifier.classify lexeme.category lexeme.text) =
      Symbol.joinLiterals ((before.filterMap fun lexeme =>
          classifier.classify lexeme.category lexeme.text) ++
        .literal :: after.filterMap fun lexeme =>
          classifier.classify lexeme.category lexeme.text) := by
  have hclassify : ∀ part ∈ parts,
      classifier.classify part.category part.text = some .literal := by
    intro part hpart
    obtain ⟨kind, hkind⟩ := hstring part hpart
    rw [hkind]
    rfl
  rw [List.filterMap_append, List.filterMap_append]
  apply Symbol.joinLiterals_run
  · obtain ⟨part, more, rfl⟩ := List.exists_cons_of_ne_nil (l := parts) (by
      rintro rfl
      exact htext rfl)
    simp [hclassify part (by simp)]
  · intro symbol hsymbol
    obtain ⟨part, hpart, hpartSymbol⟩ := List.mem_filterMap.mp hsymbol
    rw [hclassify part hpart] at hpartSymbol
    exact (Option.some.inj hpartSymbol).symm

/-- Values between quotes do not matter: where the scan of a text comes to a quoted literal and reads
it up to a closing quote, any other body may stand between the quotes. The lexemes around it stay as
they are, the literal is read as a whole again, and all that is derived from the tokens is the same. -/
theorem Language.requote_invariant (language : Language) (quotes : Quotes) (sourceName : String)
    (classifier : Classifier) {text edited : String} {body new back : List Char}
    {before : List Lexeme} {context : Lexeme.Context}
    (hreads : Lexeme.Reads language .start text.toList before context (quotes.around body ++ back))
    (hliteral : (Lexeme.readNext language context (quotes.around body ++ back)).rest = back)
    (hnew : quotes.admits new = true)
    (hedited : edited.toList = Lexeme.textOf before ++ (quotes.around new ++ back)) :
    ∃ old parts after,
      (language.spans text).map (fun span => (span.category, span.text? text)) =
        (before ++ (old ++ after)).map (fun lexeme =>
          (lexeme.category, some (String.ofList lexeme.text))) ∧
      Lexeme.textOf old = quotes.around body ∧
      (language.spans edited).map (fun span => (span.category, span.text? edited)) =
        (before ++ (parts ++ after)).map (fun lexeme =>
          (lexeme.category, some (String.ofList lexeme.text))) ∧
      Lexeme.textOf parts = quotes.around new ∧
      (∀ part ∈ old ++ parts, ∃ kind, part.category = .string kind) ∧
      ∃ tokens requoted, Token.normalize language.lexer text sourceName classifier = .ok tokens ∧
        Token.normalize language.lexer edited sourceName classifier = .ok requoted ∧
        Token.canonicalText requoted = Token.canonicalText tokens ∧
        ∀ version, Fingerprint.ofTokens sourceName requoted version =
          Fingerprint.ofTokens sourceName tokens version := by
  obtain ⟨old, parts, after, hold, holdText, hparts, hpartsText, hstring⟩ :=
    Lexeme.lexemes_requote hreads hliteral hnew
  rw [← hedited] at hparts
  rw [← language.scan_eq] at hold hparts
  refine ⟨old, parts, after, ?_, holdText, ?_, hpartsText, hstring, ?_⟩
  · rw [language.slices_spans, hold]
  · rw [language.slices_spans, hparts]
  · obtain ⟨holdString, hpartsString⟩ := List.forall_mem_append.mp hstring
    have holdNe : Lexeme.textOf old ≠ [] := by simp [holdText, Quotes.around]
    have hpartsNe : Lexeme.textOf parts ≠ [] := by simp [hpartsText, Quotes.around]
    have hjoined := (classifier.joinLiterals_string hpartsString hpartsNe before after).trans
      (classifier.joinLiterals_string holdString holdNe before after).symm
    rw [← hold, ← hparts] at hjoined
    obtain ⟨tokens, requoted, htokens, hrequoted, hkinds⟩ :=
      Language.normalize_kinds_congr hjoined sourceName
    exact ⟨tokens, requoted, htokens, hrequoted, Token.canonicalText_congr hkinds,
      Fingerprint.ofTokens_congr hkinds sourceName⟩

/-- A body with an escape of every kind, a point, the opening of a comment and an escaped newline. -/
theorem Language.requote_invariant_escapes :
    ∃ quotes : Quotes, quotes.around "a".toList = "u8\"a\"".toList ∧
      quotes.around "\\x4fg\\101.\\\"/*\\\n".toList =
        "u8\"\\x4fg\\101.\\\"/*\\\n\"".toList ∧
      quotes.admits "\\x4fg\\101.\\\"/*\\\n".toList = true ∧
      ∃ old parts after,
        (Language.cpp.spans "(u8\"a\")").map
            (fun span => (span.category, span.text? "(u8\"a\")")) =
          (⟨.punctuation, ['(']⟩ :: (old ++ after)).map (fun lexeme =>
            (lexeme.category, some (String.ofList lexeme.text))) ∧
        Lexeme.textOf old = quotes.around "a".toList ∧
        (Language.cpp.spans "(u8\"\\x4fg\\101.\\\"/*\\\n\")").map
            (fun span => (span.category, span.text? "(u8\"\\x4fg\\101.\\\"/*\\\n\")")) =
          (⟨.punctuation, ['(']⟩ :: (parts ++ after)).map (fun lexeme =>
            (lexeme.category, some (String.ofList lexeme.text))) ∧
        Lexeme.textOf parts = quotes.around "\\x4fg\\101.\\\"/*\\\n".toList ∧
        (∀ part ∈ old ++ parts, ∃ kind, part.category = .string kind) ∧
        ∃ tokens requoted,
          Token.normalize Language.cpp.lexer "(u8\"a\")" "a.cc" ⟨["u8"]⟩ = .ok tokens ∧
          Token.normalize Language.cpp.lexer "(u8\"\\x4fg\\101.\\\"/*\\\n\")" "a.cc"
            ⟨["u8"]⟩ = .ok requoted ∧
          Token.canonicalText requoted = Token.canonicalText tokens ∧
          ∀ version, Fingerprint.ofTokens "a.cc" requoted version =
            Fingerprint.ofTokens "a.cc" tokens version := by
  let quotes : Quotes := ⟨['u', '8'], '"', by decide, by decide⟩
  have hfirst : Lexeme.readNext .cpp .start "(u8\"a\")".toList =
      ⟨[⟨.punctuation, ['(']⟩], quotes.around "a".toList ++ [')']⟩ := by
    decide +kernel
  have hnext : Lexeme.Context.start.next .cpp "(u8\"a\")".toList = ⟨false, false⟩ := by
    decide +kernel
  have hreads : Lexeme.Reads .cpp .start "(u8\"a\")".toList [⟨.punctuation, ['(']⟩] ⟨false, false⟩
      (quotes.around "a".toList ++ [')']) := by
    have hstep : Lexeme.Reads .cpp .start "(u8\"a\")".toList _ _ _ :=
      .step (by decide) (.refl _ _)
    rwa [hfirst, hnext] at hstep
  exact ⟨quotes, by decide, by decide, by decide,
    Language.requote_invariant .cpp quotes "a.cc" ⟨["u8"]⟩ hreads (by decide +kernel) (by decide)
      (by decide)⟩

end SourcePrint
