import SourcePrint.Proofs.Blanks
import SourcePrint.Proofs.Kinds

namespace SourcePrint

namespace Lexeme

/-- A whole name: a character that starts one, then characters that continue one. -/
def isName : List Char → Bool
  | [] => false
  | c :: cs => isNameStart c && cs.all isNameContinue

theorem eq_false_of_isSignCharacter {p : Char → Bool}
    (hp : ((punctuationMarks ++ operatorSigns).flatMap String.toList).all (!p ·) = true) {c : Char}
    (h : isSignCharacter c = true) : p c = false := by
  obtain ⟨sign, hmem, hc⟩ := List.any_eq_true.mp h
  have hmem : c ∈ (punctuationMarks ++ operatorSigns).flatMap String.toList :=
    List.mem_flatMap.mpr ⟨sign, hmem, List.contains_iff_mem.mp hc⟩
  simpa using List.all_eq_true.mp hp c hmem

theorem not_isNameStart_of_isSignCharacter {c : Char} (h : isSignCharacter c = true) :
    isNameStart c = false :=
  eq_false_of_isSignCharacter (by decide) h

section NameStart

variable {c d : Char} (hc : isNameStart c = true) (hd : isNameStart d = true)

include hc

theorem ne_of_isNameStart {x : Char} (hx : isNameStart x = false) : c ≠ x := by
  rintro rfl
  rw [hc] at hx
  cases hx

theorem eq_false_of_isNameStart {p : Char → Bool} (hp : ∀ x, p x = true → isNameStart x = false) :
    p c = false := by
  rw [← Bool.not_eq_true]
  exact fun h => ne_of_isNameStart hc (hp c h) rfl

include hd

/-- No reading tells one character that starts a name from another, a number's apart. -/
theorem twin_of_isNameStart : Twin c d := by
  have hsame : ∀ {x : Char}, isNameStart x = false → (c = x ↔ d = x) := by
    intro x hx
    simp [ne_of_isNameStart hc hx, ne_of_isNameStart hd hx]
  have hfalse : ∀ {p : Char → Bool}, (∀ x, p x = true → isNameStart x = false) →
      p c = false ∧ p d = false :=
    fun hp => ⟨eq_false_of_isNameStart hc hp, eq_false_of_isNameStart hd hp⟩
  obtain ⟨hblankc, hblankd⟩ := hfalse (p := Text.isBlank) fun _ => not_isNameStart_of_isBlank
  exact {
    newline := hsame (by decide)
    carriageReturn := hsame (by decide)
    quote := hsame (by decide)
    apostrophe := hsame (by decide)
    backslash := hsame (by decide)
    blank := hblankc.trans hblankd.symm
    nameStart := hc.trans hd.symm
    nameContinue :=
      (isNameContinue_of_isNameStart hc).trans (isNameContinue_of_isNameStart hd).symm
    digit := hfalse fun _ => not_isNameStart_of_isDigit
    sign := hfalse fun _ => not_isNameStart_of_isSignCharacter }

end NameStart

variable {language : Language} {context : Context}

theorem readToken_of_isNameStart {c : Char} (hc : isNameStart c = true) (cs : List Char) :
    readToken language context c cs = readWord language context.afterDot (c :: cs) := by
  have hdigit := eq_false_of_isNameStart hc fun _ => not_isNameStart_of_isDigit
  have hne : ∀ {x : Char}, isNameStart x = false → c ≠ x := ne_of_isNameStart hc
  have hslash : c ≠ '/' := hne (by decide)
  have hhash : c ≠ '#' := hne (by decide)
  have hbackslash : c ≠ '\\' := hne (by decide)
  have hquote : c ≠ '"' := hne (by decide)
  have hapostrophe : c ≠ '\'' := hne (by decide)
  have hdot : c ≠ '.' := hne (by decide)
  have hat : c ≠ '@' := hne (by decide)
  have hnumber : startsNumber c cs = false := by simp [startsNumber, hdigit, hdot]
  simp [readToken, hslash, hhash, hbackslash, hquote, hapostrophe, hnumber, hat, hc]

/-- Names that are no reserved words are read where a name can start and nowhere else. -/
theorem isNameStart_of_readToken {c : Char} {cs : List Char} {lexeme : Lexeme}
    (hmem : lexeme ∈ (readToken language context c cs).lexemes)
    (hname : lexeme.category = .name .plain) : isNameStart c = true := by
  have hone : ∀ {category : Category} {text rest : List Char}, category ≠ .name .plain →
      lexeme ∉ (Reading.one category text rest).lexemes := by
    intro category text rest hcategory h
    rw [List.mem_singleton.mp h] at hname
    exact hcategory hname
  revert hmem
  apply readToken_cases (motive := fun reading => lexeme ∈ reading.lexemes → isNameStart c = true)
  case string =>
    intro _ hmem
    obtain ⟨kind, hkind⟩ := string_of_mem_stringParts _ _ lexeme hmem
    rw [hname] at hkind
    cases hkind
  case decorator =>
    intro _ _ hmem
    refine absurd hmem (hone ?_)
    split <;> simp
  case word => exact fun hc _ => hc
  case sign =>
    intro hmem
    unfold readSign at hmem
    repeat' split at hmem
    all_goals exact absurd hmem (hone (by simp))
  all_goals
    intros
    rename_i hmem
    exact absurd hmem (hone (by simp))

theorem readNext_of_isNameStart {c : Char} (hc : isNameStart c = true) (cs : List Char) :
    readNext language context (c :: cs) = readWord language context.afterDot (c :: cs) := by
  have hblank := eq_false_of_isNameStart hc fun _ => not_isNameStart_of_isBlank
  rw [readNext, if_neg (by simp [hblank]), readToken_of_isNameStart hc]

theorem next_of_name {c : Char} {text tail : List Char} (hc : isNameStart c = true)
    (h : (readNext language context (c :: text ++ tail)).lexemes = [⟨.name .plain, c :: text⟩]) :
    context.next language (c :: text ++ tail) = ⟨false, false⟩ := by
  have hdot : c ≠ '.' := ne_of_isNameStart hc (by decide)
  have htrivia : (Category.name .plain).isTrivia = false := rfl
  rw [next_of_readNext h (by simp)]
  simp [dotAfter, htrivia, hdot]

theorem isNameStart_of_readNext {c : Char} {cs : List Char} {lexeme : Lexeme}
    (h : (readNext language context (c :: cs)).lexemes = [lexeme])
    (hname : lexeme.category = .name .plain) : isNameStart c = true := by
  simp only [readNext] at h
  split at h
  · cases h
    cases hname
  · have hmem : lexeme ∈ (readToken language context c cs).lexemes := by simp [h]
    exact isNameStart_of_readToken hmem hname

theorem exists_of_readNext_name {cs : List Char} {lexeme : Lexeme}
    (h : (readNext language context cs).lexemes = [lexeme])
    (hname : lexeme.category = .name .plain) :
    ∃ c text tail, isNameStart c = true ∧ tail.head?.any isNameContinue = false ∧
      cs = c :: text ++ tail ∧ lexeme = ⟨.name .plain, c :: text⟩ ∧
      (readNext language context cs).rest = tail := by
  cases cs with
  | nil => cases h
  | cons c cs =>
    have hc := isNameStart_of_readNext h hname
    have htake : (c :: cs).takeWhile isNameContinue = c :: cs.takeWhile isNameContinue :=
      List.takeWhile_cons_of_pos (isNameContinue_of_isNameStart hc)
    have hdrop : (c :: cs).dropWhile isNameContinue = cs.dropWhile isNameContinue :=
      List.dropWhile_cons_of_pos (isNameContinue_of_isNameStart hc)
    have hend := any_head?_dropWhile isNameContinue cs
    rw [readNext_of_isNameStart hc, readWord_eq htake hdrop] at h ⊢
    refine ⟨c, cs.takeWhile isNameContinue, cs.dropWhile isNameContinue, hc, hend, by simp, ?_⟩
    rcases wordReading_cases language context.afterDot (c :: cs.takeWhile isNameContinue)
      (cs.dropWhile isNameContinue) with hplain | hstring
    · rw [hplain] at h ⊢
      cases h
      exact ⟨congrArg (Lexeme.mk · _) hname, rfl⟩
    · obtain ⟨kind, hkind⟩ := hstring lexeme (by simp [h])
      rw [hname] at hkind
      cases hkind

theorem readNext_name {c : Char} {text tail : List Char} (hname : isName (c :: text) = true)
    (htail : tail.head?.any isNameContinue = false)
    (hkey : language.wordCategory? (String.ofList (c :: text)) = none)
    (hquote : language ≠ .java → encodingWords.contains (c :: text) = true →
      tail.head? ≠ some '"' ∧ tail.head? ≠ some '\'') :
    readNext language context (c :: text ++ tail) = ⟨[⟨.name .plain, c :: text⟩], tail⟩ := by
  obtain ⟨hc, htext⟩ := Bool.and_eq_true_iff.mp hname
  have hall : (c :: text).all isNameContinue = true := by
    rw [List.all_cons, isNameContinue_of_isNameStart hc, htext, Bool.true_and]
  obtain ⟨htake, hdrop⟩ := takeWhile_of_all hall htail
  rw [List.cons_append, readNext_of_isNameStart hc, ← List.cons_append, readWord_eq htake hdrop,
    wordReading_plain hquote, wordCategory, hkey]
  rfl

/-- Another name in the place of a name leaves every other lexeme as it is. -/
theorem lexemes_rename {context : Context} {cs : List Char} {before after : List Lexeme}
    {lexeme : Lexeme} {name : List Char}
    (hsplit : lexemes language context cs = before ++ lexeme :: after)
    (hlexeme : lexeme.category = .name .plain)
    (hbefore : ∀ kind, before.getLast?.map (·.category) ≠ some (.number kind))
    (hname : isName name = true) (hkey : language.wordCategory? (String.ofList name) = none)
    (hquote : language ≠ .java → encodingWords.contains name = true →
      (textOf after).head? ≠ some '"' ∧ (textOf after).head? ≠ some '\'') :
    lexemes language context (textOf before ++ name ++ textOf after) =
      before ++ ⟨.name .plain, name⟩ :: after := by
  have hstring : ∀ kind, lexeme.category ≠ .string kind := by simp [hlexeme]
  obtain ⟨here, rest, hreads, hsingle, hafter⟩ := reads_of_lexemes_eq hstring hsplit
  obtain ⟨c, text, tail, hc, hend, rfl, rfl, hrest⟩ := exists_of_readNext_name hsingle hlexeme
  have hnext := next_of_name hc hsingle
  rw [hnext, hrest] at hafter
  have htail : textOf after = tail := by rw [← hafter, textOf_lexemes]
  rw [htail] at hquote ⊢
  cases name with
  | nil => cases hname
  | cons d name =>
    have hd : isNameStart d = true := (Bool.and_eq_true_iff.mp hname).1
    have halike : Alike (c :: text ++ tail) (d :: name ++ tail) :=
      .stop _ _ (twin_of_isNameStart hc hd)
    have hreads' := hreads.exchange halike fun kind hkind => absurd hkind (hbefore kind)
    have hread : readNext language here (d :: name ++ tail) = ⟨[⟨.name .plain, d :: name⟩], tail⟩ :=
      readNext_name hname hend hkey hquote
    rw [List.append_assoc, hreads'.lexemes_eq, lexemes_eq_readNext,
      next_of_name hd (congrArg Reading.lexemes hread), hread, hafter]
    rfl

end Lexeme

theorem Lexeme.mem_of_encodingWords {name : String}
    (h : encodingWords.contains name.toList = true) : name ∈ ["L", "u", "U", "u8"] := by
  have hwords : encodingWords = ["L", "u", "U", "u8"].map String.toList := by decide
  rw [hwords, List.contains_iff_mem] at h
  obtain ⟨word, hmem, hword⟩ := List.mem_map.mp h
  rwa [← String.toList_injective hword]

theorem Classifier.classify_name (classifier : Classifier) {text : List Char}
    (h : classifier.isBuiltinType text = false) :
    classifier.classify (.name .plain) text = some .identifier := by
  simp [classify, h]

/-- Renaming: under a language's own rules any name in a text may become any other one. The
lexemes around it stay as they are, and where neither name keeps its spelling so does everything
that is derived from the tokens. -/
theorem Language.rename_invariant (language : Language) (text name sourceName : String)
    (classifier : Classifier) {front back : List Span} {span : Span} {old : String}
    (hspans : language.spans text = front ++ span :: back)
    (hcategory : span.category = .name .plain) (hold : span.text? text = some old)
    (holdPlain : classifier.isBuiltinType old.toList = false)
    (hbefore : ∀ before kind, front.getLast? = some before → before.category ≠ .number kind)
    (hname : Lexeme.isName name.toList = true) (hkey : language.wordCategory? name = none)
    (hnamePlain : classifier.isBuiltinType name.toList = false)
    (hquote : language ≠ .java → span.behind? text = some '"' ∨ span.behind? text = some '\'' →
      name ∉ ["L", "u", "U", "u8"]) :
    ∃ edited, span.replace? text name = some edited ∧
      (language.spans edited).map (fun span => (span.category, span.text? edited)) =
        ((language.spans text).map fun span => (span.category, span.text? text)).set front.length
          (.name .plain, some name) ∧
      ∃ tokens renamed, Token.normalize language.lexer text sourceName classifier = .ok tokens ∧
        Token.normalize language.lexer edited sourceName classifier = .ok renamed ∧
        Token.canonicalText renamed = Token.canonicalText tokens ∧
        ∀ version, Fingerprint.ofTokens sourceName renamed version =
          Fingerprint.ofTokens sourceName tokens version := by
  obtain ⟨before, lexeme, after, hscan, hcategories, hlexeme, hover⟩ :=
    Language.exists_lexeme hspans
  have hlexemeName : lexeme.category = .name .plain := hlexeme.symm.trans hcategory
  obtain rfl : String.ofList lexeme.text = old := Option.some.inj (hover.text?_eq.symm.trans hold)
  have hlength : front.length = before.length := by simpa using congrArg List.length hcategories
  have hlast : ∀ kind, before.getLast?.map (·.category) ≠ some (.number kind) := by
    intro kind hkind
    rw [← List.getLast?_map, ← hcategories, List.getLast?_map] at hkind
    obtain ⟨last, hlast, hnumber⟩ := Option.map_eq_some_iff.mp hkind
    exact hbefore last kind hlast hnumber
  have hliteral : language ≠ .java → Lexeme.encodingWords.contains name.toList = true →
      (Lexeme.textOf after).head? ≠ some '"' ∧ (Lexeme.textOf after).head? ≠ some '\'' := by
    intro hjava hword
    rw [ne_eq, ne_eq, ← not_or, ← hover.behind?_eq]
    exact fun h => hquote hjava h (Lexeme.mem_of_encodingWords hword)
  let edited := String.ofList (Lexeme.textOf before ++ name.toList ++ Lexeme.textOf after)
  have hedited : language.scan edited.toList =
      before ++ ⟨.name .plain, name.toList⟩ :: after := by
    rw [language.scan_eq, String.toList_ofList]
    rw [language.scan_eq] at hscan
    exact Lexeme.lexemes_rename hscan hlexemeName hlast hname (by simpa using hkey) hliteral
  refine ⟨edited, hover.replace?_eq name, ?_, ?_⟩
  · rw [language.slices_spans, language.slices_spans, hscan, hedited, hlength]
    simp
  · obtain ⟨tokens, htokens, hkinds⟩ := language.kinds_normalize text sourceName classifier
    obtain ⟨renamed, hrenamed, hkinds'⟩ := language.kinds_normalize edited sourceName classifier
    have hsame : renamed.map (·.kind) = tokens.map (·.kind) := by
      rw [String.toList_ofList] at holdPlain
      rw [hkinds, hkinds', hscan, hedited]
      simp only [List.filterMap_append, List.filterMap_cons, hlexemeName,
        classifier.classify_name holdPlain, classifier.classify_name hnamePlain]
    exact ⟨tokens, renamed, htokens, hrenamed, Token.canonicalText_congr hsame,
      Fingerprint.ofTokens_congr hsame sourceName⟩

/-- A name right behind a point, and in front of a quote, with the look of an exponent. -/
theorem Language.rename_invariant_exponent :
    Language.c.spans "1.é'a'" = [⟨0, 1, .number .integer⟩, ⟨1, 2, .punctuation⟩] ++
      ⟨2, 4, .name .plain⟩ :: [⟨4, 7, .string .character⟩] ∧
    ∃ edited, (Span.mk 2 4 (.name .plain)).replace? "1.é'a'" "e5" = some edited ∧
      (Language.c.spans edited).map (fun span => (span.category, span.text? edited)) =
        ((Language.c.spans "1.é'a'").map fun span => (span.category, span.text? "1.é'a'")).set 2
          (.name .plain, some "e5") ∧
      ∃ tokens renamed,
        Token.normalize Language.c.lexer "1.é'a'" "a.c" ⟨["u8"]⟩ = .ok tokens ∧
        Token.normalize Language.c.lexer edited "a.c" ⟨["u8"]⟩ = .ok renamed ∧
        Token.canonicalText renamed = Token.canonicalText tokens ∧
        ∀ version, Fingerprint.ofTokens "a.c" renamed version =
          Fingerprint.ofTokens "a.c" tokens version := by
  have hspans : Language.c.spans "1.é'a'" =
      [⟨0, 1, .number .integer⟩, ⟨1, 2, .punctuation⟩] ++
        ⟨2, 4, .name .plain⟩ :: [⟨4, 7, .string .character⟩] := by
    decide +kernel
  have hold : Span.text? ⟨2, 4, .name .plain⟩ "1.é'a'" = some "é" := by decide +kernel
  refine ⟨hspans, Language.rename_invariant .c "1.é'a'" "e5" "a.c" ⟨["u8"]⟩ hspans rfl hold
    (by decide +kernel) ?_ (by decide) (by decide) (by decide +kernel) (fun _ _ => by decide)⟩
  rintro before kind ⟨⟩
  simp

end SourcePrint
