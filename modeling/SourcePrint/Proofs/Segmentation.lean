import SourcePrint.Proofs.Composition
import SourcePrint.Proofs.Shapes

namespace SourcePrint

namespace Lexeme

/-- Nothing in the text is read by the rules of one language alone: no directive, no annotation, no
quote that could be a digit separator or belong to an encoding in front of it. -/
structure Neutral (cs : List Char) : Prop where
  directive : '#' ∉ cs
  annotation : '@' ∉ cs
  quotes : cs.IsChain fun c d => d = '"' ∨ d = '\'' → isNameContinue c = false ∧ c ≠ '.'

theorem Neutral.of_suffix {cs rest : List Char} (h : Neutral cs) (hrest : rest <:+ cs) :
    Neutral rest :=
  ⟨fun hmem => h.directive (hrest.subset hmem), fun hmem => h.annotation (hrest.subset hmem),
    h.quotes.suffix hrest⟩

theorem Neutral.tail {c : Char} {cs : List Char} (h : Neutral (c :: cs)) : Neutral cs :=
  h.of_suffix (List.suffix_cons c cs)

/-- What can stand right in front of the marks between digits. -/
def endsDigits (c : Char) : Bool := isNameContinue c || c == '.'

theorem Neutral.not_quote {c d : Char} {cs : List Char} (h : Neutral (c :: d :: cs))
    (hc : endsDigits c = true) : d ≠ '"' ∧ d ≠ '\'' := by
  rw [← not_or]
  intro hquote
  obtain ⟨hname, hdot⟩ := (List.isChain_cons_cons.mp h.quotes).1 hquote
  simp [endsDigits, hname, hdot] at hc

theorem isNameContinue_of_isAlphanum {c : Char} (h : c.isAlphanum = true) :
    isNameContinue c = true := by
  rcases Bool.or_eq_true_iff.mp h with halpha | hdigit
  · have hletter := isAlpha_iff.mp halpha
    have hascii : c.toNat < 0x80 := by omega
    simp [isNameContinue, Text.isAlphabetic, hascii, halpha]
  · have hbounds : 48 ≤ c.toNat ∧ c.toNat ≤ 57 := by
      simpa [Char.isDigit, UInt32.le_iff_toNat_le] using hdigit
    have hascii : c.toNat < 0x80 := by omega
    simp [isNameContinue, Text.isNumeric, hascii, hdigit]

section Numbers

variable {a b : Language}

theorem isSeparator_eq {c : Char} (h : c ≠ '\'') : isSeparator a c = isSeparator b c := by
  simp [isSeparator, beq_eq_false_iff_ne.mpr h]

/-- Digits with the marks between them go equally far in every language, since the mark of one of
them alone is a quote. -/
theorem Neutral.digits_eq {p : Char → Bool} (hp : ∀ c, p c = true → c.isAlphanum = true)
    {before : Char} {cs : List Char} (h : Neutral (before :: cs))
    (hbefore : endsDigits before = true) :
    cs.takeWhile (fun c => p c || isSeparator a c) =
        cs.takeWhile (fun c => p c || isSeparator b c) ∧
      cs.dropWhile (fun c => p c || isSeparator a c) =
        cs.dropWhile (fun c => p c || isSeparator b c) := by
  induction cs generalizing before with
  | nil => exact ⟨rfl, rfl⟩
  | cons c cs ih =>
    have hquote := h.not_quote hbefore
    have hsame : (p c || isSeparator a c) = (p c || isSeparator b c) := by
      rw [isSeparator_eq hquote.2]
    by_cases hc : (p c || isSeparator b c) = true
    · have hends : endsDigits c = true := by
        rcases digit_or_separator hp c hc with halnum | hunderscore | hapostrophe
        · simp [endsDigits, isNameContinue_of_isAlphanum halnum]
        · rw [hunderscore]
          decide
        · exact absurd hapostrophe hquote.2
      obtain ⟨htake, hdrop⟩ := ih h.tail hends
      simp only [List.takeWhile_cons, List.dropWhile_cons, hsame, hc, if_true, htake, hdrop,
        and_self]
    · simp [hsame, hc]

theorem Neutral.digitParts_eq {before : Char} {cs : List Char} (h : Neutral (before :: cs))
    (hbefore : endsDigits before = true) :
    cs.takeWhile (isDigitPart a) = cs.takeWhile (isDigitPart b) ∧
      cs.dropWhile (isDigitPart a) = cs.dropWhile (isDigitPart b) :=
  h.digits_eq (fun _ => isAlphanum_of_isDigit) hbefore

theorem Neutral.fraction_eq {cs : List Char} (h : Neutral cs) : fraction a cs = fraction b cs := by
  unfold fraction
  split
  · rename_i after
    obtain ⟨htake, hdrop⟩ := @Neutral.digitParts_eq a b '.' after h rfl
    rw [htake, hdrop]
  · rfl

/-- A number begins with digits in every language, or with a dot in every language. -/
theorem Neutral.decimal_eq {c : Char} {cs : List Char} (h : Neutral (c :: cs))
    (hc : startsNumber c cs = true) : decimal a (c :: cs) = decimal b (c :: cs) := by
  have hparts : (c :: cs).takeWhile (isDigitPart a) = (c :: cs).takeWhile (isDigitPart b) ∧
      (c :: cs).dropWhile (isDigitPart a) = (c :: cs).dropWhile (isDigitPart b) := by
    simp only [startsNumber, Bool.or_eq_true, Bool.and_eq_true, beq_iff_eq] at hc
    rcases hc with hdigit | ⟨rfl, -⟩
    · have hends : endsDigits c = true := by
        simp [endsDigits, isNameContinue_of_isAlphanum (isAlphanum_of_isDigit hdigit)]
      obtain ⟨htake, hdrop⟩ := @Neutral.digitParts_eq a b c cs h hends
      simp only [List.takeWhile_cons, List.dropWhile_cons, isDigitPart, hdigit, Bool.true_or,
        if_true]
      exact ⟨congrArg (c :: ·) htake, hdrop⟩
    · have hdot : isDigitPart a '.' = false ∧ isDigitPart b '.' = false := by
        simp [isDigitPart, isSeparator]
      simp [hdot]
  have hrest : Neutral ((c :: cs).dropWhile (isDigitPart b)) :=
    h.of_suffix (List.dropWhile_suffix _)
  unfold decimal
  rw [hparts.1, hparts.2, hrest.fraction_eq]

theorem Neutral.numeral_eq {c : Char} {cs : List Char} (h : Neutral (c :: cs))
    (hc : startsNumber c cs = true) : numeral a (c :: cs) = numeral b (c :: cs) := by
  have hdecimal : decimal a (c :: cs) = decimal b (c :: cs) := h.decimal_eq hc
  unfold numeral
  split
  · rename_i base after heq
    obtain ⟨rfl, rfl⟩ := List.cons.inj heq
    split
    · rename_i hbase
      have hends : endsDigits base = true := by
        simp only [Bool.or_eq_true, beq_iff_eq] at hbase
        rcases hbase with rfl | rfl <;> decide
      obtain ⟨htake, hdrop⟩ := @Neutral.digits_eq a b isHexDigit
        (fun _ => isAlphanum_of_isHexDigit) base after h.tail hends
      simp only [htake, hdrop]
    · split
      · rename_i hbase
        have hends : endsDigits base = true := by
          simp only [Bool.and_eq_true, Bool.or_eq_true, beq_iff_eq] at hbase
          rcases hbase.1 with rfl | rfl <;> decide
        obtain ⟨htake, hdrop⟩ := @Neutral.digits_eq a b isBit
          (fun _ hbit => isAlphanum_of_isDigit (isDigit_of_isBit hbit)) base after h.tail hends
        simp only [htake, hdrop]
      · exact hdecimal
  · exact hdecimal

theorem Neutral.readNumber_eq {c : Char} {cs : List Char} (h : Neutral (c :: cs))
    (hc : startsNumber c cs = true) : readNumber a (c :: cs) = readNumber b (c :: cs) := by
  have hnumeral : numeral a (c :: cs) = numeral b (c :: cs) := h.numeral_eq hc
  unfold readNumber
  rw [hnumeral]

end Numbers

/-- The same text, and the same category unless both are words. -/
structure Agree (x y : Lexeme) : Prop where
  text : x.text = y.text
  category : x.category = y.category ∨ x.isWord = true ∧ y.isWord = true

theorem Agree.refl (lexeme : Lexeme) : Agree lexeme lexeme := ⟨rfl, .inl rfl⟩

/-- Readings that end at the same place. -/
structure AgreeOn (r s : Reading) : Prop where
  lexemes : List.Forall₂ Agree r.lexemes s.lexemes
  rest : r.rest = s.rest

theorem AgreeOn.of_eq {r s : Reading} (h : r = s) : AgreeOn r s := by
  subst h
  exact ⟨List.forall₂_same.mpr fun lexeme _ => .refl lexeme, rfl⟩

theorem isWord_wordCategory (language : Language) (afterDot : Bool) (word : List Char) :
    (wordCategory language afterDot word).isWord = true := by
  rcases wordCategory_cases language afterDot word with h | h | ⟨kind, h⟩ <;> rw [h] <;> rfl

theorem not_isTrivia_of_isWord {category : Category} (h : category.isWord = true) :
    category.isTrivia = false :=
  match category, h with
  | .keyword _, _ => rfl
  | .wordOperator, _ => rfl
  | .name .plain, _ => rfl

theorem dotAfter_agree {afterDot : Bool} {x y : Lexeme} (h : Agree x y) :
    dotAfter afterDot x = dotAfter afterDot y := by
  have htrivia : x.category.isTrivia = y.category.isTrivia := by
    rcases h.category with heq | ⟨hx, hy⟩
    · rw [heq]
    · have hxword := (Bool.and_eq_true_iff.mp hx).1
      have hyword := (Bool.and_eq_true_iff.mp hy).1
      rw [not_isTrivia_of_isWord hxword, not_isTrivia_of_isWord hyword]
  rw [dotAfter, dotAfter, htrivia, h.text]

theorem foldl_dotAfter_agree {afterDot : Bool} {xs ys : List Lexeme}
    (h : List.Forall₂ Agree xs ys) :
    xs.foldl dotAfter afterDot = ys.foldl dotAfter afterDot := by
  induction h generalizing afterDot with
  | nil => rfl
  | cons hfirst _ ih =>
    rw [List.foldl_cons, List.foldl_cons, dotAfter_agree hfirst]
    exact ih

theorem Neutral.head?_behind {c : Char} {cs : List Char} (h : Neutral (c :: cs))
    (hc : isNameContinue c = true) :
    ∀ d ∈ (cs.dropWhile isNameContinue).head?, d ≠ '"' ∧ d ≠ '\'' := by
  induction cs generalizing c with
  | nil => simp
  | cons e cs ih =>
    by_cases he : isNameContinue e = true
    · rw [List.dropWhile_cons_of_pos he]
      exact ih h.tail he
    · rw [List.dropWhile_cons_of_neg he]
      intro d hd
      obtain rfl : e = d := by simpa using hd
      exact h.not_quote (by simp [endsDigits, hc])

section Languages

variable (a b : Language) (context : Context)

/-- No word belongs to a literal behind it, so only its category is the language's own. -/
theorem Neutral.readWord_agree {afterDot : Bool} {c : Char} {cs : List Char}
    (h : Neutral (c :: cs)) (hc : isNameStart c = true) :
    AgreeOn (readWord a afterDot (c :: cs)) (readWord b afterDot (c :: cs)) := by
  have hcontinue := isNameContinue_of_isNameStart hc
  have htake : (c :: cs).takeWhile isNameContinue = c :: cs.takeWhile isNameContinue :=
    List.takeWhile_cons_of_pos hcontinue
  have hdrop : (c :: cs).dropWhile isNameContinue = cs.dropWhile isNameContinue :=
    List.dropWhile_cons_of_pos hcontinue
  have hbehind := h.head?_behind hcontinue
  have hquote : (cs.dropWhile isNameContinue).head? ≠ some '"' ∧
      (cs.dropWhile isNameContinue).head? ≠ some '\'' :=
    ⟨fun hd => (hbehind '"' hd).1 rfl, fun hd => (hbehind '\'' hd).2 rfl⟩
  have hname : isName (c :: cs.takeWhile isNameContinue) = true := by simp [isName, hc]
  rw [readWord_eq htake hdrop, readWord_eq htake hdrop, wordReading_plain fun _ _ => hquote,
    wordReading_plain fun _ _ => hquote]
  refine ⟨.cons ⟨rfl, .inr ⟨?_, ?_⟩⟩ .nil, rfl⟩
  · rw [isWord, isWord_wordCategory, hname, Bool.true_and]
  · rw [isWord, isWord_wordCategory, hname, Bool.true_and]

theorem Neutral.readToken_agree {c : Char} {cs : List Char} (h : Neutral (c :: cs)) :
    AgreeOn (readToken a context c cs) (readToken b context c cs) := by
  have hhash : c ≠ '#' := fun hc => h.directive (by simp [hc])
  have hat : c ≠ '@' := fun hc => h.annotation (by simp [hc])
  by_cases hname : isNameStart c = true
  · rw [readToken_of_isNameStart hname, readToken_of_isNameStart hname]
    exact h.readWord_agree a b hname
  · apply AgreeOn.of_eq
    have hnumber : startsNumber c cs = true → readNumber a (c :: cs) = readNumber b (c :: cs) :=
      h.readNumber_eq
    simp only [readToken, hhash, hat, hname, false_and, if_false, Bool.false_eq_true]
    by_cases hstarts : startsNumber c cs = true
    · rw [hnumber hstarts]
    · simp only [hstarts, if_false, Bool.false_eq_true]

theorem Neutral.readNext_agree {cs : List Char} (h : Neutral cs) :
    AgreeOn (readNext a context cs) (readNext b context cs) := by
  cases cs with
  | nil => exact .of_eq rfl
  | cons c cs =>
    simp only [readNext]
    split
    · exact .of_eq rfl
    · exact h.readToken_agree a b context

theorem Neutral.next_eq {cs : List Char} (h : Neutral cs) :
    context.next a cs = context.next b cs := by
  cases cs with
  | nil => rfl
  | cons c cs =>
    simp only [Context.next]
    split
    · rfl
    · have hread := h.readToken_agree a b context
      rw [Context.after, Context.after, foldl_dotAfter_agree hread.lexemes]

/-- Two languages read a neutral text in step. -/
theorem Neutral.lexemes_agree {cs : List Char} (h : Neutral cs) :
    List.Forall₂ Agree (lexemes a context cs) (lexemes b context cs) := by
  induction context, cs using scan_induction a with
  | nil context => simp [lexemes]
  | step context cs _ ih =>
    have hread := h.readNext_agree a b context
    have hrest : Neutral (readNext a context cs).rest :=
      h.of_suffix ⟨_, (covers_readNext a context cs).text⟩
    rw [lexemes_eq_readNext a, lexemes_eq_readNext b, ← hread.rest, ← h.next_eq a b context]
    exact List.rel_append hread.lexemes (ih hrest)

end Languages

theorem ends_place {xs ys : List Lexeme} (h : List.Forall₂ Agree xs ys) (start : Nat) :
    (mapThread Span.place start xs).map (fun span => (span.start, span.stop)) =
      (mapThread Span.place start ys).map fun span => (span.start, span.stop) := by
  induction h generalizing start with
  | nil => rfl
  | cons hfirst _ ih =>
    rw [mapThread_cons, mapThread_cons, List.map_cons, List.map_cons, Span.place, Span.place,
      hfirst.text, ih]

end Lexeme

namespace Span

/-- The symbol that the text under a span becomes, if it leaves one. -/
def symbol? (classifier : Classifier) (text : String) (span : Span) : Option Symbol :=
  (span.text? text).bind fun slice => classifier.classify span.category slice.toList

/-- A span with its text in the place of its ends. -/
def lexeme (text : String) (span : Span) : Lexeme :=
  ⟨span.category, ((span.text? text).getD "").toList⟩

theorem isWord_lexeme (text : String) (span : Span) :
    (span.lexeme text).isWord = span.isWord text := by
  cases h : span.text? text with
  | none => simp [lexeme, Lexeme.isWord, isWord, h, Lexeme.isName]
  | some slice => simp [lexeme, Lexeme.isWord, isWord, h]

theorem symbol?_of_isWord {text : String} {span : Span} (h : span.isWord text = true)
    (classifier : Classifier) :
    span.symbol? classifier text = classifier.classify span.category (span.lexeme text).text := by
  obtain ⟨-, hslice⟩ := Bool.and_eq_true_iff.mp h
  cases htext : span.text? text with
  | none => simp [htext] at hslice
  | some slice => simp [symbol?, lexeme, htext]

end Span

theorem Token.ofLexemes_congr {classifier : Classifier} {sourceName : String} {xs ys : List Lexeme}
    (h : List.Forall₂ (fun x y : Lexeme => x.text = y.text ∧
      classifier.classify x.category x.text = classifier.classify y.category y.text) xs ys)
    (offset : Nat) (position : Position) :
    ofLexemes classifier sourceName offset position xs =
      ofLexemes classifier sourceName offset position ys := by
  induction h generalizing offset position with
  | nil => rfl
  | @cons x y xs ys hfirst _ ih =>
    have hpiece : ofPiece? classifier sourceName (⟨x.category, x.text, offset⟩, position) =
        ofPiece? classifier sourceName (⟨y.category, y.text, offset⟩, position) := by
      simp only [ofPiece?, hfirst.2]
      rw [hfirst.1]
    rw [ofLexemes, ofLexemes, hpiece, hfirst.1, ih]

namespace Language

variable {a b : Language} {text : String}

theorem map_lexeme_spans (language : Language) (text : String) :
    (language.spans text).map (Span.lexeme text) = language.scan text.toList := by
  have hslices := congrArg (List.map fun p : Category × Option String =>
    (⟨p.1, (p.2.getD "").toList⟩ : Lexeme)) (language.slices_spans text)
  simp only [List.map_map, Function.comp_def, Option.getD_some, String.toList_ofList,
    List.map_id'] at hslices
  exact hslices

/-- Two scans of a text compare lexeme by lexeme as they do span by span. -/
theorem forall₂_scan {R : Lexeme → Lexeme → Prop} :
    List.Forall₂ R (a.scan text.toList) (b.scan text.toList) ↔
      List.Forall₂ (fun s t => R (s.lexeme text) (t.lexeme text)) (a.spans text)
        (b.spans text) := by
  rw [← a.map_lexeme_spans, ← b.map_lexeme_spans, List.forall₂_map_left_iff,
    List.forall₂_map_right_iff]

theorem scan_agree (h : Lexeme.Neutral text.toList) :
    List.Forall₂ Lexeme.Agree (a.scan text.toList) (b.scan text.toList) := by
  rw [a.scan_eq, b.scan_eq]
  exact h.lexemes_agree a b .start

/-- Words are all that two languages can disagree about in a neutral text, and words that become the
same symbols leave the same tokens. -/
theorem spans_neutral (a b : Language) {text : String} (h : Lexeme.Neutral text.toList) :
    (a.spans text).map (fun span => (span.start, span.stop)) =
        (b.spans text).map (fun span => (span.start, span.stop)) ∧
    List.Forall₂ (fun s t => s.category = t.category ∨ s.isWord text = true ∧ t.isWord text = true)
        (a.spans text) (b.spans text) ∧
    ∀ (classifier : Classifier) (sourceName : String),
      List.Forall₂ (fun s t => s.isWord text = true →
          s.symbol? classifier text = t.symbol? classifier text) (a.spans text) (b.spans text) →
      ∃ tokens, Token.normalize a.lexer text sourceName classifier = .ok tokens ∧
        Token.normalize b.lexer text sourceName classifier = .ok tokens := by
  have hagree : List.Forall₂ Lexeme.Agree (a.scan text.toList) (b.scan text.toList) := scan_agree h
  have hspans := forall₂_scan.mp hagree
  refine ⟨Lexeme.ends_place hagree 0, ?_, ?_⟩
  · apply hspans.imp
    intro s t hst
    rw [← s.isWord_lexeme, ← t.isWord_lexeme]
    exact hst.category
  · intro classifier sourceName hsymbols
    have hclassified : List.Forall₂ (fun x y : Lexeme => x.text = y.text ∧
        classifier.classify x.category x.text = classifier.classify y.category y.text)
        (a.scan text.toList) (b.scan text.toList) := by
      apply forall₂_scan.mpr
      apply List.Forall₂.mp _ hspans hsymbols
      intro s t hst hsymbol
      refine ⟨hst.text, ?_⟩
      rcases hst.category with hcategory | ⟨hs, ht⟩
      · rw [hcategory, hst.text]
      · rw [s.isWord_lexeme] at hs
        rw [t.isWord_lexeme] at ht
        have hsame := hsymbol hs
        rwa [Span.symbol?_of_isWord hs, Span.symbol?_of_isWord ht] at hsame
    refine ⟨_, a.normalize_eq text sourceName classifier, ?_⟩
    rw [b.normalize_eq, Token.ofLexemes_congr hclassified]

/-- A word that is reserved in one language and the name of a known type in the other. -/
theorem spans_neutral_type_name :
    Lexeme.Neutral "size_t a = \"%\" + 0_7;".toList ∧
    Language.c.spans "size_t a = \"%\" + 0_7;" ≠ Language.java.spans "size_t a = \"%\" + 0_7;" ∧
    List.Forall₂ (fun s t => s.isWord "size_t a = \"%\" + 0_7;" = true →
        s.symbol? ⟨["size_t"]⟩ "size_t a = \"%\" + 0_7;" =
          t.symbol? ⟨["size_t"]⟩ "size_t a = \"%\" + 0_7;")
      (Language.c.spans "size_t a = \"%\" + 0_7;")
      (Language.java.spans "size_t a = \"%\" + 0_7;") ∧
    (Language.c.spans "size_t a = \"%\" + 0_7;").map (fun span => (span.start, span.stop)) =
      (Language.java.spans "size_t a = \"%\" + 0_7;").map (fun span => (span.start, span.stop)) ∧
    ∃ tokens, Token.normalize Language.c.lexer "size_t a = \"%\" + 0_7;" "a.c" ⟨["size_t"]⟩ =
        .ok tokens ∧
      Token.normalize Language.java.lexer "size_t a = \"%\" + 0_7;" "a.c" ⟨["size_t"]⟩ =
        .ok tokens := by
  have hneutral : Lexeme.Neutral "size_t a = \"%\" + 0_7;".toList :=
    ⟨by decide, by decide, by decide +kernel⟩
  have hsymbols : List.Forall₂ (fun s t => s.isWord "size_t a = \"%\" + 0_7;" = true →
        s.symbol? ⟨["size_t"]⟩ "size_t a = \"%\" + 0_7;" =
          t.symbol? ⟨["size_t"]⟩ "size_t a = \"%\" + 0_7;")
      (Language.c.spans "size_t a = \"%\" + 0_7;")
      (Language.java.spans "size_t a = \"%\" + 0_7;") := by
    decide +kernel
  obtain ⟨hends, -, htokens⟩ := spans_neutral .c .java hneutral
  exact ⟨hneutral, by decide +kernel, hsymbols, hends, htokens ⟨["size_t"]⟩ "a.c" hsymbols⟩

end Language

end SourcePrint
