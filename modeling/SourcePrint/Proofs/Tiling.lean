import SourcePrint.Proofs.Slices

namespace SourcePrint

/-- The text that lexemes in order were cut from. -/
def Lexeme.textOf (lexemes : List Lexeme) : List Char := lexemes.flatMap (·.text)

@[simp] theorem Lexeme.textOf_nil : textOf [] = [] := rfl

@[simp] theorem Lexeme.textOf_cons (lexeme : Lexeme) (lexemes : List Lexeme) :
    textOf (lexeme :: lexemes) = lexeme.text ++ textOf lexemes := rfl

@[simp] theorem Lexeme.textOf_append (a b : List Lexeme) :
    textOf (a ++ b) = textOf a ++ textOf b := List.flatMap_append

/-- A reading of `cs` that loses and doubles nothing and leaves no empty lexeme. -/
structure Reading.Covers (reading : Reading) (cs : List Char) : Prop where
  text : Lexeme.textOf reading.lexemes ++ reading.rest = cs
  nonempty : ∀ lexeme ∈ reading.lexemes, lexeme.text ≠ []

theorem Reading.covers_one {category : Category} {text rest cs : List Char} (hne : text ≠ [])
    (h : text ++ rest = cs) : (Reading.one category text rest).Covers cs :=
  ⟨by simpa [Reading.one] using h, by simpa [Reading.one] using hne⟩

theorem Reading.covers_while {category : Category} {p : Char → Bool} {c : Char} {cs : List Char}
    (hc : p c = true) : (Reading.while category p (c :: cs)).Covers (c :: cs) :=
  covers_one (by simp [hc]) List.takeWhile_append_dropWhile

namespace Lexeme

theorem escapeTail_append (cs : List Char) : (escapeTail cs).1 ++ (escapeTail cs).2 = cs := by
  cases cs with
  | nil => rfl
  | cons c cs =>
    simp only [escapeTail]
    split
    · simp
    · split
      · have hfront : (cs.take 2).takeWhile isOctalDigit <+: cs :=
          (List.takeWhile_prefix _).trans (List.take_prefix 2 cs)
        obtain ⟨rest, hrest⟩ := hfront
        generalize (cs.take 2).takeWhile isOctalDigit = digits at hrest
        rw [← hrest, List.drop_left, List.cons_append]
      · rfl

theorem textOf_stretch (text : List Char) : textOf (stretch text) = text := by
  unfold stretch
  split
  · rename_i h
    exact h.symm
  · simp

theorem nonempty_stretch {text : List Char} : ∀ lexeme ∈ stretch text, lexeme.text ≠ [] := by
  unfold stretch
  split
  · simp
  · rename_i h
    simpa using h

theorem covers_stringParts (opening cs : List Char) :
    (stringParts opening cs).Covers (opening ++ cs) := by
  fun_induction stringParts opening cs with
  | case1 opening cs run _ =>
    refine ⟨?_, nonempty_stretch⟩
    rw [textOf_stretch, List.append_assoc, Run.read_append]
  | case2 opening cs run _ after hrest _ tail more ih =>
    constructor
    · have hmore : textOf more.lexemes ++ more.rest = tail.2 := ih.text
      calc textOf (stretch (opening ++ run.taken) ++
              ⟨.string .escape, '\\' :: tail.1⟩ :: more.lexemes) ++ more.rest
          = opening ++ (run.taken ++ '\\' :: (tail.1 ++ (textOf more.lexemes ++ more.rest))) := by
            simp [textOf_stretch]
        _ = opening ++ (run.taken ++ run.rest) := by rw [hmore, escapeTail_append, hrest]
        _ = opening ++ cs := by rw [Run.read_append]
    · intro lexeme hmem
      rcases List.mem_append.mp hmem with hmem | hmem
      · exact nonempty_stretch lexeme hmem
      · rcases List.mem_cons.mp hmem with rfl | hmem
        · exact List.cons_ne_nil _ _
        · exact ih.nonempty lexeme hmem
  | case3 opening cs run _ _ =>
    refine ⟨?_, nonempty_stretch⟩
    rw [textOf_stretch, List.append_assoc, Run.read_append]

theorem covers_characterLiteral (opening cs : List Char) (h : opening ≠ []) :
    (characterLiteral opening cs).Covers (opening ++ cs) :=
  Reading.covers_one (by simp [h]) (by rw [List.append_assoc, Run.read_append])

theorem covers_readNumber (language : Language) {c : Char} {cs : List Char}
    (h : startsNumber c cs = true) : (readNumber language (c :: cs)).Covers (c :: cs) := by
  have hne := text_numeral_ne_nil language h
  have happend := numeral_append language (c :: cs)
  refine Reading.covers_one (by simp [hne]) ?_
  rw [List.append_assoc, List.takeWhile_append_dropWhile, happend]

theorem covers_readWord (language : Language) (afterDot : Bool) {c : Char} (cs : List Char)
    (hc : isNameStart c = true) : (readWord language afterDot (c :: cs)).Covers (c :: cs) := by
  have hword : (c :: cs).takeWhile isNameContinue ≠ [] := by
    simp [isNameContinue_of_isNameStart hc]
  have happend : (c :: cs).takeWhile isNameContinue ++ (c :: cs).dropWhile isNameContinue =
      c :: cs := List.takeWhile_append_dropWhile
  simp only [readWord]
  split
  · split
    · rename_i after hrest
      have h := covers_stringParts ((c :: cs).takeWhile isNameContinue ++ ['"']) after
      rwa [List.append_assoc, List.singleton_append, ← hrest, happend] at h
    · rename_i after hrest
      have h := covers_characterLiteral ((c :: cs).takeWhile isNameContinue ++ ['\'']) after
        (by simp)
      rwa [List.append_assoc, List.singleton_append, ← hrest, happend] at h
    · exact Reading.covers_one hword happend
  · exact Reading.covers_one hword happend

theorem covers_readDecorator (cs : List Char) : (readDecorator cs).Covers ('@' :: cs) :=
  Reading.covers_one (by simp) (by simp)

theorem covers_readSign (c : Char) (cs : List Char) : (readSign c cs).Covers (c :: cs) := by
  have hmark : ∀ x ∈ punctuationMarks.map String.toList, x ≠ [] := by decide
  have hsign : ∀ x ∈ operatorSigns.map String.toList, x ≠ [] := by decide
  unfold readSign
  split
  · rename_i mark h
    obtain ⟨hmem, rest, hrest⟩ := longestMatch?_mem h
    refine Reading.covers_one (hmark mark hmem) ?_
    rw [← hrest, List.drop_left]
  · split
    · rename_i sign h
      obtain ⟨hmem, rest, hrest⟩ := longestMatch?_mem h
      refine Reading.covers_one (hsign sign hmem) ?_
      rw [← hrest, List.drop_left]
    · exact Reading.covers_one (by simp) rfl

/-- Where no word, number, literal or comment begins, so that only a sign can. -/
structure BeginsSign (language : Language) (c : Char) (cs : List Char) : Prop where
  comment : c = '/' → cs.head? ≠ some '/' ∧ cs.head? ≠ some '*'
  continued : c = '\\' → cs.head? ≠ some '\n' ∧ cs.head? ≠ some '\r'
  quote : c ≠ '"' ∧ c ≠ '\''
  number : startsNumber c cs = false
  decorator : c = '@' → language = .java → cs.head?.any isNameStart = false
  word : isNameStart c = false

/-- The ways in which a token can begin, each with all that is then known and with what is read. -/
theorem readToken_branches {language : Language} {context : Context} {c : Char} {cs : List Char}
    {motive : Reading → Prop}
    (line : c = '/' → cs.head? = some '/' →
      motive (.while (.comment .single) (· != '\n') (c :: cs)))
    (block : ∀ after, c = '/' → cs = '*' :: after →
      motive (.one (.comment .multiline) ('/' :: '*' :: (Run.read blockMove false after).taken)
        (Run.read blockMove false after).rest))
    (directive : c = '#' → language ≠ .java →
      motive (.one (.comment .directive) ('#' :: (Run.read directiveMove false cs).taken)
        (Run.read directiveMove false cs).rest))
    (continued : c = '\\' → cs.head? = some '\n' ∨ cs.head? = some '\r' →
      motive (.one .text [c] cs))
    (string : c = '"' → motive (stringParts [c] cs))
    (character : c = '\'' → motive (characterLiteral [c] cs))
    (number : startsNumber c cs = true → motive (readNumber language (c :: cs)))
    (decorator : c = '@' → language = .java → cs.head?.any isNameStart = true →
      motive (readDecorator cs))
    (word : isNameStart c = true → motive (readWord language context.afterDot (c :: cs)))
    (sign : BeginsSign language c cs → motive (readSign c cs)) :
    motive (readToken language context c cs) := by
  unfold readToken
  by_cases hline : c = '/' ∧ cs.head? = some '/'
  · rw [if_pos hline]
    exact line hline.1 hline.2
  rw [if_neg hline]
  by_cases hblock : c = '/' ∧ cs.head? = some '*'
  · rw [if_pos hblock]
    obtain ⟨after, rfl⟩ := List.head?_eq_some_iff.mp hblock.2
    exact block after hblock.1 rfl
  rw [if_neg hblock]
  by_cases h : c = '#' ∧ context.lineStart = true ∧ language ≠ .java
  · rw [if_pos h]
    exact directive h.1 h.2.2
  rw [if_neg h]
  by_cases hcontinued : c = '\\' ∧ (cs.head? = some '\n' ∨ cs.head? = some '\r')
  · rw [if_pos hcontinued]
    exact continued hcontinued.1 hcontinued.2
  rw [if_neg hcontinued]
  by_cases hquote : c = '"'
  · rw [if_pos hquote]
    exact string hquote
  rw [if_neg hquote]
  by_cases hapostrophe : c = '\''
  · rw [if_pos hapostrophe]
    exact character hapostrophe
  rw [if_neg hapostrophe]
  by_cases hnumber : startsNumber c cs = true
  · rw [if_pos hnumber]
    exact number hnumber
  rw [if_neg hnumber]
  by_cases hdecorator : c = '@' ∧ language = .java ∧ cs.head?.any isNameStart = true
  · rw [if_pos hdecorator]
    exact decorator hdecorator.1 hdecorator.2.1 hdecorator.2.2
  rw [if_neg hdecorator]
  by_cases hword : isNameStart c = true
  · rw [if_pos hword]
    exact word hword
  rw [if_neg hword]
  apply sign
  exact {
    comment := fun hc => ⟨fun h => hline ⟨hc, h⟩, fun h => hblock ⟨hc, h⟩⟩
    continued := fun hc =>
      ⟨fun h => hcontinued ⟨hc, .inl h⟩, fun h => hcontinued ⟨hc, .inr h⟩⟩
    quote := ⟨hquote, hapostrophe⟩
    number := by simpa using hnumber
    decorator := fun hc hjava => by simpa using fun h => hdecorator ⟨hc, hjava, h⟩
    word := by simpa using hword }

/-- The ways in which a token can begin, where it does not matter what else is known. -/
theorem readToken_cases {language : Language} {context : Context} {c : Char} {cs : List Char}
    {motive : Reading → Prop}
    (line : c = '/' → motive (.while (.comment .single) (· != '\n') (c :: cs)))
    (block : ∀ after, c = '/' → cs = '*' :: after →
      motive (.one (.comment .multiline) ('/' :: '*' :: (Run.read blockMove false after).taken)
        (Run.read blockMove false after).rest))
    (directive : c = '#' →
      motive (.one (.comment .directive) ('#' :: (Run.read directiveMove false cs).taken)
        (Run.read directiveMove false cs).rest))
    (continued : c = '\\' → motive (.one .text [c] cs))
    (string : c = '"' → motive (stringParts [c] cs))
    (character : c = '\'' → motive (characterLiteral [c] cs))
    (number : startsNumber c cs = true → motive (readNumber language (c :: cs)))
    (decorator : c = '@' → language = .java → motive (readDecorator cs))
    (word : isNameStart c = true → motive (readWord language context.afterDot (c :: cs)))
    (sign : motive (readSign c cs)) : motive (readToken language context c cs) :=
  readToken_branches (fun hc _ => line hc) block (fun hc _ => directive hc)
    (fun hc _ => continued hc) string character number (fun hc hjava _ => decorator hc hjava) word
    (fun _ => sign)

/-- Whatever begins at a character that is not blank, the reading accounts for all of it. -/
theorem covers_readToken (language : Language) (context : Context) (c : Char) (cs : List Char) :
    (readToken language context c cs).Covers (c :: cs) := by
  apply readToken_cases (motive := fun reading => reading.Covers (c :: cs))
  case line =>
    intro hc
    exact Reading.covers_while (by simp [hc])
  case block =>
    rintro after rfl rfl
    refine Reading.covers_one (by simp) ?_
    rw [List.cons_append, List.cons_append, Run.read_append]
  case directive =>
    rintro rfl
    refine Reading.covers_one (by simp) ?_
    rw [List.cons_append, Run.read_append]
  case continued => exact fun _ => Reading.covers_one (by simp) rfl
  case string => exact fun _ => covers_stringParts [c] cs
  case character => exact fun _ => covers_characterLiteral [c] cs (by simp)
  case number => exact covers_readNumber language
  case decorator =>
    rintro rfl _
    exact covers_readDecorator cs
  case word => exact covers_readWord language context.afterDot cs
  case sign => exact covers_readSign c cs

/-- What is read next: a run of blanks, else a token. -/
def readNext (language : Language) (context : Context) : List Char → Reading
  | [] => ⟨[], []⟩
  | c :: cs =>
    if Text.isBlank c then .while .text Text.isBlank (c :: cs)
    else readToken language context c cs

/-- The context behind what is read next. -/
def Context.next (language : Language) (context : Context) : List Char → Context
  | [] => context
  | c :: cs =>
    if Text.isBlank c then context.afterBlanks (c :: cs.takeWhile Text.isBlank)
    else context.after (readToken language context c cs).lexemes

theorem next_of_readNext {language : Language} {context : Context} {cs : List Char}
    {lexeme : Lexeme} (h : (readNext language context cs).lexemes = [lexeme])
    (htext : lexeme.category ≠ .text) :
    context.next language cs = ⟨false, dotAfter context.afterDot lexeme⟩ := by
  cases cs with
  | nil => cases h
  | cons c cs =>
    by_cases hc : Text.isBlank c = true
    · rw [readNext, if_pos hc] at h
      obtain rfl := List.singleton_inj.mp h
      exact absurd rfl htext
    · rw [readNext, if_neg hc] at h
      rw [Context.next, if_neg hc, h]
      rfl

theorem covers_readNext (language : Language) (context : Context) (cs : List Char) :
    (readNext language context cs).Covers cs := by
  cases cs with
  | nil => exact ⟨rfl, by simp [readNext]⟩
  | cons c cs =>
    simp only [readNext]
    split
    · rename_i h
      exact Reading.covers_while h
    · exact covers_readToken language context c cs

/-- The scan of a text is what is read next, then the scan of the rest. -/
theorem lexemes_eq_readNext (language : Language) (context : Context) (cs : List Char) :
    lexemes language context cs =
      (readNext language context cs).lexemes ++
        lexemes language (context.next language cs) (readNext language context cs).rest := by
  cases cs with
  | nil => simp [lexemes, readNext]
  | cons c cs =>
    rw [lexemes]
    simp only [readNext, Context.next]
    split
    · rename_i h
      simp [Reading.while, Reading.one, h]
    · rfl

/-- Induction along a scan, one reading at a time. -/
theorem scan_induction (language : Language) {motive : Context → List Char → Prop}
    (nil : ∀ context, motive context [])
    (step : ∀ context cs, cs ≠ [] →
      motive (context.next language cs) (readNext language context cs).rest → motive context cs)
    (context : Context) (cs : List Char) : motive context cs := by
  induction context, cs using lexemes.induct language with
  | case1 context => exact nil context
  | case2 context c cs hc blanks ih =>
    apply step context (c :: cs) (by simp)
    simpa [Context.next, readNext, hc, Reading.while, Reading.one] using ih
  | case3 context c cs hc reading ih =>
    apply step context (c :: cs) (by simp)
    simpa [Context.next, readNext, hc] using ih

/-- The lexemes of a text make it up. -/
theorem textOf_lexemes (language : Language) (context : Context) (cs : List Char) :
    textOf (lexemes language context cs) = cs := by
  induction context, cs using scan_induction language with
  | nil context => simp [lexemes]
  | step context cs _ ih =>
    rw [lexemes_eq_readNext, textOf_append, ih]
    exact (covers_readNext language context cs).text

theorem nonempty_lexemes (language : Language) (context : Context) (cs : List Char) :
    ∀ lexeme ∈ lexemes language context cs, lexeme.text ≠ [] := by
  induction context, cs using scan_induction language with
  | nil context => simp [lexemes]
  | step context cs _ ih =>
    intro lexeme hmem
    rw [lexemes_eq_readNext] at hmem
    rcases List.mem_append.mp hmem with hmem | hmem
    · exact (covers_readNext language context cs).nonempty lexeme hmem
    · exact ih lexeme hmem

end Lexeme

namespace Span

/-- Spans that lie end to end from byte `start` to byte `stop`, none of them empty. -/
inductive Tiles : Nat → Nat → List Span → Prop where
  | nil (offset : Nat) : Tiles offset offset []
  | cons {span : Span} {spans : List Span} {stop : Nat} (nonempty : span.start < span.stop)
      (tail : Tiles span.stop stop spans) : Tiles span.start stop (span :: spans)

theorem Tiles.eq_of_nil {start stop : Nat} (h : Tiles start stop []) : start = stop := by
  cases h
  rfl

/-- Lexemes laid out from byte `start` tile as many bytes as the text they were cut from. -/
theorem tiles_place (lexemes : List Lexeme) (hne : ∀ lexeme ∈ lexemes, lexeme.text ≠ [])
    (start : Nat) :
    Tiles start (start + Text.byteLength (Lexeme.textOf lexemes)) (mapThread place start lexemes) := by
  induction lexemes generalizing start with
  | nil => exact .nil start
  | cons lexeme lexemes ih =>
    have hpos : (place start lexeme).1.start < (place start lexeme).1.stop :=
      Nat.lt_add_of_pos_right (Text.byteLength_pos (hne lexeme (by simp)))
    have htail := ih (fun l hl => hne l (by simp [hl])) (start + Text.byteLength lexeme.text)
    rw [mapThread_cons, Lexeme.textOf_cons, Text.byteLength_append, ← Nat.add_assoc]
    exact .cons hpos htail

/-- Each lexeme is the text under its span. -/
theorem text?_place (lexemes : List Lexeme) (front back : List Char) (text : String)
    (h : text.toList = front ++ Lexeme.textOf lexemes ++ back) :
    (mapThread place (Text.byteLength front) lexemes).map
        (fun span => (span.category, span.text? text)) =
      lexemes.map fun lexeme => (lexeme.category, some (String.ofList lexeme.text)) := by
  induction lexemes generalizing front with
  | nil => rfl
  | cons lexeme lexemes ih =>
    have hhead : (place (Text.byteLength front) lexeme).1.text? text =
        some (String.ofList lexeme.text) := by
      apply text?_eq_some.mpr
      exact ⟨front, Lexeme.textOf lexemes ++ back, by simp [h], rfl, by simp [place]⟩
    have htail := ih (front ++ lexeme.text) (by simp [h])
    rw [Text.byteLength_append] at htail
    rw [mapThread_cons, List.map_cons, List.map_cons, hhead]
    exact congrArg _ htail

end Span

theorem Language.tiles_spans (language : Language) (text : String) :
    Span.Tiles 0 text.utf8ByteSize (language.spans text) := by
  have h := Span.tiles_place (language.scan text.toList) (by
    rw [language.scan_eq]
    exact Lexeme.nonempty_lexemes language .start text.toList) 0
  rwa [language.scan_eq, Lexeme.textOf_lexemes, Nat.zero_add, Text.byteLength_toList,
    ← language.scan_eq] at h

/-- The categories and slices of the spans are those of the lexemes. -/
theorem Language.slices_spans (language : Language) (text : String) :
    (language.spans text).map (fun span => (span.category, span.text? text)) =
      (language.scan text.toList).map
        fun lexeme => (lexeme.category, some (String.ofList lexeme.text)) :=
  Span.text?_place (language.scan text.toList) [] [] text
    (by simp [language.scan_eq, Lexeme.textOf_lexemes])

theorem Language.exists_text? (language : Language) {text : String} {span : Span}
    (h : span ∈ language.spans text) : ∃ slice, span.text? text = some slice := by
  have hslice : (span.category, span.text? text) ∈ (language.spans text).map
      fun span => (span.category, span.text? text) := List.mem_map_of_mem h
  rw [language.slices_spans text] at hslice
  obtain ⟨lexeme, _, hlexeme⟩ := List.mem_map.mp hslice
  exact ⟨String.ofList lexeme.text, (congrArg Prod.snd hlexeme).symm⟩

theorem Language.join_scan (language : Language) (text : String) :
    String.join ((language.scan text.toList).map (String.ofList ·.text)) = text := by
  apply String.toList_injective
  have htext := Lexeme.textOf_lexemes language .start text.toList
  simpa [String.toList_join, List.flatMap_map, language.scan_eq, Lexeme.textOf] using htext

/-- A language's own rules cut every text into spans without gap or overlap, each with a text of
its own. -/
theorem Language.scan_tiles_text (language : Language) (text : String) :
    ∃ spans slices, language.lexer.scan text = .ok spans ∧
      Span.Tiles 0 text.utf8ByteSize spans ∧ (spans = [] ↔ text = "") ∧
      (∀ span ∈ spans, (String.Pos.Raw.mk span.start).IsValid text ∧
        (String.Pos.Raw.mk span.stop).IsValid text) ∧
      spans.map (·.text? text) = slices.map some ∧ String.join slices = text := by
  have htiles := language.tiles_spans text
  have hslices := congrArg (List.map Prod.snd) (language.slices_spans text)
  simp only [List.map_map, Function.comp_def] at hslices
  refine ⟨language.spans text, (language.scan text.toList).map (String.ofList ·.text), rfl, htiles,
    ?_, ?_, ?_, ?_⟩
  · constructor
    · intro h
      rw [h] at htiles
      exact String.utf8ByteSize_eq_zero_iff.mp htiles.eq_of_nil.symm
    · rintro rfl
      simp [Language.spans, language.scan_eq, Lexeme.lexemes, Span.layOut]
  · intro span hmem
    obtain ⟨slice, hslice⟩ := language.exists_text? hmem
    exact Span.isValid_of_text? hslice
  · rw [hslices, List.map_map]
    rfl
  · exact language.join_scan text

end SourcePrint
