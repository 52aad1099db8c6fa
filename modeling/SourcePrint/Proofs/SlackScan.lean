import SourcePrint.Proofs.Quotations
import SourcePrint.Proofs.Slack

namespace SourcePrint

namespace Run

variable {σ : Type} {move : σ → Char → Move σ}

theorem exists_resume (move : σ → Char → Move σ) (taken : List Char) (state : σ) (cs : List Char) :
    ∃ more, (resume move taken state cs).taken = taken.reverse ++ more ∧
      cs = more ++ (resume move taken state cs).rest := by
  induction cs generalizing taken state with
  | nil => exact ⟨[], by simp [resume], rfl⟩
  | cons c cs ih =>
    rw [resume]
    cases move state c with
    | take next =>
      obtain ⟨more, htaken, hrest⟩ := ih (c :: taken) next
      exact ⟨c :: more, by simpa using htaken, congrArg (c :: ·) hrest⟩
    | close => exact ⟨[c], by simp, rfl⟩
    | stop => exact ⟨[], by simp, rfl⟩

/-- In this state a carriage return makes no difference to what a newline does. -/
def PassesReturn (move : σ → Char → Move σ) (state : σ) : Prop :=
  ∃ next, move state '\r' = .take next ∧ move next '\n' = move state '\n' ∧
    move state '\n' ≠ .close

end Run

namespace Lexeme

variable {returns : Prop} {language : Language} {cs cs' : List Char}

/-- A run leaves the same rest but for slack, if it takes no newline where a carriage return in
front would make a difference. -/
theorem Slack.resume_rest {σ : Type} {move : σ → Char → Move σ} (h : Slack returns cs cs')
    {taken : List Char} {start : σ} (taken' : List Char)
    (hpass : ∀ state, Run.PassesReturn move state ∨ (∃ next, move state '\n' = .take next) ∧
      (returns → '\n' ∉ (Run.resume move taken start cs).taken)) :
    Slack returns (Run.resume move taken start cs).rest
      (Run.resume move taken' start cs').rest := by
  induction h generalizing taken taken' start with
  | @ended blanks blank =>
    obtain ⟨more, -, hrest⟩ := Run.exists_resume move taken' start blanks
    exact of_suffix blank ⟨more, hrest.symm⟩
  | cons c tail ih =>
    simp only [Run.resume] at hpass ⊢
    cases hmove : move start c with
    | take next =>
      simp only [hmove] at hpass
      exact ih _ hpass
    | close => exact tail
    | stop => exact .cons c tail
  | @broken cs cs' allowed tail ih =>
    rcases hpass start with ⟨next, hreturn, hsame, hopen⟩ | ⟨⟨next, htake⟩, hquiet⟩
    · simp only [Run.resume, hreturn, hsame] at hpass ⊢
      cases hmove : move start '\n' with
      | take after =>
        simp only [hmove] at hpass
        exact ih _ hpass
      | close => exact absurd hmove hopen
      | stop => exact .cons '\n' tail
    · obtain ⟨more, htaken, -⟩ := Run.exists_resume move ('\n' :: taken) next cs
      rw [Run.resume, htake] at hquiet
      simp only at hquiet
      exact absurd (by simp [htaken]) (hquiet allowed)

theorem passesReturn_blockMove (star : Bool) : Run.PassesReturn blockMove star :=
  ⟨false, by simp [blockMove], by simp [blockMove], by simp [blockMove]⟩

theorem passesReturn_directiveMove (escaped : Bool) : Run.PassesReturn directiveMove escaped := by
  refine ⟨escaped, by simp [directiveMove], rfl, ?_⟩
  cases escaped <;> simp [directiveMove]

theorem passesReturn_characterMove (escaped : Bool) :
    Run.PassesReturn characterMove escaped ∨ ∃ next, characterMove escaped '\n' = .take next := by
  cases escaped with
  | true => exact .inr ⟨false, rfl⟩
  | false => exact .inl ⟨false, by simp [characterMove], rfl, by simp [characterMove]⟩

/-- How a stretch of a string literal ends in a text with slack: as it did, or with a carriage
return in front of the newline that ends it, or with some of the blanks at the end of the text. -/
inductive StretchEnds (returns : Prop) : Run → Run → Prop where
  | closed (taken : List Char) {r r' : List Char} (rest : Slack returns r r') :
      StretchEnds returns ⟨taken, r, true⟩ ⟨taken, r', true⟩
  | escape (taken : List Char) {r r' : List Char} (rest : Slack returns r r') :
      StretchEnds returns ⟨taken, '\\' :: r, false⟩ ⟨taken, '\\' :: r', false⟩
  | line (taken : List Char) {r r' extra : List Char}
      (more : extra = [] ∨ extra = ['\r'] ∧ returns) (rest : Slack returns r r') :
      StretchEnds returns ⟨taken, '\n' :: r, false⟩ ⟨taken ++ extra, '\n' :: r', false⟩
  | ended (taken : List Char) {more blanks : List Char} (blank : blanks.all Text.isBlank = true) :
      StretchEnds returns ⟨taken, [], false⟩ ⟨taken ++ more, blanks, false⟩

theorem exists_resume_blank {blanks : List Char} (h : blanks.all Text.isBlank = true)
    (taken : List Char) :
    ∃ more rest, Run.resume stringMove taken () blanks = ⟨taken.reverse ++ more, rest, false⟩ ∧
      rest.all Text.isBlank = true := by
  induction blanks generalizing taken with
  | nil => exact ⟨[], [], by simp [Run.resume], rfl⟩
  | cons c blanks ih =>
    obtain ⟨hc, hblanks⟩ := Bool.and_eq_true_iff.mp h
    have hquote : c ≠ '"' := ne_of_isBlank hc (by decide)
    rw [Run.resume]
    cases hmove : stringMove () c with
    | take _ =>
      obtain ⟨more, rest, hrun, hrest⟩ := ih hblanks (c :: taken)
      exact ⟨c :: more, rest, by simpa using hrun, hrest⟩
    | close =>
      unfold stringMove at hmove
      rw [if_neg hquote] at hmove
      split at hmove <;> cases hmove
    | stop => exact ⟨[], c :: blanks, by simp, h⟩

theorem Slack.stretchEnds (h : Slack returns cs cs') (taken : List Char) :
    StretchEnds returns (Run.resume stringMove taken () cs)
      (Run.resume stringMove taken () cs') := by
  induction h generalizing taken with
  | ended blank =>
    obtain ⟨more, rest, hrun, hrest⟩ := exists_resume_blank blank taken
    rw [hrun]
    exact .ended _ hrest
  | cons c tail ih =>
    simp only [Run.resume]
    cases hmove : stringMove () c with
    | take _ => exact ih (c :: taken)
    | close => exact .closed _ tail
    | stop =>
      rcases (stringMove_eq_stop () c).mp hmove with rfl | rfl
      · simpa using StretchEnds.line taken.reverse (.inl rfl) tail
      · exact .escape _ tail
  | broken allowed tail ih =>
    simpa [Run.resume, stringMove] using StretchEnds.line taken.reverse (.inr ⟨rfl, allowed⟩) tail

/-- No newline comes into a part of a quoted literal, and in Java no such part that reads as a
single dot stands in front of one. -/
def Unbroken (language : Language) (lexeme : Lexeme) (behind : List Char) : Prop :=
  ∀ kind, lexeme.category = .string kind →
    '\n' ∉ lexeme.text ∧ (language = .java → lexeme.text = ['.'] → behind.head? ≠ some '\n')

/-- All lexemes of a reading are unbroken. -/
def AllUnbroken (language : Language) (lexemes : List Lexeme) (rest : List Char) : Prop :=
  ∀ before lexeme after, lexemes = before ++ lexeme :: after →
    Unbroken language lexeme (textOf after ++ rest)

theorem AllUnbroken.right {a b : List Lexeme} {rest : List Char}
    (h : AllUnbroken language (a ++ b) rest) : AllUnbroken language b rest := by
  rintro before lexeme after rfl
  exact h (a ++ before) lexeme after (by simp)

theorem AllUnbroken.left {a b : List Lexeme} {rest : List Char}
    (h : AllUnbroken language (a ++ b) rest) : AllUnbroken language a (textOf b ++ rest) := by
  rintro before lexeme after rfl
  simpa using h before lexeme (after ++ b) (by simp)

theorem takeWhile_take (p : Char → Bool) (n : Nat) (cs : List Char) :
    (cs.take n).takeWhile p = (cs.takeWhile p).take n := by
  induction n generalizing cs with
  | zero => simp
  | succ n ih =>
    cases cs with
    | nil => simp
    | cons c cs =>
      by_cases hc : p c = true
      · simp [hc, ih]
      · simp [hc]

theorem Slack.escapeTail (h : Slack returns cs cs')
    (hbreak : returns → '\n' ∉ (Lexeme.escapeTail cs).1) :
    Slack returns (Lexeme.escapeTail cs).2 (Lexeme.escapeTail cs').2 := by
  cases cs with
  | nil => exact of_suffix h.blank_of_nil ⟨_, escapeTail_append cs'⟩
  | cons c cs =>
    have hc : returns → c ≠ '\n' := by
      rintro hreturns rfl
      exact hbreak hreturns (by simp [Lexeme.escapeTail, isOctalDigit])
    obtain ⟨cs', rfl, htail⟩ := h.exists_of_cons hc
    simp only [Lexeme.escapeTail]
    split
    · exact htail.dropWhile_of_noBlank
        (noBlank_of_number fun c h => .inl (isAlphanum_of_isHexDigit h))
    · split
      · have hdigits : (cs'.take 2).takeWhile isOctalDigit =
            (cs.take 2).takeWhile isOctalDigit := by
          rw [takeWhile_take, takeWhile_take, htail.takeWhile_eq noBlank_isOctalDigit]
        obtain ⟨r, hr⟩ := (List.takeWhile_prefix isOctalDigit).trans (List.take_prefix 2 cs)
        obtain ⟨r', hr'⟩ := (List.takeWhile_prefix isOctalDigit).trans (List.take_prefix 2 cs')
        rw [hdigits] at hr' ⊢
        generalize (cs.take 2).takeWhile isOctalDigit = digits at hr hr'
        subst hr hr'
        rw [List.drop_left, List.drop_left]
        exact htail.of_append
      · exact htail

theorem foldl_dotAfter_stretch (dot : Bool) (text : List Char) :
    (stretch text).foldl dotAfter dot = if text = [] then dot else text == ['.'] := by
  unfold stretch
  split <;> rfl

theorem foldl_dotAfter_return {dot : Bool} {text : List Char} (hempty : text = [] → dot = false)
    (hdot : text ≠ ['.']) :
    (stretch (text ++ ['\r'])).foldl dotAfter dot = (stretch text).foldl dotAfter dot := by
  have hreturn : (text ++ ['\r'] == ['.']) = false := by
    rw [beq_eq_false_iff_ne]
    intro h
    have hlast := congrArg List.getLast? h
    simp at hlast
  rw [foldl_dotAfter_stretch, foldl_dotAfter_stretch, if_neg (by simp), hreturn]
  split
  · rename_i htext
    rw [hempty htext]
  · rw [beq_eq_false_iff_ne.mpr hdot]

/-- The rest of a string literal, and in Java whether it ends in a part that reads as a dot. -/
theorem Slack.stringParts (h : Slack returns cs cs') {opening : List Char} (dot : Bool)
    (hopening : opening = [] → dot = false)
    (hquiet : returns → AllUnbroken language (Lexeme.stringParts opening cs).lexemes
      (Lexeme.stringParts opening cs).rest) :
    Slack returns (Lexeme.stringParts opening cs).rest (Lexeme.stringParts opening cs').rest ∧
      (language = .java → (Lexeme.stringParts opening cs).rest ≠ [] →
        (Lexeme.stringParts opening cs').lexemes.foldl dotAfter dot =
          (Lexeme.stringParts opening cs).lexemes.foldl dotAfter dot) := by
  induction hlength : cs.length using Nat.strongRecOn generalizing opening cs cs' dot with
  | ind n ih =>
  have hends := h.stretchEnds []
  generalize hrun : Run.resume stringMove [] () cs = run at hends
  generalize hrun' : Run.resume stringMove [] () cs' = run' at hends
  cases hends with
  | closed taken rest =>
    rw [stringParts_of_closed hrun, stringParts_of_closed hrun']
    exact ⟨rest, fun _ _ => rfl⟩
  | @escape taken r r' rest =>
    have hshorter := length_escaped_lt (congrArg Run.rest hrun)
    rw [stringParts_of_escape hrun] at hquiet ⊢
    rw [stringParts_of_escape hrun']
    have hescape : returns → '\n' ∉ (Lexeme.escapeTail r).1 := by
      intro hreturns hmem
      exact (hquiet hreturns _ _ _ rfl .escape rfl).1 (List.mem_cons_of_mem _ hmem)
    have hmore : returns → AllUnbroken language
        (Lexeme.stringParts [] (Lexeme.escapeTail r).2).lexemes
        (Lexeme.stringParts [] (Lexeme.escapeTail r).2).rest := by
      intro hreturns
      exact (hquiet hreturns).right.right (a := [_])
    obtain ⟨hrest, hdots⟩ := ih _ (hlength ▸ hshorter) (rest.escapeTail hescape) false
      (fun _ => rfl) hmore rfl
    refine ⟨hrest, fun hjava hne => ?_⟩
    have hfront : ∀ dot tail, dotAfter dot ⟨.string .escape, '\\' :: tail⟩ = false := by
      intro dot tail
      simp [dotAfter, Category.isTrivia, Category.family]
    simp only [List.foldl_append, List.foldl_cons, hfront]
    exact hdots hjava hne
  | @line taken r r' extra more rest =>
    rw [stringParts_of_stop hrun (by simp)] at hquiet ⊢
    rw [stringParts_of_stop hrun' (by simp)]
    refine ⟨.cons '\n' rest, fun hjava _ => ?_⟩
    rcases more with rfl | ⟨rfl, hreturns⟩
    · simp
    · rw [← List.append_assoc]
      refine foldl_dotAfter_return (fun htext => hopening (List.append_eq_nil_iff.mp htext).1) ?_
      intro htext
      have hpart := hquiet hreturns [] ⟨.string .plain, ['.']⟩ [] (by simp [stretch, htext])
      exact (hpart .plain rfl).2 hjava rfl rfl
  | @ended taken more blanks blank =>
    have hback : blanks.head? ≠ some '\\' := by
      intro hhead
      obtain ⟨r, rfl⟩ := List.head?_eq_some_iff.mp hhead
      exact absurd (Bool.and_eq_true_iff.mp blank).1 (by decide)
    rw [stringParts_of_stop hrun (by simp), stringParts_of_stop hrun' hback]
    exact ⟨.ended blank, fun _ hne => absurd rfl hne⟩

end Lexeme

/-- The kinds of the tokens that lexemes leave. -/
def Classifier.kinds (classifier : Classifier) (lexemes : List Lexeme) : List Symbol :=
  Symbol.joinLiterals (lexemes.filterMap fun lexeme =>
    classifier.classify lexeme.category lexeme.text)

theorem Classifier.kinds_append_congr {classifier : Classifier} {after after' : List Lexeme}
    (h : classifier.kinds after' = classifier.kinds after) (front : List Lexeme) :
    classifier.kinds (front ++ after') = classifier.kinds (front ++ after) := by
  unfold kinds
  rw [List.filterMap_append, List.filterMap_append]
  exact Symbol.joinLiterals_congr h _

theorem Classifier.kinds_cons_of_none {classifier : Classifier} {lexeme : Lexeme}
    (h : classifier.classify lexeme.category lexeme.text = none) (after : List Lexeme) :
    classifier.kinds (lexeme :: after) = classifier.kinds after := by
  rw [kinds, List.filterMap_cons, h, kinds]

theorem Classifier.classify_of_isTrivia (classifier : Classifier) {category : Category}
    (h : category.isTrivia = true) (text : List Char) :
    classifier.classify category text = none := by
  cases category with
  | text | whitespace | comment => rfl
  | _ => cases h

theorem Classifier.kinds_string_congr {classifier : Classifier}
    {parts parts' after after' : List Lexeme}
    (hstring : ∀ part ∈ parts ++ parts', ∃ kind, part.category = .string kind)
    (htext : Lexeme.textOf parts ≠ []) (htext' : Lexeme.textOf parts' ≠ [])
    (h : classifier.kinds after' = classifier.kinds after) :
    classifier.kinds (parts' ++ after') = classifier.kinds (parts ++ after) := by
  have hparts := classifier.joinLiterals_string
    (fun part hmem => hstring part (List.mem_append_left _ hmem)) htext [] after
  have hparts' := classifier.joinLiterals_string
    (fun part hmem => hstring part (List.mem_append_right _ hmem)) htext' [] after'
  exact hparts'.trans ((Symbol.joinLiterals_congr h [.literal]).trans hparts.symm)

namespace Lexeme

/-- A reading of a text with slack in the place of a reading of the text: it leaves the same kinds
in front of what follows, slack in its rest, and in Java the same dot. -/
structure Mirrors (returns : Prop) (language : Language) (reading reading' : Reading) : Prop where
  rest : Slack returns reading.rest reading'.rest
  kinds : ∀ (classifier : Classifier) (after after' : List Lexeme),
    classifier.kinds after' = classifier.kinds after →
    classifier.kinds (reading'.lexemes ++ after') = classifier.kinds (reading.lexemes ++ after)
  dots : language = .java → reading.rest ≠ [] → ∀ dot,
    reading'.lexemes.foldl dotAfter dot = reading.lexemes.foldl dotAfter dot

theorem Kept.mirrors {reading reading' : Reading} (h : Kept returns reading reading') :
    Mirrors returns language reading reading' where
  rest := h.rest
  kinds classifier after after' hafter := by
    rw [h.lexemes]
    exact Classifier.kinds_append_congr hafter _
  dots _ _ dot := by rw [h.lexemes]

theorem mirrors_trivia {category : Category} (htrivia : category.isTrivia = true)
    {text text' rest rest' : List Char} (h : Slack returns rest rest') :
    Mirrors returns language (.one category text rest) (.one category text' rest') where
  rest := h
  kinds classifier after after' hafter := by
    rw [Reading.one, Reading.one, List.singleton_append, List.singleton_append,
      Classifier.kinds_cons_of_none (classifier.classify_of_isTrivia htrivia _),
      Classifier.kinds_cons_of_none (classifier.classify_of_isTrivia htrivia _), hafter]
  dots _ _ dot := by simp [Reading.one, dotAfter, htrivia]

theorem textOf_ne_nil {reading : Reading} {opening cs : List Char}
    (h : reading.Covers (opening ++ cs)) (hopening : opening ≠ [])
    (hle : reading.rest.length ≤ cs.length) : textOf reading.lexemes ≠ [] := by
  intro hempty
  have hall := congrArg List.length h.text
  have hpos := List.length_pos_iff.mpr hopening
  rw [hempty, List.nil_append, List.length_append] at hall
  omega

theorem Slack.mirrors_stringParts (h : Slack returns cs cs') {opening : List Char}
    (hopening : opening ≠ [])
    (hquiet : returns → AllUnbroken language (Lexeme.stringParts opening cs).lexemes
      (Lexeme.stringParts opening cs).rest) :
    Mirrors returns language (Lexeme.stringParts opening cs) (Lexeme.stringParts opening cs') := by
  have htext : ∀ cs, textOf (Lexeme.stringParts opening cs).lexemes ≠ [] := fun cs =>
    textOf_ne_nil (covers_stringParts opening cs) hopening (length_stringParts_le opening cs)
  have hparts := fun dot => h.stringParts dot (fun hnil => absurd hnil hopening) hquiet
  refine ⟨(hparts false).1, ?_, fun hjava hne dot => (hparts dot).2 hjava hne⟩
  intro classifier after after' hafter
  refine Classifier.kinds_string_congr ?_ (htext cs) (htext cs') hafter
  intro part hmem
  exact (List.mem_append.mp hmem).elim (string_of_mem_stringParts _ _ part)
    (string_of_mem_stringParts _ _ part)

theorem Slack.mirrors_characterLiteral (h : Slack returns cs cs') {opening : List Char}
    (hopening : '\'' ∈ opening)
    (hquiet : returns → AllUnbroken language (characterLiteral opening cs).lexemes
      (characterLiteral opening cs).rest) :
    Mirrors returns language (characterLiteral opening cs) (characterLiteral opening cs') := by
  have hne : opening ≠ [] := List.ne_nil_of_mem hopening
  have htext : ∀ cs, textOf (characterLiteral opening cs).lexemes ≠ [] := fun cs =>
    textOf_ne_nil (covers_characterLiteral opening cs hne) hne
      (length_characterLiteral_le opening cs)
  refine ⟨?_, ?_, ?_⟩
  · refine h.resume_rest [] fun state => ?_
    refine (passesReturn_characterMove state).imp_right fun htake => ⟨htake, ?_⟩
    intro hreturns hmem
    exact (hquiet hreturns [] _ [] rfl .character rfl).1 (List.mem_append_right _ hmem)
  · intro classifier after after' hafter
    refine Classifier.kinds_string_congr ?_ (htext cs) (htext cs') hafter
    simp [characterLiteral, Reading.one]
  · intro _ _ dot
    have hno : ∀ taken, (opening ++ taken == ['.']) = false := by
      intro taken
      rw [beq_eq_false_iff_ne]
      intro h
      have hmem : '\'' ∈ ['.'] := h ▸ List.mem_append_left _ hopening
      simp at hmem
    simp [characterLiteral, Reading.one, dotAfter, Category.isTrivia, Category.family, hno]

/-- The contexts agree in what the language looks at. -/
structure Context.Agrees (language : Language) (context context' : Context) : Prop where
  line : context'.lineStart = context.lineStart
  dot : language = .java → context'.afterDot = context.afterDot

theorem wordCategory_congr {dot dot' : Bool} (h : language = .java → dot' = dot)
    (word : List Char) : wordCategory language dot' word = wordCategory language dot word := by
  unfold wordCategory
  by_cases hjava : language = .java
  · rw [h hjava]
  · simp [hjava]

theorem Slack.mirrors_wordReading (h : Slack returns cs cs') {dot dot' : Bool}
    (hdot : language = .java → dot' = dot) (word : List Char)
    (hquiet : returns → AllUnbroken language (wordReading language dot word cs).lexemes
      (wordReading language dot word cs).rest) :
    Mirrors returns language (wordReading language dot word cs)
      (wordReading language dot' word cs') := by
  by_cases hencoding : language ≠ .java ∧ encodingWords.contains word = true
  · by_cases hquote : cs.head? = some '"'
    · obtain ⟨after, rfl⟩ := List.head?_eq_some_iff.mp hquote
      obtain ⟨after', rfl, htail⟩ := h.exists_of_cons (by simp)
      simp only [wordReading, if_pos hencoding] at hquiet ⊢
      exact htail.mirrors_stringParts (by simp) hquiet
    · by_cases hapostrophe : cs.head? = some '\''
      · obtain ⟨after, rfl⟩ := List.head?_eq_some_iff.mp hapostrophe
        obtain ⟨after', rfl, htail⟩ := h.exists_of_cons (by simp)
        simp only [wordReading, if_pos hencoding] at hquiet ⊢
        exact htail.mirrors_characterLiteral (by simp) hquiet
      · rw [wordReading_plain fun _ _ => ⟨hquote, hapostrophe⟩,
          wordReading_plain fun _ _ => ⟨mt (h.head?_iff (by decide)).mp hquote,
            mt (h.head?_iff (by decide)).mp hapostrophe⟩, wordCategory_congr hdot]
        exact Kept.mirrors ⟨rfl, h⟩
  · rw [wordReading_plain fun hjava hword => absurd ⟨hjava, hword⟩ hencoding,
      wordReading_plain fun hjava hword => absurd ⟨hjava, hword⟩ hencoding, wordCategory_congr hdot]
    exact Kept.mirrors ⟨rfl, h⟩

theorem Slack.mirrors_readWord (h : Slack returns cs cs') {dot dot' : Bool}
    (hdot : language = .java → dot' = dot)
    (hquiet : returns → AllUnbroken language (readWord language dot cs).lexemes
      (readWord language dot cs).rest) :
    Mirrors returns language (readWord language dot cs) (readWord language dot' cs') := by
  rw [readWord_eq (h.takeWhile_eq noBlank_isNameContinue) rfl]
  rw [readWord_eq rfl rfl] at hquiet ⊢
  exact (h.dropWhile_of_noBlank noBlank_isNameContinue).mirrors_wordReading hdot _ hquiet

theorem longestMatch?_eq_none {table : List String} {c : Char}
    (h : (table.all fun sign => sign.toList.head?.any (· != c)) = true) (cs : List Char) :
    longestMatch? table (c :: cs) = none := by
  cases hfound : longestMatch? table (c :: cs) with
  | none => rfl
  | some sign =>
    obtain ⟨hmem, rest, hrest⟩ := longestMatch?_mem hfound
    obtain ⟨entry, hentry, rfl⟩ := List.mem_map.mp hmem
    have hhead := List.all_eq_true.mp h entry hentry
    cases htext : entry.toList with
    | nil => simp [htext] at hhead
    | cons d more =>
      rw [htext, List.cons_append] at hrest
      simp [htext, (List.cons.inj hrest).1] at hhead

theorem readToken_backslash (language : Language) (context : Context) (cs : List Char) :
    readToken language context '\\' cs =
      .one (if cs.head? = some '\n' ∨ cs.head? = some '\r' then .text else .error) ['\\'] cs := by
  have hsign : readSign '\\' cs = .one .error ['\\'] cs := by
    rw [readSign, longestMatch?_eq_none (by decide +kernel),
      longestMatch?_eq_none (by decide +kernel)]
  have hnumber : startsNumber '\\' cs = false := by simp [startsNumber]
  have hname : isNameStart '\\' = false := by decide
  by_cases hbreak : cs.head? = some '\n' ∨ cs.head? = some '\r'
  · simp [readToken, hbreak]
  · simp [readToken, hbreak, hnumber, hname, hsign]

theorem Slack.mirrors_backslash (h : Slack returns cs cs') (context context' : Context) :
    Mirrors returns language (readToken language context '\\' cs)
      (readToken language context' '\\' cs') := by
  rw [readToken_backslash, readToken_backslash]
  have hnone : ∀ (classifier : Classifier) (cs : List Char), classifier.classify
      (if cs.head? = some '\n' ∨ cs.head? = some '\r' then .text else .error) ['\\'] = none := by
    intro classifier cs
    split <;> rfl
  refine ⟨h, ?_, ?_⟩
  · intro classifier after after' hafter
    rw [Reading.one, Reading.one, List.singleton_append, List.singleton_append,
      Classifier.kinds_cons_of_none (hnone classifier cs'),
      Classifier.kinds_cons_of_none (hnone classifier cs), hafter]
  · intro _ hne dot
    have hsame : (cs'.head? = some '\n' ∨ cs'.head? = some '\r') ↔
        (cs.head? = some '\n' ∨ cs.head? = some '\r') := by
      cases h with
      | ended _ => exact absurd rfl hne
      | cons c _ => exact .rfl
      | broken _ _ => simp
    simp only [Reading.one, hsame]

/-- One token of a text with slack, read in contexts that agree. -/
theorem Slack.mirrors_readToken (h : Slack returns cs cs') {c : Char} {context context' : Context}
    (hcontext : context.Agrees language context')
    (hquiet : returns → AllUnbroken language (readToken language context c cs).lexemes
      (readToken language context c cs).rest) :
    Mirrors returns language (readToken language context c cs)
      (readToken language context' c cs') := by
  by_cases hback : c = '\\'
  · subst hback
    exact h.mirrors_backslash context context'
  have hslash : cs'.head? = some '/' ↔ cs.head? = some '/' := h.head?_iff (by decide)
  have hstar : cs'.head? = some '*' ↔ cs.head? = some '*' := h.head?_iff (by decide)
  have hnumber : startsNumber c cs' = startsNumber c cs := by
    rw [startsNumber, startsNumber, h.any_head? noBlank_isDigit]
  have hname := h.any_head? noBlank_isNameStart
  revert hquiet
  simp only [Lexeme.readToken, hback, hslash, hstar, hnumber, hname, hcontext.line, false_and,
    if_false]
  split
  · exact fun _ => mirrors_trivia rfl ((Slack.cons c h).dropWhile (by simp))
  split
  · rename_i hblock
    obtain ⟨after, rfl⟩ := List.head?_eq_some_iff.mp hblock.2
    obtain ⟨after', rfl, htail⟩ := h.exists_of_cons (by simp)
    exact fun _ => mirrors_trivia rfl
      (htail.resume_rest [] fun star => .inl (passesReturn_blockMove star))
  split
  · exact fun _ => mirrors_trivia rfl
      (h.resume_rest [] fun escaped => .inl (passesReturn_directiveMove escaped))
  split
  · exact h.mirrors_stringParts (by simp)
  split
  · rename_i hc
    exact h.mirrors_characterLiteral (by simp [hc])
  split
  · exact fun _ => ((Slack.cons c h).readNumber language).mirrors
  split
  · exact fun _ => h.readDecorator.mirrors
  split
  · exact (Slack.cons c h).mirrors_readWord hcontext.dot
  · exact fun _ => (h.readSign c).mirrors

theorem Slack.contains_newline (h : Slack returns cs cs') (hrest : cs.dropWhile Text.isBlank ≠ []) :
    (cs'.takeWhile Text.isBlank).contains '\n' = (cs.takeWhile Text.isBlank).contains '\n' := by
  induction h with
  | ended _ => exact absurd rfl hrest
  | cons c tail ih =>
    by_cases hc : Text.isBlank c = true
    · rw [List.dropWhile_cons_of_pos hc] at hrest
      rw [List.takeWhile_cons_of_pos hc, List.takeWhile_cons_of_pos hc, List.contains_cons,
        List.contains_cons, ih hrest]
    · rw [List.takeWhile_cons_of_neg hc, List.takeWhile_cons_of_neg hc]
  | broken _ _ =>
    have hreturn : Text.isBlank '\r' = true := by decide
    have hnewline : Text.isBlank '\n' = true := by decide
    simp [hreturn, hnewline]

/-- What is read next from a text with slack, and the context behind it. -/
theorem Slack.mirrors_readNext (h : Slack returns cs cs') (hne : cs ≠ [])
    {context context' : Context} (hcontext : context.Agrees language context')
    (hquiet : returns → AllUnbroken language (readNext language context cs).lexemes
      (readNext language context cs).rest) :
    Mirrors returns language (readNext language context cs) (readNext language context' cs') ∧
      ((readNext language context cs).rest ≠ [] →
        (context.next language cs).Agrees language (context'.next language cs')) := by
  cases cs with
  | nil => exact absurd rfl hne
  | cons c cs =>
    by_cases hc : Text.isBlank c = true
    · obtain ⟨d, ds, rfl, hd⟩ : ∃ d ds, cs' = d :: ds ∧ Text.isBlank d = true := by
        cases h with
        | cons _ _ => exact ⟨c, _, rfl, hc⟩
        | broken _ _ => exact ⟨'\r', _, rfl, by decide⟩
      simp only [readNext, Context.next, if_pos hc, if_pos hd]
      refine ⟨mirrors_trivia rfl (h.dropWhile fun _ => by decide), fun hrest => ⟨?_, hcontext.dot⟩⟩
      have hsame := h.contains_newline hrest
      rw [List.takeWhile_cons_of_pos hc, List.takeWhile_cons_of_pos hd] at hsame
      simp only [Context.afterBlanks, hcontext.line, hsame]
    · have hbreak : c ≠ '\n' := by
        rintro rfl
        exact hc (by decide)
      obtain ⟨cs', rfl, htail⟩ := h.exists_of_cons fun _ => hbreak
      simp only [readNext, Context.next, if_neg hc] at hquiet ⊢
      have hmirrors := htail.mirrors_readToken hcontext hquiet
      refine ⟨hmirrors, fun hrest => ⟨rfl, fun hjava => ?_⟩⟩
      rw [Context.after, Context.after, hcontext.dot hjava]
      exact hmirrors.dots hjava hrest context.afterDot

theorem kinds_lexemes_of_blank {blanks : List Char} (h : blanks.all Text.isBlank = true)
    (classifier : Classifier) (context : Context) :
    classifier.kinds (lexemes language context blanks) = classifier.kinds [] := by
  have hgap : lexemes language context (blanks ++ []) = gap blanks ++ lexemes language _ [] :=
    lexemes_blanks h rfl
  rw [List.append_nil, lexemes, List.append_nil] at hgap
  rw [hgap, gap]
  split
  · rfl
  · exact Classifier.kinds_cons_of_none rfl []

/-- Slack in the line ends of a text does not show in the kinds of its tokens. Carriage returns may
come in front of newlines if the quoted literals are unbroken. -/
theorem Slack.kinds_lexemes (h : Slack returns cs cs') {context context' : Context}
    (hcontext : context.Agrees language context')
    (hquiet : returns → AllUnbroken language (lexemes language context cs) [])
    (classifier : Classifier) :
    classifier.kinds (lexemes language context' cs') =
      classifier.kinds (lexemes language context cs) := by
  induction context, cs using scan_induction language generalizing context' cs' with
  | nil context =>
    rw [kinds_lexemes_of_blank h.blank_of_nil, lexemes]
  | step context cs hne ih =>
    rw [lexemes_eq_readNext language context cs] at hquiet ⊢
    rw [lexemes_eq_readNext language context' cs']
    obtain ⟨hmirrors, hnext⟩ := h.mirrors_readNext hne hcontext fun hreturns => by
      have hfront := (hquiet hreturns).left
      rwa [textOf_lexemes, List.append_nil] at hfront
    apply hmirrors.kinds
    by_cases hrest : (readNext language context cs).rest = []
    · have hblank := hmirrors.rest
      rw [hrest] at hblank ⊢
      rw [kinds_lexemes_of_blank hblank.blank_of_nil, lexemes]
    · exact ih hmirrors.rest (hnext hrest) fun hreturns => (hquiet hreturns).right

end Lexeme

end SourcePrint
