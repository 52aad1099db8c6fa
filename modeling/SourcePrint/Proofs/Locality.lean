import SourcePrint.Proofs.Numerals

namespace SourcePrint.Lexeme

variable {language : Language} {t r r' : List Char}

theorem append_of_rest {taken opening after : List Char} (h : taken ++ r = opening ++ after)
    (hle : r.length ≤ after.length) : ∃ v, v ++ r = after :=
  List.suffix_of_suffix_length_le ⟨taken, rfl⟩ ⟨opening, h.symm⟩ hle

/-- What a word makes of the text behind it. -/
def wordReading (language : Language) (afterDot : Bool) (word rest : List Char) : Reading :=
  let plain := Reading.one (wordCategory language afterDot word) word rest
  if language ≠ .java ∧ encodingWords.contains word then
    match rest with
    | '"' :: after => stringParts (word ++ ['"']) after
    | '\'' :: after => characterLiteral (word ++ ['\'']) after
    | _ => plain
  else plain

theorem readWord_eq {afterDot : Bool} {cs word rest : List Char}
    (htake : cs.takeWhile isNameContinue = word) (hdrop : cs.dropWhile isNameContinue = rest) :
    readWord language afterDot cs = wordReading language afterDot word rest := by
  subst htake hdrop
  rfl

theorem wordReading_plain {afterDot : Bool} {word rest : List Char}
    (h : language ≠ .java → encodingWords.contains word = true →
      rest.head? ≠ some '"' ∧ rest.head? ≠ some '\'') :
    wordReading language afterDot word rest =
      .one (wordCategory language afterDot word) word rest := by
  unfold wordReading
  split
  · rename_i hword
    obtain ⟨hquote, hapostrophe⟩ := h hword.1 hword.2
    split
    · exact absurd rfl hquote
    · exact absurd rfl hapostrophe
    · rfl
  · rfl

theorem length_wordReading_le (language : Language) (afterDot : Bool) (word rest : List Char) :
    (wordReading language afterDot word rest).rest.length ≤ rest.length := by
  unfold wordReading
  split
  · split
    · exact Nat.le_succ_of_le (length_stringParts_le _ _)
    · exact Nat.le_succ_of_le (length_characterLiteral_le _ _)
    · exact Nat.le_refl _
  · exact Nat.le_refl _

theorem wordReading_exchange {afterDot : Bool} {word : List Char} {lexemes : List Lexeme}
    (hr : Alike r r') (h : wordReading language afterDot word (t ++ r) = ⟨lexemes, r⟩) :
    wordReading language afterDot word (t ++ r') = ⟨lexemes, r'⟩ := by
  cases t with
  | nil =>
    have hplain : language ≠ .java → encodingWords.contains word = true →
        r.head? ≠ some '"' ∧ r.head? ≠ some '\'' := by
      intro hjava hword
      have hlength := congrArg (fun reading : Reading => reading.rest.length) h
      simp only [wordReading, hjava, hword, ne_eq, not_false_eq_true, and_self, if_true,
        List.nil_append] at hlength
      constructor
      · intro hquote
        obtain ⟨after, rfl⟩ := List.head?_eq_some_iff.mp hquote
        have hle := length_stringParts_le (word ++ ['"']) after
        simp only [List.length_cons] at hlength
        omega
      · intro hapostrophe
        obtain ⟨after, rfl⟩ := List.head?_eq_some_iff.mp hapostrophe
        have hle := length_characterLiteral_le (word ++ ['\'']) after
        simp only [List.length_cons] at hlength
        omega
    have hplain' : language ≠ .java → encodingWords.contains word = true →
        r'.head? ≠ some '"' ∧ r'.head? ≠ some '\'' := by
      have hquote := hr.head?_iff fun c d twin => twin.quote
      have hapostrophe := hr.head?_iff fun c d twin => twin.apostrophe
      simpa only [ne_eq, hquote, hapostrophe] using hplain
    rw [List.nil_append, wordReading_plain hplain] at h
    rw [List.nil_append, wordReading_plain hplain']
    cases h
    rfl
  | cons x t =>
    rw [List.cons_append] at h ⊢
    by_cases hword : (language ≠ .java ∧ encodingWords.contains word = true) ∧
        (x = '"' ∨ x = '\'')
    · obtain ⟨hword, rfl | rfl⟩ := hword
      · simp only [wordReading, if_pos hword] at h ⊢
        rw [stringParts_exchange hr (congrArg Reading.rest h), h]
      · simp only [wordReading, if_pos hword] at h ⊢
        exact characterLiteral_exchange hr h
    · rw [wordReading_plain] at h
      · have hlength := congrArg (fun reading : Reading => reading.rest.length) h
        simp only [Reading.one, List.length_cons, List.length_append] at hlength
        omega
      · intro hjava hencoding
        simp only [List.head?_cons, ne_eq, Option.some.injEq, ← not_or]
        exact fun hx => hword ⟨⟨hjava, hencoding⟩, hx⟩

theorem readWord_exchange {afterDot : Bool} {lexemes : List Lexeme} (hr : Alike r r')
    (h : readWord language afterDot (t ++ r) = ⟨lexemes, r⟩) :
    readWord language afterDot (t ++ r') = ⟨lexemes, r'⟩ := by
  have happend : (t ++ r).takeWhile isNameContinue ++ (t ++ r).dropWhile isNameContinue = t ++ r :=
    List.takeWhile_append_dropWhile
  generalize htake : (t ++ r).takeWhile isNameContinue = word at happend
  generalize hdrop : (t ++ r).dropWhile isNameContinue = rest at happend
  rw [readWord_eq htake hdrop] at h
  have hle := length_wordReading_le language afterDot word rest
  rw [h] at hle
  obtain ⟨v, rfl⟩ := append_of_rest happend.symm hle
  obtain rfl : word ++ v = t := List.append_cancel_right ((List.append_assoc ..).trans happend)
  rw [List.append_assoc] at hdrop ⊢
  obtain ⟨htake', hdrop'⟩ :=
    takeWhile_exchange hdrop ((hr.append v).any_head? fun c d twin => twin.nameContinue)
  rw [readWord_eq htake' hdrop']
  exact wordReading_exchange hr h

theorem readDecorator_exchange {lexemes : List Lexeme} (hr : Alike r r')
    (h : readDecorator (t ++ r) = ⟨lexemes, r⟩) : readDecorator (t ++ r') = ⟨lexemes, r'⟩ := by
  have hheads : (r.head?.any fun c => isNameContinue c || c == '.') =
      (r'.head?.any fun c => isNameContinue c || c == '.') := by
    apply hr.any_head?
    intro c d twin
    rw [twin.nameContinue, twin.beq_eq (by decide)]
  obtain ⟨hlexemes, hrest⟩ := Reading.mk.inj h
  have hself := (takeWhile_exchange hrest rfl).1
  obtain ⟨htake, hdrop⟩ := takeWhile_exchange hrest hheads
  rw [hself] at hlexemes
  simp only [readDecorator, htake, hdrop, ← hlexemes]
  rfl

theorem drop_exchange {n : Nat} (hn : n ≤ (t ++ r).length) (h : (t ++ r).drop n = r) :
    (t ++ r').drop n = r' := by
  have hlength := congrArg List.length h
  simp only [List.length_drop, List.length_append] at hlength hn
  rw [List.drop_left' (by omega)]

theorem readSign_exchange {c : Char} {lexemes : List Lexeme} (hr : Alike r r')
    (h : readSign c (t ++ r) = ⟨lexemes, r⟩) : readSign c (t ++ r') = ⟨lexemes, r'⟩ := by
  have halike : Alike (c :: (t ++ r)) (c :: (t ++ r')) := .cons c (hr.append t)
  have hone : ∀ {category : Category} {sign : List Char}, sign <+: c :: (t ++ r) →
      Reading.one category sign ((c :: (t ++ r)).drop sign.length) = ⟨lexemes, r⟩ →
      Reading.one category sign ((c :: (t ++ r')).drop sign.length) = ⟨lexemes, r'⟩ := by
    intro category sign hsign hreading
    obtain ⟨hlexemes, hrest⟩ := Reading.mk.inj hreading
    have hdrop : (c :: t ++ r').drop sign.length = r' := drop_exchange hsign.length_le hrest
    rw [List.cons_append] at hdrop
    rw [Reading.one, hdrop, hlexemes]
  unfold readSign at h ⊢
  rw [← halike.longestMatch?_eq fun sign => List.mem_append_left _,
    ← halike.longestMatch?_eq fun sign => List.mem_append_right _]
  split at h
  · rename_i mark hmark
    exact hone (longestMatch?_mem hmark).2 h
  · split at h
    · rename_i sign hsign
      exact hone (longestMatch?_mem hsign).2 h
    · obtain ⟨hlexemes, hrest⟩ := Reading.mk.inj h
      obtain rfl : t = [] := by simpa using hrest
      rw [← hlexemes]
      rfl

/-- What is read at a character that is not blank depends on the text behind it only up to the
first of a pair of twins, for a number up to where one of them would go on. -/
theorem readToken_exchange {context : Context} {c : Char} {lexemes : List Lexeme}
    (hr : Alike r r')
    (hnumber : ∀ kind, lexemes.getLast?.map (·.category) = some (.number kind) → NumberAlike r r')
    (h : readToken language context c (t ++ r) = ⟨lexemes, r⟩) :
    readToken language context c (t ++ r') = ⟨lexemes, r'⟩ := by
  have halike := hr.append t
  have hslash := halike.head?_iff fun c d twin => twin.eq_iff (x := '/') (by decide)
  have hstar := halike.head?_iff fun c d twin => twin.eq_iff (x := '*') (by decide)
  have hnewline := halike.head?_iff fun c d twin => twin.newline
  have hreturn := halike.head?_iff fun c d twin => twin.carriageReturn
  have hdigit := halike.any_head? fun c d twin => twin.isDigit_eq
  have hname := halike.any_head? fun c d twin => twin.nameStart
  have hstarts : startsNumber c (t ++ r) = startsNumber c (t ++ r') := by
    rw [startsNumber, startsNumber, hdigit]
  unfold readToken at h ⊢
  rw [← hstarts, ← hname]
  simp only [← hslash, ← hstar, ← hnewline, ← hreturn]
  by_cases hc : c = '/' ∧ (t ++ r).head? = some '/'
  · rw [if_pos hc] at h ⊢
    rw [← List.cons_append] at h ⊢
    exact Reading.while_exchange h
      (hr.any_head? fun c d twin => by simp only [bne, twin.newline, Bool.beq_eq_decide_eq])
  rw [if_neg hc] at h ⊢
  by_cases hc : c = '/' ∧ (t ++ r).head? = some '*'
  · rw [if_pos hc] at h ⊢
    cases t with
    | nil =>
      obtain ⟨after, rfl⟩ := List.head?_eq_some_iff.mp hc.2
      have hle := Run.length_read_rest_le blockMove false after
      have hrest : (Run.read blockMove false after).rest = '*' :: after := congrArg Reading.rest h
      rw [hrest, List.length_cons] at hle
      omega
    | cons star t =>
      obtain ⟨hrun, hrun'⟩ := hr.read_exchange blockMove_stop_iff (congrArg Reading.rest h)
      rw [List.cons_append, List.tail_cons, hrun] at h
      rw [List.cons_append, List.tail_cons, hrun']
      cases h
      rfl
  rw [if_neg hc] at h ⊢
  by_cases hc : c = '#' ∧ context.lineStart = true ∧ language ≠ .java
  · rw [if_pos hc] at h ⊢
    obtain ⟨hrun, hrun'⟩ := hr.read_exchange directiveMove_stop_iff (congrArg Reading.rest h)
    rw [hrun] at h
    rw [hrun']
    cases h
    rfl
  rw [if_neg hc] at h ⊢
  by_cases hc : c = '\\' ∧ ((t ++ r).head? = some '\n' ∨ (t ++ r).head? = some '\r')
  · rw [if_pos hc] at h ⊢
    obtain ⟨hlexemes, hrest⟩ := Reading.mk.inj h
    obtain rfl : t = [] := by simpa using hrest
    rw [← hlexemes]
    rfl
  rw [if_neg hc] at h ⊢
  by_cases hc : c = '"'
  · rw [if_pos hc] at h ⊢
    rw [stringParts_exchange hr (congrArg Reading.rest h), h]
  rw [if_neg hc] at h ⊢
  by_cases hc : c = '\''
  · rw [if_pos hc] at h ⊢
    exact characterLiteral_exchange hr h
  rw [if_neg hc] at h ⊢
  by_cases hc : startsNumber c (t ++ r) = true
  · rw [if_pos hc] at h ⊢
    obtain ⟨hlexemes, _⟩ := Reading.mk.inj h
    refine readNumber_exchange ?_ hc h
    apply hnumber
    rw [← hlexemes]
    rfl
  rw [if_neg hc] at h ⊢
  by_cases hc : c = '@' ∧ language = .java ∧ (t ++ r).head?.any isNameStart = true
  · rw [if_pos hc] at h ⊢
    exact readDecorator_exchange hr h
  rw [if_neg hc] at h ⊢
  by_cases hc : isNameStart c = true
  · rw [if_pos hc] at h ⊢
    rw [← List.cons_append] at h ⊢
    exact readWord_exchange hr h
  rw [if_neg hc] at h ⊢
  exact readSign_exchange hr h

theorem length_readNext_lt (language : Language) (context : Context) {cs : List Char}
    (h : cs ≠ []) : (readNext language context cs).rest.length < cs.length := by
  cases cs with
  | nil => exact absurd rfl h
  | cons c cs =>
    simp only [readNext]
    split
    · rename_i hc
      simp only [Reading.while, Reading.one, List.dropWhile_cons_of_pos hc]
      exact Nat.lt_succ_of_le (length_dropWhile_le _ cs)
    · exact Nat.lt_succ_of_le (length_readToken_le language context c cs)

theorem lexemes_readNext_ne_nil (language : Language) (context : Context) {cs : List Char}
    (h : cs ≠ []) : (readNext language context cs).lexemes ≠ [] := by
  intro hnothing
  have htext := (covers_readNext language context cs).text
  have hlt := length_readNext_lt language context h
  rw [hnothing, textOf_nil, List.nil_append] at htext
  rw [htext] at hlt
  exact absurd hlt (Nat.lt_irrefl _)

/-- Neither what is read next nor the context behind it depends on the text past the first pair of
twins. -/
theorem readNext_exchange {context : Context} {lexemes : List Lexeme} (hr : Alike r r')
    (hnumber : ∀ kind, lexemes.getLast?.map (·.category) = some (.number kind) → NumberAlike r r')
    (hne : t ++ r ≠ []) (h : readNext language context (t ++ r) = ⟨lexemes, r⟩) :
    readNext language context (t ++ r') = ⟨lexemes, r'⟩ ∧
      context.next language (t ++ r') = context.next language (t ++ r) := by
  cases t with
  | nil =>
    have hlength := length_readNext_lt language context hne
    rw [h] at hlength
    exact absurd hlength (Nat.lt_irrefl _)
  | cons c t =>
    simp only [List.cons_append, readNext, Context.next] at h ⊢
    by_cases hc : Text.isBlank c = true
    · simp only [if_pos hc] at h ⊢
      have hheads := hr.any_head? fun c d twin => twin.blank
      refine ⟨Reading.while_exchange (t := c :: t) h hheads, ?_⟩
      have hrest := congrArg Reading.rest h
      simp only [Reading.while, Reading.one, List.dropWhile_cons_of_pos hc] at hrest
      rw [(takeWhile_exchange hrest hheads).1, (takeWhile_exchange hrest rfl).1]
    · simp only [if_neg hc] at h ⊢
      have hreading := readToken_exchange hr hnumber h
      exact ⟨hreading, by rw [hreading, h]⟩

/-- Reading `cs` in `context` gives `lexemes` in whole readings and then stands before `rest` in
`after`. -/
inductive Reads (language : Language) :
    Context → List Char → List Lexeme → Context → List Char → Prop where
  | refl (context : Context) (cs : List Char) : Reads language context cs [] context cs
  | step {context after : Context} {cs rest : List Char} {more : List Lexeme} (nonempty : cs ≠ [])
      (tail : Reads language (context.next language cs) (readNext language context cs).rest more
        after rest) :
      Reads language context cs ((readNext language context cs).lexemes ++ more) after rest

namespace Reads

variable {context after : Context} {cs rest : List Char} {read : List Lexeme}

theorem covers (h : Reads language context cs read after rest) :
    (Reading.mk read rest).Covers cs := by
  induction h with
  | refl context cs => exact ⟨rfl, by simp⟩
  | @step context after cs rest more _ _ ih =>
    have hreading := covers_readNext language context cs
    refine ⟨?_, ?_⟩
    · rw [textOf_append, List.append_assoc, ih.text, hreading.text]
    · intro lexeme hmem
      rcases List.mem_append.mp hmem with hmem | hmem
      · exact hreading.nonempty lexeme hmem
      · exact ih.nonempty lexeme hmem

theorem lexemes_eq (h : Reads language context cs read after rest) :
    lexemes language context cs = read ++ lexemes language after rest := by
  induction h with
  | refl context cs => rfl
  | step _ _ ih => rw [lexemes_eq_readNext, ih, List.append_assoc]

theorem eq_of_nil (h : Reads language context cs [] after rest) :
    after = context ∧ rest = cs := by
  generalize hread : ([] : List Lexeme) = read at h
  cases h with
  | refl => exact ⟨rfl, rfl⟩
  | step hne tail =>
    have hnothing := (List.append_eq_nil_iff.mp hread.symm).1
    exact absurd hnothing (lexemes_readNext_ne_nil language context hne)

/-- What has been read stays as it is when the text behind it is exchanged for one like it. -/
theorem exchange (h : Reads language context cs read after rest) {rest' : List Char}
    (halike : Alike rest rest')
    (hnumber : ∀ kind, read.getLast?.map (·.category) = some (.number kind) →
      NumberAlike rest rest') :
    Reads language context (textOf read ++ rest') read after rest' := by
  induction h with
  | refl context cs => exact .refl context rest'
  | @step context after cs rest more hne tail ih =>
    have htail := tail.covers
    have hreading := (covers_readNext language context cs).text
    obtain ⟨first, hfirst⟩ : ∃ first,
        readNext language context cs = ⟨first, textOf more ++ rest⟩ := ⟨_, by rw [htail.text]⟩
    rw [hfirst] at hnumber hreading ⊢
    obtain rfl : textOf first ++ (textOf more ++ rest) = cs := hreading
    have hmore := ih halike fun kind hkind => hnumber kind (by
      cases hlast : more.getLast? with
      | none => simp [hlast] at hkind
      | some last => simpa [List.getLast?_append, hlast] using hkind)
    have hlast : ∀ kind, first.getLast?.map (·.category) = some (.number kind) →
        NumberAlike (textOf more ++ rest) (textOf more ++ rest') := by
      intro kind hkind
      cases more with
      | nil => exact hnumber kind (by simpa using hkind)
      | cons lexeme more =>
        obtain ⟨c, text, htext⟩ := List.exists_cons_of_ne_nil (htail.nonempty lexeme (by simp))
        simp only [textOf_cons, htext, List.cons_append]
        exact .cons c (halike.append _)
    obtain ⟨hfirst', hnext⟩ := readNext_exchange (halike.append (textOf more)) hlast hne hfirst
    have hne' : textOf first ++ (textOf more ++ rest') ≠ [] :=
      fun h => hne (((halike.append _).append _).nil_iff.mpr h)
    rw [← hnext] at hmore
    have hstep : Reads language context (textOf first ++ (textOf more ++ rest')) _ after rest' :=
      .step hne' (by rw [hfirst']; exact hmore)
    rw [hfirst'] at hstep
    rwa [textOf_append, List.append_assoc]

end Reads

/-- One lexeme, or the parts of a string literal. -/
def Whole (lexemes : List Lexeme) : Prop :=
  (∃ lexeme, lexemes = [lexeme]) ∨ ∀ lexeme ∈ lexemes, ∃ kind, lexeme.category = .string kind

theorem Whole.eq_of_mem {lexemes : List Lexeme} {lexeme : Lexeme} (h : Whole lexemes)
    (hmem : lexeme ∈ lexemes) (hcategory : ∀ kind, lexeme.category ≠ .string kind) :
    lexemes = [lexeme] := by
  rcases h with ⟨other, rfl⟩ | h
  · rw [List.mem_singleton.mp hmem]
  · obtain ⟨kind, hkind⟩ := h lexeme hmem
    exact absurd hkind (hcategory kind)

theorem whole_one {category : Category} {text rest : List Char} :
    Whole (Reading.one category text rest).lexemes :=
  .inl ⟨_, rfl⟩

theorem category_of_mem_stretch {text : List Char} :
    ∀ lexeme ∈ stretch text, lexeme.category = .string .plain := by
  unfold stretch
  split <;> simp

theorem category_of_mem_stringParts (opening cs : List Char) :
    ∀ lexeme ∈ (stringParts opening cs).lexemes,
      lexeme.category = .string .plain ∨ lexeme.category = .string .escape := by
  fun_induction stringParts opening cs with
  | case1 opening cs run _ => exact fun lexeme hmem => .inl (category_of_mem_stretch lexeme hmem)
  | case2 opening cs run _ after _ _ tail more ih =>
    intro lexeme hmem
    rcases List.mem_append.mp hmem with hmem | hmem
    · exact .inl (category_of_mem_stretch lexeme hmem)
    · rcases List.mem_cons.mp hmem with rfl | hmem
      · exact .inr rfl
      · exact ih lexeme hmem
  | case3 opening cs run _ _ => exact fun lexeme hmem => .inl (category_of_mem_stretch lexeme hmem)

theorem string_of_mem_stringParts (opening cs : List Char) :
    ∀ lexeme ∈ (stringParts opening cs).lexemes, ∃ kind, lexeme.category = .string kind := by
  intro lexeme hmem
  rcases category_of_mem_stringParts opening cs lexeme hmem with h | h
  · exact ⟨_, h⟩
  · exact ⟨_, h⟩

theorem wordReading_cases (language : Language) (afterDot : Bool) (word rest : List Char) :
    wordReading language afterDot word rest =
        .one (wordCategory language afterDot word) word rest ∨
      ∀ lexeme ∈ (wordReading language afterDot word rest).lexemes,
        ∃ kind, lexeme.category = .string kind := by
  unfold wordReading
  split
  · split
    · exact .inr (string_of_mem_stringParts _ _)
    · exact .inr (by simp [characterLiteral, Reading.one])
    · exact .inl rfl
  · exact .inl rfl

theorem whole_readWord (language : Language) (afterDot : Bool) (cs : List Char) :
    Whole (readWord language afterDot cs).lexemes := by
  rw [readWord_eq rfl rfl]
  rcases wordReading_cases language afterDot _ _ with h | h
  · rw [h]
    exact whole_one
  · exact .inr h

theorem whole_readSign (c : Char) (cs : List Char) : Whole (readSign c cs).lexemes := by
  unfold readSign
  split
  · exact whole_one
  · split <;> exact whole_one

theorem whole_readNext (language : Language) (context : Context) (cs : List Char) :
    Whole (readNext language context cs).lexemes := by
  cases cs with
  | nil => exact .inr (by simp [readNext])
  | cons c cs =>
    simp only [readNext]
    split
    · exact whole_one
    · apply readToken_cases (motive := fun reading => Whole reading.lexemes)
      case string => exact fun _ => .inr (string_of_mem_stringParts _ _)
      case word => exact fun _ => whole_readWord _ _ _
      case sign => exact whole_readSign c cs
      all_goals intros; exact whole_one

/-- A lexeme that is no part of a string literal is read on its own. -/
theorem reads_of_lexemes_eq {context : Context} {cs : List Char} {front back : List Lexeme}
    {lexeme : Lexeme} (hcategory : ∀ kind, lexeme.category ≠ .string kind)
    (h : lexemes language context cs = front ++ lexeme :: back) :
    ∃ after rest, Reads language context cs front after rest ∧
      (readNext language after rest).lexemes = [lexeme] ∧
      lexemes language (after.next language rest) (readNext language after rest).rest = back := by
  induction context, cs using scan_induction language generalizing front with
  | nil context => simp [lexemes] at h
  | step context cs hne ih =>
    rw [lexemes_eq_readNext] at h
    rcases List.append_eq_append_iff.mp h with ⟨more, hfront, hmore⟩ | ⟨more, hreading, hmore⟩
    · obtain ⟨after, rest, hreads, hlexeme⟩ := ih hmore
      rw [hfront]
      exact ⟨after, rest, .step hne hreads, hlexeme⟩
    · cases more with
      | nil =>
        have hnext : lexemes language (context.next language cs)
            (readNext language context cs).rest = [] ++ lexeme :: back := hmore.symm
        obtain ⟨after, rest, hreads, hlexeme⟩ := ih hnext
        have hstep := Reads.step hne hreads
        rw [hreading, List.append_nil, List.append_nil] at hstep
        exact ⟨after, rest, hstep, hlexeme⟩
      | cons other more =>
        obtain ⟨rfl, hback⟩ := List.cons.inj hmore
        have hsingle := (whole_readNext language context cs).eq_of_mem (by simp [hreading])
          hcategory
        obtain ⟨rfl, rfl⟩ : front = [] ∧ more = [] := by
          have hlength := congrArg List.length (hsingle.symm.trans hreading)
          simp only [List.length_append, List.length_cons, List.length_nil] at hlength
          exact ⟨List.length_eq_zero_iff.mp (by omega), List.length_eq_zero_iff.mp (by omega)⟩
        exact ⟨context, cs, .refl context cs, hsingle, hback.symm⟩

end SourcePrint.Lexeme
