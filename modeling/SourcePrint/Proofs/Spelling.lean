import SourcePrint.Proofs.Renaming

namespace SourcePrint

/-- The words that keep their spelling in every stream: reserved words that stand for no value, and
the annotation that declares one. -/
def Language.spelledWords (language : Language) : List (List Char) :=
  ((language.wordGroups.filter fun group =>
      group.category != .keyword .constant && group.category != .keyword .pseudo).flatMap
    fun group => group.words.map String.toList) ++
    if language = .java then ["@interface".toList] else []

namespace Lexeme

/-- What the category of a lexeme says about its text, where the text can be kept. -/
def Spelled (language : Language) (lexeme : Lexeme) : Prop :=
  match lexeme.category with
  | .punctuation => lexeme.text ∈ punctuationMarks.map String.toList
  | .operator => lexeme.text ∈ operatorSigns.map String.toList
  | .keyword .constant | .keyword .pseudo => True
  | .keyword _ | .wordOperator => lexeme.text ∈ language.spelledWords
  | .name .decorator => True
  | .name kind => kind = .plain ∧ isName lexeme.text = true ∧
      language.wordCategory? (String.ofList lexeme.text) = none
  | _ => True

variable {language : Language}

theorem spelled_of_string {lexeme : Lexeme} (h : ∃ kind, lexeme.category = .string kind) :
    Spelled language lexeme := by
  obtain ⟨kind, hkind⟩ := h
  rw [Spelled, hkind]
  trivial

theorem mem_spelledWords {word : List Char} {category : Category}
    (h : language.wordCategory? (String.ofList word) = some category)
    (hconstant : category ≠ .keyword .constant) (hpseudo : category ≠ .keyword .pseudo) :
    word ∈ language.spelledWords := by
  obtain ⟨group, hgroup, rfl⟩ := Option.map_eq_some_iff.mp h
  have hword := List.find?_some hgroup
  rw [List.contains_iff_mem] at hword
  apply List.mem_append_left
  apply List.mem_flatMap.mpr
  refine ⟨group, List.mem_filter.mpr ⟨List.mem_of_find?_eq_some hgroup, ?_⟩, ?_⟩
  · simp [hconstant, hpseudo]
  · exact List.mem_map.mpr ⟨_, hword, String.toList_ofList⟩

theorem category_of_wordCategory? {word : String} {category : Category}
    (h : language.wordCategory? word = some category) :
    category = .wordOperator ∨ ∃ kind, category = .keyword kind := by
  obtain ⟨group, hgroup, rfl⟩ := Option.map_eq_some_iff.mp h
  have hgroups : ∀ language : Language, ∀ group ∈ language.wordGroups,
      group.category = .wordOperator ∨ ∃ kind, group.category = .keyword kind := by
    intro language
    cases language <;> simp [Language.wordGroups, cWords, cppWords, javaWords]
  exact hgroups language group (List.mem_of_find?_eq_some hgroup)

theorem spelled_word {afterDot : Bool} {word : List Char} (hname : isName word = true) :
    Spelled language ⟨wordCategory language afterDot word, word⟩ := by
  unfold wordCategory
  cases hreserved : language.wordCategory? (String.ofList word) with
  | none => exact ⟨rfl, hname, hreserved⟩
  | some category =>
    simp only
    split
    · trivial
    · rcases category_of_wordCategory? hreserved with rfl | ⟨kind, rfl⟩
      · exact mem_spelledWords hreserved (by simp) (by simp)
      · cases kind with
        | constant => trivial
        | pseudo => trivial
        | _ => exact mem_spelledWords hreserved (by simp) (by simp)

theorem spelled_readWord {afterDot : Bool} {c : Char} {cs : List Char}
    (hc : isNameStart c = true) :
    ∀ lexeme ∈ (readWord language afterDot (c :: cs)).lexemes, Spelled language lexeme := by
  have hname : isName ((c :: cs).takeWhile isNameContinue) = true := by
    rw [List.takeWhile_cons_of_pos (isNameContinue_of_isNameStart hc)]
    simp [isName, hc]
  rw [readWord_eq rfl rfl]
  rcases wordReading_cases language afterDot ((c :: cs).takeWhile isNameContinue)
    ((c :: cs).dropWhile isNameContinue) with h | h
  · rw [h]
    intro lexeme hmem
    rw [List.mem_singleton.mp hmem]
    exact spelled_word hname
  · exact fun lexeme hmem => spelled_of_string (h lexeme hmem)

theorem spelled_readSign (c : Char) (cs : List Char) :
    ∀ lexeme ∈ (readSign c cs).lexemes, Spelled language lexeme := by
  unfold readSign
  split
  · rename_i mark hmark
    intro lexeme hmem
    rw [List.mem_singleton.mp hmem]
    exact (longestMatch?_mem hmark).1
  · split
    · rename_i sign hsign
      intro lexeme hmem
      rw [List.mem_singleton.mp hmem]
      exact (longestMatch?_mem hsign).1
    · intro lexeme hmem
      rw [List.mem_singleton.mp hmem]
      trivial

theorem spelled_readDecorator (cs : List Char) (hjava : language = .java) :
    ∀ lexeme ∈ (readDecorator cs).lexemes, Spelled language lexeme := by
  intro lexeme hmem
  rw [List.mem_singleton.mp hmem]
  by_cases hname : (cs.takeWhile fun c => isNameContinue c || c == '.') = "interface".toList
  · rw [if_pos hname, hname, hjava]
    exact List.mem_append_right _ (by simp)
  · rw [if_neg hname]
    trivial

theorem spelled_readNext (context : Context) (cs : List Char) :
    ∀ lexeme ∈ (readNext language context cs).lexemes, Spelled language lexeme := by
  cases cs with
  | nil => simp [readNext]
  | cons c cs =>
    simp only [readNext]
    split
    · intro lexeme hmem
      rw [List.mem_singleton.mp hmem]
      trivial
    · apply readToken_cases (motive := fun reading =>
        ∀ lexeme ∈ reading.lexemes, Spelled language lexeme)
      case string =>
        exact fun _ lexeme hmem => spelled_of_string (string_of_mem_stringParts _ _ lexeme hmem)
      case decorator => exact fun _ hjava => spelled_readDecorator cs hjava
      case word => exact fun hc => spelled_readWord hc
      case sign => exact spelled_readSign c cs
      all_goals
        intros
        rename_i hmem
        rw [List.mem_singleton.mp hmem]
        trivial

/-- The text of every lexeme of a scan is spelled as its category says. -/
theorem spelled_lexemes (context : Context) (cs : List Char) :
    ∀ lexeme ∈ lexemes language context cs, Spelled language lexeme := by
  induction context, cs using scan_induction language with
  | nil context => simp [lexemes]
  | step context cs _ ih =>
    intro lexeme hmem
    rw [lexemes_eq_readNext] at hmem
    rcases List.mem_append.mp hmem with hmem | hmem
    · exact spelled_readNext context cs lexeme hmem
    · exact ih lexeme hmem

end Lexeme

end SourcePrint
