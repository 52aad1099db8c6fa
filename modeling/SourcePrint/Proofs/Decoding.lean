import Mathlib.Data.List.SplitBy
import SourcePrint.Proofs.Vocabulary

namespace SourcePrint

open InformationTheory

/-- The symbols of tokens as the canonical text spells them. -/
def Token.symbols (tokens : List Token) : List (List Char) :=
  tokens.map fun token => token.kind.render.toList

theorem Token.symbols_of_kinds {tokens : List Token} {kinds : List Symbol}
    (h : tokens.map (·.kind) = kinds) : symbols tokens = kinds.map (·.render.toList) := by
  rw [← h, List.map_map]
  rfl

theorem Token.toList_canonicalText (tokens : List Token) :
    (canonicalText tokens).toList = (symbols tokens).flatten := by
  rw [canonicalText, symbols, String.toList_join, List.flatMap_map, List.flatMap_def]

/-- A punctuation mark or an operator, by its characters. -/
def isSign (symbol : List Char) : Bool := symbol.any Lexeme.isSignCharacter

/-- Maximal runs of signs, and of other symbols. -/
def runs (symbols : List (List Char)) : List (List (List Char)) :=
  symbols.splitBy fun a b => isSign a == isSign b

/-- A symbol of sign characters only, or of other characters only. -/
structure Unmixed (symbol : List Char) : Prop where
  nonempty : symbol ≠ []
  same : ∀ c ∈ symbol, Lexeme.isSignCharacter c = isSign symbol

section Runs

variable {symbols run : List (List Char)}

theorem mem_of_mem_run (hrun : run ∈ runs symbols) {symbol : List Char} (h : symbol ∈ run) :
    symbol ∈ symbols := by
  rw [← List.flatten_splitBy (fun a b => isSign a == isSign b) symbols]
  exact List.mem_flatten.mpr ⟨run, hrun, h⟩

theorem isSign_eq_of_mem_run (hrun : run ∈ runs symbols) {a b : List Char} (ha : a ∈ run)
    (hb : b ∈ run) : isSign a = isSign b := by
  have hfirst : ∀ (run : List (List Char)) (first : List Char),
      (first :: run).IsChain (fun a b => (isSign a == isSign b) = true) →
      ∀ symbol ∈ first :: run, isSign symbol = isSign first := by
    intro run
    induction run with
    | nil => simp
    | cons next run ih =>
      intro first hchain symbol hsymbol
      obtain ⟨hnext, hrest⟩ := List.isChain_cons_cons.mp hchain
      rcases List.mem_cons.mp hsymbol with rfl | hsymbol
      · rfl
      · rw [ih next hrest symbol hsymbol, beq_iff_eq.mp hnext]
  have hchain := List.isChain_of_mem_splitBy hrun
  cases run with
  | nil => cases ha
  | cons first run => rw [hfirst run first hchain a ha, hfirst run first hchain b hb]

theorem isSignCharacter_of_mem_run (hunmixed : ∀ symbol ∈ symbols, Unmixed symbol)
    (hrun : run ∈ runs symbols) {symbol : List Char} (hsymbol : symbol ∈ run) {c : Char}
    (hc : c ∈ run.flatten) : Lexeme.isSignCharacter c = isSign symbol := by
  obtain ⟨own, hown, hc⟩ := List.mem_flatten.mp hc
  rw [(hunmixed own (mem_of_mem_run hrun hown)).same c hc]
  exact isSign_eq_of_mem_run hrun hown hsymbol

theorem flatten_ne_nil_of_mem_runs (hunmixed : ∀ symbol ∈ symbols, Unmixed symbol)
    (hrun : run ∈ runs symbols) : run.flatten ≠ [] := by
  intro hnil
  obtain ⟨symbol, rest, rfl⟩ := List.exists_cons_of_ne_nil (List.ne_nil_of_mem_splitBy hrun)
  have hsymbol := mem_of_mem_run hrun List.mem_cons_self
  exact (hunmixed symbol hsymbol).nonempty (List.append_eq_nil_iff.mp hnil).1

theorem flatten_map_runs (symbols : List (List Char)) :
    ((runs symbols).map List.flatten).flatten = symbols.flatten := by
  rw [← List.flatten_flatten, runs, List.flatten_splitBy]

/-- The text of the symbols shows where their runs end. -/
theorem splitBy_flatten_eq_runs (hunmixed : ∀ symbol ∈ symbols, Unmixed symbol) :
    symbols.flatten.splitBy (fun c d => Lexeme.isSignCharacter c == Lexeme.isSignCharacter d) =
      (runs symbols).map List.flatten := by
  refine List.splitBy_eq_iff.mpr ⟨?_, ?_, ?_, ?_⟩
  · exact (flatten_map_runs symbols).symm
  · intro hmem
    obtain ⟨run, hrun, hnil⟩ := List.mem_map.mp hmem
    exact flatten_ne_nil_of_mem_runs hunmixed hrun hnil
  · intro text htext
    obtain ⟨run, hrun, rfl⟩ := List.mem_map.mp htext
    obtain ⟨symbol, hsymbol⟩ := List.exists_mem_of_ne_nil run (List.ne_nil_of_mem_splitBy hrun)
    apply List.Pairwise.isChain
    apply List.pairwise_of_forall_mem_list
    intro c hc d hd
    rw [isSignCharacter_of_mem_run hunmixed hrun hsymbol hc,
      isSignCharacter_of_mem_run hunmixed hrun hsymbol hd, beq_self_eq_true]
  · apply (List.isChain_map _).mpr
    apply List.IsChain.imp_of_mem_imp _ (List.isChain_getLast_head_splitBy _ symbols)
    intro run next hrun hnext hbreak
    obtain ⟨hne, hne', hdiffer⟩ := hbreak
    refine ⟨flatten_ne_nil_of_mem_runs hunmixed hrun, flatten_ne_nil_of_mem_runs hunmixed hnext, ?_⟩
    rw [isSignCharacter_of_mem_run hunmixed hrun (List.getLast_mem hne) (List.getLast_mem _),
      isSignCharacter_of_mem_run hunmixed hnext (List.head_mem hne') (List.head_mem _), hdiffer]

end Runs

/-- Every sign is the longest that the text from it on begins with. -/
def signsLongest : List (List Char) → Bool
  | [] => true
  | symbol :: symbols =>
    (!isSign symbol || Lexeme.longestMatch? (Lexeme.punctuationMarks ++ Lexeme.operatorSigns)
      (symbol :: symbols).flatten == some symbol) && signsLongest symbols

theorem eq_of_signsLongest {run run' : List (List Char)} (h : signsLongest run = true)
    (h' : signsLongest run' = true) (hsign : ∀ symbol ∈ run, isSign symbol = true)
    (hsign' : ∀ symbol ∈ run', isSign symbol = true) (hflat : run.flatten = run'.flatten) :
    run = run' := by
  have hnil : ∀ {run : List (List Char)}, (∀ symbol ∈ run, isSign symbol = true) →
      run.flatten = [] → run = [] := by
    intro run hsign hflat
    cases run with
    | nil => rfl
    | cons symbol run =>
      have hfirst := hsign symbol List.mem_cons_self
      rw [(List.append_eq_nil_iff.mp hflat).1] at hfirst
      cases hfirst
  induction run generalizing run' with
  | nil => exact (hnil hsign' hflat.symm).symm
  | cons symbol run ih =>
    cases run' with
    | nil => exact hnil hsign hflat
    | cons symbol' run' =>
      obtain ⟨hfirst, hrest⟩ := Bool.and_eq_true_iff.mp h
      obtain ⟨hfirst', hrest'⟩ := Bool.and_eq_true_iff.mp h'
      rw [hsign symbol List.mem_cons_self, Bool.not_true, Bool.false_or, beq_iff_eq] at hfirst
      rw [hsign' symbol' List.mem_cons_self, Bool.not_true, Bool.false_or, beq_iff_eq, ← hflat,
        hfirst, Option.some.injEq] at hfirst'
      subst hfirst'
      rw [ih hrest hrest' (fun s hs => hsign s (List.mem_cons_of_mem _ hs))
        (fun s hs => hsign' s (List.mem_cons_of_mem _ hs)) (List.append_cancel_left hflat)]

/-- What runs of one text have in common: words are the same where the words of a stream can be told
apart, and signs are the same where each is the longest at its place. -/
structure SameRun (words : Set (List Char)) (run run' : List (List Char)) : Prop where
  text : run.flatten = run'.flatten
  words : UniquelyDecodable words → (∀ symbol ∈ run, isSign symbol = false) → run = run'
  signs : signsLongest run = true → signsLongest run' = true →
    (∀ symbol ∈ run, isSign symbol = true) → run = run'

theorem forall₂_of_map_eq {α β : Type} {f : α → β} {R : α → α → Prop} {as bs : List α}
    (h : as.map f = bs.map f) (hR : ∀ a ∈ as, ∀ b ∈ bs, f a = f b → R a b) :
    List.Forall₂ R as bs := by
  induction as generalizing bs with
  | nil =>
    cases bs with
    | nil => exact .nil
    | cons b bs => cases h
  | cons a as ih =>
    cases bs with
    | nil => cases h
    | cons b bs =>
      obtain ⟨hfirst, hrest⟩ := List.cons.inj h
      refine .cons (hR a List.mem_cons_self b List.mem_cons_self hfirst) (ih hrest ?_)
      intro a ha b hb
      exact hR a (List.mem_cons_of_mem _ ha) b (List.mem_cons_of_mem _ hb)

namespace Language

variable {language : Language} {classifier : Classifier}

/-- A symbol of a stream: a sign of the tables or a word. -/
def Spells (language : Language) (classifier : Classifier) (symbol : List Char) : Prop :=
  symbol ∈ (Lexeme.punctuationMarks ++ Lexeme.operatorSigns).map String.toList ∨
    symbol ∈ language.vocabulary classifier

theorem isSign_of_vocabulary {word : List Char} (h : word ∈ language.vocabulary classifier) :
    isSign word = false := by
  rw [isSign, List.any_eq_false]
  intro c hc
  simp [not_isSignCharacter_of_vocabulary h c hc]

theorem isSign_of_table {sign : String}
    (h : sign ∈ Lexeme.punctuationMarks ++ Lexeme.operatorSigns) : isSign sign.toList = true := by
  have htable : ((Lexeme.punctuationMarks ++ Lexeme.operatorSigns).all fun sign =>
      isSign sign.toList) = true := by
    decide +kernel
  exact List.all_eq_true.mp htable sign h

theorem Spells.unmixed {symbol : List Char} (h : language.Spells classifier symbol) :
    Unmixed symbol := by
  rcases h with h | h
  · obtain ⟨sign, hsign, rfl⟩ := List.mem_map.mp h
    have hisSign := isSign_of_table hsign
    refine ⟨?_, fun c hc => (Lexeme.isSignCharacter_of_mem hsign hc).trans hisSign.symm⟩
    intro hnil
    rw [hnil] at hisSign
    cases hisSign
  · refine ⟨ne_nil_of_vocabulary h, fun c hc => ?_⟩
    rw [not_isSignCharacter_of_vocabulary h c hc, isSign_of_vocabulary h]

theorem Spells.mem_vocabulary {symbol : List Char} (h : language.Spells classifier symbol)
    (hsign : isSign symbol = false) : symbol ∈ language.vocabulary classifier := by
  rcases h with h | h
  · obtain ⟨sign, hmem, rfl⟩ := List.mem_map.mp h
    rw [isSign_of_table hmem] at hsign
    cases hsign
  · exact h

theorem sameRun {symbols symbols' run run' : List (List Char)}
    (h : ∀ symbol ∈ symbols, language.Spells classifier symbol)
    (h' : ∀ symbol ∈ symbols', language.Spells classifier symbol)
    (hrun : run ∈ runs symbols) (hrun' : run' ∈ runs symbols')
    (hflat : run.flatten = run'.flatten) : SameRun (language.vocabulary classifier) run run' := by
  have hsame : ∀ {b : Bool}, (∀ symbol ∈ run, isSign symbol = b) →
      ∀ symbol ∈ run', isSign symbol = b := by
    intro b hb symbol' hsymbol'
    obtain ⟨symbol, hsymbol⟩ := List.exists_mem_of_ne_nil run (List.ne_nil_of_mem_splitBy hrun)
    have hunmixed := fun symbol hsymbol => (h symbol hsymbol).unmixed
    have hunmixed' := fun symbol hsymbol => (h' symbol hsymbol).unmixed
    obtain ⟨c, hc⟩ := List.exists_mem_of_ne_nil _ (flatten_ne_nil_of_mem_runs hunmixed hrun)
    rw [← isSignCharacter_of_mem_run hunmixed' hrun' hsymbol' (hflat ▸ hc),
      isSignCharacter_of_mem_run hunmixed hrun hsymbol hc, hb symbol hsymbol]
  refine ⟨hflat, ?_, ?_⟩
  · intro hdecodable hwords
    refine hdecodable run run' ?_ ?_ hflat
    · intro word hword
      exact (h word (mem_of_mem_run hrun hword)).mem_vocabulary (hwords word hword)
    · intro word hword
      exact (h' word (mem_of_mem_run hrun' hword)).mem_vocabulary (hsame hwords word hword)
  · intro hlongest hlongest' hsigns
    exact eq_of_signsLongest hlongest hlongest' hsigns (hsame hsigns) hflat

theorem spells_marker : language.Spells classifier "$".toList :=
  .inr (.inl List.mem_cons_self)

/-- A lexeme that is spelled as its category says leaves a sign or a word. -/
theorem spells_of_classify {lexeme : Lexeme} (h : lexeme.Spelled language) {symbol : Symbol}
    (hsymbol : classifier.classify lexeme.category lexeme.text = some symbol) :
    language.Spells classifier symbol.render.toList := by
  obtain ⟨category, text⟩ := lexeme
  have hkept (hspells : language.Spells classifier text) :
      language.Spells classifier (Symbol.verbatim (String.ofList text)).render.toList := by
    rwa [Symbol.render, String.toList_ofList]
  cases category with
  | keyword kind =>
    cases kind with
    | constant | pseudo =>
      cases hsymbol
      exact spells_marker
    | _ =>
      cases hsymbol
      exact hkept (.inr (.inl (List.mem_cons_of_mem _ h)))
  | wordOperator =>
    cases hsymbol
    exact hkept (.inr (.inl (List.mem_cons_of_mem _ h)))
  | name kind =>
    cases kind with
    | plain =>
      obtain ⟨-, hname, hreserved⟩ := h
      obtain rfl := Option.some.inj hsymbol
      by_cases hbuiltin : classifier.isBuiltinType text = true
      · rw [if_pos hbuiltin]
        exact hkept (.inr (.inr ⟨hname, hreserved, hbuiltin⟩))
      · rw [if_neg hbuiltin]
        exact spells_marker
    | decorator => cases hsymbol
    | _ => exact absurd h.1 (by decide)
  | operator =>
    cases hsymbol
    exact hkept (.inl (by rw [List.map_append]; exact List.mem_append_right _ h))
  | punctuation =>
    cases hsymbol
    exact hkept (.inl (by rw [List.map_append]; exact List.mem_append_left _ h))
  | literal | date | string kind | number kind =>
    cases hsymbol
    exact spells_marker
  | text | whitespace | comment kind | error => cases hsymbol

end Language

theorem Symbol.mem_of_mem_joinLiterals {symbols : List Symbol} {symbol : Symbol}
    (h : symbol ∈ joinLiterals symbols) : symbol ∈ symbols := by
  induction symbols with
  | nil => exact h
  | cons first symbols ih =>
    change symbol ∈ if first.isLiteral && (joinLiterals symbols).head?.any isLiteral then
      joinLiterals symbols else first :: joinLiterals symbols at h
    split at h
    · exact List.mem_cons_of_mem _ (ih h)
    · rcases List.mem_cons.mp h with rfl | h
      · exact List.mem_cons_self
      · exact List.mem_cons_of_mem _ (ih h)

namespace Language

/-- Every symbol of a stream is a sign of the tables or a word. -/
theorem spells_normalize {language : Language} {classifier : Classifier} {text sourceName : String}
    {tokens : List Token}
    (h : Token.normalize language.lexer text sourceName classifier = .ok tokens) :
    ∀ symbol ∈ Token.symbols tokens, language.Spells classifier symbol := by
  obtain ⟨found, hfound, hkinds⟩ := language.kinds_normalize text sourceName classifier
  obtain rfl := Except.ok.inj (h.symm.trans hfound)
  intro symbol hsymbol
  obtain ⟨token, htoken, rfl⟩ := List.mem_map.mp hsymbol
  have hkind : token.kind ∈ tokens.map (·.kind) := List.mem_map.mpr ⟨token, htoken, rfl⟩
  rw [hkinds] at hkind
  obtain ⟨lexeme, hlexeme, hclassify⟩ :=
    List.mem_filterMap.mp (Symbol.mem_of_mem_joinLiterals hkind)
  rw [language.scan_eq] at hlexeme
  exact spells_of_classify (Lexeme.spelled_lexemes .start text.toList lexeme hlexeme) hclassify

/-- What the canonical text says about the symbols it was joined from. Two streams of a language have
one canonical text exactly when they go through the same runs of signs and of words. If moreover the
words can be told apart without blanks, as under the default settings and without type names, and
every sign is the longest at its place, the symbols are the same one by one. -/
theorem canonicalText_decodes (language : Language) (classifier : Classifier)
    {text text' sourceName sourceName' : String} {tokens tokens' : List Token}
    (h : Token.normalize language.lexer text sourceName classifier = .ok tokens)
    (h' : Token.normalize language.lexer text' sourceName' classifier = .ok tokens') :
    (Token.canonicalText tokens = Token.canonicalText tokens' ↔
      List.Forall₂ (SameRun (language.vocabulary classifier)) (runs (Token.symbols tokens))
        (runs (Token.symbols tokens'))) ∧
    (Classifier.ofConfig {} = .ok classifier ∨
        Classifier.ofConfig .noBuiltinTypes = .ok classifier →
      UniquelyDecodable (language.vocabulary classifier)) ∧
    (UniquelyDecodable (language.vocabulary classifier) →
      Token.canonicalText tokens = Token.canonicalText tokens' →
      (∀ run ∈ runs (Token.symbols tokens), signsLongest run = true) →
      (∀ run ∈ runs (Token.symbols tokens'), signsLongest run = true) →
      Token.symbols tokens = Token.symbols tokens' ∧ tokens.length = tokens'.length) := by
  have hspells := spells_normalize h
  have hspells' := spells_normalize h'
  have htext : Token.canonicalText tokens = Token.canonicalText tokens' ↔
      (Token.symbols tokens).flatten = (Token.symbols tokens').flatten := by
    rw [← Token.toList_canonicalText, ← Token.toList_canonicalText, String.toList_inj]
  have hruns (heq : Token.canonicalText tokens = Token.canonicalText tokens') :
      (runs (Token.symbols tokens)).map List.flatten =
        (runs (Token.symbols tokens')).map List.flatten := by
    rw [← splitBy_flatten_eq_runs fun symbol hsymbol => (hspells symbol hsymbol).unmixed,
      ← splitBy_flatten_eq_runs fun symbol hsymbol => (hspells' symbol hsymbol).unmixed,
      htext.mp heq]
  refine ⟨⟨?_, ?_⟩, decodable_of_ofConfig language, ?_⟩
  · intro heq
    apply forall₂_of_map_eq (hruns heq)
    intro run hrun run' hrun' hflat
    exact sameRun hspells hspells' hrun hrun' hflat
  · intro hsame
    have hflat : (runs (Token.symbols tokens)).map List.flatten =
        (runs (Token.symbols tokens')).map List.flatten := by
      rw [← List.forall₂_eq_eq_eq, List.forall₂_map_left_iff, List.forall₂_map_right_iff]
      exact hsame.imp fun _ _ h => h.text
    rw [htext, ← flatten_map_runs, hflat, flatten_map_runs]
  · intro hdecodable heq hlongest hlongest'
    have hequal : runs (Token.symbols tokens) = runs (Token.symbols tokens') := by
      rw [← List.forall₂_eq_eq_eq]
      apply forall₂_of_map_eq (hruns heq)
      intro run hrun run' hrun' hflat
      have hsame := sameRun hspells hspells' hrun hrun' hflat
      obtain ⟨symbol, hsymbol⟩ := List.exists_mem_of_ne_nil run (List.ne_nil_of_mem_splitBy hrun)
      cases hsign : isSign symbol with
      | true =>
        apply hsame.signs (hlongest run hrun) (hlongest' run' hrun')
        intro other hother
        rw [isSign_eq_of_mem_run hrun hother hsymbol, hsign]
      | false =>
        apply hsame.words hdecodable
        intro other hother
        rw [isSign_eq_of_mem_run hrun hother hsymbol, hsign]
    have hsymbols : Token.symbols tokens = Token.symbols tokens' := by
      have hflat := congrArg List.flatten hequal
      rwa [runs, runs, List.flatten_splitBy, List.flatten_splitBy] at hflat
    refine ⟨hsymbols, ?_⟩
    simpa [Token.symbols] using congrArg List.length hsymbols

end Language

theorem Language.exists_tokens {language : Language} {text : String} (sourceName : String)
    {classifier : Classifier} {kinds : List Symbol}
    (h : Symbol.joinLiterals ((language.scan text.toList).filterMap fun lexeme =>
      classifier.classify lexeme.category lexeme.text) = kinds) :
    ∃ tokens, Token.normalize language.lexer text sourceName classifier = .ok tokens ∧
      tokens.map (·.kind) = kinds := by
  obtain ⟨tokens, htokens, hkinds⟩ := language.kinds_normalize text sourceName classifier
  exact ⟨tokens, htokens, hkinds.trans h⟩

theorem Token.apart_of_kinds {tokens tokens' : List Token} {kinds kinds' : List Symbol}
    (hkinds : tokens.map (·.kind) = kinds) (hkinds' : tokens'.map (·.kind) = kinds')
    (htext : String.join (kinds.map Symbol.render) = String.join (kinds'.map Symbol.render))
    (hcount : kinds.length ≠ kinds'.length) :
    canonicalText tokens = canonicalText tokens' ∧ symbols tokens ≠ symbols tokens' ∧
      tokens.length ≠ tokens'.length := by
  subst hkinds hkinds'
  rw [List.length_map, List.length_map] at hcount
  rw [canonicalText_eq, canonicalText_eq]
  refine ⟨htext, fun hsymbols => hcount ?_, hcount⟩
  simpa [symbols] using congrArg List.length hsymbols

namespace Language

/-- A type name behind two signs, with and without blanks. -/
theorem canonicalText_decodes_shift :
    ∃ tokens tokens',
      Token.normalize Language.c.lexer "x>>=-u8;" "a.c" .standard = .ok tokens ∧
      Token.normalize Language.c.lexer "y >>= - /* */ u8 ;" "b.c" .standard = .ok tokens' ∧
      List.Forall₂ (SameRun (Language.c.vocabulary .standard)) (runs (Token.symbols tokens))
        (runs (Token.symbols tokens')) ∧
      Token.symbols tokens = Token.symbols tokens' ∧ tokens.length = tokens'.length := by
  let kinds : List Symbol :=
    [.identifier, .verbatim ">>=", .verbatim "-", .verbatim "u8", .verbatim ";"]
  obtain ⟨tokens, h, hkinds⟩ := exists_tokens "a.c" (by decide +kernel :
    Symbol.joinLiterals ((Language.c.scan "x>>=-u8;".toList).filterMap fun lexeme =>
      Classifier.standard.classify lexeme.category lexeme.text) = kinds)
  obtain ⟨tokens', h', hkinds'⟩ := exists_tokens "b.c" (by decide +kernel :
    Symbol.joinLiterals ((Language.c.scan "y >>= - /* */ u8 ;".toList).filterMap fun lexeme =>
      Classifier.standard.classify lexeme.category lexeme.text) = kinds)
  obtain ⟨hruns, hdefault, hsymbols⟩ := Language.canonicalText_decodes .c .standard h h'
  have hdecodable := hdefault (.inl Classifier.ofConfig_default)
  have htext := Token.canonicalText_congr (hkinds.trans hkinds'.symm)
  have hlongest : (runs (kinds.map (·.render.toList))).all signsLongest = true := by decide +kernel
  rw [List.all_eq_true] at hlongest
  refine ⟨tokens, tokens', h, h', hruns.mp htext, hsymbols hdecodable htext ?_ ?_⟩
  · rw [Token.symbols_of_kinds hkinds]
    exact hlongest
  · rw [Token.symbols_of_kinds hkinds']
    exact hlongest

/-- Symbols run together: two signs are read as one without the blank between them, and so are two
words where a type name is made of them. -/
theorem canonicalText_runs_together :
    (∃ tokens tokens', Token.normalize Language.c.lexer "a > > b;" "a.c" .standard = .ok tokens ∧
      Token.normalize Language.c.lexer "a >> b;" "b.c" .standard = .ok tokens' ∧
      Token.canonicalText tokens = Token.canonicalText tokens' ∧
      Token.symbols tokens ≠ Token.symbols tokens' ∧ tokens.length ≠ tokens'.length) ∧
    ∃ tokens tokens', Token.normalize Language.c.lexer "int int" "a.c" ⟨["intint"]⟩ = .ok tokens ∧
      Token.normalize Language.c.lexer "intint" "b.c" ⟨["intint"]⟩ = .ok tokens' ∧
      Token.canonicalText tokens = Token.canonicalText tokens' ∧
      Token.symbols tokens ≠ Token.symbols tokens' ∧ tokens.length ≠ tokens'.length := by
  constructor
  · obtain ⟨tokens, h, hkinds⟩ := exists_tokens "a.c" (by decide +kernel :
      Symbol.joinLiterals ((Language.c.scan "a > > b;".toList).filterMap fun lexeme =>
        Classifier.standard.classify lexeme.category lexeme.text) =
      [.identifier, .verbatim ">", .verbatim ">", .identifier, .verbatim ";"])
    obtain ⟨tokens', h', hkinds'⟩ := exists_tokens "b.c" (by decide +kernel :
      Symbol.joinLiterals ((Language.c.scan "a >> b;".toList).filterMap fun lexeme =>
        Classifier.standard.classify lexeme.category lexeme.text) =
      [.identifier, .verbatim ">>", .identifier, .verbatim ";"])
    exact ⟨tokens, tokens', h, h', Token.apart_of_kinds hkinds hkinds' (by decide) (by decide)⟩
  · obtain ⟨tokens, h, hkinds⟩ := exists_tokens "a.c" (by decide +kernel :
      Symbol.joinLiterals ((Language.c.scan "int int".toList).filterMap fun lexeme =>
        Classifier.classify ⟨["intint"]⟩ lexeme.category lexeme.text) =
      [.verbatim "int", .verbatim "int"])
    obtain ⟨tokens', h', hkinds'⟩ := exists_tokens "b.c" (by decide +kernel :
      Symbol.joinLiterals ((Language.c.scan "intint".toList).filterMap fun lexeme =>
        Classifier.classify ⟨["intint"]⟩ lexeme.category lexeme.text) = [.verbatim "intint"])
    exact ⟨tokens, tokens', h, h', Token.apart_of_kinds hkinds hkinds' (by decide) (by decide)⟩

end Language

end SourcePrint
