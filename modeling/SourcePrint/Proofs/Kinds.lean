import SourcePrint.Fingerprint
import SourcePrint.Proofs.Pieces

namespace SourcePrint

/-- Symbols with every run of literals left as one. -/
def Symbol.joinLiterals (symbols : List Symbol) : List Symbol :=
  symbols.foldr (fun symbol after =>
    if symbol.isLiteral && after.head?.any isLiteral then after else symbol :: after) []

theorem Symbol.joinLiterals_congr {symbols symbols' : List Symbol}
    (h : joinLiterals symbols' = joinLiterals symbols) (front : List Symbol) :
    joinLiterals (front ++ symbols') = joinLiterals (front ++ symbols) := by
  unfold joinLiterals at *
  rw [List.foldr_append, List.foldr_append, h]

theorem Symbol.joinLiterals_literal_cons (symbols : List Symbol) :
    joinLiterals (.literal :: .literal :: symbols) = joinLiterals (.literal :: symbols) := by
  have hcons : ∀ symbols, joinLiterals (.literal :: symbols) =
      if (joinLiterals symbols).head?.any isLiteral then joinLiterals symbols
      else .literal :: joinLiterals symbols := by
    intro symbols
    rfl
  have hhead : (joinLiterals (.literal :: symbols)).head?.any isLiteral = true := by
    rw [hcons]
    split
    · assumption
    · rfl
  rw [hcons (.literal :: symbols), if_pos hhead]

/-- Only that there are literals in a row counts, not how many. -/
theorem Symbol.joinLiterals_run {literals : List Symbol} (hne : literals ≠ [])
    (hall : ∀ symbol ∈ literals, symbol = .literal) (front back : List Symbol) :
    joinLiterals (front ++ (literals ++ back)) = joinLiterals (front ++ .literal :: back) := by
  refine joinLiterals_congr ?_ front
  induction literals with
  | nil => exact absurd rfl hne
  | cons symbol literals ih =>
    obtain rfl := hall symbol (by simp)
    cases literals with
    | nil => rfl
    | cons next literals =>
      have htail := ih (by simp) fun symbol hmem => hall symbol (List.mem_cons_of_mem _ hmem)
      exact (joinLiterals_congr htail [.literal]).trans (joinLiterals_literal_cons back)

/-- The symbol that a lexeme leaves, with its text. -/
def Classifier.content? (classifier : Classifier) (category : Category) (text : List Char) :
    Option (Symbol × String) :=
  (classifier.classify category text).map fun symbol => (symbol, String.ofList text)

namespace Token

/-- What a token says, wherever it stands. -/
def content (token : Token) : Symbol × String := (token.kind, token.text)

/-- Joining, seen on the contents alone. -/
def absorbContent (content : Symbol × String) (after : List (Symbol × String)) :
    List (Symbol × String) :=
  match after with
  | [] => [content]
  | next :: rest =>
    if content.1.isLiteral && next.1.isLiteral then (content.1, content.2 ++ next.2) :: rest
    else content :: next :: rest

def joinContents (contents : List (Symbol × String)) : List (Symbol × String) :=
  contents.foldr absorbContent []

theorem contents_mergeLiterals (tokens : List Token) :
    (mergeLiterals tokens).map content = joinContents (tokens.map content) := by
  unfold mergeLiterals joinContents
  induction tokens with
  | nil => rfl
  | cons token tokens ih =>
    rw [List.foldr_cons, List.map_cons, List.foldr_cons, ← ih]
    cases tokens.foldr absorb [] with
    | nil => rfl
    | cons next rest =>
      simp only [absorb, List.map_cons, absorbContent]
      split
      · rename_i h
        exact (if_pos h).symm
      · rename_i h
        exact (if_neg h).symm

theorem symbols_absorbContent (content : Symbol × String) (after : List (Symbol × String)) :
    (absorbContent content after).map (·.1) =
      if content.1.isLiteral && (after.map (·.1)).head?.any Symbol.isLiteral then after.map (·.1)
      else content.1 :: after.map (·.1) := by
  cases after with
  | nil => simp [absorbContent]
  | cons next rest =>
    simp only [absorbContent, List.map_cons, List.head?_cons, Option.any_some]
    split
    · rename_i h
      simp only [Symbol.isLiteral, Bool.and_eq_true, beq_iff_eq] at h
      rw [List.map_cons, h.1, h.2]
    · rfl

theorem symbols_joinContents (contents : List (Symbol × String)) :
    (joinContents contents).map (·.1) = Symbol.joinLiterals (contents.map (·.1)) := by
  unfold joinContents Symbol.joinLiterals
  induction contents with
  | nil => rfl
  | cons content contents ih =>
    rw [List.foldr_cons, symbols_absorbContent, ih, List.map_cons, List.foldr_cons]

theorem kinds_eq (tokens : List Token) : tokens.map (·.kind) = (tokens.map content).map (·.1) := by
  rw [List.map_map]
  rfl

theorem kinds_congr {a b : List Token} (h : a.map content = b.map content) :
    a.map (·.kind) = b.map (·.kind) := by
  rw [kinds_eq, kinds_eq, h]

/-- The contents of tokens come from the categories and texts of the pieces, wherever these lie. -/
theorem contents_ofPieces (classifier : Classifier) (sourceName : String) (pieces : List Piece) :
    (ofPieces classifier sourceName pieces).map content =
      joinContents
        (pieces.filterMap fun piece => classifier.content? piece.category piece.text) := by
  have hlocated : ∀ position, ((mapThread Piece.locate position pieces).filterMap
      (ofPiece? classifier sourceName)).map content =
      pieces.filterMap fun piece => classifier.content? piece.category piece.text := by
    induction pieces with
    | nil => intro position; rfl
    | cons piece pieces ih =>
      intro position
      rw [mapThread_cons, List.filterMap_cons, List.filterMap_cons, Piece.locate]
      cases hkind : classifier.classify piece.category piece.text with
      | none => simp [ofPiece?, Classifier.content?, hkind, ih]
      | some kind => simp [ofPiece?, Classifier.content?, content, hkind, ih]
  rw [ofPieces, contents_mergeLiterals, hlocated]

theorem canonicalText_eq (tokens : List Token) :
    canonicalText tokens = String.join ((tokens.map (·.kind)).map Symbol.render) := by
  rw [canonicalText, List.map_map]
  rfl

theorem canonicalText_congr {a b : List Token} (h : a.map (·.kind) = b.map (·.kind)) :
    canonicalText a = canonicalText b := by
  rw [canonicalText_eq, canonicalText_eq, h]

end Token

theorem Fingerprint.ofTokens_congr {a b : List Token} (h : a.map (·.kind) = b.map (·.kind))
    (sourceName : String) (version : UInt32) :
    ofTokens sourceName a version = ofTokens sourceName b version := by
  have hcount : a.length = b.length := by simpa using congrArg List.length h
  unfold ofTokens
  rw [Token.canonicalText_congr h, hcount]

/-- Under a language's own rules every text has tokens, and its lexemes give their contents. -/
theorem Language.contents_normalize (language : Language) (text sourceName : String)
    (classifier : Classifier) :
    ∃ tokens, Token.normalize language.lexer text sourceName classifier = .ok tokens ∧
      tokens.map Token.content = Token.joinContents ((language.scan text.toList).filterMap
        fun lexeme => classifier.content? lexeme.category lexeme.text) := by
  obtain ⟨pieces, hcut, hpieces⟩ := language.cut_spans text
  refine ⟨_, Token.normalize_eq_ok_iff.mpr ⟨_, pieces, rfl, hcut, rfl⟩, ?_⟩
  have hclassified := congrArg (List.filterMap fun entry : Category × List Char =>
    classifier.content? entry.1 entry.2) hpieces
  rw [List.filterMap_map, List.filterMap_map] at hclassified
  rw [Token.contents_ofPieces]
  exact congrArg Token.joinContents hclassified

theorem Language.normalize_congr {language : Language} {text text' : String}
    {classifier : Classifier}
    (h : ((language.scan text'.toList).filterMap fun lexeme =>
        classifier.content? lexeme.category lexeme.text) =
      (language.scan text.toList).filterMap fun lexeme =>
        classifier.content? lexeme.category lexeme.text) (sourceName : String) :
    ∃ tokens tokens', Token.normalize language.lexer text sourceName classifier = .ok tokens ∧
      Token.normalize language.lexer text' sourceName classifier = .ok tokens' ∧
      tokens'.map Token.content = tokens.map Token.content := by
  obtain ⟨tokens, htokens, hcontents⟩ := language.contents_normalize text sourceName classifier
  obtain ⟨tokens', htokens', hcontents'⟩ := language.contents_normalize text' sourceName classifier
  exact ⟨tokens, tokens', htokens, htokens', by rw [hcontents, hcontents', h]⟩

/-- The kinds of the tokens are the symbols of the lexemes, runs of literals joined. -/
theorem Language.kinds_normalize (language : Language) (text sourceName : String)
    (classifier : Classifier) :
    ∃ tokens, Token.normalize language.lexer text sourceName classifier = .ok tokens ∧
      tokens.map (·.kind) = Symbol.joinLiterals ((language.scan text.toList).filterMap
        fun lexeme => classifier.classify lexeme.category lexeme.text) := by
  obtain ⟨tokens, htokens, hcontents⟩ := language.contents_normalize text sourceName classifier
  refine ⟨tokens, htokens, ?_⟩
  rw [Token.kinds_eq, hcontents, Token.symbols_joinContents, List.map_filterMap]
  simp [Classifier.content?, Option.map_map, Function.comp_def]

/-- Where the symbols of two texts are the same but for the lengths of runs of literals, the kinds of
the tokens are. -/
theorem Language.normalize_kinds_congr {language : Language} {text text' : String}
    {classifier : Classifier}
    (h : Symbol.joinLiterals ((language.scan text'.toList).filterMap fun lexeme =>
        classifier.classify lexeme.category lexeme.text) =
      Symbol.joinLiterals ((language.scan text.toList).filterMap fun lexeme =>
        classifier.classify lexeme.category lexeme.text)) (sourceName : String) :
    ∃ tokens tokens', Token.normalize language.lexer text sourceName classifier = .ok tokens ∧
      Token.normalize language.lexer text' sourceName classifier = .ok tokens' ∧
      tokens'.map (·.kind) = tokens.map (·.kind) := by
  obtain ⟨tokens, htokens, hkinds⟩ := language.kinds_normalize text sourceName classifier
  obtain ⟨tokens', htokens', hkinds'⟩ := language.kinds_normalize text' sourceName classifier
  exact ⟨tokens, tokens', htokens, htokens', by rw [hkinds, hkinds', h]⟩

end SourcePrint
