import SourcePrint.Proofs.Composition

namespace SourcePrint

namespace Position

/-- Earlier in reading order: on a line above, or further left on the same line. -/
def Precedes (a b : Position) : Prop :=
  a.line < b.line ∨ a.line = b.line ∧ a.column < b.column

theorem Precedes.trans {a b c : Position} (hab : a.Precedes b) (hbc : b.Precedes c) :
    a.Precedes c := by
  unfold Precedes at *
  omega

theorem precedes_next (position : Position) (c : Char) : position.Precedes (position.next c) := by
  unfold Precedes next
  split
  · simp
  · simp

theorem precedes_advance (position : Position) {cs : List Char} (h : cs ≠ []) :
    position.Precedes (position.advance cs) := by
  induction cs generalizing position with
  | nil => exact absurd rfl h
  | cons c cs ih =>
    have hfirst := precedes_next position c
    rw [advance_cons]
    cases cs with
    | nil => exact hfirst
    | cons d cs =>
      apply hfirst.trans
      exact ih (position.next c) (by simp)

end Position

theorem Text.trim_ne_nil {c : Char} {cs : List Char} (hc : isBlank c = false) :
    trim (c :: cs) ≠ [] := by
  have hstart : trimStart (c :: cs) = c :: cs := List.dropWhile_cons_of_neg (by simp [hc])
  intro hnil
  rw [trim, hstart, trimEnd, List.reverse_eq_nil_iff, List.dropWhile_eq_nil_iff] at hnil
  have hblank := hnil c (by simp)
  simp [hc] at hblank

namespace Token

def position (token : Token) : Position := ⟨token.line, token.column⟩

/-- All of `a` lies in front of `b`. -/
structure Before (a b : Token) : Prop where
  bytes : a.startOffset + a.text.utf8ByteSize ≤ b.startOffset
  position : a.position.Precedes b.position

/-- The text of the token stands in the source, from where the token begins. -/
def LiesIn (text : String) (token : Token) : Prop :=
  ∃ before after, text = before ++ token.text ++ after ∧ before.utf8ByteSize = token.startOffset

def Nonblank (token : Token) : Prop := Text.trim token.text.toList ≠ []

/-- What holds of the tokens of a text whatever the text is. -/
structure WellFormed (text : String) (tokens : List Token) : Prop where
  nonblank : ∀ token ∈ tokens, token.Nonblank
  /-- A joined literal may have left out the trivia between its parts. -/
  slices : ∀ token ∈ tokens, token.kind ≠ .literal → token.LiesIn text
  spaced : tokens.IsChain fun a b => a.startOffset + a.text.utf8ByteSize ≤ b.startOffset
  ascending : tokens.IsChain fun a b => a.position.Precedes b.position
  apart : tokens.IsChain fun a b => ¬(a.kind = .literal ∧ b.kind = .literal)

theorem absorb_isChain_before {token : Token} {after : List Token}
    (h : (token :: after).IsChain Before) : (absorb token after).IsChain Before := by
  cases after with
  | nil => exact h
  | cons next rest =>
    simp only [absorb]
    split
    · obtain ⟨hnext, hrest⟩ := List.isChain_cons_cons.mp h
      rw [List.isChain_cons] at hrest ⊢
      refine ⟨?_, hrest.2⟩
      intro later hlater
      have hlast := hrest.1 later hlater
      refine ⟨?_, hnext.position.trans hlast.position⟩
      have hbytes := hnext.bytes
      have hbytes' := hlast.bytes
      simp only [String.utf8ByteSize_append]
      omega
    · exact h

theorem mergeLiterals_isChain_before {tokens : List Token} (h : tokens.IsChain Before) :
    (mergeLiterals tokens).IsChain Before := by
  induction tokens with
  | nil => exact .nil
  | cons token tokens ih =>
    apply absorb_isChain_before
    cases tokens with
    | nil => exact .singleton token
    | cons next tokens =>
      obtain ⟨hnext, htail⟩ := List.isChain_cons_cons.mp h
      have hjoined : (absorb next (mergeLiterals tokens)).IsChain Before := ih htail
      change (token :: absorb next (mergeLiterals tokens)).IsChain Before
      obtain ⟨more, rest, heq⟩ := absorb_eq_cons next (mergeLiterals tokens)
      rw [heq] at hjoined ⊢
      exact .cons_cons ⟨hnext.bytes, hnext.position⟩ hjoined

theorem mem_of_mem_mergeLiterals {tokens : List Token} {token : Token}
    (h : token ∈ mergeLiterals tokens) (hkind : token.kind ≠ .literal) : token ∈ tokens := by
  induction tokens with
  | nil => cases h
  | cons first tokens ih =>
    rcases mem_absorb h with rfl | h | ⟨hliteral, text, rfl⟩
    · exact List.mem_cons_self
    · exact List.mem_cons_of_mem _ (ih h)
    · exact absurd hliteral hkind

theorem sourceText_absorb (token : Token) (joined : List Token) :
    sourceText (absorb token joined) = token.text ++ sourceText joined := by
  cases joined with
  | nil => simp [absorb, sourceText]
  | cons next rest =>
    simp only [absorb]
    split
    · simp [sourceText, String.append_assoc]
    · simp [sourceText]

theorem sourceText_mergeLiterals (tokens : List Token) :
    sourceText (mergeLiterals tokens) = sourceText tokens := by
  induction tokens with
  | nil => rfl
  | cons token tokens ih =>
    change sourceText (absorb token (mergeLiterals tokens)) = sourceText (token :: tokens)
    rw [sourceText_absorb, ih]
    simp [sourceText]

section Lexemes

variable {classifier : Classifier} {sourceName : String} {offset : Nat} {position : Position}
  {lexemes : List Lexeme}

/-- No token begins in front of the lexemes that leave it, so what is earlier than they are is
earlier than the token. -/
theorem le_of_mem_ofLexemes (hne : ∀ lexeme ∈ lexemes, lexeme.text ≠ []) :
    ∀ token ∈ ofLexemes classifier sourceName offset position lexemes,
      offset ≤ token.startOffset ∧
        ∀ earlier : Position, earlier.Precedes position → earlier.Precedes token.position := by
  induction lexemes generalizing offset position with
  | nil => simp [ofLexemes]
  | cons lexeme lexemes ih =>
    intro token hmem
    rcases List.mem_append.mp hmem with hmem | hmem
    · obtain ⟨kind, _, rfl⟩ := Option.map_eq_some_iff.mp (Option.mem_toList.mp hmem)
      exact ⟨Nat.le_refl _, fun _ hearlier => hearlier⟩
    · obtain ⟨hoffset, hposition⟩ := ih (fun later h => hne later (by simp [h])) token hmem
      refine ⟨Nat.le_trans (Nat.le_add_right _ _) hoffset, ?_⟩
      intro earlier hearlier
      apply hposition
      exact hearlier.trans (position.precedes_advance (hne lexeme (by simp)))

theorem ofLexemes_isChain_before (hne : ∀ lexeme ∈ lexemes, lexeme.text ≠ []) :
    (ofLexemes classifier sourceName offset position lexemes).IsChain Before := by
  induction lexemes generalizing offset position with
  | nil => exact .nil
  | cons lexeme lexemes ih =>
    have hrest : ∀ later ∈ lexemes, later.text ≠ [] := fun later h => hne later (by simp [h])
    rw [ofLexemes]
    cases hpiece : ofPiece? classifier sourceName
        (⟨lexeme.category, lexeme.text, offset⟩, position) with
    | none => exact ih hrest
    | some token =>
      obtain ⟨kind, _, rfl⟩ := Option.map_eq_some_iff.mp hpiece
      rw [Option.toList_some, List.singleton_append, List.isChain_cons]
      refine ⟨?_, ih hrest⟩
      intro later hlater
      obtain ⟨hoffset, hposition⟩ := le_of_mem_ofLexemes hrest later (List.mem_of_mem_head? hlater)
      refine ⟨?_, ?_⟩
      · rwa [← Text.byteLength_toList, String.toList_ofList]
      · apply hposition
        exact position.precedes_advance (hne lexeme (by simp))

/-- Lexemes that make up the rest of a text leave tokens that stand in it. -/
theorem liesIn_of_mem_ofLexemes {text : String} {front : List Char}
    (htext : text.toList = front ++ Lexeme.textOf lexemes) :
    ∀ token ∈ ofLexemes classifier sourceName (Text.byteLength front) position lexemes,
      token.LiesIn text := by
  induction lexemes generalizing front position with
  | nil => simp [ofLexemes]
  | cons lexeme lexemes ih =>
    rw [Lexeme.textOf_cons, ← List.append_assoc] at htext
    intro token hmem
    rcases List.mem_append.mp hmem with hmem | hmem
    · obtain ⟨kind, _, rfl⟩ := Option.map_eq_some_iff.mp (Option.mem_toList.mp hmem)
      refine ⟨String.ofList front, String.ofList (Lexeme.textOf lexemes), ?_, ?_⟩
      · apply String.toList_injective
        simpa using htext
      · rw [← Text.byteLength_toList, String.toList_ofList]
    · rw [← Text.byteLength_append] at hmem
      exact ih htext token hmem

end Lexemes

end Token

namespace Lexeme

/-- A lexeme that leaves no token, or that begins with a character that is not blank. -/
def Leads (lexeme : Lexeme) : Prop :=
  lexeme.category = .text ∨ ∃ c cs, lexeme.text = c :: cs ∧ Text.isBlank c = false

/-- Only a part of a string literal behind another one may begin with a blank. -/
def Follows (a b : Lexeme) : Prop :=
  b.Leads ∨ (∃ kind, a.category = .string kind) ∧ ∃ kind, b.category = .string kind

theorem leads_readNext {language : Language} {context : Context} {cs : List Char}
    {first : Lexeme} {more : List Lexeme}
    (h : (readNext language context cs).lexemes = first :: more) : first.Leads := by
  have hcovers := covers_readNext language context cs
  cases cs with
  | nil => cases h
  | cons c cs =>
    by_cases hc : Text.isBlank c = true
    · rw [readNext, if_pos hc] at h
      obtain ⟨rfl, _⟩ := List.cons.inj h
      exact .inl rfl
    · obtain ⟨d, text, hfirst⟩ := List.exists_cons_of_ne_nil (hcovers.nonempty first (by simp [h]))
      have htext := hcovers.text
      rw [h, textOf_cons, hfirst] at htext
      obtain ⟨rfl, _⟩ := List.cons.inj htext
      exact .inr ⟨d, text, hfirst, by simpa using hc⟩

theorem Whole.isChain {lexemes : List Lexeme} (h : Whole lexemes) : lexemes.IsChain Follows := by
  rcases h with ⟨lexeme, rfl⟩ | h
  · exact .singleton lexeme
  · apply List.Pairwise.isChain
    apply List.pairwise_of_forall_mem_list
    intro a ha b hb
    exact .inr ⟨h a ha, h b hb⟩

theorem isChain_lexemes (language : Language) (context : Context) (cs : List Char) :
    (lexemes language context cs).IsChain Follows ∧
      ∀ first ∈ (lexemes language context cs).head?, first.Leads := by
  induction context, cs using scan_induction language with
  | nil context => simp [lexemes]
  | step context cs _ ih =>
    rw [lexemes_eq_readNext]
    refine ⟨?_, ?_⟩
    · apply List.isChain_append.mpr
      refine ⟨(whole_readNext language context cs).isChain, ih.1, ?_⟩
      intro _ _ next hnext
      exact .inl (ih.2 next hnext)
    · intro first hfirst
      cases hread : (readNext language context cs).lexemes with
      | nil =>
        rw [hread, List.nil_append] at hfirst
        exact ih.2 first hfirst
      | cons lexeme more =>
        rw [hread, List.cons_append, List.head?_cons, Option.mem_some_iff] at hfirst
        subst hfirst
        exact leads_readNext hread

end Lexeme

namespace Token

variable {classifier : Classifier} {sourceName : String} {offset : Nat} {position : Position}

theorem nonblank_of_leads {lexeme : Lexeme} {token : Token} (h : lexeme.Leads)
    (htoken : ofPiece? classifier sourceName (⟨lexeme.category, lexeme.text, offset⟩, position) =
      some token) (more : String) : Nonblank { token with text := token.text ++ more } := by
  obtain ⟨kind, hkind, rfl⟩ := Option.map_eq_some_iff.mp htoken
  rcases h with htext | ⟨c, cs, htext, hc⟩
  · simp [htext, Classifier.classify] at hkind
  · simpa [Nonblank, htext] using Text.trim_ne_nil hc

theorem ofPiece?_string {lexeme : Lexeme} {kind : StringKind} (h : lexeme.category = .string kind) :
    ∃ token, token.kind = .literal ∧ ofPiece? classifier sourceName
      (⟨lexeme.category, lexeme.text, offset⟩, position) = some token := by
  simp [ofPiece?, h, Classifier.classify]

theorem mergeLiterals_ofLexemes_cons {lexeme : Lexeme} {token : Token}
    (h : ofPiece? classifier sourceName (⟨lexeme.category, lexeme.text, offset⟩, position) =
      some token) (lexemes : List Lexeme) :
    mergeLiterals (ofLexemes classifier sourceName offset position (lexeme :: lexemes)) =
      absorb token (mergeLiterals (ofLexemes classifier sourceName
        (offset + Text.byteLength lexeme.text) (position.advance lexeme.text) lexemes)) := by
  rw [ofLexemes, h]
  rfl

/-- Behind a lexeme that leaves a token, what follows begins afresh or is a literal that the token
takes in. -/
theorem leads_or_literal {lexeme : Lexeme} {lexemes : List Lexeme} {token : Token}
    (hnext : ∀ next ∈ lexemes.head?, lexeme.Follows next)
    (htoken : ofPiece? classifier sourceName (⟨lexeme.category, lexeme.text, offset⟩, position) =
      some token) (offset' : Nat) (position' : Position) :
    (∀ next ∈ lexemes.head?, next.Leads) ∨
      token.kind = .literal ∧ ∃ first rest,
        mergeLiterals (ofLexemes classifier sourceName offset' position' lexemes) = first :: rest ∧
          first.kind = .literal := by
  cases lexemes with
  | nil => exact .inl (by simp)
  | cons next lexemes =>
    rcases hnext next rfl with hleads | ⟨⟨kind, hkind⟩, kind', hkind'⟩
    · exact .inl (by simpa using hleads)
    · obtain ⟨literal, hliteral, heq⟩ := ofPiece?_string hkind
      obtain ⟨later, hlater, hpiece⟩ := ofPiece?_string hkind'
      obtain rfl : literal = token := Option.some.inj (heq.symm.trans htoken)
      rw [mergeLiterals_ofLexemes_cons hpiece]
      obtain ⟨more, rest, hjoined⟩ := absorb_eq_cons later _
      exact .inr ⟨hliteral, _, rest, hjoined, hlater⟩

/-- A token takes in a literal that could be blank, and leaves no other behind it. -/
theorem absorb_nonblank {token : Token} {joined : List Token}
    (htail : ∀ later ∈ joined.tail, later.Nonblank)
    (hfirst : (∀ later ∈ joined, later.Nonblank) ∨
      token.kind = .literal ∧ ∃ first rest, joined = first :: rest ∧ first.kind = .literal) :
    ∀ later ∈ (absorb token joined).tail, later.Nonblank := by
  rcases hfirst with hall | ⟨hkind, first, rest, rfl, hnext⟩
  · cases joined with
    | nil => simp [absorb]
    | cons next rest =>
      simp only [absorb]
      split
      · exact htail
      · exact hall
  · simpa [absorb, Symbol.isLiteral, hkind, hnext] using htail

/-- Only the first token can have a blank text, and only where the lexemes begin inside a string. -/
theorem nonblank_mergeLiterals {lexemes : List Lexeme} (hchain : lexemes.IsChain Lexeme.Follows) :
    (∀ token ∈ (mergeLiterals (ofLexemes classifier sourceName offset position lexemes)).tail,
      token.Nonblank) ∧
    ((∀ first ∈ lexemes.head?, first.Leads) →
      ∀ token ∈ mergeLiterals (ofLexemes classifier sourceName offset position lexemes),
        token.Nonblank) := by
  induction lexemes generalizing offset position with
  | nil => simp [ofLexemes, mergeLiterals]
  | cons lexeme lexemes ih =>
    obtain ⟨hnext, hrest⟩ := List.isChain_cons.mp hchain
    obtain ⟨htail, hall⟩ :=
      @ih (offset + Text.byteLength lexeme.text) (position.advance lexeme.text) hrest
    cases hpiece : ofPiece? classifier sourceName
        (⟨lexeme.category, lexeme.text, offset⟩, position) with
    | none =>
      have hleads : ∀ next ∈ lexemes.head?, next.Leads := by
        intro next hmem
        rcases hnext next hmem with hleads | ⟨⟨kind, hkind⟩, _⟩
        · exact hleads
        · simp [ofPiece?, hkind, Classifier.classify] at hpiece
      rw [ofLexemes, hpiece]
      exact ⟨fun token hmem => hall hleads token (List.mem_of_mem_tail hmem), fun _ => hall hleads⟩
    | some token =>
      have hbehind := leads_or_literal hnext hpiece (offset + Text.byteLength lexeme.text)
        (position.advance lexeme.text)
      have hlater := absorb_nonblank htail (hbehind.imp_left hall)
      rw [mergeLiterals_ofLexemes_cons hpiece]
      refine ⟨hlater, ?_⟩
      intro hleads later hmem
      obtain ⟨more, rest, hjoined⟩ := absorb_eq_cons token (mergeLiterals (ofLexemes classifier
        sourceName (offset + Text.byteLength lexeme.text) (position.advance lexeme.text) lexemes))
      rw [hjoined] at hmem hlater
      rcases List.mem_cons.mp hmem with rfl | hmem
      · exact nonblank_of_leads (hleads lexeme rfl) hpiece more
      · exact hlater later hmem

end Token

/-- Before joining, the tokens of a text are the slices that its spans keep. -/
theorem Language.slices_ofLexemes (language : Language) (text sourceName : String)
    (classifier : Classifier) :
    (Token.ofLexemes classifier sourceName 0 .start (language.scan text.toList)).map Token.slice =
      (language.spans text).filterMap (Span.kept? classifier text) := by
  obtain ⟨pieces, hcut, hsame⟩ := language.cut_spans text
  obtain ⟨hunder, _⟩ := Piece.cut_eq_ok_iff.mp hcut
  rw [← Token.ofLexemes_of_under hunder hsame]
  exact Token.slices_ofPieces hunder .start

/-- Every text has well-formed tokens in every language under every classifier, and they hold the
text of every span that is not elided. -/
theorem Language.normalize_wellFormed (language : Language) (text sourceName : String)
    (classifier : Classifier) :
    ∃ tokens, Token.normalize language.lexer text sourceName classifier = .ok tokens ∧
      Token.WellFormed text tokens ∧
      Token.sourceText tokens =
        String.join
          (((language.spans text).filterMap (Span.kept? classifier text)).map (·.text)) := by
  have hslices := language.slices_ofLexemes text sourceName classifier
  refine ⟨_, language.normalize_eq text sourceName classifier, ?_, ?_⟩
  · rw [language.scan_eq]
    obtain ⟨hfollows, hleads⟩ := Lexeme.isChain_lexemes language .start text.toList
    have htext : text.toList = [] ++ Lexeme.textOf (Lexeme.lexemes language .start text.toList) :=
      (Lexeme.textOf_lexemes language .start text.toList).symm
    have hbefore : (Token.mergeLiterals (Token.ofLexemes classifier sourceName 0 .start
        (Lexeme.lexemes language .start text.toList))).IsChain Token.Before := by
      apply Token.mergeLiterals_isChain_before
      apply Token.ofLexemes_isChain_before
      exact Lexeme.nonempty_lexemes language .start text.toList
    refine ⟨(Token.nonblank_mergeLiterals hfollows).2 hleads, ?_, ?_, ?_, ?_⟩
    · intro token hmem hkind
      have hraw := Token.mem_of_mem_mergeLiterals hmem hkind
      exact Token.liesIn_of_mem_ofLexemes htext token hraw
    · exact hbefore.imp fun _ _ h => h.bytes
    · exact hbefore.imp fun _ _ h => h.position
    · exact Token.mergeLiterals_isChain _
  · rw [Token.sourceText_mergeLiterals, Token.sourceText, ← hslices, List.map_map]
    rfl

end SourcePrint
