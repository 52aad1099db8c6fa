import SourcePrint.Proofs.Positions
import SourcePrint.Proofs.Spelling

namespace SourcePrint

namespace Lexeme

variable {language : Language} {context : Context}

/-- A punctuation mark that is no single dot is read alone in front of what it is cut off from. -/
theorem readNext_mark {mark rest : List Char} (hmark : mark ∈ punctuationMarks.map String.toList)
    (hdot : mark ≠ ['.']) (hcuts : Cuts rest) :
    readNext language context (mark ++ rest) = ⟨[⟨.punctuation, mark⟩], rest⟩ := by
  have htable : ((punctuationMarks.map String.toList).all fun mark =>
      mark.head?.any (fun c => !Text.isBlank c && !isNameStart c && !c.isDigit &&
        !(['/', '#', '\\', '"', '\'', '@'].contains c)) &&
      (mark == ['.'] || mark.head? != some '.' || mark.tail.head? == some '.') &&
      longestMatch? punctuationMarks mark == some mark) = true := by
    decide
  have hfacts := List.all_eq_true.mp htable mark hmark
  cases mark with
  | nil => cases hfacts
  | cons c text =>
    simp only [List.head?_cons, Option.any_some, Bool.and_eq_true, Bool.or_eq_true,
      Bool.not_eq_eq_eq_not, Bool.not_true, List.contains_cons, List.contains_nil, Bool.or_false,
      Bool.or_eq_false_iff, beq_eq_false_iff_ne, ne_eq, beq_iff_eq, bne_iff_ne,
      Option.some.injEq, List.tail_cons, hdot, false_or] at hfacts
    obtain ⟨⟨⟨⟨⟨hblank, hname⟩, hdigit⟩, hslash, hhash, hbackslash, hquote, hapostrophe, hat⟩,
      hpoint⟩, hself⟩ := hfacts
    have hnumber : startsNumber c (text ++ rest) = false := by
      rcases hpoint with hpoint | hpoint
      · simp [startsNumber, hdigit, hpoint]
      · obtain ⟨more, rfl⟩ := List.head?_eq_some_iff.mp hpoint
        simp [startsNumber, hdigit]
    have hlongest : longestMatch? punctuationMarks (c :: (text ++ rest)) = some (c :: text) := by
      have hended : Alike (c :: text) (c :: (text ++ rest)) :=
        .ended (fun hc htext => hdot (by rw [hc, htext])) hcuts
      rw [← hended.longestMatch?_eq fun sign => List.mem_append_left _, hself]
    rw [List.cons_append, readNext, if_neg (by simp [hblank])]
    simp [readToken, hslash, hhash, hbackslash, hquote, hapostrophe, hnumber, hat, hname, readSign,
      hlongest, Reading.one]

/-- Nothing that is read in front of a last punctuation mark looks past it. -/
theorem lexemes_seam {a : List Char} {front : List Lexeme} {last : Lexeme}
    (h : lexemes language .start a = front ++ [last]) (hlast : last.category = .punctuation)
    (hdot : last.text ≠ ['.']) {back : List Char} (hcuts : Cuts back) :
    lexemes language .start (a ++ back) =
      front ++ last :: lexemes language ⟨false, false⟩ back := by
  have hstring : ∀ kind, last.category ≠ .string kind := by simp [hlast]
  have hmark : last.text ∈ punctuationMarks.map String.toList := by
    have hspelled : Spelled language last := spelled_lexemes .start a last (by simp [h])
    rwa [Spelled, hlast] at hspelled
  obtain ⟨here, rest, hreads, hsingle, hend⟩ := reads_of_lexemes_eq hstring h
  obtain rfl : last.text = rest := by
    have hcovers := (covers_readNext language here rest).text
    have hnothing := textOf_lexemes language (here.next language rest)
      (readNext language here rest).rest
    rw [hend, textOf_nil] at hnothing
    rwa [hsingle, ← hnothing, textOf_cons, textOf_nil, List.append_nil, List.append_nil] at hcovers
  have ha : textOf front ++ last.text = a := hreads.covers.text
  have hread : readNext language here (last.text ++ back) =
      ⟨[⟨.punctuation, last.text⟩], back⟩ := readNext_mark hmark hdot hcuts
  have hself : last = ⟨.punctuation, last.text⟩ := by rw [← hlast]
  have hnext : here.next language (last.text ++ back) = ⟨false, false⟩ := by
    have htrivia : Category.punctuation.isTrivia = false := rfl
    rw [next_of_readNext (congrArg Reading.lexemes hread) (by simp)]
    simp [dotAfter, htrivia, hdot]
  have hreads' : Reads language .start (textOf front ++ (last.text ++ back)) front here
      (last.text ++ back) := by
    obtain ⟨c, text, htext⟩ := List.exists_cons_of_ne_nil
      (nonempty_lexemes language .start a last (by simp [h]))
    rw [htext] at hreads hdot ⊢
    have hpoint : c = '.' → text ≠ [] := fun hc htext => hdot (by rw [hc, htext])
    exact hreads.exchange (.ended hpoint hcuts) fun _ _ => .ended hpoint hcuts
  rw [← ha, List.append_assoc, hreads'.lexemes_eq, lexemes_eq_readNext, hread, hnext, ← hself]
  rfl

/-- Behind a newline a text is read as it is at the start, but that the newline and its first blanks
are one run. -/
theorem lexemes_newline (language : Language) (b : List Char) :
    ∃ blanks rest, b = blanks ++ rest ∧
      lexemes language .start b = gap blanks ++ lexemes language .start rest ∧
      lexemes language ⟨false, false⟩ ('\n' :: b) =
        ⟨.text, '\n' :: blanks⟩ :: lexemes language .start rest := by
  have hsplit : b = b.takeWhile Text.isBlank ++ b.dropWhile Text.isBlank :=
    List.takeWhile_append_dropWhile.symm
  have hall : (b.takeWhile Text.isBlank).all Text.isBlank = true := List.all_takeWhile
  have hend := any_head?_dropWhile Text.isBlank b
  generalize b.takeWhile Text.isBlank = blanks at hsplit hall
  generalize b.dropWhile Text.isBlank = rest at hsplit hend
  subst hsplit
  refine ⟨blanks, rest, rfl, lexemes_blanks hall hend, ?_⟩
  have hnewline : ('\n' :: blanks).all Text.isBlank = true := by
    rw [List.all_cons, hall]
    rfl
  exact lexemes_blanks hnewline hend

end Lexeme

namespace Token

/-- The tokens that lexemes leave before any joining, the first of them lying at byte `offset`. -/
def ofLexemes (classifier : Classifier) (sourceName : String) :
    Nat → Position → List Lexeme → List Token
  | _, _, [] => []
  | offset, position, lexeme :: lexemes =>
    (ofPiece? classifier sourceName (⟨lexeme.category, lexeme.text, offset⟩, position)).toList ++
      ofLexemes classifier sourceName (offset + Text.byteLength lexeme.text)
        (position.advance lexeme.text) lexemes

variable {classifier : Classifier} {sourceName : String}

theorem ofLexemes_append (a b : List Lexeme) (offset : Nat) (position : Position) :
    ofLexemes classifier sourceName offset position (a ++ b) =
      ofLexemes classifier sourceName offset position a ++
        ofLexemes classifier sourceName (offset + Text.byteLength (Lexeme.textOf a))
          (position.advance (Lexeme.textOf a)) b := by
  induction a generalizing offset position with
  | nil => rfl
  | cons lexeme a ih =>
    simp only [List.cons_append, ofLexemes, ih, Lexeme.textOf_cons, Text.byteLength_append,
      Position.advance_append, List.append_assoc, Nat.add_assoc]

theorem ofLexemes_gap (blanks : List Char) (offset : Nat) (position : Position) :
    ofLexemes classifier sourceName offset position (Lexeme.gap blanks) = [] := by
  unfold Lexeme.gap
  split
  · rfl
  · rfl

/-- Pieces cut from where lexemes lie leave the tokens of the lexemes. -/
theorem ofLexemes_of_under {text : String} {lexemes : List Lexeme} {pieces : List Piece}
    {offset : Nat}
    (hunder : List.Forall₂ (Piece.Under text) (mapThread Span.place offset lexemes) pieces)
    (hsame : pieces.map (fun piece => (piece.category, piece.text)) =
      lexemes.map fun lexeme => (lexeme.category, lexeme.text)) (position : Position) :
    (mapThread Piece.locate position pieces).filterMap (ofPiece? classifier sourceName) =
      ofLexemes classifier sourceName offset position lexemes := by
  induction lexemes generalizing pieces offset position with
  | nil =>
    cases hunder
    rfl
  | cons lexeme lexemes ih =>
    rw [mapThread_cons] at hunder
    cases hunder with
    | @cons _ piece _ pieces hpiece htail =>
      obtain ⟨hfirst, hrest⟩ := List.cons.inj hsame
      obtain ⟨hcategory, htext⟩ := Prod.mk.inj hfirst
      obtain rfl : piece = ⟨lexeme.category, lexeme.text, offset⟩ := by
        obtain ⟨category, text, start⟩ := piece
        rw [← hcategory, ← htext]
        exact congrArg (Piece.mk category text) hpiece.start
      rw [mapThread_cons, List.filterMap_cons, ofLexemes, Piece.locate, ih htail hrest]
      cases ofPiece? classifier sourceName (⟨lexeme.category, lexeme.text, offset⟩, position) <;> rfl

end Token

/-- The tokens of a text under a language's own rules, as the lexemes and their places give them. -/
theorem Language.normalize_eq (language : Language) (text sourceName : String)
    (classifier : Classifier) :
    Token.normalize language.lexer text sourceName classifier =
      .ok (Token.mergeLiterals
        (Token.ofLexemes classifier sourceName 0 .start (language.scan text.toList))) := by
  obtain ⟨pieces, hcut, hsame⟩ := language.cut_spans text
  obtain ⟨hunder, _⟩ := Piece.cut_eq_ok_iff.mp hcut
  refine Token.normalize_eq_ok_iff.mpr ⟨_, pieces, rfl, hcut, ?_⟩
  rw [Token.ofPieces, Token.ofLexemes_of_under hunder hsame]

namespace Token

def shift (bytes lines : Nat) (token : Token) : Token :=
  { token with startOffset := token.startOffset + bytes, line := token.line + lines }

end Token

def Position.down (lines : Nat) (position : Position) : Position :=
  ⟨position.line + lines, position.column⟩

theorem Position.advance_down (lines : Nat) (position : Position) (cs : List Char) :
    (position.down lines).advance cs = (position.advance cs).down lines := by
  induction cs generalizing position with
  | nil => rfl
  | cons c cs ih =>
    have hstep : (position.down lines).next c = (position.next c).down lines := by
      unfold next
      split
      · simp [down, Nat.add_right_comm]
      · rfl
    rw [advance_cons, advance_cons, hstep, ih]

namespace Token

variable {classifier : Classifier} {sourceName : String}

theorem ofLexemes_shift (bytes lines : Nat) (lexemes : List Lexeme) (offset : Nat)
    (position : Position) :
    ofLexemes classifier sourceName (offset + bytes) (position.down lines) lexemes =
      (ofLexemes classifier sourceName offset position lexemes).map (shift bytes lines) := by
  induction lexemes generalizing offset position with
  | nil => rfl
  | cons lexeme lexemes ih =>
    rw [ofLexemes, ofLexemes, List.map_append, Nat.add_right_comm, Position.advance_down, ih]
    congr 1
    simp only [ofPiece?]
    cases classifier.classify lexeme.category lexeme.text <;> rfl

theorem absorb_cons (token next : Token) (rest : List Token) :
    absorb token (next :: rest) = absorb token [next] ++ rest := by
  simp only [absorb]
  split <;> rfl

/-- A change that joining two tokens does not see may come before joining or behind it. -/
theorem mergeLiterals_map {change : Token → Token}
    (h : ∀ token next, absorb (change token) [change next] = (absorb token [next]).map change)
    (tokens : List Token) :
    mergeLiterals (tokens.map change) = (mergeLiterals tokens).map change := by
  unfold mergeLiterals
  induction tokens with
  | nil => rfl
  | cons token tokens ih =>
    rw [List.map_cons, List.foldr_cons, List.foldr_cons, ih]
    cases tokens.foldr absorb [] with
    | nil => rfl
    | cons next rest =>
      calc absorb (change token) ((next :: rest).map change)
          = (absorb token [next]).map change ++ rest.map change := by
            rw [List.map_cons, absorb_cons, h]
        _ = (absorb token (next :: rest)).map change := by
            rw [← List.map_append, ← absorb_cons]

theorem mergeLiterals_shift (bytes lines : Nat) (tokens : List Token) :
    mergeLiterals (tokens.map (shift bytes lines)) =
      (mergeLiterals tokens).map (shift bytes lines) := by
  apply mergeLiterals_map
  intro token next
  simp only [absorb, apply_ite (List.map (shift bytes lines))]
  rfl

/-- Joining changes nothing of the first token but the end of its text. -/
theorem absorb_eq_cons (token : Token) (after : List Token) :
    ∃ more rest, absorb token after = { token with text := token.text ++ more } :: rest := by
  cases after with
  | nil => exact ⟨"", [], by simp [absorb]⟩
  | cons next rest =>
    simp only [absorb]
    split
    · exact ⟨next.text, rest, rfl⟩
    · exact ⟨"", next :: rest, by simp⟩

/-- No joining goes over a token that is no literal. -/
theorem mergeLiterals_append {last : Token} (hlast : last.kind.isLiteral = false)
    (front back : List Token) :
    mergeLiterals (front ++ last :: back) =
      mergeLiterals (front ++ [last]) ++ mergeLiterals back := by
  induction front with
  | nil =>
    change absorb last (mergeLiterals back) = absorb last [] ++ mergeLiterals back
    cases mergeLiterals back with
    | nil => rfl
    | cons next rest => simp [absorb, hlast]
  | cons token front ih =>
    change absorb token (mergeLiterals (front ++ last :: back)) =
      absorb token (mergeLiterals (front ++ [last])) ++ mergeLiterals back
    obtain ⟨next, rest, hjoined⟩ : ∃ next rest, mergeLiterals (front ++ [last]) = next :: rest := by
      cases front with
      | nil => exact ⟨last, [], rfl⟩
      | cons first front =>
        obtain ⟨_, rest, hfirst⟩ := absorb_eq_cons first (mergeLiterals (front ++ [last]))
        exact ⟨_, rest, hfirst⟩
    rw [ih, hjoined]
    simp only [List.cons_append, absorb]
    split <;> rfl

theorem mergeLiterals_mark {mark : Lexeme} (hmark : mark.category = .punctuation)
    (before : List Lexeme) (offset : Nat) (position : Position) (back : List Token) :
    mergeLiterals (ofLexemes classifier sourceName offset position (before ++ [mark]) ++ back) =
      mergeLiterals (ofLexemes classifier sourceName offset position (before ++ [mark])) ++
        mergeLiterals back := by
  obtain ⟨category, text⟩ := mark
  obtain rfl : category = .punctuation := hmark
  rw [ofLexemes_append, List.append_assoc]
  exact mergeLiterals_append rfl _ _

/-- Behind another text and a newline, lexemes leave the tokens that they leave at the start, as
many bytes and lines further on. -/
theorem ofLexemes_newline (a blanks : List Char) (lexemes : List Lexeme) :
    ofLexemes classifier sourceName (Text.byteLength a) (Position.start.advance a)
        (⟨.text, '\n' :: blanks⟩ :: lexemes) =
      (ofLexemes classifier sourceName 0 .start (Lexeme.gap blanks ++ lexemes)).map
        (shift (Text.byteLength a + 1) (1 + a.count '\n')) := by
  have hposition : (Position.start.advance a).advance ('\n' :: blanks) =
      (Position.start.advance blanks).down (1 + a.count '\n') := by
    rw [← Position.advance_down, Position.advance_start, Position.advance_cons]
    simp only [Position.next, Position.down, Position.start, if_true]
    congr 2
    omega
  have hoffset : Text.byteLength a + Text.byteLength ('\n' :: blanks) =
      0 + Text.byteLength blanks + (Text.byteLength a + 1) := by
    have hwidth : '\n'.utf8Size = 1 := by decide
    rw [Text.byteLength_cons, hwidth]
    omega
  rw [ofLexemes_append, ofLexemes_gap, List.nil_append, Lexeme.textOf_gap, ← ofLexemes_shift,
    ofLexemes, hposition, hoffset]
  rfl

theorem canonicalText_append (a b : List Token) :
    canonicalText (a ++ b) = canonicalText a ++ canonicalText b := by
  simp only [canonicalText, List.map_append, String.join_append]

theorem canonicalText_shift (bytes lines : Nat) (tokens : List Token) :
    canonicalText (tokens.map (shift bytes lines)) = canonicalText tokens :=
  canonicalText_congr (by simp [shift, Function.comp_def])

end Token

namespace Language

variable {language : Language} {a : String}

theorem exists_mark {front : List Span} {last : Span}
    (hspans : language.spans a = front ++ [last]) (hlast : last.category = .punctuation)
    (hdot : last.text? a ≠ some ".") :
    ∃ before mark, Lexeme.lexemes language .start a.toList = before ++ [mark] ∧
      mark.category = .punctuation ∧ mark.text ≠ ['.'] := by
  obtain ⟨before, mark, after, hscan, hcategories, hmark, hover⟩ := exists_lexeme hspans
  obtain rfl : after = [] := by
    have hlength := congrArg List.length hscan
    have hlength' := congrArg List.length hspans
    have hfront := congrArg List.length hcategories
    simp only [spans, Span.layOut, length_mapThread, List.length_append, List.length_cons,
      List.length_map, List.length_nil] at hlength hlength' hfront
    exact List.length_eq_zero_iff.mp (by omega)
  refine ⟨before, mark, (language.scan_eq _).symm.trans hscan, hmark.symm.trans hlast, ?_⟩
  intro hpoint
  rw [hover.text?_eq, hpoint] at hdot
  exact hdot rfl

/-- Composition: behind a text that ends in a punctuation mark other than a single dot, and a
newline, any text is read as it is on its own. Its tokens follow those of the first, as many bytes
and lines further on as the first has, and so does its canonical text. -/
theorem normalize_append (language : Language) (a b sourceName : String)
    (classifier : Classifier) {front : List Span} {last : Span}
    (hspans : language.spans a = front ++ [last]) (hlast : last.category = .punctuation)
    (hdot : last.text? a ≠ some ".") :
    ∃ first second both, Token.normalize language.lexer a sourceName classifier = .ok first ∧
      Token.normalize language.lexer b sourceName classifier = .ok second ∧
      Token.normalize language.lexer (a ++ "\n" ++ b) sourceName classifier = .ok both ∧
      both = first ++
        second.map (Token.shift (a.utf8ByteSize + 1) (1 + a.toList.count '\n')) ∧
      Token.canonicalText both = Token.canonicalText first ++ Token.canonicalText second := by
  obtain ⟨before, mark, hscan, hmark, hpoint⟩ := exists_mark hspans hlast hdot
  obtain ⟨blanks, rest, -, hsecond, hbehind⟩ := Lexeme.lexemes_newline language b.toList
  have hcuts : Lexeme.Cuts ('\n' :: b.toList) := by
    rintro d ⟨⟩
    decide
  have hjoined : language.scan (a ++ "\n" ++ b).toList =
      language.scan a.toList ++ ⟨.text, '\n' :: blanks⟩ :: Lexeme.lexemes language .start rest := by
    rw [scan_eq, scan_eq, String.toList_append, String.toList_append, List.append_assoc, ← hbehind,
      hscan, List.append_assoc]
    exact Lexeme.lexemes_seam hscan hmark hpoint hcuts
  have htext : Lexeme.textOf (language.scan a.toList) = a.toList := by
    rw [scan_eq, Lexeme.textOf_lexemes]
  have htokens : Token.ofLexemes classifier sourceName 0 .start
      (language.scan (a ++ "\n" ++ b).toList) =
      Token.ofLexemes classifier sourceName 0 .start (language.scan a.toList) ++
        (Token.ofLexemes classifier sourceName 0 .start (language.scan b.toList)).map
          (Token.shift (a.utf8ByteSize + 1) (1 + a.toList.count '\n')) := by
    rw [hjoined, Token.ofLexemes_append, htext, Nat.zero_add, Token.ofLexemes_newline,
      Text.byteLength_toList, language.scan_eq b.toList, hsecond]
  have hboth : Token.mergeLiterals (Token.ofLexemes classifier sourceName 0 .start
        (language.scan (a ++ "\n" ++ b).toList)) =
      Token.mergeLiterals (Token.ofLexemes classifier sourceName 0 .start
        (language.scan a.toList)) ++
      (Token.mergeLiterals (Token.ofLexemes classifier sourceName 0 .start
        (language.scan b.toList))).map
          (Token.shift (a.utf8ByteSize + 1) (1 + a.toList.count '\n')) := by
    rw [htokens, language.scan_eq a.toList, hscan, Token.mergeLiterals_mark hmark,
      Token.mergeLiterals_shift]
  refine ⟨_, _, _, language.normalize_eq a sourceName classifier,
    language.normalize_eq b sourceName classifier, language.normalize_eq _ sourceName classifier,
    hboth, ?_⟩
  rw [hboth, Token.canonicalText_append, Token.canonicalText_shift]

/-- A text that ends in dots and one that begins with a directive and a fraction. -/
theorem normalize_append_dots :
    Language.c.spans "f(é,\n..." = [⟨0, 1, .name .plain⟩, ⟨1, 2, .punctuation⟩,
      ⟨2, 4, .name .plain⟩, ⟨4, 5, .punctuation⟩, ⟨5, 6, .text⟩] ++ [⟨6, 9, .punctuation⟩] ∧
    ∃ first second both,
      Token.normalize Language.c.lexer "f(é,\n..." "a.c" ⟨[]⟩ = .ok first ∧
      Token.normalize Language.c.lexer " #if 1\n.5" "a.c" ⟨[]⟩ = .ok second ∧
      Token.normalize Language.c.lexer ("f(é,\n..." ++ "\n" ++ " #if 1\n.5") "a.c" ⟨[]⟩ =
        .ok both ∧
      both = first ++ second.map (Token.shift ("f(é,\n...".utf8ByteSize + 1)
        (1 + "f(é,\n...".toList.count '\n')) ∧
      Token.canonicalText both = Token.canonicalText first ++ Token.canonicalText second := by
  have hspans : Language.c.spans "f(é,\n..." = [⟨0, 1, .name .plain⟩, ⟨1, 2, .punctuation⟩,
      ⟨2, 4, .name .plain⟩, ⟨4, 5, .punctuation⟩, ⟨5, 6, .text⟩] ++ [⟨6, 9, .punctuation⟩] := by
    decide +kernel
  exact ⟨hspans, Language.normalize_append .c "f(é,\n..." " #if 1\n.5" "a.c" ⟨[]⟩ hspans rfl
    (by decide +kernel)⟩

end Language

end SourcePrint
