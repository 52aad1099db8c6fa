import Mathlib.Data.List.DropRight
import SourcePrint.Proofs.Grouping

namespace SourcePrint

namespace Position

def next (position : Position) (c : Char) : Position :=
  if c = '\n' then ⟨position.line + 1, 1⟩ else ⟨position.line, position.column + 1⟩

theorem line_advance (position : Position) (cs : List Char) :
    (position.advance cs).line = position.line + cs.count '\n' := by
  unfold advance behindNewline?
  by_cases h : '\n' ∈ cs
  · simp [h]
  · simp [h, List.count_eq_zero.mpr h]

theorem advance_concat (position : Position) (cs : List Char) (c : Char) :
    position.advance (cs ++ [c]) = (position.advance cs).next c := by
  by_cases hc : c = '\n'
  · rw [next, if_pos hc, line_advance]
    simp [advance, behindNewline?, hc, Nat.add_assoc]
  · have hne : (c != '\n') = true := by simpa using hc
    by_cases h : '\n' ∈ cs
    · simp [advance, behindNewline?, next, hc, hne, h, Nat.add_assoc]
    · simp [advance, behindNewline?, next, hc, Ne.symm hc, h, Nat.add_assoc]

/-- The position behind a text is where its characters lead one by one. -/
theorem advance_eq_foldl (position : Position) (cs : List Char) :
    position.advance cs = cs.foldl next position := by
  induction cs using List.reverseRecOn with
  | nil => rfl
  | append_singleton cs c ih => rw [advance_concat, ih, List.foldl_concat]

theorem advance_cons (position : Position) (c : Char) (cs : List Char) :
    position.advance (c :: cs) = (position.next c).advance cs := by
  rw [advance_eq_foldl, advance_eq_foldl, List.foldl_cons]

theorem advance_append (position : Position) (a b : List Char) :
    position.advance (a ++ b) = (position.advance a).advance b := by
  simp only [advance_eq_foldl, List.foldl_append]

theorem advance_start (cs : List Char) :
    start.advance cs = ⟨1 + cs.count '\n', 1 + (cs.rtakeWhile (· != '\n')).length⟩ := by
  induction cs using List.reverseRecOn with
  | nil => rfl
  | append_singleton cs c ih =>
    rw [advance_concat, ih]
    by_cases hc : c = '\n'
    · subst hc
      rw [List.rtakeWhile_concat_neg _ _ _ (by simp)]
      simp [next, Nat.add_assoc]
    · rw [List.rtakeWhile_concat_pos _ _ _ (by simpa using hc)]
      simp [next, hc, Nat.add_assoc]

end Position

namespace Span

/-- Spans that lie end to end from byte `start`. Some may be empty. -/
inductive Contiguous : Nat → List Span → Prop where
  | nil (offset : Nat) : Contiguous offset []
  | cons {span : Span} {spans : List Span} (tail : Contiguous span.stop spans) :
      Contiguous span.start (span :: spans)

theorem Tiles.contiguous {start stop : Nat} {spans : List Span} (h : Tiles start stop spans) :
    Contiguous start spans := by
  induction h with
  | nil offset => exact .nil offset
  | cons _ _ ih => exact .cons ih

theorem Contiguous.of_cons {start : Nat} {span : Span} {spans : List Span}
    (h : Contiguous start (span :: spans)) : span.start = start ∧ Contiguous span.stop spans := by
  cases h with
  | cons tail => exact ⟨rfl, tail⟩

end Span

theorem mapM_cons_eq_ok {α β ε : Type} {f : α → Except ε β} {a : α} {as : List α} {bs : List β}
    (h : (a :: as).mapM f = .ok bs) :
    ∃ b more, f a = .ok b ∧ as.mapM f = .ok more ∧ bs = b :: more := by
  rw [List.mapM_cons] at h
  cases hhead : f a with
  | error fault =>
    rw [hhead] at h
    cases h
  | ok b =>
    cases htail : as.mapM f with
    | error fault =>
      rw [hhead, htail] at h
      cases h
    | ok more =>
      rw [hhead, htail] at h
      exact ⟨b, more, rfl, rfl, (Except.ok.inj h).symm⟩

namespace Recording

theorem decode_ends {tagged : TaggedSpan} {span : Span} (h : decode tagged = .ok span) :
    span.start = tagged.start ∧ span.stop = tagged.stop := by
  unfold decode at h
  cases hcategory : Category.ofTag tagged.tag with
  | error fault =>
    rw [hcategory] at h
    cases h
  | ok category =>
    rw [hcategory] at h
    obtain rfl := Except.ok.inj h
    exact ⟨rfl, rfl⟩

/-- Pieces laid end to end are recorded as spans that lie end to end. -/
theorem contiguous_decoded {pieces : List (String × String)} {start : Nat} {spans : List Span}
    (h : (mapThread placePiece start pieces).mapM decode = .ok spans) :
    Span.Contiguous start spans := by
  induction pieces generalizing start spans with
  | nil =>
    obtain rfl : [] = spans := Except.ok.inj h
    exact .nil start
  | cons piece pieces ih =>
    rw [mapThread_cons] at h
    obtain ⟨span, more, hspan, hmore, rfl⟩ := mapM_cons_eq_ok h
    obtain ⟨hstart, hstop⟩ := decode_ends hspan
    have htail : Span.Contiguous span.stop more := by
      rw [hstop]
      exact ih hmore
    have hcons : Span.Contiguous span.start (span :: more) := .cons htail
    rw [hstart] at hcons
    exact hcons

end Recording

namespace Token

/-- The line and column of a token are those of its start, counted from the start of the text. -/
def PlacedIn (text : String) (token : Token) : Prop :=
  ∃ before, Text.takeBytes? token.startOffset text.toList = some before ∧
    token.line = 1 + before.count '\n' ∧
    token.column = 1 + (before.rtakeWhile (· != '\n')).length

theorem mem_absorb {token first : Token} {joined : List Token} (h : token ∈ absorb first joined) :
    token = first ∨ token ∈ joined ∨
      first.kind = .literal ∧ ∃ text, token = { first with text := text } := by
  cases joined with
  | nil => exact .inl (List.mem_singleton.mp h)
  | cons next rest =>
    simp only [absorb] at h
    split at h
    · rename_i hliteral
      simp only [Symbol.isLiteral, Bool.and_eq_true, beq_iff_eq] at hliteral
      rcases List.mem_cons.mp h with rfl | h
      · exact .inr (.inr ⟨hliteral.1, _, rfl⟩)
      · exact .inr (.inl (List.mem_cons_of_mem _ h))
    · rcases List.mem_cons.mp h with rfl | h
      · exact .inl rfl
      · exact .inr (.inl h)

theorem start_of_mem_mergeLiterals {tokens : List Token} {token : Token}
    (h : token ∈ mergeLiterals tokens) :
    ∃ first ∈ tokens, token.startOffset = first.startOffset ∧ token.line = first.line ∧
      token.column = first.column := by
  induction tokens with
  | nil => cases h
  | cons first tokens ih =>
    rcases mem_absorb h with rfl | h | ⟨_, text, rfl⟩
    · exact ⟨token, by simp, rfl, rfl, rfl⟩
    · obtain ⟨later, hlater, hsame⟩ := ih h
      exact ⟨later, List.mem_cons_of_mem _ hlater, hsame⟩
    · exact ⟨first, by simp, rfl, rfl, rfl⟩

/-- Over spans that lie end to end, the position of each piece is that of the text in front. -/
theorem located_exact {text : String} {front rest : List Char} {spans : List Span}
    {pieces : List Piece} (htext : text.toList = front ++ rest)
    (hunder : List.Forall₂ (Piece.Under text) spans pieces)
    (hcontiguous : Span.Contiguous (Text.byteLength front) spans) :
    ∀ located ∈ mapThread Piece.locate (Position.start.advance front) pieces,
      ∃ before, Text.takeBytes? located.1.start text.toList = some before ∧
        located.2 = Position.start.advance before := by
  induction hunder generalizing front rest with
  | nil => simp
  | @cons span piece spans pieces hpiece _ ih =>
    obtain ⟨hstart, htail⟩ := hcontiguous.of_cons
    obtain ⟨lead, back, hlead, hleadLength, hstop⟩ := Span.text?_eq_some.mp hpiece.slice
    rw [String.toList_ofList] at hlead hstop
    obtain ⟨rfl, rfl⟩ := Text.eq_of_byteLength_eq
      (show lead ++ (piece.text ++ back) = front ++ rest by rw [← htext, hlead, List.append_assoc])
      (hleadLength.trans hstart)
    intro located hmem
    rw [mapThread_cons] at hmem
    rcases List.mem_cons.mp hmem with rfl | hmem
    · refine ⟨lead, ?_, rfl⟩
      rw [Piece.locate, hpiece.start, hstart, htext]
      exact Text.takeBytes?_byteLength lead _
    · have hstopLead : Text.byteLength (lead ++ piece.text) = span.stop := by
        rw [Text.byteLength_append]
        omega
      rw [← hstopLead] at htail
      rw [Piece.locate, ← Position.advance_append] at hmem
      exact ih (by rw [htext, List.append_assoc]) htail located hmem

/-- Over spans that lie end to end from the start of a text, every token's line and column are
exact; and the spans of each language's own rules and of every recording made from pieces lie so. -/
theorem normalize_positions :
    (∀ (lexer : Lexer) (text sourceName : String) (classifier : Classifier) (spans : List Span)
      (tokens : List Token), lexer.scan text = .ok spans → Span.Contiguous 0 spans →
      normalize lexer text sourceName classifier = .ok tokens →
      ∀ token ∈ tokens, token.PlacedIn text) ∧
    (∀ (language : Language) (text : String), ∃ spans, language.lexer.scan text = .ok spans ∧
      Span.Contiguous 0 spans) ∧
    (∀ (name : String) (pieces : List (String × String)) (text : String) (spans : List Span),
      (Recording.ofPieces name pieces).2.lexer.scan text = .ok spans →
      Span.Contiguous 0 spans) := by
  refine ⟨?_, ?_, ?_⟩
  · intro lexer text sourceName classifier spans tokens hscan hcontiguous hnormalize token hmem
    obtain ⟨spans', pieces, hscan', hcut, rfl⟩ := normalize_eq_ok_iff.mp hnormalize
    obtain rfl : spans = spans' := Except.ok.inj (hscan.symm.trans hscan')
    obtain ⟨hunder, _⟩ := Piece.cut_eq_ok_iff.mp hcut
    obtain ⟨first, hfirst, hoffset, hline, hcolumn⟩ := start_of_mem_mergeLiterals hmem
    obtain ⟨located, hlocated, htoken⟩ := List.mem_filterMap.mp hfirst
    obtain ⟨_, _, hfirstOffset, hfirstLine, hfirstColumn⟩ := ofPiece?_fields htoken
    obtain ⟨before, hbefore, hposition⟩ :=
      located_exact (List.nil_append text.toList).symm hunder hcontiguous located hlocated
    rw [Position.advance_start] at hposition
    refine ⟨before, ?_, ?_, ?_⟩
    · rw [hoffset, hfirstOffset, hbefore]
    · rw [hline, hfirstLine, hposition]
    · rw [hcolumn, hfirstColumn, hposition]
  · intro language text
    exact ⟨language.spans text, rfl, (language.tiles_spans text).contiguous⟩
  · intro name pieces text spans h
    exact Recording.contiguous_decoded h

/-- Behind a comment of two lines, a wide character, and a string with an escaped newline. -/
theorem normalize_positions_multiline :
    normalize (Recording.ofPieces "t.c" [("/*\n*/", "Comment"), ("é", "Name"), (" ", "Text"),
        ("\"a\\\n", "String"), ("b\"", "String"), (";", "Punctuation")]).2.lexer
        "/*\n*/é \"a\\\nb\";" "t.c" ⟨[]⟩ =
      .ok [⟨.identifier, "é", 5, 2, 3, none, "t.c"⟩,
        ⟨.literal, "\"a\\\nb\"", 8, 2, 5, none, "t.c"⟩,
        ⟨.verbatim ";", ";", 14, 3, 3, none, "t.c"⟩] ∧
    ∀ token ∈ [(⟨.identifier, "é", 5, 2, 3, none, "t.c"⟩ : Token),
        ⟨.literal, "\"a\\\nb\"", 8, 2, 5, none, "t.c"⟩,
        ⟨.verbatim ";", ";", 14, 3, 3, none, "t.c"⟩],
      token.PlacedIn "/*\n*/é \"a\\\nb\";" := by
  have hnormalize : normalize (Recording.ofPieces "t.c" [("/*\n*/", "Comment"), ("é", "Name"),
        (" ", "Text"), ("\"a\\\n", "String"), ("b\"", "String"), (";", "Punctuation")]).2.lexer
        "/*\n*/é \"a\\\nb\";" "t.c" ⟨[]⟩ =
      .ok [⟨.identifier, "é", 5, 2, 3, none, "t.c"⟩,
        ⟨.literal, "\"a\\\nb\"", 8, 2, 5, none, "t.c"⟩,
        ⟨.verbatim ";", ";", 14, 3, 3, none, "t.c"⟩] := by decide
  obtain ⟨spans, _, hscan, _⟩ := normalize_eq_ok_iff.mp hnormalize
  exact ⟨hnormalize, normalize_positions.1 _ _ _ _ spans _ hscan
    (normalize_positions.2.2 _ _ _ spans hscan) hnormalize⟩

end Token

end SourcePrint
