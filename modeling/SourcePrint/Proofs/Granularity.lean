import Mathlib.Logic.Relation
import SourcePrint.Proofs.Positions

namespace SourcePrint

/-- Whether a text is left out or becomes a literal is a matter of its category alone. -/
theorem Classifier.classify_of_unspelled {classifier : Classifier} {category : Category}
    {text : List Char} (h : classifier.classify category text = none ∨
      classifier.classify category text = some .literal) (other : List Char) :
    classifier.classify category other = classifier.classify category text := by
  cases category with
  | keyword kind => cases kind <;> simp_all [classify]
  | name kind =>
    cases kind <;> simp only [classify] at h ⊢
    all_goals split at h <;> simp at h
  | operator => simp [classify] at h
  | wordOperator => simp [classify] at h
  | punctuation => simp [classify] at h
  | _ => rfl

namespace Span

/-- The second list has two spans in the place of one of the first: they have its category and meet
at a character boundary between its ends, behind which the next span starts. What lies under the
span is left out or is part of a literal. -/
inductive Cut (classifier : Classifier) (text : String) : List Span → List Span → Prop where
  | here {span : Span} {spans : List Span} {slice : String} {middle : Nat}
      (under : span.text? text = some slice)
      (unspelled : classifier.classify span.category slice.toList = none ∨
        classifier.classify span.category slice.toList = some .literal)
      (boundary : (String.Pos.Raw.mk middle).IsValid text)
      (start : span.start ≤ middle) (stop : middle ≤ span.stop)
      (next : ∀ behind ∈ spans.head?, middle ≤ behind.start) :
      Cut classifier text (span :: spans)
        (⟨span.start, middle, span.category⟩ :: ⟨middle, span.stop, span.category⟩ :: spans)
  | later (span : Span) {spans finer : List Span} (tail : Cut classifier text spans finer) :
      Cut classifier text (span :: spans) (span :: finer)

theorem exists_halves {span : Span} {text slice : String} {middle : Nat}
    (h : span.text? text = some slice) (hboundary : (String.Pos.Raw.mk middle).IsValid text)
    (hstart : span.start ≤ middle) (hstop : middle ≤ span.stop) :
    ∃ a b, slice = a ++ b ∧ (Span.mk span.start middle span.category).text? text = some a ∧
      (Span.mk middle span.stop span.category).text? text = some b := by
  obtain ⟨hfirst, hlast⟩ := isValid_of_text? h
  obtain ⟨a, ha⟩ := (@exists_text?_iff ⟨span.start, middle, span.category⟩ text).mpr
    ⟨hstart, hfirst, hboundary⟩
  obtain ⟨b, hb⟩ := (@exists_text?_iff ⟨middle, span.stop, span.category⟩ text).mpr
    ⟨hstop, hboundary, hlast⟩
  refine ⟨a, b, ?_, ha, hb⟩
  obtain ⟨front, back, htext, hfront, hlength⟩ := text?_eq_some.mp h
  obtain ⟨front', rest, htext', hfront', hmiddle⟩ := text?_eq_some.mp ha
  obtain ⟨lead, back', htext'', hlead, hlength'⟩ := text?_eq_some.mp hb
  rw [List.append_assoc] at htext htext' htext''
  obtain ⟨rfl, hrest⟩ :=
    Text.eq_of_byteLength_eq (htext.symm.trans htext') (hfront.trans hfront'.symm)
  obtain ⟨rfl, rfl⟩ : front ++ a.toList = lead ∧ rest = b.toList ++ back' := by
    apply Text.eq_of_byteLength_eq
    · rw [← htext'', htext', List.append_assoc]
    · rw [Text.byteLength_append]
      simp only at hlead hmiddle
      omega
  rw [← List.append_assoc] at hrest
  obtain ⟨hslice, -⟩ := Text.eq_of_byteLength_eq hrest (by
    rw [Text.byteLength_append]
    simp only at hlead hmiddle hlength'
    omega)
  apply String.toList_injective
  rw [hslice, String.toList_append]

end Span

namespace Token

/-- A piece that is left out or is part of a literal may come in two. -/
theorem mergeLiterals_halves {classifier : Classifier} {category : Category} {a b : List Char}
    (h : classifier.classify category (a ++ b) = none ∨
      classifier.classify category (a ++ b) = some .literal) (sourceName : String)
    (start middle : Nat) (position : Position) (pieces : List Piece) :
    mergeLiterals ((mapThread Piece.locate position
        (⟨category, a, start⟩ :: ⟨category, b, middle⟩ :: pieces)).filterMap
          (ofPiece? classifier sourceName)) =
      mergeLiterals ((mapThread Piece.locate position
        (⟨category, a ++ b, start⟩ :: pieces)).filterMap (ofPiece? classifier sourceName)) := by
  have hfirst := Classifier.classify_of_unspelled h a
  have hsecond := Classifier.classify_of_unspelled h b
  rw [mapThread_cons, mapThread_cons, mapThread_cons]
  simp only [Piece.locate, ← Position.advance_append, List.filterMap_cons, ofPiece?, hfirst,
    hsecond]
  rcases h with h | h
  · simp only [h, Option.map_none]
  · simp only [h, Option.map_some, mergeLiterals, List.foldr_cons]
    rw [absorb_absorb rfl rfl, ← String.ofList_append]

end Token

namespace Span.Cut

variable {classifier : Classifier} {text : String} {spans finer : List Span}

theorem isChain_iff (h : Cut classifier text spans finer) (reached : Nat) :
    (reached :: spans.map (·.start)).IsChain (· ≤ ·) ↔
      (reached :: finer.map (·.start)).IsChain (· ≤ ·) := by
  induction h generalizing reached with
  | @here span spans slice middle _ _ _ hstart _ hnext =>
    have htail : (span.start :: spans.map (·.start)).IsChain (· ≤ ·) ↔
        (middle :: spans.map (·.start)).IsChain (· ≤ ·) := by
      cases spans with
      | nil => simp
      | cons behind spans =>
        have hbehind : middle ≤ behind.start := hnext behind rfl
        simp [hbehind, Nat.le_trans hstart hbehind]
    simp [htail, hstart]
  | later span _ ih => simp [ih]

/-- Spans with one of them cut leave other pieces, which become the same tokens. -/
theorem exists_pieces (h : Cut classifier text spans finer) {pieces : List Piece}
    (hpieces : List.Forall₂ (Piece.Under text) spans pieces) (sourceName : String) :
    ∃ halved, List.Forall₂ (Piece.Under text) finer halved ∧ ∀ position,
      Token.mergeLiterals ((mapThread Piece.locate position halved).filterMap
          (Token.ofPiece? classifier sourceName)) =
        Token.mergeLiterals ((mapThread Piece.locate position pieces).filterMap
          (Token.ofPiece? classifier sourceName)) := by
  induction h generalizing pieces with
  | @here span spans slice middle hslice hunspelled hboundary hstart hstop _ =>
    obtain ⟨a, b, rfl, ha, hb⟩ := exists_halves hslice hboundary hstart hstop
    cases hpieces with
    | @cons _ piece _ pieces hpiece htail =>
      obtain ⟨category, cs, start⟩ := piece
      obtain ⟨rfl, rfl, htext⟩ := hpiece
      obtain rfl : cs = a.toList ++ b.toList := by
        rw [hslice, Option.some.injEq] at htext
        rw [← String.toList_append, htext, String.toList_ofList]
      rw [String.toList_append] at hunspelled
      exact ⟨⟨_, a.toList, _⟩ :: ⟨_, b.toList, _⟩ :: pieces,
        .cons ⟨rfl, rfl, by simpa using ha⟩ (.cons ⟨rfl, rfl, by simpa using hb⟩ htail),
        fun position => Token.mergeLiterals_halves hunspelled sourceName _ _ position pieces⟩
  | later span _ ih =>
    cases hpieces with
    | @cons _ piece _ pieces hpiece htail =>
      obtain ⟨halved, hhalved, hsame⟩ := ih htail
      refine ⟨piece :: halved, .cons hpiece hhalved, ?_⟩
      intro position
      rw [mapThread_cons, mapThread_cons, List.filterMap_cons, List.filterMap_cons]
      cases Token.ofPiece? classifier sourceName (Piece.locate position piece).1 with
      | none => exact hsame _
      | some token => exact congrArg token.absorb (hsame _)

theorem exists_pieces_of_finer (h : Cut classifier text spans finer) {halved : List Piece}
    (hhalved : List.Forall₂ (Piece.Under text) finer halved) :
    ∃ pieces, List.Forall₂ (Piece.Under text) spans pieces := by
  induction h generalizing halved with
  | @here span spans slice middle hslice _ _ _ _ _ =>
    obtain ⟨first, _, -, hrest, rfl⟩ := List.forall₂_cons_left_iff.mp hhalved
    obtain ⟨second, pieces, -, htail, rfl⟩ := List.forall₂_cons_left_iff.mp hrest
    exact ⟨⟨_, slice.toList, _⟩ :: pieces, .cons ⟨rfl, rfl, by simpa using hslice⟩ htail⟩
  | later span _ ih =>
    obtain ⟨piece, _, hpiece, hrest, rfl⟩ := List.forall₂_cons_left_iff.mp hhalved
    obtain ⟨pieces, hpieces⟩ := ih hrest
    exact ⟨piece :: pieces, .cons hpiece hpieces⟩

/-- One cut: the tokens are the same, and so is whether there are any. -/
theorem ofPieces_iff (h : Cut classifier text spans finer) {sourceName : String}
    {tokens : List Token} :
    (∃ pieces, Piece.cut text.toList spans = .ok pieces ∧
        Token.ofPieces classifier sourceName pieces = tokens) ↔
      ∃ pieces, Piece.cut text.toList finer = .ok pieces ∧
        Token.ofPieces classifier sourceName pieces = tokens := by
  constructor
  · rintro ⟨pieces, hcut, rfl⟩
    obtain ⟨hunder, hchain⟩ := Piece.cut_eq_ok_iff.mp hcut
    obtain ⟨halved, hhalved, hsame⟩ := h.exists_pieces hunder sourceName
    exact ⟨halved, Piece.cut_eq_ok_iff.mpr ⟨hhalved, (h.isChain_iff 0).mp hchain⟩, hsame .start⟩
  · rintro ⟨halved, hcut, rfl⟩
    obtain ⟨hunder, hchain⟩ := Piece.cut_eq_ok_iff.mp hcut
    obtain ⟨pieces, hpieces⟩ := h.exists_pieces_of_finer hunder
    refine ⟨pieces, Piece.cut_eq_ok_iff.mpr ⟨hpieces, (h.isChain_iff 0).mpr hchain⟩, ?_⟩
    obtain ⟨halved', hhalved', hsame⟩ := h.exists_pieces hpieces sourceName
    have hcut' := Piece.cut_eq_ok_iff.mpr ⟨hhalved', hchain⟩
    obtain rfl : halved = halved' := Except.ok.inj (hcut.symm.trans hcut')
    exact (hsame .start).symm

end Span.Cut

namespace Token

/-- How finely a lexer cuts what is left out and what becomes a literal makes no difference: lists
of spans that come from one another by cutting such spans in two, or by undoing such cuts, leave the
same tokens at the same places, if any. -/
theorem normalize_granularity {lexer finer : Lexer} {text : String} {classifier : Classifier}
    {spans cut : List Span} (hscan : lexer.scan text = .ok spans)
    (hfiner : finer.scan text = .ok cut)
    (hcut : Relation.EqvGen (Span.Cut classifier text) spans cut) (sourceName : String)
    (tokens : List Token) :
    normalize lexer text sourceName classifier = .ok tokens ↔
      normalize finer text sourceName classifier = .ok tokens := by
  have hpieces : (∃ pieces, Piece.cut text.toList spans = .ok pieces ∧
        ofPieces classifier sourceName pieces = tokens) ↔
      ∃ pieces, Piece.cut text.toList cut = .ok pieces ∧
        ofPieces classifier sourceName pieces = tokens := by
    clear hscan hfiner
    induction hcut with
    | rel spans finer h => exact h.ofPieces_iff
    | refl spans => rfl
    | symm spans finer _ ih => exact ih.symm
    | trans spans finer finest _ _ ih ih' => exact ih.trans ih'
  simpa [normalize_eq_ok_iff, hscan, hfiner] using hpieces

/-- A string cut in front of the newline in it, where the next span starts too, and blanks cut at
their end. -/
theorem normalize_granularity_overlap :
    normalize ⟨"whole", fun _ => .ok [⟨0, 5, .string .plain⟩, ⟨3, 6, .text⟩,
        ⟨6, 7, .number .integer⟩, ⟨7, 8, .punctuation⟩]⟩ "\"é\n\" 7;" "a.c" ⟨[]⟩ =
      .ok [⟨.literal, "\"é\n\"7", 0, 1, 1, none, "a.c"⟩,
        ⟨.verbatim ";", ";", 7, 3, 4, none, "a.c"⟩] ∧
    normalize ⟨"cut", fun _ => .ok [⟨0, 3, .string .plain⟩, ⟨3, 5, .string .plain⟩, ⟨3, 6, .text⟩,
        ⟨6, 6, .text⟩, ⟨6, 7, .number .integer⟩, ⟨7, 8, .punctuation⟩]⟩ "\"é\n\" 7;" "a.c" ⟨[]⟩ =
      .ok [⟨.literal, "\"é\n\"7", 0, 1, 1, none, "a.c"⟩,
        ⟨.verbatim ";", ";", 7, 3, 4, none, "a.c"⟩] := by
  have hwhole : normalize ⟨"whole", fun _ => .ok [⟨0, 5, .string .plain⟩, ⟨3, 6, .text⟩,
        ⟨6, 7, .number .integer⟩, ⟨7, 8, .punctuation⟩]⟩ "\"é\n\" 7;" "a.c" ⟨[]⟩ =
      .ok [⟨.literal, "\"é\n\"7", 0, 1, 1, none, "a.c"⟩,
        ⟨.verbatim ";", ";", 7, 3, 4, none, "a.c"⟩] := by decide
  have hstring : Span.Cut ⟨[]⟩ "\"é\n\" 7;"
      [⟨0, 5, .string .plain⟩, ⟨3, 6, .text⟩, ⟨6, 7, .number .integer⟩, ⟨7, 8, .punctuation⟩]
      [⟨0, 3, .string .plain⟩, ⟨3, 5, .string .plain⟩, ⟨3, 6, .text⟩, ⟨6, 7, .number .integer⟩,
        ⟨7, 8, .punctuation⟩] := by
    have hslice : (Span.mk 0 5 (.string .plain)).text? "\"é\n\" 7;" = some "\"é\n\"" := by decide
    refine .here hslice (.inr rfl) (Text.isValid_iff.mpr ⟨['"', 'é'], _, rfl, rfl⟩) (by decide)
      (by decide) ?_
    rintro behind ⟨⟩
    exact Nat.le_refl 3
  have hblanks : Span.Cut ⟨[]⟩ "\"é\n\" 7;"
      [⟨0, 3, .string .plain⟩, ⟨3, 5, .string .plain⟩, ⟨3, 6, .text⟩, ⟨6, 7, .number .integer⟩,
        ⟨7, 8, .punctuation⟩]
      [⟨0, 3, .string .plain⟩, ⟨3, 5, .string .plain⟩, ⟨3, 6, .text⟩, ⟨6, 6, .text⟩,
        ⟨6, 7, .number .integer⟩, ⟨7, 8, .punctuation⟩] := by
    have hslice : (Span.mk 3 6 .text).text? "\"é\n\" 7;" = some "\n\" " := by decide
    refine .later _ (.later _ (.here hslice (.inl rfl)
      (Text.isValid_iff.mpr ⟨['"', 'é', '\n', '"', ' '], _, rfl, rfl⟩) (by decide) (by decide) ?_))
    rintro behind ⟨⟩
    exact Nat.le_refl 6
  exact ⟨hwhole, (normalize_granularity rfl rfl
    (.trans _ _ _ (.rel _ _ hstring) (.rel _ _ hblanks)) "a.c" _).mp hwhole⟩

end Token

end SourcePrint
