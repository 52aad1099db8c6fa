import Mathlib.Data.List.Forall2
import SourcePrint.CanonicalSource
import SourcePrint.Proofs.Positions
import SourcePrint.Proofs.Tags

namespace SourcePrint

/-- The pieces of a scan: the texts of its spans with the tags of their categories. -/
def Language.pieces (language : Language) (text : String) : List (String × String) :=
  (language.spans text).filterMap fun span =>
    (span.text? text).map fun slice => (slice, span.category.tag)

/-- A piece that has the text of the span and any spelling of its category. -/
structure Span.RecordedAs (text : String) (span : Span) (piece : String × String) : Prop where
  slice : span.text? text = some piece.1
  tag : span.category.Spells piece.2

/-- What was recorded stands for a language's own scan of a text. -/
structure Recording.Replays (language : Language) (text : String) (recorded : String × Recording) :
    Prop where
  source : recorded.1 = text
  scan : recorded.2.lexer.scan text = language.lexer.scan text
  canonical : ∀ (sourceName : String) (config : CanonicalConfig),
    CanonicalSource.ofText recorded.2.lexer recorded.1 sourceName config =
      CanonicalSource.ofText language.lexer text sourceName config

theorem CanonicalSource.ofText_congr {lexer lexer' : Lexer} {text : String}
    (h : lexer.scan text = lexer'.scan text) (sourceName : String) (config : CanonicalConfig) :
    ofText lexer text sourceName config = ofText lexer' text sourceName config := by
  have hnormalize : ∀ classifier, Token.normalize lexer text sourceName classifier =
      Token.normalize lexer' text sourceName classifier := by
    intro classifier
    simp only [Token.normalize, h]
  simp only [ofText, hnormalize]

theorem Recording.mapM_decode {text : String} {start : Nat} {spans : List Span}
    {pieces : List (String × String)} (h : List.Forall₂ (Span.RecordedAs text) spans pieces)
    (hcontiguous : Span.Contiguous start spans) :
    (mapThread placePiece start pieces).mapM decode = .ok spans := by
  induction h generalizing start with
  | nil => rfl
  | @cons span piece spans pieces hfirst _ ih =>
    obtain ⟨rfl, htail⟩ := hcontiguous.of_cons
    obtain ⟨_, _, _, _, hstop⟩ := Span.text?_eq_some.mp hfirst.slice
    have hdecode : decode (placePiece span.start piece).1 = .ok span := by
      simp only [decode, placePiece, Category.ofTag_of_spells hfirst.tag, hstop]
      rfl
    have hrest : (mapThread placePiece (placePiece span.start piece).2 pieces).mapM decode =
        .ok spans := by
      simp only [placePiece, hstop]
      exact ih htail
    rw [mapThread_cons, List.mapM_cons, hdecode, hrest]
    rfl

namespace Language

variable {language : Language} {text : String}

theorem recordedAs_pieces (language : Language) (text : String) :
    List.Forall₂ (Span.RecordedAs text) (language.spans text) (language.pieces text) := by
  have hslices : ∀ span ∈ language.spans text, ∃ slice, span.text? text = some slice :=
    fun span => language.exists_text?
  unfold pieces
  generalize language.spans text = spans at hslices
  induction spans with
  | nil => exact .nil
  | cons span spans ih =>
    obtain ⟨slice, hslice⟩ := hslices span (by simp)
    rw [List.filterMap_cons, hslice, Option.map_some]
    exact .cons ⟨hslice, span.category.spells_tag⟩ (ih fun s hs => hslices s (by simp [hs]))

theorem join_recorded {pieces : List (String × String)}
    (h : List.Forall₂ (Span.RecordedAs text) (language.spans text) pieces) :
    String.join (pieces.map (·.1)) = text := by
  have hpieces : (language.spans text).map (·.text? text) = (pieces.map (·.1)).map some := by
    rw [← List.forall₂_eq_eq_eq, List.forall₂_map_left_iff, List.map_map,
      List.forall₂_map_right_iff]
    apply h.imp
    intro span piece hpiece
    exact hpiece.slice
  have hscan : (language.spans text).map (·.text? text) =
      ((language.scan text.toList).map (String.ofList ·.text)).map some := by
    have hslices := congrArg (List.map Prod.snd) (language.slices_spans text)
    simpa [Function.comp_def] using hslices
  have hsame : pieces.map (·.1) = (language.scan text.toList).map (String.ofList ·.text) :=
    List.map_injective_iff.mpr (fun _ _ => Option.some.inj) (hpieces.symm.trans hscan)
  rw [hsame, language.join_scan]

theorem replays_of_recorded {pieces : List (String × String)}
    (h : List.Forall₂ (Span.RecordedAs text) (language.spans text) pieces) (name : String) :
    Recording.Replays language text (Recording.ofPieces name pieces) := by
  have htext : (Recording.ofPieces name pieces).1 = text := join_recorded h
  have hscan : (Recording.ofPieces name pieces).2.lexer.scan text = language.lexer.scan text :=
    Recording.mapM_decode h (language.tiles_spans text).contiguous
  refine ⟨htext, hscan, ?_⟩
  intro sourceName config
  rw [htext]
  exact CanonicalSource.ofText_congr hscan sourceName config

/-- Replaying the pieces of a scan is scanning, and no spelling of the tags makes a difference. -/
theorem replays_pieces (language : Language) (text name : String) :
    Recording.Replays language text (Recording.ofPieces name (language.pieces text)) ∧
    ∀ pieces, List.Forall₂ (Span.RecordedAs text) (language.spans text) pieces →
      Recording.Replays language text (Recording.ofPieces name pieces) := by
  refine ⟨replays_of_recorded (language.recordedAs_pieces text) name, ?_⟩
  intro pieces hpieces
  exact replays_of_recorded hpieces name

/-- A character and a number under their short tags, among tags with blanks and `Token.`. -/
theorem replays_pieces_spellings :
    List.Forall₂ (Span.RecordedAs "x='a'+0x1F;") (Language.c.spans "x='a'+0x1F;")
      [("x", " Token.Name\n"), ("=", "Operator"), ("'a'", "Token.String.Char"),
        ("+", "\tOperator"), ("0x1F", "Number.Hex "), (";", "Punctuation")] ∧
    Recording.Replays .c "x='a'+0x1F;" (Recording.ofPieces "a.json"
      [("x", " Token.Name\n"), ("=", "Operator"), ("'a'", "Token.String.Char"),
        ("+", "\tOperator"), ("0x1F", "Number.Hex "), (";", "Punctuation")]) := by
  have hspans : Language.c.spans "x='a'+0x1F;" =
      [⟨0, 1, .name .plain⟩, ⟨1, 2, .operator⟩, ⟨2, 5, .string .character⟩, ⟨5, 6, .operator⟩,
        ⟨6, 10, .number .hex⟩, ⟨10, 11, .punctuation⟩] := by
    decide +kernel
  have hrecorded : List.Forall₂ (Span.RecordedAs "x='a'+0x1F;") (Language.c.spans "x='a'+0x1F;")
      [("x", " Token.Name\n"), ("=", "Operator"), ("'a'", "Token.String.Char"),
        ("+", "\tOperator"), ("0x1F", "Number.Hex "), (";", "Punctuation")] := by
    rw [hspans]
    refine .cons ⟨by decide, ?_⟩ (.cons ⟨by decide, ?_⟩ (.cons ⟨by decide, ?_⟩
      (.cons ⟨by decide, ?_⟩ (.cons ⟨by decide, ?_⟩ (.cons ⟨by decide, ?_⟩ .nil)))))
    · exact ⟨" ", "Token.", "Name", "\n", rfl, rfl, rfl, .inr rfl, .inl rfl⟩
    · exact Category.spells_tag .operator
    · exact ⟨"", "Token.", "String.Char", "", rfl, rfl, rfl, .inr rfl,
        .inr ⟨by decide, by decide⟩⟩
    · exact ⟨"\t", "", "Operator", "", rfl, rfl, rfl, .inl rfl, .inl rfl⟩
    · exact ⟨"", "", "Number.Hex", " ", rfl, rfl, rfl, .inl rfl,
        .inr ⟨by decide, by decide⟩⟩
    · exact Category.spells_tag .punctuation
  exact ⟨hrecorded, (replays_pieces .c "x='a'+0x1F;" "a.json").2 _ hrecorded⟩

end Language

end SourcePrint
