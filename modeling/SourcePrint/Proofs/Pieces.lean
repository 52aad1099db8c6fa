import Mathlib.Data.List.Chain
import Mathlib.Data.List.Forall2
import SourcePrint.Proofs.Merging
import SourcePrint.Proofs.Tiling

namespace SourcePrint

theorem Text.dropBytes?_add (front rest : List Char) (n : Nat) :
    dropBytes? (byteLength front + n) (front ++ rest) = dropBytes? n rest := by
  induction front with
  | nil => simp
  | cons c front ih =>
    obtain ⟨m, hm, hfits, hleft⟩ := exists_byteLength_cons c front
    have hcount : m + n + 1 - c.utf8Size = byteLength front + n := by omega
    rw [hm, show m + 1 + n = m + n + 1 by omega, List.cons_append, dropBytes?,
      if_pos (by omega), hcount]
    exact ih

namespace Piece

/-- The piece that a span cuts out of a text. -/
structure Under (text : String) (span : Span) (piece : Piece) : Prop where
  category : piece.category = span.category
  start : piece.start = span.start
  slice : span.text? text = some (String.ofList piece.text)

theorem Under.ends {text : String} {span : Span} {piece : Piece} (h : Under text span piece) :
    span.start + Text.byteLength piece.text = span.stop ∧ span.stop ≤ Text.byteLength text.toList := by
  obtain ⟨front, back, htext, hfront, hstop⟩ := Span.text?_eq_some.mp h.slice
  rw [String.toList_ofList] at htext hstop
  refine ⟨hstop, ?_⟩
  rw [htext, Text.byteLength_append, Text.byteLength_append]
  omega

/-- Walking on from the start of the previous span finds the text that slicing from the start of
the text finds. -/
theorem text?_eq_walk {text : String} {front rest : List Char} {span : Span}
    (htext : text.toList = front ++ rest) (hreached : Text.byteLength front ≤ span.start)
    (horder : span.start ≤ span.stop) :
    span.text? text =
      ((Text.dropBytes? (span.start - Text.byteLength front) rest).bind
        (Text.takeBytes? (span.stop - span.start))).map String.ofList := by
  have hdrop := Text.dropBytes?_add front rest (span.start - Text.byteLength front)
  rw [Nat.add_sub_cancel' hreached] at hdrop
  rw [Span.text?, Text.slice?, if_neg (by omega), htext, hdrop]

/-- A walk that succeeds has cut each span's own text, and no span began before the previous one. -/
theorem under_of_cutFrom {text : String} {front rest : List Char} {done pieces : List Piece}
    {spans : List Span} (htext : text.toList = front ++ rest)
    (h : cutFrom (Text.byteLength text.toList) done (Text.byteLength front) rest spans =
      .ok pieces) :
    ∃ more, pieces = done.reverse ++ more ∧ List.Forall₂ (Under text) spans more ∧
      (Text.byteLength front :: spans.map (·.start)).IsChain (· ≤ ·) := by
  induction spans generalizing front rest done with
  | nil =>
    simp only [cutFrom, Except.ok.injEq] at h
    exact ⟨[], by simp [h], .nil, by simp⟩
  | cons span spans ih =>
    simp only [cutFrom] at h
    split at h
    · simp at h
    rename_i hreached
    split at h
    · simp at h
    rename_i horder
    split at h
    · simp at h
    split at h
    · simp at h
    rename_i here hhere
    split at h
    · simp at h
    rename_i slice hslice
    have hspan : span.text? text = some (String.ofList slice) := by
      rw [text?_eq_walk htext (by omega) (by omega), hhere, Option.bind_some, hslice]
      rfl
    obtain ⟨skipped, rfl, hskipped⟩ := Text.append_of_dropBytes? hhere
    have hstart : Text.byteLength (front ++ skipped) = span.start := by
      rw [Text.byteLength_append]
      omega
    rw [← hstart] at h
    obtain ⟨more, rfl, hmore, hchain⟩ := ih (by simp [htext]) h
    refine ⟨⟨span.category, slice, span.start⟩ :: more, ?_, .cons ⟨rfl, rfl, hspan⟩ hmore, ?_⟩
    · simp [hstart]
    · rw [List.map_cons, List.isChain_cons_cons, ← hstart]
      exact ⟨by rw [Text.byteLength_append]; omega, hchain⟩

theorem cutFrom_of_under {text : String} {front rest : List Char} {done pieces : List Piece}
    {spans : List Span} (htext : text.toList = front ++ rest)
    (hunder : List.Forall₂ (Under text) spans pieces)
    (hchain : (Text.byteLength front :: spans.map (·.start)).IsChain (· ≤ ·)) :
    cutFrom (Text.byteLength text.toList) done (Text.byteLength front) rest spans =
      .ok (done.reverse ++ pieces) := by
  induction hunder generalizing front rest done with
  | nil => simp [cutFrom]
  | @cons span piece spans pieces hpiece _ ih =>
    rw [List.map_cons, List.isChain_cons_cons] at hchain
    obtain ⟨hreached, hchain⟩ := hchain
    obtain ⟨hstop, hend⟩ := hpiece.ends
    have hslice := hpiece.slice
    rw [text?_eq_walk htext hreached (by omega), Option.map_eq_some_iff] at hslice
    obtain ⟨slice, hslice, hpieceText⟩ := hslice
    rw [String.ofList_inj] at hpieceText
    subst hpieceText
    obtain ⟨here, hhere, htake⟩ := Option.bind_eq_some_iff.mp hslice
    obtain ⟨skipped, rfl, hskipped⟩ := Text.append_of_dropBytes? hhere
    have hstart : Text.byteLength (front ++ skipped) = span.start := by
      rw [Text.byteLength_append]
      omega
    simp only [cutFrom, if_neg (Nat.not_lt.mpr hreached),
      if_neg (Nat.not_lt.mpr (show span.start ≤ span.stop by omega)), if_neg (Nat.not_lt.mpr hend),
      hhere, htake]
    rw [← hstart] at hchain ⊢
    rw [ih (by simp [htext]) hchain]
    have hsame : (⟨span.category, piece.text, Text.byteLength (front ++ skipped)⟩ : Piece) = piece := by
      rw [hstart, ← hpiece.category, ← hpiece.start]
    rw [hsame, List.reverse_cons, List.append_assoc, List.singleton_append]

/-- Cutting succeeds exactly on spans in order of their starts, each of which has a text, and then
gives those texts. -/
theorem cut_eq_ok_iff {text : String} {spans : List Span} {pieces : List Piece} :
    cut text.toList spans = .ok pieces ↔
      List.Forall₂ (Under text) spans pieces ∧ (0 :: spans.map (·.start)).IsChain (· ≤ ·) := by
  constructor
  · intro h
    obtain ⟨more, rfl, hunder, hchain⟩ := under_of_cutFrom (List.nil_append text.toList).symm h
    exact ⟨hunder, hchain⟩
  · rintro ⟨hunder, hchain⟩
    exact cutFrom_of_under (List.nil_append text.toList).symm hunder hchain

theorem exists_text? {text : String} {spans : List Span} {pieces : List Piece} {span : Span}
    (h : List.Forall₂ (Under text) spans pieces) (hmem : span ∈ spans) :
    ∃ slice, span.text? text = some slice := by
  induction h with
  | nil => simp at hmem
  | cons hpiece _ ih =>
    rcases List.mem_cons.mp hmem with rfl | hmem
    · exact ⟨_, hpiece.slice⟩
    · exact ih hmem

theorem map_slice_eq {text : String} {spans : List Span} {pieces : List Piece}
    (h : List.Forall₂ (Under text) spans pieces) :
    spans.map (fun span => (span.category, span.text? text)) =
      pieces.map fun piece => (piece.category, some (String.ofList piece.text)) := by
  induction h with
  | nil => rfl
  | cons hpiece _ ih => rw [List.map_cons, List.map_cons, hpiece.category, hpiece.slice, ih]

end Piece

theorem Span.Tiles.starts_ascend {start stop : Nat} {spans : List Span}
    (h : Tiles start stop spans) : (start :: spans.map (·.start)).IsChain (· ≤ ·) := by
  induction h with
  | nil => simp
  | @cons span spans stop nonempty tail ih =>
    rw [List.map_cons, List.isChain_cons_cons]
    refine ⟨Nat.le_refl _, ?_⟩
    rw [List.isChain_cons] at ih ⊢
    exact ⟨fun next hnext => Nat.le_trans (Nat.le_of_lt nonempty) (ih.1 next hnext), ih.2⟩

/-- The spans of a language's own rules are always cut, into the lexemes. -/
theorem Language.cut_spans (language : Language) (text : String) :
    ∃ pieces, Piece.cut text.toList (language.spans text) = .ok pieces ∧
      pieces.map (fun piece => (piece.category, piece.text)) =
        (language.scan text.toList).map fun lexeme => (lexeme.category, lexeme.text) := by
  have hslices := language.slices_spans text
  let pieceOf (span : Span) : Piece :=
    ⟨span.category, ((span.text? text).getD "").toList, span.start⟩
  have hunder : List.Forall₂ (Piece.Under text) (language.spans text)
      ((language.spans text).map pieceOf) := by
    rw [List.forall₂_map_right_iff, List.forall₂_same]
    intro span hmem
    obtain ⟨slice, hslice⟩ := language.exists_text? hmem
    exact ⟨rfl, rfl, by simp [pieceOf, hslice]⟩
  refine ⟨(language.spans text).map pieceOf,
    Piece.cut_eq_ok_iff.mpr ⟨hunder, (language.tiles_spans text).starts_ascend⟩, ?_⟩
  have hsame := (Piece.map_slice_eq hunder).symm.trans hslices
  have hlists := congrArg (List.map fun entry : Category × Option String =>
    (entry.1, (entry.2.getD "").toList)) hsame
  simpa only [List.map_map, Function.comp_def, Option.getD_some, String.toList_ofList] using hlists

namespace Token

theorem normalize_eq_ok_iff {lexer : Lexer} {text sourceName : String} {classifier : Classifier}
    {tokens : List Token} :
    normalize lexer text sourceName classifier = .ok tokens ↔
      ∃ spans pieces, lexer.scan text = .ok spans ∧ Piece.cut text.toList spans = .ok pieces ∧
        ofPieces classifier sourceName pieces = tokens := by
  rw [normalize, collect_eq_ofPieces]
  constructor
  · intro h
    split at h
    · simp at h
    · rename_i spans hscan
      cases hcut : Piece.cut text.toList spans with
      | error fault =>
        rw [hcut] at h
        cases h
      | ok pieces =>
        rw [hcut] at h
        exact ⟨spans, pieces, hscan, hcut, Except.ok.inj h⟩
  · rintro ⟨spans, pieces, hscan, hcut, rfl⟩
    rw [hscan]
    simp only [hcut]
    rfl

end Token

end SourcePrint
