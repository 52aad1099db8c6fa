import Mathlib.Data.List.SplitBy
import SourcePrint.Proofs.Pieces

namespace SourcePrint

/-- A slice that leaves a symbol. -/
structure KeptSlice where
  symbol : Symbol
  text : String
  start : Nat
  deriving DecidableEq, Repr

/-- The slice under a span with its symbol. A span that is elided leaves nothing. -/
def Span.kept? (classifier : Classifier) (text : String) (span : Span) : Option KeptSlice :=
  (span.text? text).bind fun slice =>
    (classifier.classify span.category slice.toList).map fun symbol => ⟨symbol, slice, span.start⟩

namespace KeptSlice

def bothLiteral (a b : KeptSlice) : Bool := a.symbol == .literal && b.symbol == .literal

/-- Maximal runs of literals, and every other slice on its own. -/
def groups (slices : List KeptSlice) : List (List KeptSlice) := slices.splitBy bothLiteral

theorem groups_cons_of_literal {slice next : KeptSlice} {slices group : List KeptSlice}
    {more : List (List KeptSlice)} (hgroups : groups slices = (next :: group) :: more)
    (h : bothLiteral slice next = true) :
    groups (slice :: slices) = (slice :: next :: group) :: more := by
  obtain ⟨hflat, hnil, hchain, hbreak⟩ := List.splitBy_eq_iff.mp hgroups
  refine List.splitBy_eq_iff.mpr ⟨by simp [hflat], ?_, ?_, ?_⟩
  · intro hmem
    rcases List.mem_cons.mp hmem with hmem | hmem
    · simp at hmem
    · exact hnil (List.mem_cons_of_mem _ hmem)
  · intro run hrun
    rcases List.mem_cons.mp hrun with rfl | hrun
    · exact List.isChain_cons_cons.mpr ⟨h, hchain _ (by simp)⟩
    · exact hchain run (List.mem_cons_of_mem _ hrun)
  · rw [List.isChain_cons] at hbreak ⊢
    refine ⟨?_, hbreak.2⟩
    intro run hrun
    obtain ⟨_, hne, hlast⟩ := hbreak.1 run hrun
    exact ⟨by simp, hne, by simpa using hlast⟩

theorem groups_cons_of_other {slice : KeptSlice} {slices : List KeptSlice}
    (h : ∀ next ∈ slices.head?, bothLiteral slice next = false) :
    groups (slice :: slices) = [slice] :: groups slices := by
  have hsplit := List.splitBy_append (l := [slice]) (m := slices) (r := bothLiteral) (by
    intro a ha b hb
    obtain rfl : slice = a := by simpa using ha
    exact h b hb)
  exact hsplit

theorem literal_of_mem_group {slices group : List KeptSlice} (h : group ∈ groups slices) :
    group.length = 1 ∨ ∀ slice ∈ group, slice.symbol = .literal := by
  have hne := List.ne_nil_of_mem_splitBy h
  have hchain := List.isChain_of_mem_splitBy h
  have hall : ∀ (a b : KeptSlice) (run : List KeptSlice),
      (a :: b :: run).IsChain (fun x y => bothLiteral x y = true) →
      ∀ slice ∈ a :: b :: run, slice.symbol = .literal := by
    intro a b run
    induction run generalizing a b with
    | nil => simp [bothLiteral]
    | cons c run ih =>
      intro hrun slice hslice
      rw [List.isChain_cons_cons] at hrun
      rcases List.mem_cons.mp hslice with rfl | hslice
      · simp only [bothLiteral, Bool.and_eq_true, beq_iff_eq] at hrun
        exact hrun.1.1
      · exact ih b c hrun.2 slice hslice
  match group, hne with
  | [a], _ => exact .inl rfl
  | a :: b :: run, _ => exact .inr (hall a b run hchain)

end KeptSlice

namespace Token

/-- A token that stands for a group of slices. -/
structure StandsFor (sourceName : String) (token : Token) (group : List KeptSlice) : Prop where
  kind : group.head?.map (·.symbol) = some token.kind
  text : token.text = String.join (group.map (·.text))
  startOffset : group.head?.map (·.start) = some token.startOffset
  logicalLine : token.logicalLine = none
  sourceName : token.sourceName = sourceName

/-- The slice a token was made from, before any joining. -/
def slice (token : Token) : KeptSlice := ⟨token.kind, token.text, token.startOffset⟩

theorem StandsFor.single {sourceName : String} {token : Token} (hline : token.logicalLine = none)
    (hname : token.sourceName = sourceName) : StandsFor sourceName token [token.slice] :=
  ⟨rfl, by simp [slice], rfl, hline, hname⟩

theorem StandsFor.exists_cons {sourceName : String} {token : Token} {group : List KeptSlice}
    (h : StandsFor sourceName token group) :
    ∃ next rest, group = next :: rest ∧ next.symbol = token.kind := by
  cases group with
  | nil => simpa using h.kind
  | cons next rest => exact ⟨next, rest, rfl, by simpa using h.kind⟩

/-- Joining is grouping, one token in front at a time. -/
theorem absorb_standsFor {sourceName : String} {token : Token} {tokens : List Token}
    {slices : List KeptSlice} (hline : token.logicalLine = none)
    (hname : token.sourceName = sourceName)
    (h : List.Forall₂ (StandsFor sourceName) tokens (KeptSlice.groups slices)) :
    List.Forall₂ (StandsFor sourceName) (absorb token tokens)
      (KeptSlice.groups (token.slice :: slices)) := by
  have hsingle := StandsFor.single hline hname
  generalize hgroups : KeptSlice.groups slices = groups at h
  cases h with
  | nil =>
    have hslices : slices = [] := List.splitBy_eq_nil.mp hgroups
    subst hslices
    rw [KeptSlice.groups_cons_of_other (by simp), hgroups]
    exact .cons hsingle .nil
  | @cons next group tokens groups hnext htail =>
    obtain ⟨first, group, rfl, hfirst⟩ := hnext.exists_cons
    have hhead : slices.head? = some first := by
      have hflat := (List.splitBy_eq_iff.mp hgroups).1
      simp [hflat]
    have hboth : KeptSlice.bothLiteral token.slice first =
        (token.kind.isLiteral && next.kind.isLiteral) := by
      rw [KeptSlice.bothLiteral, hfirst]
      rfl
    simp only [absorb]
    split
    · rename_i hliteral
      rw [KeptSlice.groups_cons_of_literal hgroups (hboth.trans hliteral)]
      refine .cons ⟨rfl, ?_, rfl, hline, hname⟩ htail
      rw [List.map_cons, String.join_cons, ← hnext.text]
      rfl
    · rename_i hliteral
      rw [KeptSlice.groups_cons_of_other (by
        intro a ha
        obtain rfl : first = a := by simpa [hhead] using ha
        simpa [hboth] using hliteral), hgroups]
      exact .cons hsingle (.cons hnext htail)

theorem mergeLiterals_standsFor {sourceName : String} {tokens : List Token}
    (h : ∀ token ∈ tokens, token.logicalLine = none ∧ token.sourceName = sourceName) :
    List.Forall₂ (StandsFor sourceName) (mergeLiterals tokens)
      (KeptSlice.groups (tokens.map slice)) := by
  induction tokens with
  | nil => exact .nil
  | cons token tokens ih =>
    obtain ⟨hline, hname⟩ := h token (by simp)
    exact absorb_standsFor hline hname (ih fun t ht => h t (by simp [ht]))

/-- After joining, no literal follows a literal. -/
theorem mergeLiterals_isChain (tokens : List Token) :
    (mergeLiterals tokens).IsChain fun a b => ¬(a.kind = .literal ∧ b.kind = .literal) := by
  induction tokens with
  | nil => exact .nil
  | cons token tokens ih =>
    change (absorb token (mergeLiterals tokens)).IsChain _
    generalize mergeLiterals tokens = joined at ih
    cases joined with
    | nil => simp [absorb]
    | cons next rest =>
      simp only [absorb]
      split
      · rename_i hliteral
        simp only [Symbol.isLiteral, Bool.and_eq_true, beq_iff_eq] at hliteral
        rw [List.isChain_cons] at ih ⊢
        refine ⟨?_, ih.2⟩
        intro b hb hboth
        exact ih.1 b hb ⟨hliteral.2, hboth.2⟩
      · rename_i hliteral
        refine List.isChain_cons_cons.mpr ⟨?_, ih⟩
        simpa [Symbol.isLiteral] using hliteral

/-- Before joining, the tokens of pieces are the slices that their spans keep. -/
theorem slices_ofPieces {classifier : Classifier} {text sourceName : String} {spans : List Span}
    {pieces : List Piece} (h : List.Forall₂ (Piece.Under text) spans pieces) (position : Position) :
    ((mapThread Piece.locate position pieces).filterMap (ofPiece? classifier sourceName)).map slice =
      spans.filterMap (Span.kept? classifier text) := by
  induction h generalizing position with
  | nil => rfl
  | @cons span piece spans pieces hpiece _ ih =>
    have hkept : (ofPiece? classifier sourceName (piece, position)).map slice =
        span.kept? classifier text := by
      rw [Span.kept?, hpiece.slice, Option.bind_some, String.toList_ofList, ← hpiece.category,
        ← hpiece.start, ofPiece?, Option.map_map]
      rfl
    rw [mapThread_cons, List.filterMap_cons, List.filterMap_cons, ← hkept]
    simp only [Piece.locate]
    cases ofPiece? classifier sourceName (piece, position) with
    | none => exact ih (position.advance piece.text)
    | some token => exact congrArg (token.slice :: ·) (ih (position.advance piece.text))

theorem ofPiece?_fields {classifier : Classifier} {sourceName : String}
    {located : Piece × Position} {token : Token}
    (h : ofPiece? classifier sourceName located = some token) :
    token.logicalLine = none ∧ token.sourceName = sourceName ∧
      token.startOffset = located.1.start ∧ token.line = located.2.line ∧
      token.column = located.2.column := by
  obtain ⟨kind, _, rfl⟩ := Option.map_eq_some_iff.mp h
  exact ⟨rfl, rfl, rfl, rfl, rfl⟩

/-- What normalization makes of the spans of a text. -/
structure Groups (classifier : Classifier) (text sourceName : String) (spans : List Span)
    (tokens : List Token) : Prop where
  /-- Every span has a slice, so that only elided ones leave nothing. -/
  sliced : ∀ span ∈ spans, ∃ slice, span.text? text = some slice
  /-- One token for each group of kept slices, in order. -/
  grouped : List.Forall₂ (StandsFor sourceName) tokens
    (KeptSlice.groups (spans.filterMap (Span.kept? classifier text)))
  /-- A group of more than one slice holds literals only. -/
  literals : ∀ group ∈ KeptSlice.groups (spans.filterMap (Span.kept? classifier text)),
    group.length = 1 ∨ ∀ slice ∈ group, slice.symbol = .literal
  /-- No two adjacent tokens are both literals. -/
  apart : tokens.IsChain fun a b => ¬(a.kind = .literal ∧ b.kind = .literal)
  /-- The kept slices are all there, once each. -/
  complete : sourceText tokens =
    String.join ((spans.filterMap (Span.kept? classifier text)).map (·.text))

theorem join_groups (groups : List (List KeptSlice)) :
    String.join (groups.map fun group => String.join (group.map (·.text))) =
      String.join (groups.flatten.map (·.text)) := by
  induction groups with
  | nil => rfl
  | cons group groups ih => simp [ih]

theorem sourceText_eq_join {sourceName : String} {tokens : List Token}
    {groups : List (List KeptSlice)} (h : List.Forall₂ (StandsFor sourceName) tokens groups) :
    sourceText tokens = String.join (groups.flatten.map (·.text)) := by
  rw [← join_groups, sourceText]
  congr 1
  induction h with
  | nil => rfl
  | cons htoken _ ih => rw [List.map_cons, List.map_cons, htoken.text, ih]

/-- Whatever lexer found the spans, a normalization that succeeds classifies every slice, leaves
out the elided ones, joins maximal runs of literals and nothing else, and loses no text. -/
theorem normalize_groups {lexer : Lexer} {text sourceName : String} {classifier : Classifier}
    {tokens : List Token} (h : normalize lexer text sourceName classifier = .ok tokens) :
    ∃ spans, lexer.scan text = .ok spans ∧ Groups classifier text sourceName spans tokens := by
  obtain ⟨spans, pieces, hscan, hcut, rfl⟩ := normalize_eq_ok_iff.mp h
  obtain ⟨hunder, _⟩ := Piece.cut_eq_ok_iff.mp hcut
  have hgrouped : List.Forall₂ (StandsFor sourceName) (ofPieces classifier sourceName pieces)
      (KeptSlice.groups (spans.filterMap (Span.kept? classifier text))) := by
    rw [← slices_ofPieces hunder .start]
    apply mergeLiterals_standsFor
    intro token hmem
    obtain ⟨located, _, hlocated⟩ := List.mem_filterMap.mp hmem
    have hfields := ofPiece?_fields hlocated
    exact ⟨hfields.1, hfields.2.1⟩
  refine ⟨spans, hscan, ?_, hgrouped, ?_, mergeLiterals_isChain _, ?_⟩
  · intro span hmem
    exact Piece.exists_text? hunder hmem
  · intro group hgroup
    exact KeptSlice.literal_of_mem_group hgroup
  · rw [sourceText_eq_join hgrouped, KeptSlice.groups, List.flatten_splitBy]

/-- A string in three parts around an empty span, a gap, and two spans over one character. -/
theorem normalize_groups_overlapping :
    normalize ⟨"rec", fun _ => .ok [⟨0, 2, .string .plain⟩, ⟨2, 4, .string .escape⟩, ⟨4, 4, .text⟩,
        ⟨4, 5, .string .plain⟩, ⟨6, 7, .punctuation⟩, ⟨6, 7, .operator⟩]⟩
        "\"a\\n\" ;" "a.c" ⟨[]⟩ =
      .ok [⟨.literal, "\"a\\n\"", 0, 1, 1, none, "a.c"⟩,
        ⟨.verbatim ";", ";", 6, 1, 6, none, "a.c"⟩, ⟨.verbatim ";", ";", 6, 1, 7, none, "a.c"⟩] ∧
    ∃ spans, Lexer.scan ⟨"rec", fun _ => .ok [⟨0, 2, .string .plain⟩, ⟨2, 4, .string .escape⟩,
        ⟨4, 4, .text⟩, ⟨4, 5, .string .plain⟩, ⟨6, 7, .punctuation⟩, ⟨6, 7, .operator⟩]⟩
        "\"a\\n\" ;" = .ok spans ∧
      Groups ⟨[]⟩ "\"a\\n\" ;" "a.c" spans
        [⟨.literal, "\"a\\n\"", 0, 1, 1, none, "a.c"⟩,
          ⟨.verbatim ";", ";", 6, 1, 6, none, "a.c"⟩, ⟨.verbatim ";", ";", 6, 1, 7, none, "a.c"⟩] :=
  ⟨by decide, normalize_groups (by decide)⟩

end Token

end SourcePrint
