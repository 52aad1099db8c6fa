import SourcePrint.Proofs.Tiling

namespace SourcePrint

namespace Span

/-- The text with another one in place of the part under a span. -/
def replace? (span : Span) (text new : String) : Option String :=
  (Text.takeBytes? span.start text.toList).bind fun front =>
    (Text.dropBytes? span.stop text.toList).map fun back =>
      String.ofList (front ++ new.toList ++ back)

def behind? (span : Span) (text : String) : Option Char :=
  (Text.dropBytes? span.stop text.toList).bind List.head?

/-- A span lies over `middle` in a text of three parts. -/
structure Over (span : Span) (text : String) (front middle back : List Char) : Prop where
  text : text.toList = front ++ middle ++ back
  start : span.start = Text.byteLength front
  stop : span.stop = Text.byteLength front + Text.byteLength middle

namespace Over

variable {span : Span} {text : String} {front middle back : List Char}

theorem replace?_eq (h : span.Over text front middle back) (new : String) :
    span.replace? text new = some (String.ofList (front ++ new.toList ++ back)) := by
  have htake := Text.takeBytes?_byteLength front (middle ++ back)
  have hdrop := Text.dropBytes?_byteLength (front ++ middle) back
  rw [Text.byteLength_append] at hdrop
  rw [replace?, h.start, h.stop, h.text, hdrop, List.append_assoc, htake]
  rfl

theorem behind?_eq (h : span.Over text front middle back) : span.behind? text = back.head? := by
  have hdrop := Text.dropBytes?_byteLength (front ++ middle) back
  rw [Text.byteLength_append] at hdrop
  rw [behind?, h.stop, h.text, hdrop]
  rfl

theorem text?_eq (h : span.Over text front middle back) :
    span.text? text = some (String.ofList middle) :=
  text?_eq_some.mpr ⟨front, back, by simp [h.text], h.start.symm, by simp [h.start, h.stop]⟩

end Over

theorem place_append (a b : List Lexeme) (start : Nat) :
    mapThread place start (a ++ b) =
      mapThread place start a ++
        mapThread place (start + Text.byteLength (Lexeme.textOf a)) b := by
  induction a generalizing start with
  | nil => rfl
  | cons lexeme a ih =>
    simp only [List.cons_append, mapThread_cons, ih, Lexeme.textOf_cons, Text.byteLength_append,
      place, Nat.add_assoc]

theorem categories_place (lexemes : List Lexeme) (start : Nat) :
    (mapThread place start lexemes).map (·.category) = lexemes.map (·.category) := by
  induction lexemes generalizing start with
  | nil => rfl
  | cons lexeme lexemes ih => simp [ih, place]

end Span

theorem Language.exists_lexeme {language : Language} {text : String} {front back : List Span}
    {span : Span} (h : language.spans text = front ++ span :: back) :
    ∃ before lexeme after, language.scan text.toList = before ++ lexeme :: after ∧
      front.map (·.category) = before.map (·.category) ∧ span.category = lexeme.category ∧
      span.Over text (Lexeme.textOf before) lexeme.text (Lexeme.textOf after) := by
  have htext := Lexeme.textOf_lexemes language .start text.toList
  rw [← language.scan_eq] at htext
  have hlength := congrArg List.length h
  simp only [spans, Span.layOut, length_mapThread, List.length_append, List.length_cons] at hlength
  obtain ⟨before, rest, hscan, hbefore⟩ : ∃ before rest,
      language.scan text.toList = before ++ rest ∧ before.length = front.length :=
    ⟨_, _, (List.take_append_drop front.length _).symm, by
      rw [List.length_take]
      omega⟩
  rw [spans, Span.layOut, hscan, Span.place_append] at h
  obtain ⟨hfront, hrest⟩ := List.append_inj h (by simp [hbefore])
  cases rest with
  | nil => simp at hrest
  | cons lexeme after =>
    rw [mapThread_cons] at hrest
    obtain ⟨rfl, _⟩ := List.cons.inj hrest
    refine ⟨before, lexeme, after, hscan, ?_, rfl, ?_, ?_, ?_⟩
    · rw [← hfront, Span.categories_place]
    · rw [← htext, hscan]
      simp
    · simp [Span.place]
    · simp [Span.place]

theorem Language.spans_eq_layOut_iff {language : Language} {text : String} {lexemes : List Lexeme}
    (h : Lexeme.textOf lexemes = text.toList) :
    language.spans text = Span.layOut lexemes ↔ language.scan text.toList = lexemes := by
  constructor
  · intro hspans
    have hslices := language.slices_spans text
    have hplace := Span.text?_place lexemes [] [] text (by simp [h])
    rw [hspans] at hslices
    refine (List.map_inj_right ?_).mp (hslices.symm.trans hplace)
    rintro ⟨category, cs⟩ ⟨category', cs'⟩ hsame
    obtain ⟨hcategory, htext⟩ := Prod.mk.inj hsame
    exact Lexeme.mk.injEq .. ▸ ⟨hcategory, String.ofList_injective (Option.some.inj htext)⟩
  · intro hscan
    rw [spans, hscan]

/-- As many spans in front as lexemes, and the span lies over the lexeme. -/
theorem Language.over_of_length_eq {language : Language} {text : String} {front back : List Span}
    {span : Span} {before after : List Lexeme} {lexeme : Lexeme}
    (hspans : language.spans text = front ++ span :: back)
    (hscan : language.scan text.toList = before ++ lexeme :: after)
    (hlength : front.length = before.length) :
    span.Over text (Lexeme.textOf before) lexeme.text (Lexeme.textOf after) := by
  obtain ⟨before', lexeme', after', hscan', hcategories, _, hover⟩ := Language.exists_lexeme hspans
  have hlength' : front.length = before'.length := by simpa using congrArg List.length hcategories
  obtain ⟨rfl, hrest⟩ := List.append_inj (hscan.symm.trans hscan') (hlength.symm.trans hlength')
  obtain ⟨rfl, rfl⟩ := List.cons.inj hrest
  exact hover

/-- The spans at the two sides of a span show the lexemes at the two sides of its lexeme. -/
theorem Language.slices_around {language : Language} {text : String} {front back : List Span}
    {span : Span} {before after : List Lexeme} {lexeme : Lexeme}
    (hspans : language.spans text = front ++ span :: back)
    (hscan : language.scan text.toList = before ++ lexeme :: after)
    (hlength : front.length = before.length) :
    front.map (fun span => (span.category, span.text? text)) =
        before.map (fun lexeme => (lexeme.category, some (String.ofList lexeme.text))) ∧
      back.map (fun span => (span.category, span.text? text)) =
        after.map fun lexeme => (lexeme.category, some (String.ofList lexeme.text)) := by
  have hslices := language.slices_spans text
  rw [hspans, hscan, List.map_append, List.map_append, List.map_cons, List.map_cons] at hslices
  obtain ⟨hfront, hrest⟩ := List.append_inj hslices (by simp [hlength])
  exact ⟨hfront, (List.cons.inj hrest).2⟩

/-- The lexeme behind a lexeme has its span behind the span, and the same text behind it. -/
theorem Language.exists_behind {language : Language} {text : String} {front back : List Span}
    {span : Span} {before after : List Lexeme} {lexeme next : Lexeme}
    (hspans : language.spans text = front ++ span :: back)
    (hscan : language.scan text.toList = before ++ lexeme :: after)
    (hlength : front.length = before.length) (hnext : next ∈ after.head?) :
    ∃ behind ∈ back.head?,
      (behind.category, behind.text? text) = (next.category, some (String.ofList next.text)) ∧
      behind.behind? text = (Lexeme.textOf after.tail).head? := by
  obtain ⟨rest, rfl⟩ := List.head?_eq_some_iff.mp hnext
  obtain ⟨behind, more, rfl, hslice, _⟩ :=
    List.map_eq_cons_iff.mp (Language.slices_around hspans hscan hlength).2
  have hspans' : language.spans text = (front ++ [span]) ++ behind :: more := by
    simpa using hspans
  have hscan' : language.scan text.toList = (before ++ [lexeme]) ++ next :: rest := by
    simpa using hscan
  have hover := Language.over_of_length_eq hspans' hscan' (by simp [hlength])
  exact ⟨behind, rfl, hslice, hover.behind?_eq⟩

end SourcePrint
