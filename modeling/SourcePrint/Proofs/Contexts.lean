import SourcePrint.Proofs.Blanks

namespace SourcePrint

namespace Lexeme

/-- Where a directive may begin: at the start of the text, with or without blanks in front, or behind
blanks with a newline among them. -/
def opensLine (before : List Lexeme) : Bool :=
  match before.getLast? with
  | none => true
  | some last => last.isBlank && (before.length == 1 || last.text.contains '\n')

/-- The last lexeme that is not trivia reads as a single dot. -/
def endsInDot (read : List Lexeme) : Bool :=
  (read.filter (!·.category.isTrivia)).getLast?.any (·.text == ['.'])

theorem endsInDot_append (read lexemes : List Lexeme) :
    endsInDot (read ++ lexemes) = lexemes.foldl dotAfter (endsInDot read) := by
  induction lexemes generalizing read with
  | nil => simp
  | cons lexeme lexemes ih =>
    have hfirst : endsInDot (read ++ [lexeme]) = dotAfter (endsInDot read) lexeme := by
      cases h : lexeme.category.isTrivia <;> simp [endsInDot, dotAfter, h]
    rw [List.foldl_cons, ← hfirst, ← ih, List.append_assoc, List.singleton_append]

/-- What a context says of all that has been read in front of `rest`. -/
structure Context.Tracks (context : Context) (read : List Lexeme) (rest : List Char) : Prop where
  lineStart : context.lineStart = opensLine read
  afterDot : context.afterDot = endsInDot read
  /-- A run of blanks has been read to its end. -/
  blanks : ∀ last ∈ read.getLast?, last.isBlank = true → rest.head?.any Text.isBlank = false

theorem Context.tracks_start (cs : List Char) : Context.start.Tracks [] cs :=
  ⟨rfl, rfl, by simp⟩

variable {language : Language} {context : Context}

theorem not_isBlank_of_mem_readNext (language : Language) (context : Context) {c : Char}
    (hc : Text.isBlank c = false) (cs : List Char) :
    ∀ lexeme ∈ (readNext language context (c :: cs)).lexemes, lexeme.isBlank = false := by
  intro lexeme hmem
  rw [Bool.eq_false_iff]
  intro hblank
  obtain ⟨hcategory, -⟩ := isBlank_iff.mp hblank
  have hsingle := (whole_readNext language context (c :: cs)).eq_of_mem hmem (by simp [hcategory])
  obtain ⟨hne, rest, hcs, -⟩ := exists_of_readNext_isBlank hsingle hblank
  obtain ⟨d, text, htext⟩ := List.exists_cons_of_ne_nil hne
  rw [htext, List.cons_append] at hcs
  have hd := List.all_eq_true.mp (isBlank_iff.mp hblank).2 d (by simp [htext])
  rw [← (List.cons.inj hcs).1, hc] at hd
  cases hd

theorem Context.Tracks.lineStart_of_blank {read : List Lexeme} {c : Char} {cs : List Char}
    (h : context.Tracks read (c :: cs)) (hc : Text.isBlank c = true) :
    context.lineStart = (read.length == 0) := by
  rw [h.lineStart, opensLine]
  cases hlast : read.getLast? with
  | none => simp [List.getLast?_eq_none_iff.mp hlast]
  | some last =>
    have hblank : last.isBlank = false := by
      rw [Bool.eq_false_iff]
      intro hblank
      have hnone := h.blanks last hlast hblank
      simp [hc] at hnone
    obtain ⟨front, rfl⟩ := List.getLast?_eq_some_iff.mp hlast
    simp [hblank]

/-- One reading: blanks may open a line, and every other lexeme closes it. -/
theorem Context.Tracks.step {read : List Lexeme} {cs : List Char} (h : context.Tracks read cs)
    (hne : cs ≠ []) :
    (context.next language cs).Tracks (read ++ (readNext language context cs).lexemes)
      (readNext language context cs).rest := by
  obtain ⟨c, cs, rfl⟩ := List.exists_cons_of_ne_nil hne
  by_cases hc : Text.isBlank c = true
  · have hblank : (Lexeme.mk .text (c :: cs.takeWhile Text.isBlank)).isBlank = true :=
      isBlank_iff.mpr ⟨rfl, by simp [hc]⟩
    have hread : readNext language context (c :: cs) =
        .one .text (c :: cs.takeWhile Text.isBlank) (cs.dropWhile Text.isBlank) := by
      simp [readNext, Reading.while, hc]
    rw [hread, Context.next, if_pos hc]
    refine ⟨?_, ?_, fun _ _ _ => any_head?_dropWhile Text.isBlank cs⟩
    · simp [afterBlanks, h.lineStart_of_blank hc, opensLine, Reading.one, hblank]
    · rw [endsInDot_append, ← h.afterDot]
      rfl
  · have hc : Text.isBlank c = false := by simpa using hc
    have hread : readNext language context (c :: cs) = readToken language context c cs := by
      simp [readNext, hc]
    have hblank := not_isBlank_of_mem_readNext language context hc cs
    obtain ⟨front, last, hlexemes⟩ :=
      (List.eq_nil_or_concat _).resolve_left (lexemes_readNext_ne_nil language context hne)
    have hlast : (read ++ (readNext language context (c :: cs)).lexemes).getLast? = some last := by
      simp [hlexemes]
    have hlastBlank : last.isBlank = false := hblank last (by simp [hlexemes])
    rw [Context.next, if_neg (by simp [hc]), ← hread]
    refine ⟨?_, ?_, ?_⟩
    · simp [Context.after, opensLine, hlast, hlastBlank]
    · rw [endsInDot_append, ← h.afterDot]
      rfl
    · intro other hother hotherBlank
      obtain rfl := Option.some.inj (hlast.symm.trans hother)
      rw [hlastBlank] at hotherBlank
      cases hotherBlank

theorem Reads.tracks {after : Context} {cs rest : List Char} {front read : List Lexeme}
    (h : Reads language context cs read after rest) (htracks : context.Tracks front cs) :
    after.Tracks (front ++ read) rest := by
  induction h generalizing front with
  | refl context cs => rwa [List.append_nil]
  | step hne _ ih =>
    rw [← List.append_assoc]
    exact ih (htracks.step hne)

/-- How a scan comes to a lexeme that is no part of a string literal, and what it then knows of all
that is in front of it. -/
theorem exists_tracked {cs : List Char} {before after : List Lexeme} {lexeme : Lexeme}
    (hcategory : ∀ kind, lexeme.category ≠ .string kind)
    (h : lexemes language .start cs = before ++ lexeme :: after) :
    ∃ here rest, here.Tracks before (lexeme.text ++ rest) ∧
      (readNext language here (lexeme.text ++ rest)).lexemes = [lexeme] := by
  obtain ⟨here, rest, hreads, hsingle, -⟩ := reads_of_lexemes_eq hcategory h
  have htext := (covers_readNext language here rest).text
  have htracks := hreads.tracks (Context.tracks_start cs)
  rw [hsingle, textOf_cons, textOf_nil, List.append_nil] at htext
  rw [← htext] at hsingle htracks
  exact ⟨here, _, htracks, hsingle⟩

end Lexeme

end SourcePrint
