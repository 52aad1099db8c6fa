import SourcePrint.Proofs.Edits
import SourcePrint.Proofs.Locality

namespace SourcePrint

def Text.CodeRanges.codes (ranges : CodeRanges) : List Nat :=
  ranges.flatMap fun range => List.range' range.1 (range.2 + 1 - range.1)

theorem Text.CodeRanges.mem_codes {ranges : CodeRanges} {n : Nat} (h : ranges.has n = true) :
    n ∈ ranges.codes := by
  induction ranges with
  | nil => cases h
  | cons range ranges ih =>
    simp only [has, Bool.and_eq_true, Bool.or_eq_true, decide_eq_true_eq] at h
    rw [codes, List.flatMap_cons, List.mem_append]
    rcases h with ⟨hfirst, hlast | hrest⟩
    · exact .inl (List.mem_range'_1.mpr (by omega))
    · exact .inr (ih hrest)

namespace Lexeme

section BlankCharacter

variable {c d : Char} (hc : Text.isBlank c = true) (hd : Text.isBlank d = true)

include hc

theorem eq_false_of_isBlank {p : Char → Bool}
    (hp : (Text.blankRanges.codes.all fun n => !p (Char.ofNat n)) = true) : p c = false := by
  simpa using List.all_eq_true.mp hp c.toNat (Text.CodeRanges.mem_codes hc)

theorem not_isNameStart_of_isBlank : isNameStart c = false :=
  eq_false_of_isBlank hc (by decide +kernel)

theorem ne_of_isBlank {x : Char} (hx : Text.isBlank x = false) : c ≠ x := by
  rintro rfl
  rw [hc] at hx
  cases hx

include hd

/-- Two blanks end alike whatever is in front of them, a number too, unless only one of them is a
line break or they are different ones. -/
theorem numberAlike_of_isBlank
    (h : c = d ∨ (c ≠ '\n' ∧ c ≠ '\r') ∧ d ≠ '\n' ∧ d ≠ '\r') (r r' : List Char) :
    NumberAlike (c :: r) (d :: r') := by
  have hsame : ∀ {x : Char}, Text.isBlank x = false → (c = x ↔ d = x) := by
    intro x hx
    simp [ne_of_isBlank hc hx, ne_of_isBlank hd hx]
  have hfalse : ∀ {p : Char → Bool}, (Text.blankRanges.codes.all fun n => !p (Char.ofNat n)) = true →
      p c = false ∧ p d = false :=
    fun hp => ⟨eq_false_of_isBlank hc hp, eq_false_of_isBlank hd hp⟩
  have hbreak : (c = '\n' ↔ d = '\n') ∧ (c = '\r' ↔ d = '\r') := by
    rcases h with rfl | ⟨hc, hd⟩
    · exact ⟨.rfl, .rfl⟩
    · simp [hc, hd]
  obtain ⟨hcontinuec, hcontinued⟩ := hfalse (p := isNameContinue) (by decide +kernel)
  have twin : Twin c d := {
    newline := hbreak.1
    carriageReturn := hbreak.2
    quote := hsame (by decide)
    apostrophe := hsame (by decide)
    backslash := hsame (by decide)
    blank := hc.trans hd.symm
    nameStart := (not_isNameStart_of_isBlank hc).trans (not_isNameStart_of_isBlank hd).symm
    nameContinue := hcontinuec.trans hcontinued.symm
    digit := hfalse (by decide +kernel)
    sign := hfalse (by decide +kernel) }
  exact .stop r r' twin (hfalse (by decide +kernel)) (hsame (by decide))

end BlankCharacter

/-- A run of blanks, and not the backslash that continues a line. -/
def isBlank (lexeme : Lexeme) : Bool :=
  lexeme.category == .text && lexeme.text.all Text.isBlank

theorem isBlank_iff {lexeme : Lexeme} :
    lexeme.isBlank = true ↔ lexeme.category = .text ∧ lexeme.text.all Text.isBlank = true := by
  simp [isBlank]

/-- The lexeme that a run of blanks leaves, none for an empty run. -/
def gap (blanks : List Char) : List Lexeme := if blanks = [] then [] else [⟨.text, blanks⟩]

theorem textOf_gap (blanks : List Char) : textOf (gap blanks) = blanks := by
  unfold gap
  split
  · rename_i h
    exact h.symm
  · simp

theorem gap_of_isBlank {lexeme : Lexeme} (h : lexeme.isBlank = true) (hne : lexeme.text ≠ []) :
    gap lexeme.text = [lexeme] := by
  rw [gap, if_neg hne, ← (isBlank_iff.mp h).1]

variable {language : Language} {context : Context}

theorem lexemes_blanks {blanks rest : List Char} (hall : blanks.all Text.isBlank = true)
    (hrest : rest.head?.any Text.isBlank = false) :
    lexemes language context (blanks ++ rest) =
      gap blanks ++ lexemes language (context.afterBlanks blanks) rest := by
  cases blanks with
  | nil => simp [gap, Context.afterBlanks]
  | cons c blanks =>
    obtain ⟨hc, hblanks⟩ := Bool.and_eq_true_iff.mp hall
    obtain ⟨htake, hdrop⟩ := takeWhile_of_all hblanks hrest
    rw [List.cons_append, lexemes, if_pos hc, htake, hdrop]
    rfl

theorem exists_of_readNext_isBlank {cs : List Char} {lexeme : Lexeme}
    (h : (readNext language context cs).lexemes = [lexeme]) (hblank : lexeme.isBlank = true) :
    lexeme.text ≠ [] ∧ ∃ rest, cs = lexeme.text ++ rest ∧
      rest.head?.any Text.isBlank = false ∧ (readNext language context cs).rest = rest ∧
      context.next language cs = context.afterBlanks lexeme.text := by
  have hcovers := covers_readNext language context cs
  have hne : lexeme.text ≠ [] := hcovers.nonempty lexeme (by simp [h])
  cases cs with
  | nil => cases h
  | cons c cs =>
    have hc : Text.isBlank c = true := by
      have htext := hcovers.text
      obtain ⟨d, text, hlexeme⟩ := List.exists_cons_of_ne_nil hne
      rw [h, textOf_cons, hlexeme, List.cons_append, List.cons_append] at htext
      rw [← (List.cons.inj htext).1]
      exact List.all_eq_true.mp (isBlank_iff.mp hblank).2 d (by simp [hlexeme])
    simp only [readNext, Context.next, if_pos hc, Reading.while, Reading.one] at h ⊢
    obtain rfl := List.singleton_inj.mp h
    refine ⟨hne, _, List.takeWhile_append_dropWhile.symm, any_head?_dropWhile _ _, rfl, ?_⟩
    rw [List.takeWhile_cons_of_pos hc]

/-- How a scan comes to a place behind blanks or at the start of the text. -/
theorem exists_gap_before {cs : List Char} {before after : List Lexeme}
    (h : lexemes language .start cs = before ++ after)
    (hbefore : ∀ lexeme ∈ before.getLast?, lexeme.isBlank = true) :
    ∃ front blanks here, before = front ++ gap blanks ∧ blanks.all Text.isBlank = true ∧
      Reads language .start cs front here (blanks ++ textOf after) ∧
      (blanks = [] → front = [] ∧ here = .start) ∧
      lexemes language (here.afterBlanks blanks) (textOf after) = after := by
  cases hlast : before.getLast? with
  | none =>
    obtain rfl := List.getLast?_eq_none_iff.mp hlast
    have hcs : textOf after = cs := by rw [← List.nil_append after, ← h, textOf_lexemes]
    refine ⟨[], [], .start, rfl, rfl, ?_, fun _ => ⟨rfl, rfl⟩, ?_⟩
    · rw [hcs]
      exact .refl _ _
    · rw [hcs]
      exact h
  | some lexeme =>
    obtain ⟨front, rfl⟩ := List.getLast?_eq_some_iff.mp hlast
    have hlexeme := hbefore lexeme hlast
    obtain ⟨hcategory, hblanks⟩ := isBlank_iff.mp hlexeme
    have hstring : ∀ kind, lexeme.category ≠ .string kind := by simp [hcategory]
    rw [List.append_assoc, List.singleton_append] at h
    obtain ⟨here, cs, hreads, hsingle, hafter⟩ := reads_of_lexemes_eq hstring h
    obtain ⟨hne, rest, rfl, hend, hrest, hnext⟩ := exists_of_readNext_isBlank hsingle hlexeme
    rw [hnext, hrest] at hafter
    have htail : textOf after = rest := by rw [← hafter, textOf_lexemes]
    rw [htail]
    exact ⟨front, lexeme.text, here, by rw [gap_of_isBlank hlexeme hne], hblanks, hreads,
      fun h => absurd h hne, hafter⟩

/-- Behind blanks, or at the start of the text, any text may follow. -/
theorem Reads.exchange_gap {cs blanks rest : List Char} {front : List Lexeme} {here : Context}
    (h : Reads language .start cs front here (blanks ++ rest))
    (hblanks : blanks.all Text.isBlank = true) (hempty : blanks = [] → front = [] ∧ here = .start)
    (rest' : List Char) :
    Reads language .start (textOf front ++ (blanks ++ rest')) front here (blanks ++ rest') := by
  cases blanks with
  | nil =>
    obtain ⟨rfl, rfl⟩ := hempty rfl
    exact .refl _ _
  | cons c blanks =>
    have hc : Text.isBlank c = true := (Bool.and_eq_true_iff.mp hblanks).1
    have hnumber : ∀ r r', NumberAlike (c :: r) (c :: r') :=
      numberAlike_of_isBlank hc hc (.inl rfl)
    exact h.exchange (hnumber _ _).alike fun _ _ => hnumber _ _

/-- How a scan goes on behind a place with blanks or the end of the text behind it. -/
theorem exists_gap_behind {after : List Lexeme}
    (h : lexemes language context (textOf after) = after)
    (hafter : ∀ lexeme ∈ after.head?, lexeme.isBlank = true) :
    ∃ blanks rest, after = gap blanks ++ after.tail ∧ blanks.all Text.isBlank = true ∧
      textOf after = blanks ++ rest ∧ rest.head?.any Text.isBlank = false ∧
      lexemes language (context.afterBlanks blanks) rest = after.tail := by
  cases after with
  | nil => exact ⟨[], [], rfl, rfl, rfl, rfl, by rw [lexemes, List.tail_nil]⟩
  | cons lexeme after =>
    have hlexeme := hafter lexeme rfl
    obtain ⟨hcategory, hblanks⟩ := isBlank_iff.mp hlexeme
    have hstring : ∀ kind, lexeme.category ≠ .string kind := by simp [hcategory]
    have hfirst : lexemes language context (textOf (lexeme :: after)) = [] ++ lexeme :: after := h
    obtain ⟨here, cs, hreads, hsingle, hback⟩ := reads_of_lexemes_eq hstring hfirst
    obtain ⟨rfl, rfl⟩ := hreads.eq_of_nil
    obtain ⟨hne, rest, hcs, hend, hrest, hnext⟩ := exists_of_readNext_isBlank hsingle hlexeme
    rw [hnext, hrest] at hback
    exact ⟨lexeme.text, rest, by simp [gap_of_isBlank hlexeme hne], hblanks, hcs, hend, hback⟩

end Lexeme

namespace Span

variable {span : Span} {text : String} {lexeme : Lexeme}

/-- The span of a run of blanks, and not of the backslash that continues a line. -/
def isBlank (span : Span) (text : String) : Bool :=
  span.category == .text && (span.text? text).any Text.isBlankText

theorem isBlank_eq (h : (span.category, span.text? text) =
    (lexeme.category, some (String.ofList lexeme.text))) :
    span.isBlank text = lexeme.isBlank := by
  obtain ⟨hcategory, htext⟩ := Prod.mk.inj h
  simp [isBlank, Lexeme.isBlank, hcategory, htext, Text.isBlankText]

theorem isBlank_last {front : List Span} {before : List Lexeme}
    (h : front.map (fun span => (span.category, span.text? text)) =
      before.map fun lexeme => (lexeme.category, some (String.ofList lexeme.text)))
    (hfront : ∀ last ∈ front.getLast?, last.isBlank text = true) :
    ∀ last ∈ before.getLast?, last.isBlank = true := by
  intro last hmem
  have hsame := congrArg List.getLast? h
  rw [List.getLast?_map, List.getLast?_map, Option.mem_def.mp hmem] at hsame
  obtain ⟨span, hspan, hslice⟩ := Option.map_eq_some_iff.mp hsame
  rw [← isBlank_eq hslice]
  exact hfront span hspan

end Span

end SourcePrint
