import SourcePrint.Proofs.Contexts
import SourcePrint.Proofs.Kinds

namespace SourcePrint

namespace Lexeme

variable {language : Language} {context : Context}

/-- Only a directive looks at whether a line begins here. -/
theorem lexemes_congr_context {other : Context} {cs : List Char}
    (hdot : context.afterDot = other.afterDot) (hblank : cs.head?.any Text.isBlank = false)
    (hline : language ≠ .java → cs.head? = some '#' → context.lineStart = other.lineStart) :
    lexemes language context cs = lexemes language other cs := by
  cases cs with
  | nil => rw [lexemes, lexemes]
  | cons c cs =>
    have hc : ¬Text.isBlank c = true := by simpa using hblank
    have hdirective : (c = '#' ∧ context.lineStart = true ∧ language ≠ .java) ↔
        (c = '#' ∧ other.lineStart = true ∧ language ≠ .java) := by
      constructor
      · rintro ⟨rfl, hstart, hjava⟩
        exact ⟨rfl, (hline hjava rfl).symm.trans hstart, hjava⟩
      · rintro ⟨rfl, hstart, hjava⟩
        exact ⟨rfl, (hline hjava rfl).trans hstart, hjava⟩
    have hreading : readToken language context c cs = readToken language other c cs := by
      simp only [readToken, hdirective, hdot]
    rw [lexemes, lexemes, if_neg hc, if_neg hc, hreading]
    simp only [Context.after, hdot]

/-- A comment begins no line and does not come between a dot and what follows it. -/
theorem lexemes_behind_comment {cs : List Char} {comment : Lexeme} {after : List Lexeme}
    {kind : CommentKind} (h : lexemes language context cs = comment :: after)
    (hcomment : comment.category = .comment kind) :
    lexemes language ⟨false, context.afterDot⟩ (textOf after) = after := by
  have hstring : ∀ kind, comment.category ≠ .string kind := by simp [hcomment]
  have hfirst : lexemes language context cs = [] ++ comment :: after := h
  obtain ⟨here, rest, hreads, hsingle, hafter⟩ := reads_of_lexemes_eq hstring hfirst
  obtain ⟨rfl, rfl⟩ := hreads.eq_of_nil
  have hnext : here.next language rest = ⟨false, here.afterDot⟩ := by
    rw [next_of_readNext hsingle (by simp [hcomment])]
    simp [dotAfter, hcomment, Category.isTrivia, Category.family]
  rw [hnext] at hafter
  rw [← hafter, textOf_lexemes]

/-- The context behind blanks has a line begin only where a directive may begin. -/
theorem Reads.opensLine {cs blanks rest : List Char} {front : List Lexeme} {here : Context}
    (h : Reads language .start cs front here (blanks ++ rest))
    (hblanks : blanks.all Text.isBlank = true) (hempty : blanks = [] → front = [])
    (hline : (here.afterBlanks blanks).lineStart = true) :
    Lexeme.opensLine (front ++ gap blanks) = true := by
  cases blanks with
  | nil =>
    rw [hempty rfl]
    rfl
  | cons c blanks =>
    have hlexeme : (Lexeme.mk .text (c :: blanks)).isBlank = true :=
      isBlank_iff.mpr ⟨rfl, hblanks⟩
    rcases Bool.or_eq_true_iff.mp hline with hstart | hnewline
    · have hc : Text.isBlank c = true := (Bool.and_eq_true_iff.mp hblanks).1
      have htracks := h.tracks (Context.tracks_start cs)
      have hfront : front = [] := by
        rw [htracks.lineStart_of_blank hc] at hstart
        simpa using hstart
      simp [Lexeme.opensLine, gap, hfront, hlexeme]
    · simp only [Lexeme.opensLine, gap, reduceCtorEq, if_false, List.getLast?_concat, hlexeme,
        hnewline, Bool.or_true, Bool.and_true]

theorem filter_gap {blanks : List Char} (h : blanks.all Text.isBlank = true) :
    (gap blanks).filter (!·.isBlank) = [] := by
  unfold gap
  split
  · rfl
  · simp [isBlank, h]

/-- A comment with nothing but blanks at its sides can be left out, unless it keeps a `#` behind it
from beginning a line. All but the blanks stays as it is. -/
theorem lexemes_uncomment {cs : List Char} {before after : List Lexeme} {comment : Lexeme}
    {kind : CommentKind} (hsplit : lexemes language .start cs = before ++ comment :: after)
    (hcomment : comment.category = .comment kind)
    (hbefore : ∀ lexeme ∈ before.getLast?, lexeme.isBlank = true)
    (hafter : ∀ lexeme ∈ after.head?, lexeme.isBlank = true)
    (hdirective : language ≠ .java → opensLine before = true →
      ∀ lexeme ∈ after.head?, '\n' ∉ lexeme.text → (textOf after.tail).head? ≠ some '#') :
    (lexemes language .start (textOf before ++ textOf after)).filter (!·.isBlank) =
      (before ++ after).filter (!·.isBlank) := by
  obtain ⟨front, left, here, hfront, hleft, hreads, hempty, hhere⟩ :=
    exists_gap_before hsplit hbefore
  have hbehind := lexemes_behind_comment hhere hcomment
  obtain ⟨right, rest, hback, hright, htext, hend, hrest⟩ := exists_gap_behind hbehind hafter
  have hreads' := hreads.exchange_gap hleft hempty (right ++ rest)
  have hrun : (left ++ right).all Text.isBlank = true := by
    rw [List.all_append, hleft, hright, Bool.and_true]
  have hsame : lexemes language (here.afterBlanks (left ++ right)) rest = after.tail := by
    rw [← hrest]
    refine lexemes_congr_context rfl hend ?_
    intro hjava hhash
    simp only [Context.afterBlanks, List.contains_append, Bool.false_or]
    cases hnewline : right.contains '\n' with
    | true => simp
    | false =>
      rw [Bool.or_false, ← Bool.not_eq_true]
      intro hline
      have hopens : opensLine before = true := by
        rw [hfront]
        exact hreads.opensLine hleft (fun h => (hempty h).1) hline
      have htail : textOf after.tail = rest := by rw [← hrest, textOf_lexemes]
      cases after with
      | nil =>
        rw [← htail] at hhash
        cases hhash
      | cons lexeme after =>
        have hlexeme : lexeme.text = right := by
          rw [List.tail_cons] at htail
          exact List.append_cancel_right (htail ▸ htext)
        refine hdirective hjava hopens lexeme rfl ?_ (htail ▸ hhash)
        rw [hlexeme, ← List.contains_iff_mem, hnewline]
        exact Bool.false_ne_true
  have hkept : after.filter (!·.isBlank) = after.tail.filter (!·.isBlank) := by
    rw [hback, List.filter_append, filter_gap hright, List.nil_append, ← hback]
  rw [hfront, textOf_append, textOf_gap, htext, List.append_assoc, hreads'.lexemes_eq,
    ← List.append_assoc, lexemes_blanks hrun hend, hsame]
  simp only [List.filter_append, filter_gap hrun, filter_gap hleft, hkept, List.nil_append,
    List.append_nil]

end Lexeme

namespace Span

def breaksLine (span : Span) (text : String) : Bool :=
  (span.text? text).any fun slice => slice.toList.contains '\n'

/-- Where a directive may begin, the spans in front given: at the start of the text, with or without
blanks in front, or behind blanks with a newline among them. -/
def opensLine (text : String) (front : List Span) : Bool :=
  match front.getLast? with
  | none => true
  | some last => last.isBlank text && (front.length == 1 || last.breaksLine text)

variable {span : Span} {text : String} {lexeme : Lexeme}

theorem breaksLine_eq (h : (span.category, span.text? text) =
    (lexeme.category, some (String.ofList lexeme.text))) :
    span.breaksLine text = lexeme.text.contains '\n' := by
  simp [breaksLine, (Prod.mk.inj h).2]

theorem opensLine_eq {front : List Span} {before : List Lexeme}
    (h : front.map (fun span => (span.category, span.text? text)) =
      before.map fun lexeme => (lexeme.category, some (String.ofList lexeme.text))) :
    opensLine text front = Lexeme.opensLine before := by
  have hlength : front.length = before.length := by simpa using congrArg List.length h
  have hlast := congrArg List.getLast? h
  rw [List.getLast?_map, List.getLast?_map] at hlast
  unfold opensLine Lexeme.opensLine
  cases hspan : front.getLast? with
  | none =>
    rw [hspan] at hlast
    rw [Option.map_eq_none_iff.mp hlast.symm]
  | some span =>
    rw [hspan] at hlast
    obtain ⟨lexeme, hlexeme, hslice⟩ := Option.map_eq_some_iff.mp hlast.symm
    simp only [hlexeme, isBlank_eq hslice.symm, breaksLine_eq hslice.symm, hlength]

end Span

theorem Classifier.content?_of_isBlank (classifier : Classifier) {lexeme : Lexeme}
    (h : lexeme.isBlank = true) : classifier.content? lexeme.category lexeme.text = none := by
  rw [(Lexeme.isBlank_iff.mp h).1]
  rfl

theorem Classifier.contents_filter (classifier : Classifier) (lexemes : List Lexeme) :
    ((lexemes.filter (!·.isBlank)).filterMap fun lexeme =>
        classifier.content? lexeme.category lexeme.text) =
      lexemes.filterMap fun lexeme => classifier.content? lexeme.category lexeme.text := by
  induction lexemes with
  | nil => rfl
  | cons lexeme lexemes ih =>
    cases h : lexeme.isBlank with
    | true => simp [h, classifier.content?_of_isBlank h, ih]
    | false => simp [h, List.filterMap_cons, ih]

/-- Comments do not matter: under a language's own rules a comment with nothing but blanks or an end
of the text at its sides can be left out, and everything that is derived from the tokens stays but
their places. The comment may not stand between the start of a line and a `#` on it, which without
the comment would begin a directive. -/
theorem Language.uncomment_invariant (language : Language) (text sourceName : String)
    (classifier : Classifier) {front back : List Span} {comment : Span} {kind : CommentKind}
    (hspans : language.spans text = front ++ comment :: back)
    (hcategory : comment.category = .comment kind)
    (hfront : ∀ before ∈ front.getLast?, before.isBlank text = true)
    (hback : ∀ behind ∈ back.head?, behind.isBlank text = true)
    (hdirective : language ≠ .java → Span.opensLine text front = true →
      ∀ behind ∈ back.head?, behind.breaksLine text = false → behind.behind? text ≠ some '#') :
    ∃ edited, comment.replace? text "" = some edited ∧
      ∃ tokens uncommented,
        Token.normalize language.lexer text sourceName classifier = .ok tokens ∧
        Token.normalize language.lexer edited sourceName classifier = .ok uncommented ∧
        uncommented.map Token.content = tokens.map Token.content ∧
        Token.canonicalText uncommented = Token.canonicalText tokens ∧
        ∀ version, Fingerprint.ofTokens sourceName uncommented version =
          Fingerprint.ofTokens sourceName tokens version := by
  obtain ⟨before, lexeme, after, hscan, hcategories, hlexeme, hover⟩ :=
    Language.exists_lexeme hspans
  have hlength : front.length = before.length := by simpa using congrArg List.length hcategories
  have hslices := (Language.slices_around hspans hscan hlength).1
  have hcomment : lexeme.category = .comment kind := hlexeme.symm.trans hcategory
  have hlast := Span.isBlank_last hslices hfront
  let edited := String.ofList (Lexeme.textOf before ++ Lexeme.textOf after)
  have hedited : (language.scan edited.toList).filter (!·.isBlank) =
      (before ++ after).filter (!·.isBlank) := by
    rw [language.scan_eq, String.toList_ofList]
    refine Lexeme.lexemes_uncomment (language.scan_eq _ ▸ hscan) hcomment hlast ?_ ?_
    · intro first hmem
      obtain ⟨behind, hbehind, hslice, _⟩ := Language.exists_behind hspans hscan hlength hmem
      rw [← Span.isBlank_eq hslice]
      exact hback behind hbehind
    · intro hjava hopens first hmem hnewline
      obtain ⟨behind, hbehind, hslice, hhead⟩ :=
        Language.exists_behind hspans hscan hlength hmem
      rw [← Span.opensLine_eq hslices] at hopens
      rw [← hhead]
      refine hdirective hjava hopens behind hbehind ?_
      rw [Span.breaksLine_eq hslice]
      simpa using hnewline
  have hcontents : ((language.scan edited.toList).filterMap fun lexeme =>
        classifier.content? lexeme.category lexeme.text) =
      (language.scan text.toList).filterMap fun lexeme =>
        classifier.content? lexeme.category lexeme.text := by
    have hnone : classifier.content? lexeme.category lexeme.text = none := by rw [hcomment]; rfl
    rw [← classifier.contents_filter, hedited, classifier.contents_filter, hscan]
    simp [List.filterMap_append, hnone]
  obtain ⟨tokens, uncommented, htokens, huncommented, hsame⟩ :=
    Language.normalize_congr hcontents sourceName
  have hkinds := Token.kinds_congr hsame
  refine ⟨edited, ?_, tokens, uncommented, htokens, huncommented, hsame,
    Token.canonicalText_congr hkinds, Fingerprint.ofTokens_congr hkinds sourceName⟩
  rw [hover.replace?_eq]
  simp [edited]

/-- A comment inside a line, in front of a `#` that begins no directive with or without it. -/
theorem Language.uncomment_invariant_hash :
    Language.cpp.spans "a /*b\n*/ #c" = [⟨0, 1, .name .plain⟩, ⟨1, 2, .text⟩] ++
      ⟨2, 8, .comment .multiline⟩ :: [⟨8, 9, .text⟩, ⟨9, 10, .error⟩, ⟨10, 11, .name .plain⟩] ∧
    ∃ edited, (Span.mk 2 8 (.comment .multiline)).replace? "a /*b\n*/ #c" "" = some edited ∧
      ∃ tokens uncommented,
        Token.normalize Language.cpp.lexer "a /*b\n*/ #c" "a.h" ⟨[]⟩ = .ok tokens ∧
        Token.normalize Language.cpp.lexer edited "a.h" ⟨[]⟩ = .ok uncommented ∧
        uncommented.map Token.content = tokens.map Token.content ∧
        Token.canonicalText uncommented = Token.canonicalText tokens ∧
        ∀ version, Fingerprint.ofTokens "a.h" uncommented version =
          Fingerprint.ofTokens "a.h" tokens version := by
  have hspans : Language.cpp.spans "a /*b\n*/ #c" = [⟨0, 1, .name .plain⟩, ⟨1, 2, .text⟩] ++
      ⟨2, 8, .comment .multiline⟩ :: [⟨8, 9, .text⟩, ⟨9, 10, .error⟩, ⟨10, 11, .name .plain⟩] := by
    decide +kernel
  refine ⟨hspans, Language.uncomment_invariant .cpp "a /*b\n*/ #c" "a.h" ⟨[]⟩ hspans rfl ?_ ?_ ?_⟩
  · rintro before ⟨⟩
    decide +kernel
  · rintro behind ⟨⟩
    decide +kernel
  · intro _ hopens
    exact absurd hopens (by decide +kernel)

/-- Without the comment in front of it the `#` begins a directive, and all of its line is left out. -/
theorem Language.uncomment_opens_directive :
    Language.c.spans "/* c */ #define A 1" = [] ++ ⟨0, 7, .comment .multiline⟩ ::
      [⟨7, 8, .text⟩, ⟨8, 9, .error⟩, ⟨9, 15, .name .plain⟩, ⟨15, 16, .text⟩,
        ⟨16, 17, .name .plain⟩, ⟨17, 18, .text⟩, ⟨18, 19, .number .integer⟩] ∧
    (Span.mk 7 8 .text).isBlank "/* c */ #define A 1" = true ∧
    (Span.mk 0 7 (.comment .multiline)).replace? "/* c */ #define A 1" "" = some " #define A 1" ∧
    (Token.normalize Language.c.lexer "/* c */ #define A 1" "a.c" ⟨[]⟩).map Token.canonicalText =
      .ok "$$$" ∧
    (Token.normalize Language.c.lexer " #define A 1" "a.c" ⟨[]⟩).map Token.canonicalText =
      .ok "" := by
  decide +kernel

end SourcePrint
