import SourcePrint.Proofs.Comments
import SourcePrint.Proofs.Shapes
import SourcePrint.Proofs.SlackScan

namespace SourcePrint

namespace Lexeme

variable {language : Language}

/-- A `#` begins a directive at the start of a line, and elsewhere it fits nowhere. -/
theorem readNext_hash (language : Language) (context : Context) (cs : List Char) :
    readNext language context ('#' :: cs) =
      if language ≠ .java ∧ context.lineStart = true then
        .one (.comment .directive) ('#' :: (Run.read directiveMove false cs).taken)
          (Run.read directiveMove false cs).rest
      else .one .error ['#'] cs := by
  have hblank : Text.isBlank '#' = false := by decide
  have hnumber : startsNumber '#' cs = false := by simp [startsNumber]
  have hname : isNameStart '#' = false := by decide
  have hsign : readSign '#' cs = .one .error ['#'] cs := by
    rw [readSign, longestMatch?_eq_none (by decide +kernel),
      longestMatch?_eq_none (by decide +kernel)]
  simp [readNext, hblank, readToken, hnumber, hname, hsign, and_comm]

theorem Shaped.not_string {lexeme : Lexeme} {behind : List Char} {c : Char}
    (h : Shaped language lexeme behind) (hfirst : lexeme.text.head? = some c)
    (hc : ['\\', '\'', 'L', 'u', 'U'].contains c = false)
    (hplain : lexeme.category ≠ .string .plain) (kind : StringKind) :
    lexeme.category ≠ .string kind := by
  intro hkind
  rw [Shaped, hkind] at h
  cases kind with
  | plain => exact hplain hkind
  | escape =>
    have hback : lexeme.text.head? = some '\\' := by
      rcases h with ⟨htext, -⟩ | ⟨digits, htext, -⟩ | ⟨digits, htext, -⟩ | ⟨d, htext, -⟩ <;>
        rw [htext] <;> rfl
    obtain rfl := Option.some.inj (hback.symm.trans hfirst)
    cases hc
  | character =>
    obtain ⟨encoding, body, htext, hencoding, -⟩ := h
    rw [htext] at hfirst
    rcases hencoding with rfl | ⟨-, hmem⟩
    · obtain rfl := Option.some.inj hfirst
      cases hc
    · simp only [encodingWords, List.mem_cons, List.not_mem_nil, or_false] at hmem
      rcases hmem with rfl | rfl | rfl | rfl <;>
        obtain rfl := Option.some.inj hfirst <;> cases hc
  | _ => exact h

theorem hash_of_lexemes_eq {cs : List Char} {before after : List Lexeme} {lexeme : Lexeme}
    (h : lexemes language .start cs = before ++ lexeme :: after)
    (hhash : lexeme.text.head? = some '#') (hplain : lexeme.category ≠ .string .plain) :
    if language ≠ .java ∧ opensLine before = true then lexeme.category = .comment .directive
    else lexeme = ⟨.error, ['#']⟩ := by
  have hstring := (shaped_of_lexemes_eq h).not_string hhash (by decide) hplain
  obtain ⟨here, rest, htracks, hsingle⟩ := exists_tracked hstring h
  obtain ⟨text, htext⟩ := List.head?_eq_some_iff.mp hhash
  rw [htext, List.cons_append, readNext_hash, htracks.lineStart] at hsingle
  by_cases hopens : language ≠ .java ∧ opensLine before = true
  · rw [if_pos hopens] at hsingle ⊢
    rw [← List.singleton_inj.mp hsingle]
  · rw [if_neg hopens] at hsingle ⊢
    exact (List.singleton_inj.mp hsingle).symm

/-- The category of a word, from the word and from what is in front of it. -/
theorem word_of_lexemes_eq {cs : List Char} {before after : List Lexeme} {lexeme : Lexeme}
    (h : lexemes language .start cs = before ++ lexeme :: after) (hword : lexeme.isWord = true) :
    lexeme.category = wordCategory language (endsInDot before) lexeme.text := by
  obtain ⟨hcategory, hname⟩ := Bool.and_eq_true_iff.mp hword
  have hstring : ∀ kind, lexeme.category ≠ .string kind := by
    intro kind hkind
    rw [hkind] at hcategory
    cases hcategory
  obtain ⟨here, rest, htracks, hsingle⟩ := exists_tracked hstring h
  obtain ⟨c, text, htext⟩ : ∃ c text, lexeme.text = c :: text :=
    List.exists_cons_of_ne_nil fun hnil => by simp [hnil, isName] at hname
  have hstart : isNameStart c = true := by
    rw [htext] at hname
    exact (Bool.and_eq_true_iff.mp hname).1
  rw [htext, List.cons_append, readNext_of_isNameStart hstart, readWord_eq rfl rfl] at hsingle
  rcases wordReading_cases language here.afterDot _ _ with hplain | hquoted
  · rw [hplain] at hsingle
    rw [← List.singleton_inj.mp hsingle, htracks.afterDot]
  · obtain ⟨kind, hkind⟩ := hquoted lexeme (by rw [hsingle]; simp)
    exact absurd hkind (hstring kind)

theorem Shaped.category_of_dot {lexeme : Lexeme} {behind : List Char}
    (h : Shaped language lexeme behind) (hdot : lexeme.text = ['.']) :
    lexeme.category = .punctuation ∨ lexeme.category = .string .plain := by
  by_cases hplain : lexeme.category = .string .plain
  · exact .inr hplain
  have hstring := h.not_string (by rw [hdot]; rfl) (by decide) hplain
  obtain ⟨category, text⟩ := lexeme
  obtain rfl : text = ['.'] := hdot
  have hword : ¬ Word language ⟨category, ['.']⟩ behind := by
    intro hword
    have hname : isName ['.'] = true := hword.name
    exact absurd hname (by decide)
  have hmarked : ∀ name, ¬ Annotation language name ['.'] behind := by
    intro name hmarked
    simpa using hmarked.text
  cases category with
  | punctuation => exact .inl rfl
  | string kind => exact absurd rfl (hstring kind)
  | text =>
    rcases h with ⟨-, hrun⟩ | ⟨htext, -⟩
    · exact absurd (hrun.all '.' (by simp)) (by decide)
    · simp at htext
  | comment kind =>
    cases kind with
    | single => exact absurd h.opening (by decide)
    | multiline =>
      obtain ⟨body, htext, -⟩ := h
      simp at htext
    | directive => exact absurd h.opening (by decide)
    | _ => exact h.elim
  | number kind =>
    rcases h.opening with hdigit | ⟨d, more, htext, -⟩
    · have hdigit : Char.isDigit '.' = true := hdigit
      exact absurd hdigit (by decide)
    · simp at htext
  | keyword kind =>
    cases kind with
    | declaration => exact (h.elim hword (hmarked _)).elim
    | _ => exact absurd h hword
  | wordOperator => exact absurd h hword
  | name kind =>
    cases kind with
    | plain => exact absurd h hword
    | decorator =>
      obtain ⟨name, hname, -⟩ := h
      exact absurd hname (hmarked name)
    | _ => exact h.elim
  | operator => exact absurd h.1.mem (by decide)
  | error =>
    obtain ⟨c, htext, -, -, hnone⟩ := h
    obtain rfl := List.singleton_inj.mp htext
    exact absurd ⟨behind, rfl⟩ (hnone "." (by decide))
  | _ => exact h.elim

end Lexeme

/-- The last span that is not trivia shows the last lexeme that is not. -/
theorem Span.last_content {text : String} {front : List Span} {before : List Lexeme}
    (h : front.map (fun span => (span.category, span.text? text)) =
      before.map fun lexeme => (lexeme.category, some (String.ofList lexeme.text))) :
    (front.filter (!·.category.isTrivia)).getLast?.map
        (fun span => (span.category, span.text? text)) =
      (before.filter (!·.category.isTrivia)).getLast?.map
        fun lexeme => (lexeme.category, some (String.ofList lexeme.text)) := by
  have hkept := congrArg (List.filter fun slice => !slice.1.isTrivia) h
  rw [List.filter_map, List.filter_map] at hkept
  rw [← List.getLast?_map, ← List.getLast?_map]
  exact congrArg List.getLast? hkept

/-- A dot behind which only trivia follows, seen in the spans: a mark of its own or a stretch of a
string literal. -/
theorem Span.endsInDot_iff {language : Language} {text : String} {front : List Span}
    {before after : List Lexeme}
    (hlexemes : Lexeme.lexemes language .start text.toList = before ++ after)
    (hfront : front.map (fun span => (span.category, span.text? text)) =
      before.map fun lexeme => (lexeme.category, some (String.ofList lexeme.text))) :
    Lexeme.endsInDot before = true ↔
      ∃ dot ∈ (front.filter (!·.category.isTrivia)).getLast?, dot.text? text = some "." ∧
        (dot.category = .punctuation ∨ dot.category = .string .plain) := by
  have hlast := Span.last_content hfront
  rw [Lexeme.endsInDot, Option.any_eq_true]
  constructor
  · rintro ⟨lexeme, hlexeme, hdot⟩
    rw [hlexeme] at hlast
    obtain ⟨dot, hmem, hslice⟩ := Option.map_eq_some_iff.mp hlast
    obtain ⟨hcategory, htext⟩ := Prod.mk.inj hslice
    have hdot : lexeme.text = ['.'] := by simpa using hdot
    refine ⟨dot, hmem, by rw [htext, hdot], ?_⟩
    have hbefore : lexeme ∈ before := List.mem_of_mem_filter (List.mem_of_getLast? hlexeme)
    obtain ⟨first, more, rfl⟩ := List.append_of_mem hbefore
    rw [List.append_assoc, List.cons_append] at hlexemes
    rw [hcategory]
    exact (Lexeme.shaped_of_lexemes_eq hlexemes).category_of_dot hdot
  · rintro ⟨dot, hmem, htext, -⟩
    rw [Option.mem_def.mp hmem] at hlast
    obtain ⟨lexeme, hlexeme, hslice⟩ := Option.map_eq_some_iff.mp hlast.symm
    refine ⟨lexeme, hlexeme, ?_⟩
    have hsame := Option.some.inj ((Prod.mk.inj hslice).2.trans htext)
    rw [← String.toList_ofList (l := lexeme.text), hsame]
    rfl

namespace Language

variable {text : String} {front back : List Span} {span : Span}

/-- A span that begins with a `#` and is no stretch of a string literal is a directive where one may
begin, and else the `#` alone is an error. -/
theorem directive_iff {language : Language} {slice : String}
    (hspans : language.spans text = front ++ span :: back) (hslice : span.text? text = some slice)
    (hhash : slice.toList.head? = some '#') (hplain : span.category ≠ .string .plain) :
    (span.category = .comment .directive ↔
      language ≠ .java ∧ Span.opensLine text front = true) ∧
    (¬ (language ≠ .java ∧ Span.opensLine text front = true) →
      span.category = .error ∧ span.text? text = some "#") := by
  obtain ⟨before, lexeme, after, hscan, hcategories, hcategory, hover⟩ := exists_lexeme hspans
  have hlength : front.length = before.length := by simpa using congrArg List.length hcategories
  have hfront := (slices_around hspans hscan hlength).1
  have hlexemes := (language.scan_eq text.toList).symm.trans hscan
  rw [hover.text?_eq] at hslice ⊢
  obtain rfl := Option.some.inj hslice
  rw [String.toList_ofList] at hhash
  rw [hcategory] at hplain ⊢
  rw [Span.opensLine_eq hfront]
  have hcases := Lexeme.hash_of_lexemes_eq hlexemes hhash hplain
  by_cases hopens : language ≠ .java ∧ Lexeme.opensLine before = true
  · rw [if_pos hopens] at hcases
    exact ⟨⟨fun _ => hopens, fun _ => hcases⟩, fun hnot => absurd hopens hnot⟩
  · rw [if_neg hopens] at hcases
    rw [hcases]
    refine ⟨⟨?_, fun hopen => absurd hopen hopens⟩, fun _ => ⟨rfl, rfl⟩⟩
    intro hdirective
    cases hdirective

/-- A comment over two lines begins no line, and blanks with a newline do. -/
theorem directive_iff_behind_comment :
    Language.cpp.spans "/*\n*/#a\n #b" =
      [⟨0, 5, .comment .multiline⟩] ++ ⟨5, 6, .error⟩ ::
        [⟨6, 7, .name .plain⟩, ⟨7, 9, .text⟩, ⟨9, 11, .comment .directive⟩] ∧
    (Category.error = .comment .directive ↔
      Language.cpp ≠ .java ∧
        Span.opensLine "/*\n*/#a\n #b" [⟨0, 5, .comment .multiline⟩] = true) ∧
    (Category.comment .directive = .comment .directive ↔
      Language.cpp ≠ .java ∧
        Span.opensLine "/*\n*/#a\n #b" [⟨0, 5, .comment .multiline⟩, ⟨5, 6, .error⟩,
          ⟨6, 7, .name .plain⟩, ⟨7, 9, .text⟩] = true) := by
  have hspans : Language.cpp.spans "/*\n*/#a\n #b" =
      [⟨0, 5, .comment .multiline⟩] ++ ⟨5, 6, .error⟩ ::
        [⟨6, 7, .name .plain⟩, ⟨7, 9, .text⟩, ⟨9, 11, .comment .directive⟩] := by
    decide +kernel
  have hspans' : Language.cpp.spans "/*\n*/#a\n #b" =
      [⟨0, 5, .comment .multiline⟩, ⟨5, 6, .error⟩, ⟨6, 7, .name .plain⟩, ⟨7, 9, .text⟩] ++
        ⟨9, 11, .comment .directive⟩ :: [] := hspans
  have hslice : Span.text? ⟨5, 6, .error⟩ "/*\n*/#a\n #b" = some "#" := by decide +kernel
  have hslice' : Span.text? ⟨9, 11, .comment .directive⟩ "/*\n*/#a\n #b" = some "#b" := by
    decide +kernel
  refine ⟨hspans, ?_, ?_⟩
  · exact (directive_iff hspans hslice (by decide) (by decide)).1
  · exact (directive_iff hspans' hslice' (by decide) (by decide)).1

/-- In Java the word `class` names a class object behind a single dot, and else it declares a class.
The dot need not be a mark: a stretch of a string literal that reads as one does as well. -/
theorem class_iff (hspans : Language.java.spans text = front ++ span :: back)
    (hword : span.isWord text = true) (hclass : span.text? text = some "class") :
    (span.category = .keyword .pseudo ↔
      ∃ dot ∈ (front.filter (!·.category.isTrivia)).getLast?, dot.text? text = some "." ∧
        (dot.category = .punctuation ∨ dot.category = .string .plain)) ∧
    (span.category ≠ .keyword .pseudo → span.category = .keyword .declaration) := by
  obtain ⟨before, lexeme, after, hscan, hcategories, hcategory, hover⟩ := exists_lexeme hspans
  have hlength : front.length = before.length := by simpa using congrArg List.length hcategories
  have hlexemes := (Language.java.scan_eq text.toList).symm.trans hscan
  rw [Span.isWord_eq (by rw [hcategory, hover.text?_eq])] at hword
  have htext : lexeme.text = ['c', 'l', 'a', 's', 's'] := by
    have hsame := Option.some.inj (hover.text?_eq.symm.trans hclass)
    rw [← String.toList_ofList (l := lexeme.text), hsame]
    rfl
  have hkinds : ∀ afterDot, Lexeme.wordCategory .java afterDot ['c', 'l', 'a', 's', 's'] =
      if afterDot = true then .keyword .pseudo else .keyword .declaration := by
    decide +kernel
  rw [← Span.endsInDot_iff hlexemes (slices_around hspans hscan hlength).1, hcategory,
    Lexeme.word_of_lexemes_eq hlexemes hword, htext, hkinds]
  cases Lexeme.endsInDot before with
  | true => simp
  | false => simp

/-- Between the dot and the word stands a comment with a dot of its own. -/
theorem class_iff_behind_comment :
    Language.java.spans "A./*.*/class" =
      [⟨0, 1, .name .plain⟩, ⟨1, 2, .punctuation⟩, ⟨2, 7, .comment .multiline⟩] ++
        ⟨7, 12, .keyword .pseudo⟩ :: [] ∧
    (Category.keyword .pseudo = .keyword .pseudo ↔
      ∃ dot ∈ ([⟨0, 1, .name .plain⟩, ⟨1, 2, .punctuation⟩, ⟨2, 7, .comment .multiline⟩].filter
          fun span : Span => !span.category.isTrivia).getLast?,
        dot.text? "A./*.*/class" = some "." ∧
          (dot.category = .punctuation ∨ dot.category = .string .plain)) := by
  have hspans : Language.java.spans "A./*.*/class" =
      [⟨0, 1, .name .plain⟩, ⟨1, 2, .punctuation⟩, ⟨2, 7, .comment .multiline⟩] ++
        ⟨7, 12, .keyword .pseudo⟩ :: [] := by
    decide +kernel
  exact ⟨hspans, (class_iff hspans (by decide +kernel) (by decide +kernel)).1⟩

/-- A string literal that a newline ends right behind a single dot makes a class object of the next
declaration, and no mark stands in front of it. -/
theorem class_behind_literal :
    Language.java.spans "\"\\n.\nclass" =
      [⟨0, 1, .string .plain⟩, ⟨1, 3, .string .escape⟩, ⟨3, 4, .string .plain⟩, ⟨4, 5, .text⟩] ++
        ⟨5, 10, .keyword .pseudo⟩ :: [] ∧
    Span.text? ⟨5, 10, .keyword .pseudo⟩ "\"\\n.\nclass" = some "class" ∧
    ∀ dot ∈ Language.java.spans "\"\\n.\nclass", dot.category ≠ .punctuation := by
  decide +kernel

end Language

end SourcePrint
