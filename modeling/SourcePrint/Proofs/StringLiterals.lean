import SourcePrint.Proofs.Shapes
import SourcePrint.Proofs.TokenStream

namespace SourcePrint

namespace Lexeme

/-- The character behind `front` is escaped: right in front of it stands a backslash that is not
escaped itself. -/
def isEscaped (front : List Char) : Bool :=
  front.foldl (fun escaped c => !escaped && c == '\\') false

/-- Every quote and every newline in `inside` is escaped, so that none of them ends a literal. -/
def Unended (inside : List Char) : Prop :=
  ∀ front c back, inside = front ++ c :: back → c = '"' ∨ c = '\n' → isEscaped front = true

instance (inside : List Char) : Decidable (Unended inside) :=
  decidable_of_iff
    (∀ i < inside.length, inside[i]? = some '"' ∨ inside[i]? = some '\n' →
      isEscaped (inside.take i) = true) <| by
    constructor
    · intro h front c back hinside hc
      have hfront := h front.length (by simp [hinside]) (by simpa [hinside] using hc)
      simpa [hinside] using hfront
    · intro h i hlt hc
      apply h _ inside[i] (inside.drop (i + 1))
      · simp
      · simpa [List.getElem?_eq_getElem hlt] using hc

/-- Where a string literal ends of which the opening has been read, what follows the opening being
`tail`: just behind the first quote that is not escaped, just in front of the first newline that is
not escaped, or with the text, whichever comes first. -/
inductive StringEnd : (tail body rest : List Char) → Prop where
  | closed {inside rest : List Char} (unended : Unended inside)
      (unescaped : isEscaped inside = false) :
      StringEnd (inside ++ '"' :: rest) (inside ++ ['"']) rest
  | broken {inside rest : List Char} (unended : Unended inside)
      (unescaped : isEscaped inside = false) :
      StringEnd (inside ++ '\n' :: rest) inside ('\n' :: rest)
  | exhausted {inside : List Char} (unended : Unended inside) : StringEnd inside inside []

theorem isEscaped_append {a : List Char} (h : isEscaped a = false) (b : List Char) :
    isEscaped (a ++ b) = isEscaped b := by
  unfold isEscaped at *
  rw [List.foldl_append, h]

theorem isEscaped_of_plain {cs : List Char} (h : ∀ c ∈ cs, isPlain '"' c = true) :
    isEscaped cs = false := by
  induction cs with
  | nil => rfl
  | cons c cs ih =>
    have hback := (ne_of_isPlain (h c (by simp))).1
    have hfirst : isEscaped [c] = false := by simp [isEscaped, hback]
    have hrest := ih fun d hd => h d (List.mem_cons_of_mem c hd)
    exact (isEscaped_append hfirst cs).trans hrest

theorem unended_append {a b : List Char} (ha : Unended a) (hescaped : isEscaped a = false)
    (hb : Unended b) : Unended (a ++ b) := by
  intro front c back h hc
  rcases List.append_eq_append_iff.mp h with ⟨more, rfl, hmore⟩ | ⟨more, rfl, hmore⟩
  · rw [isEscaped_append hescaped]
    exact hb more c back hmore hc
  · cases more with
    | nil =>
      have hfirst := hb [] c back hmore.symm hc
      cases hfirst
    | cons d more =>
      obtain ⟨rfl, -⟩ := List.cons.inj hmore
      exact ha front c more rfl hc

theorem unended_of_plain {cs : List Char} (h : ∀ c ∈ cs, isPlain '"' c = true) : Unended cs := by
  intro front c back hcs hc
  have hplain := ne_of_isPlain (h c (by simp [hcs]))
  rcases hc with hc | hc
  · exact absurd hc hplain.2.2
  · exact absurd hc hplain.2.1

theorem Unended.length_le {a b back rest : List Char} {c : Char} (ha : Unended a)
    (h : a ++ back = b ++ c :: rest) (hc : c = '"' ∨ c = '\n') (hescaped : isEscaped b = false) :
    a.length ≤ b.length := by
  rcases List.append_eq_append_iff.mp h with ⟨more, rfl, -⟩ | ⟨more, rfl, hmore⟩
  · simp
  · cases more with
    | nil => simp
    | cons d more =>
      obtain ⟨rfl, -⟩ := List.cons.inj hmore
      rw [ha b c more rfl hc] at hescaped
      cases hescaped

theorem Unended.unique {a b rest rest' : List Char} {c d : Char} (ha : Unended a) (hb : Unended b)
    (hescaped : isEscaped a = false) (hescaped' : isEscaped b = false) (hc : c = '"' ∨ c = '\n')
    (hd : d = '"' ∨ d = '\n') (h : a ++ c :: rest = b ++ d :: rest') :
    a = b ∧ c = d ∧ rest = rest' := by
  have hlength : a.length = b.length :=
    Nat.le_antisymm (ha.length_le h hd hescaped') (hb.length_le h.symm hc hescaped)
  obtain ⟨rfl, hrest⟩ := List.append_inj h hlength
  exact ⟨rfl, List.cons.inj hrest⟩

theorem Unended.not_unescaped {a rest : List Char} {c : Char} (h : Unended (a ++ c :: rest))
    (hc : c = '"' ∨ c = '\n') : isEscaped a ≠ false := by
  rw [h a c rest rfl hc]
  simp

theorem StringEnd.unique {tail body rest body' rest' : List Char} (h : StringEnd tail body rest)
    (h' : StringEnd tail body' rest') : body = body' ∧ rest = rest' := by
  generalize htail : tail = tail' at h'
  cases h with
  | closed hinside hescaped =>
    cases h' with
    | closed hinside' hescaped' =>
      obtain ⟨rfl, -, rfl⟩ :=
        hinside.unique hinside' hescaped hescaped' (.inl rfl) (.inl rfl) htail
      exact ⟨rfl, rfl⟩
    | broken hinside' hescaped' =>
      obtain ⟨-, hsame, -⟩ :=
        hinside.unique hinside' hescaped hescaped' (.inl rfl) (.inr rfl) htail
      simp at hsame
    | exhausted hinside' =>
      subst htail
      exact absurd hescaped (hinside'.not_unescaped (.inl rfl))
  | broken hinside hescaped =>
    cases h' with
    | closed hinside' hescaped' =>
      obtain ⟨-, hsame, -⟩ :=
        hinside.unique hinside' hescaped hescaped' (.inr rfl) (.inl rfl) htail
      simp at hsame
    | broken hinside' hescaped' =>
      obtain ⟨rfl, -, rfl⟩ :=
        hinside.unique hinside' hescaped hescaped' (.inr rfl) (.inr rfl) htail
      exact ⟨rfl, rfl⟩
    | exhausted hinside' =>
      subst htail
      exact absurd hescaped (hinside'.not_unescaped (.inr rfl))
  | exhausted hinside =>
    cases h' with
    | closed hinside' hescaped' =>
      subst htail
      exact absurd hescaped' (hinside.not_unescaped (.inl rfl))
    | broken hinside' hescaped' =>
      subst htail
      exact absurd hescaped' (hinside.not_unescaped (.inr rfl))
    | exhausted hinside' => exact ⟨htail, rfl⟩

theorem StringEnd.append {a tail body rest : List Char} (ha : Unended a)
    (hescaped : isEscaped a = false) (h : StringEnd tail body rest) :
    StringEnd (a ++ tail) (a ++ body) rest := by
  cases h with
  | closed unended unescaped =>
    rw [← List.append_assoc, ← List.append_assoc]
    apply closed
    · exact unended_append ha hescaped unended
    · rw [isEscaped_append hescaped, unescaped]
  | broken unended unescaped =>
    rw [← List.append_assoc]
    apply broken
    · exact unended_append ha hescaped unended
    · rw [isEscaped_append hescaped, unescaped]
  | exhausted unended => exact exhausted (unended_append ha hescaped unended)

theorem unended_backslash {taken : List Char} (h : taken.length ≤ 1) : Unended ('\\' :: taken) := by
  intro front c back hsplit hc
  cases front with
  | nil =>
    obtain ⟨rfl, -⟩ := List.cons.inj hsplit
    simp at hc
  | cons d front =>
    rw [List.cons_append] at hsplit
    obtain ⟨rfl, rfl⟩ := List.cons.inj hsplit
    obtain rfl : front = [] := by
      simp only [List.length_append, List.length_cons] at h
      exact List.length_eq_zero_iff.mp (by omega)
    rfl

/-- A backslash takes exactly one character with it, and the digits behind that one could not have
ended the literal. -/
theorem unended_escape (c : Char) (cs : List Char) :
    Unended ('\\' :: (escapeTail (c :: cs)).1) ∧
      isEscaped ('\\' :: (escapeTail (c :: cs)).1) = false := by
  obtain ⟨digits, hdigits, hhex⟩ := escapeTail_digits c cs
  have hplain : ∀ d ∈ digits, isPlain '"' d = true := fun d hd => isPlain_of_isHexDigit (hhex d hd)
  have hpair : isEscaped ['\\', c] = false := by simp [isEscaped]
  have hunended : Unended ['\\', c] := unended_backslash (Nat.le_refl 1)
  rw [hdigits]
  constructor
  · exact unended_append hunended hpair (unended_of_plain hplain)
  · exact (isEscaped_append hpair digits).trans (isEscaped_of_plain hplain)

theorem StringEnd.escape {after body rest : List Char}
    (h : StringEnd (escapeTail after).2 body rest) :
    StringEnd ('\\' :: (escapeTail after).1 ++ (escapeTail after).2)
      ('\\' :: (escapeTail after).1 ++ body) rest := by
  cases after with
  | nil =>
    have hnothing : StringEnd [] [] [] := exhausted (unended_of_plain (by simp))
    obtain ⟨rfl, rfl⟩ := h.unique hnothing
    apply exhausted
    exact unended_backslash (Nat.zero_le 1)
  | cons c cs =>
    obtain ⟨hunended, hescaped⟩ := unended_escape c cs
    exact h.append hunended hescaped

theorem plain_read (cs : List Char) :
    Run.Ended stringMove (fun taken _ => ∀ c ∈ taken, isPlain '"' c = true)
      (Run.read stringMove () cs) := by
  apply Run.ended_read
  · intro taken state c next htaken hmove d hd
    rcases List.mem_append.mp hd with hd | hd
    · exact htaken d hd
    · rw [List.mem_singleton.mp hd]
      unfold stringMove at hmove
      split at hmove
      · cases hmove
      · rename_i hquote
        split at hmove
        · cases hmove
        · rename_i hstop
          simp [isPlain, hquote, not_or.mp hstop]
  · simp

/-- The parts of a string literal reach from its opening to where it ends. -/
theorem stringEnd_stringParts (opening cs : List Char) :
    ∃ body, textOf (stringParts opening cs).lexemes = opening ++ body ∧
      StringEnd cs body (stringParts opening cs).rest := by
  have hended := plain_read cs
  have hcs := Run.read_append stringMove () cs
  generalize hrun : Run.read stringMove () cs = run at hended hcs
  cases hended with
  | @exhausted taken _ hplain =>
    rw [stringParts_of_stop hrun (by simp), textOf_stretch, ← hcs, List.append_nil]
    exact ⟨taken, rfl, .exhausted (unended_of_plain hplain)⟩
  | @closed taken rest state c hplain close =>
    obtain rfl : c = '"' := by
      unfold stringMove at close
      split at close
      · assumption
      · split at close <;> cases close
    rw [stringParts_of_closed hrun, textOf_stretch, ← hcs, List.append_assoc]
    exact ⟨_, rfl, .closed (unended_of_plain hplain) (isEscaped_of_plain hplain)⟩
  | @stopped taken rest state c hplain stop =>
    rcases (stringMove_eq_stop state c).mp stop with rfl | rfl
    · rw [stringParts_of_stop hrun (by simp), textOf_stretch, ← hcs]
      exact ⟨taken, rfl, .broken (unended_of_plain hplain) (isEscaped_of_plain hplain)⟩
    · have hshorter := length_escaped_lt (congrArg Run.rest hrun)
      obtain ⟨body, hbody, hend⟩ := stringEnd_stringParts [] (escapeTail rest).2
      rw [stringParts_of_escape hrun]
      refine ⟨taken ++ ('\\' :: (escapeTail rest).1 ++ body), ?_, ?_⟩
      · simp [textOf_stretch, hbody]
      · have htail : cs = taken ++ ('\\' :: (escapeTail rest).1 ++ (escapeTail rest).2) := by
          rw [← hcs, List.cons_append, escapeTail_append]
        rw [htail]
        apply StringEnd.append (unended_of_plain hplain) (isEscaped_of_plain hplain)
        exact hend.escape
termination_by cs.length

/-- Where a scan comes to the opening of a string literal, it reads the literal to its end. -/
theorem Reads.string {language : Language} {start context : Context} {cs tail : List Char}
    {before : List Lexeme} {quotes : Quotes}
    (h : Reads language start cs before context (quotes.opening ++ tail))
    (hquote : quotes.quote = '"') (hencoding : quotes.encoding = [] ∨ language ≠ .java) :
    ∃ parts after body, lexemes language start cs = before ++ (parts ++ after) ∧
      textOf parts = quotes.opening ++ body ∧ StringEnd tail body (textOf after) ∧
      ∀ part ∈ parts, part.category = .string .plain ∨ part.category = .string .escape := by
  have hread : readNext language context (quotes.opening ++ tail) =
      stringParts quotes.opening tail := by
    rw [quotes.readNext_opening hencoding, Quotes.read, if_pos hquote]
  obtain ⟨body, hbody, hend⟩ := stringEnd_stringParts quotes.opening tail
  refine ⟨_, lexemes language (context.next language (quotes.opening ++ tail))
    (stringParts quotes.opening tail).rest, body, ?_, hbody, ?_,
    category_of_mem_stringParts quotes.opening tail⟩
  · rw [h.lexemes_eq, lexemes_eq_readNext, hread]
  · rwa [textOf_lexemes]

end Lexeme

namespace Span

def isWithin (start stop : Nat) (span : Span) : Bool := start ≤ span.start && span.stop ≤ stop

namespace Tiles

variable {start stop : Nat} {spans : List Span}

theorem bounds (h : Tiles start stop spans) :
    start ≤ stop ∧
      ∀ span ∈ spans, start ≤ span.start ∧ span.start < span.stop ∧ span.stop ≤ stop := by
  induction h with
  | nil offset => simp
  | @cons span spans stop nonempty tail ih =>
    obtain ⟨hle, hspans⟩ := ih
    refine ⟨Nat.le_trans (Nat.le_of_lt nonempty) hle, ?_⟩
    intro next hnext
    rcases List.mem_cons.mp hnext with rfl | hnext
    · exact ⟨Nat.le_refl _, nonempty, hle⟩
    · obtain ⟨hstart, hrest⟩ := hspans next hnext
      exact ⟨Nat.le_trans (Nat.le_of_lt nonempty) hstart, hrest⟩

theorem filter_inside (h : Tiles start stop spans) :
    spans.filter (isWithin start stop) = spans := by
  rw [List.filter_eq_self]
  intro span hspan
  obtain ⟨hstart, -, hstop⟩ := h.bounds.2 span hspan
  simp [isWithin, hstart, hstop]

theorem filter_outside (h : Tiles start stop spans) {first last : Nat}
    (hapart : stop ≤ first ∨ last ≤ start) : spans.filter (isWithin first last) = [] := by
  rw [List.filter_eq_nil_iff]
  intro span hspan
  obtain ⟨hstart, hnonempty, hstop⟩ := h.bounds.2 span hspan
  simp only [isWithin, Bool.and_eq_true, decide_eq_true_eq]
  omega

theorem filter_regions {first last : Nat} {front back : List Span} (hfront : Tiles first start front)
    (h : Tiles start stop spans) (hback : Tiles stop last back) :
    (front ++ (spans ++ back)).filter (isWithin first start) = front ∧
      (front ++ (spans ++ back)).filter (isWithin start stop) = spans ∧
      (front ++ (spans ++ back)).filter (isWithin stop last) = back := by
  have hle := h.bounds.1
  simp only [List.filter_append]
  refine ⟨?_, ?_, ?_⟩
  · rw [hfront.filter_inside, h.filter_outside (.inr (Nat.le_refl _)),
      hback.filter_outside (.inr hle)]
    simp
  · rw [hfront.filter_outside (.inl (Nat.le_refl _)), h.filter_inside,
      hback.filter_outside (.inr (Nat.le_refl _))]
    simp
  · rw [hfront.filter_outside (.inl hle), h.filter_outside (.inl (Nat.le_refl _)),
      hback.filter_inside]
    simp

end Tiles

end Span

/-- The spans of a text in one region of it. -/
def Language.spansWithin (language : Language) (text : String) (start stop : Nat) : List Span :=
  (language.spans text).filter (Span.isWithin start stop)

/-- A run of literals between slices that are none is one group. -/
theorem KeptSlice.groups_run {front run back : List KeptSlice} (hne : run ≠ [])
    (hrun : ∀ slice ∈ run, slice.symbol = .literal)
    (hfront : ∀ slice ∈ front.getLast?, slice.symbol ≠ .literal)
    (hback : ∀ slice ∈ back.head?, slice.symbol ≠ .literal) :
    groups (front ++ (run ++ back)) = groups front ++ run :: groups back := by
  have hchain : run.IsChain fun a b => bothLiteral a b = true := by
    apply List.Pairwise.isChain
    apply List.pairwise_of_forall_mem_list
    intro a ha b hb
    simp [bothLiteral, hrun a ha, hrun b hb]
  unfold groups
  rw [List.splitBy_append, List.splitBy_append, List.splitBy_of_isChain hne hchain]
  · rfl
  · intro a _ b hb
    simp [bothLiteral, hback b hb]
  · intro a ha b _
    simp [bothLiteral, hfront a ha]

/-- The parts of a string literal are kept as literals, which together have its text. -/
theorem Span.kept?_string {text : String} {front back : List Char} {parts : List Lexeme}
    (htext : text.toList = front ++ Lexeme.textOf parts ++ back)
    (hstring : ∀ part ∈ parts, ∃ kind, part.category = .string kind) (classifier : Classifier) :
    ∃ slices, (mapThread place (Text.byteLength front) parts).filterMap (kept? classifier text) =
        slices ∧ (∀ slice ∈ slices, slice.symbol = .literal) ∧
      String.join (slices.map (·.text)) = String.ofList (Lexeme.textOf parts) ∧
      slices.head?.map (·.start) = parts.head?.map fun _ => Text.byteLength front := by
  induction parts generalizing front with
  | nil => exact ⟨[], rfl, by simp, by simp, rfl⟩
  | cons part parts ih =>
    rw [Lexeme.textOf_cons] at htext
    obtain ⟨kind, hkind⟩ := hstring part (by simp)
    have hover : (place (Text.byteLength front) part).1.Over text front part.text
        (Lexeme.textOf parts ++ back) := ⟨by simp [htext], rfl, rfl⟩
    have hfirst : (place (Text.byteLength front) part).1.kept? classifier text =
        some ⟨.literal, String.ofList part.text, Text.byteLength front⟩ := by
      rw [kept?, hover.text?_eq]
      simp [place, hkind, Classifier.classify]
    have hrest : text.toList = (front ++ part.text) ++ Lexeme.textOf parts ++ back := by
      simp [htext]
    obtain ⟨slices, hslices, hliteral, hjoin, -⟩ :=
      ih hrest fun later hlater => hstring later (by simp [hlater])
    rw [Text.byteLength_append] at hslices
    refine ⟨⟨.literal, String.ofList part.text, Text.byteLength front⟩ :: slices, ?_, ?_, ?_, rfl⟩
    · rw [mapThread_cons, List.filterMap_cons, hfirst]
      exact congrArg _ hslices
    · simpa using hliteral
    · rw [List.map_cons, String.join_cons, hjoin, Lexeme.textOf_cons, String.ofList_append]

namespace Token

theorem labels_of_mem_ofLexemes {classifier : Classifier} {sourceName : String} {offset : Nat}
    {position : Position} {lexemes : List Lexeme} :
    ∀ token ∈ ofLexemes classifier sourceName offset position lexemes,
      token.logicalLine = none ∧ token.sourceName = sourceName := by
  induction lexemes generalizing offset position with
  | nil => simp [ofLexemes]
  | cons lexeme lexemes ih =>
    intro token hmem
    rcases List.mem_append.mp hmem with hmem | hmem
    · have hfields := ofPiece?_fields (Option.mem_toList.mp hmem)
      exact ⟨hfields.1, hfields.2.1⟩
    · exact ih token hmem

end Token

namespace Language

variable (language : Language) (text : String)

/-- Under a language's own rules every text has tokens, one for each group of kept slices. -/
theorem exists_standsFor (sourceName : String) (classifier : Classifier) :
    ∃ tokens, Token.normalize language.lexer text sourceName classifier = .ok tokens ∧
      List.Forall₂ (Token.StandsFor sourceName) tokens
        (KeptSlice.groups ((language.spans text).filterMap (Span.kept? classifier text))) := by
  refine ⟨_, language.normalize_eq text sourceName classifier, ?_⟩
  rw [← language.slices_ofLexemes text sourceName classifier]
  exact Token.mergeLiterals_standsFor Token.labels_of_mem_ofLexemes

variable {language text} in
/-- Lexemes in the middle of a scan are the spans within their region, and all other spans are
within the regions in front of it and behind it. -/
theorem spansWithin_of_scan_eq {before parts after : List Lexeme} {start stop : Nat}
    (h : language.scan text.toList = before ++ (parts ++ after))
    (hstart : start = Text.byteLength (Lexeme.textOf before))
    (hstop : stop = start + Text.byteLength (Lexeme.textOf parts)) :
    language.spans text = language.spansWithin text 0 start ++
        (language.spansWithin text start stop ++
          language.spansWithin text stop text.utf8ByteSize) ∧
      language.spansWithin text start stop = mapThread Span.place start parts ∧
      Span.Tiles start stop (language.spansWithin text start stop) := by
  have hlexemes := (language.scan_eq text.toList).symm.trans h
  have hnonempty := Lexeme.nonempty_lexemes language .start text.toList
  rw [hlexemes] at hnonempty
  have hsize : text.utf8ByteSize = stop + Text.byteLength (Lexeme.textOf after) := by
    rw [← Text.byteLength_toList, ← Lexeme.textOf_lexemes language .start text.toList, hlexemes,
      hstop, hstart]
    simp [Nat.add_assoc]
  have hfront : Span.Tiles 0 start (mapThread Span.place 0 before) := by
    rw [hstart, ← Nat.zero_add (Text.byteLength _)]
    exact Span.tiles_place before (fun lexeme hmem => hnonempty lexeme (by simp [hmem])) 0
  have hregion : Span.Tiles start stop (mapThread Span.place start parts) := by
    rw [hstop]
    exact Span.tiles_place parts (fun lexeme hmem => hnonempty lexeme (by simp [hmem])) start
  have hback : Span.Tiles stop text.utf8ByteSize (mapThread Span.place stop after) := by
    rw [hsize]
    exact Span.tiles_place after (fun lexeme hmem => hnonempty lexeme (by simp [hmem])) stop
  have hspans : language.spans text = mapThread Span.place 0 before ++
      (mapThread Span.place start parts ++ mapThread Span.place stop after) := by
    rw [spans, h, Span.layOut, Span.place_append, Span.place_append, Nat.zero_add, ← hstart,
      ← hstop]
  obtain ⟨hbefore, hwithin, hbehind⟩ := hfront.filter_regions hregion hback
  rw [spansWithin, spansWithin, spansWithin, hspans, hbefore, hwithin, hbehind]
  exact ⟨rfl, rfl, hregion⟩

variable {language text} in
/-- The spans of a string literal between slices that are no literals become one token, and what is
in front of them and behind them becomes tokens of its own. -/
theorem exists_literal_token {before parts after : List Lexeme} {start stop : Nat}
    (hscan : language.scan text.toList = before ++ (parts ++ after)) (hne : parts ≠ [])
    (hstring : ∀ part ∈ parts, ∃ kind, part.category = .string kind)
    (hstart : start = Text.byteLength (Lexeme.textOf before))
    (hstop : stop = start + Text.byteLength (Lexeme.textOf parts))
    (sourceName : String) (classifier : Classifier)
    (hfront : ∀ slice ∈ ((language.spansWithin text 0 start).filterMap
      (Span.kept? classifier text)).getLast?, slice.symbol ≠ .literal)
    (hback : ∀ slice ∈ ((language.spansWithin text stop text.utf8ByteSize).filterMap
      (Span.kept? classifier text)).head?, slice.symbol ≠ .literal) :
    ∃ first token last,
      Token.normalize language.lexer text sourceName classifier = .ok (first ++ token :: last) ∧
      token.kind = .literal ∧ token.text = String.ofList (Lexeme.textOf parts) ∧
      token.startOffset = start ∧
      List.Forall₂ (Token.StandsFor sourceName) first (KeptSlice.groups
        ((language.spansWithin text 0 start).filterMap (Span.kept? classifier text))) ∧
      List.Forall₂ (Token.StandsFor sourceName) last (KeptSlice.groups
        ((language.spansWithin text stop text.utf8ByteSize).filterMap
          (Span.kept? classifier text))) := by
  have hcovers : text.toList = Lexeme.textOf before ++ Lexeme.textOf parts ++
      Lexeme.textOf after := by
    rw [← Lexeme.textOf_lexemes language .start text.toList, ← language.scan_eq, hscan]
    simp
  obtain ⟨run, hrun, hliteral, hjoin, hhead⟩ := Span.kept?_string hcovers hstring classifier
  obtain ⟨part, more, rfl⟩ := List.exists_cons_of_ne_nil hne
  have hrunne : run ≠ [] := by
    rintro rfl
    cases hhead
  obtain ⟨hspans, hregion, -⟩ := spansWithin_of_scan_eq hscan hstart hstop
  obtain ⟨tokens, htokens, hgroups⟩ := language.exists_standsFor text sourceName classifier
  rw [← hstart] at hrun hhead
  rw [hspans, List.filterMap_append, List.filterMap_append, hregion, hrun,
    KeptSlice.groups_run hrunne hliteral hfront hback] at hgroups
  have hfirst := List.forall₂_take_append _ _ _ hgroups
  have hrest := List.forall₂_drop_append _ _ _ hgroups
  rw [← List.take_append_drop (KeptSlice.groups ((language.spansWithin text 0 start).filterMap
    (Span.kept? classifier text))).length tokens] at htokens
  generalize tokens.drop _ = rest at hrest htokens
  cases hrest with
  | @cons token _ last _ htoken hlast =>
    refine ⟨_, token, last, htokens, ?_, htoken.text.trans hjoin, ?_, hfirst, hlast⟩
    · obtain ⟨slice, _, rfl, hkind⟩ := htoken.exists_cons
      rw [← hkind]
      exact hliteral slice (by simp)
    · exact Option.some.inj (htoken.startOffset.symm.trans hhead)

/-- Where the backslashes of string literals are: none in a stretch, and one in front of all that an
escape takes. -/
theorem string_shapes {span : Span} (h : span ∈ language.spans text) :
    ∃ lead slice behind, span.Over text lead slice behind ∧
      (span.category = .string .plain → '\\' ∉ slice) ∧
      (span.category = .string .escape → Lexeme.Escape slice behind) := by
  obtain ⟨front, back, hspans⟩ := List.append_of_mem h
  obtain ⟨before, lexeme, after, hscan, -, hcategory, hover⟩ := exists_lexeme hspans
  have hshaped := Lexeme.shaped_of_lexemes_eq ((language.scan_eq text.toList).symm.trans hscan)
  refine ⟨_, _, _, hover, ?_, ?_⟩
  · intro hplain hmem
    rw [Lexeme.Shaped, ← hcategory, hplain] at hshaped
    exact (hshaped.inside _ hmem).1 rfl
  · intro hescape
    rwa [Lexeme.Shaped, ← hcategory, hescape] at hshaped

/-- The extent of a string literal. Whenever a scan comes to the opening of one, its spans from
there up to where the literal ends are stretches and escapes that lie end to end. If the slices kept
next to these are no literals, they become one token with the text of the literal. -/
theorem string_extent :
    (∀ span ∈ language.spans text, ∃ lead slice behind, span.Over text lead slice behind ∧
      (span.category = .string .plain → '\\' ∉ slice) ∧
      (span.category = .string .escape → Lexeme.Escape slice behind)) ∧
    (∀ tail, ∃ body rest, Lexeme.StringEnd tail body rest) ∧
    ∀ (quotes : Quotes) (before : List Lexeme) (context : Lexeme.Context)
      (tail body rest : List Char) (start stop : Nat),
      quotes.quote = '"' → (quotes.encoding = [] ∨ language ≠ .java) →
      Lexeme.Reads language .start text.toList before context (quotes.opening ++ tail) →
      Lexeme.StringEnd tail body rest →
      start = Text.byteLength (Lexeme.textOf before) →
      stop = start + Text.byteLength (quotes.opening ++ body) →
      Span.Tiles start stop (language.spansWithin text start stop) ∧
      (∀ part ∈ language.spansWithin text start stop,
        part.category = .string .plain ∨ part.category = .string .escape) ∧
      ∀ (sourceName : String) (classifier : Classifier),
        (∀ slice ∈ ((language.spansWithin text 0 start).filterMap
          (Span.kept? classifier text)).getLast?, slice.symbol ≠ .literal) →
        (∀ slice ∈ ((language.spansWithin text stop text.utf8ByteSize).filterMap
          (Span.kept? classifier text)).head?, slice.symbol ≠ .literal) →
        ∃ first token last,
          Token.normalize language.lexer text sourceName classifier =
            .ok (first ++ token :: last) ∧
          token.kind = .literal ∧ token.text = String.ofList (quotes.opening ++ body) ∧
          token.startOffset = start ∧
          List.Forall₂ (Token.StandsFor sourceName) first (KeptSlice.groups
            ((language.spansWithin text 0 start).filterMap (Span.kept? classifier text))) ∧
          List.Forall₂ (Token.StandsFor sourceName) last (KeptSlice.groups
            ((language.spansWithin text stop text.utf8ByteSize).filterMap
              (Span.kept? classifier text))) := by
  refine ⟨fun _ hspan => language.string_shapes text hspan, ?_, ?_⟩
  · intro tail
    obtain ⟨body, -, hend⟩ := Lexeme.stringEnd_stringParts [] tail
    exact ⟨body, _, hend⟩
  · intro quotes before context tail body rest start stop hquote hencoding hreads hbody hstart hstop
    obtain ⟨parts, after, body', hlexemes, htext, hend, hcategory⟩ :=
      hreads.string hquote hencoding
    obtain ⟨rfl, -⟩ := hbody.unique hend
    have hscan := (language.scan_eq text.toList).trans hlexemes
    rw [← htext] at hstop ⊢
    obtain ⟨-, hregion, htiles⟩ := spansWithin_of_scan_eq hscan hstart hstop
    refine ⟨htiles, ?_, ?_⟩
    · intro part hpart
      have hmem : part.category ∈ parts.map (·.category) := by
        rw [← Span.categories_place, ← hregion]
        exact List.mem_map_of_mem hpart
      obtain ⟨lexeme, hlexeme, hsame⟩ := List.mem_map.mp hmem
      rw [← hsame]
      exact hcategory lexeme hlexeme
    · refine exists_literal_token hscan ?_ ?_ hstart hstop
      · rintro rfl
        simp [Quotes.opening] at htext
      · intro part hpart
        rcases hcategory part hpart with h | h
        · exact ⟨_, h⟩
        · exact ⟨_, h⟩

/-- Escapes of every kind, a newline and a quote among what they take, in a literal that a newline
ends. -/
theorem string_extent_escapes :
    ∃ quotes : Quotes, quotes.opening = "L\"".toList ∧
      Lexeme.Reads .c .start "(L\"\\x1\\\n\\1012\\\")\n;".toList [⟨.punctuation, ['(']⟩]
        ⟨false, false⟩ (quotes.opening ++ ("\\x1\\\n\\1012\\\")".toList ++ ['\n', ';'])) ∧
      Span.Tiles 1 16 (Language.c.spansWithin "(L\"\\x1\\\n\\1012\\\")\n;" 1 16) ∧
      ∃ first token last,
        Token.normalize Language.c.lexer "(L\"\\x1\\\n\\1012\\\")\n;" "a.c" ⟨[]⟩ =
          .ok (first ++ token :: last) ∧
        token.kind = .literal ∧
        token.text = String.ofList (quotes.opening ++ "\\x1\\\n\\1012\\\")".toList) := by
  let quotes : Quotes := ⟨['L'], '"', by decide, by decide⟩
  have hreads : Lexeme.Reads .c .start "(L\"\\x1\\\n\\1012\\\")\n;".toList [⟨.punctuation, ['(']⟩]
      ⟨false, false⟩ (quotes.opening ++ ("\\x1\\\n\\1012\\\")".toList ++ ['\n', ';'])) := by
    have hfirst : Lexeme.readNext .c .start "(L\"\\x1\\\n\\1012\\\")\n;".toList =
        ⟨[⟨.punctuation, ['(']⟩],
          quotes.opening ++ ("\\x1\\\n\\1012\\\")".toList ++ ['\n', ';'])⟩ := by
      decide +kernel
    have hnext : Lexeme.Context.start.next .c "(L\"\\x1\\\n\\1012\\\")\n;".toList =
        ⟨false, false⟩ := by
      decide +kernel
    have hstep : Lexeme.Reads .c .start "(L\"\\x1\\\n\\1012\\\")\n;".toList _ _ _ :=
      .step (by decide) (.refl _ _)
    rwa [hfirst, hnext] at hstep
  have hend : Lexeme.StringEnd ("\\x1\\\n\\1012\\\")".toList ++ ['\n', ';'])
      "\\x1\\\n\\1012\\\")".toList ['\n', ';'] :=
    .broken (by decide) (by decide)
  obtain ⟨htiles, -, hone⟩ :=
    (Language.c.string_extent "(L\"\\x1\\\n\\1012\\\")\n;").2.2 quotes _ _ _ _ _ 1 16 rfl
      (.inr (by decide)) hreads hend (by decide) (by decide)
  obtain ⟨first, token, last, htokens, hkind, htext, -⟩ :=
    hone "a.c" ⟨[]⟩ (by decide +kernel) (by decide +kernel)
  exact ⟨quotes, by decide, hreads, htiles, first, token, last, htokens, hkind, htext⟩

end Language

end SourcePrint
