import SourcePrint.Proofs.Margins
import SourcePrint.Proofs.Outcomes
import SourcePrint.Proofs.Slices

namespace SourcePrint

namespace Text

/-- Line breaks from left to right: a carriage return and the newline behind it are one break, and
so is a carriage return alone. -/
def breakLines : List Char → List Char
  | [] => []
  | '\r' :: '\n' :: cs => '\n' :: breakLines cs
  | c :: cs => (if c = '\r' then '\n' else c) :: breakLines cs

/-- A carriage return goes if a newline is behind it, and is a newline if not. -/
theorem breakLines_cons (c : Char) (cs : List Char) :
    breakLines (c :: cs) =
      if c = '\r' ∧ cs.head? = some '\n' then breakLines cs
      else (if c = '\r' then '\n' else c) :: breakLines cs := by
  split
  · rename_i hpair
    obtain ⟨rest, rfl⟩ := List.head?_eq_some_iff.mp hpair.2
    rw [hpair.1, breakLines, breakLines.eq_3 '\n' rest (by simp), if_neg (by decide)]
  · rename_i hsingle
    refine breakLines.eq_3 c cs ?_
    rintro rest rfl rfl
    exact hsingle ⟨rfl, rfl⟩

/-- The text with a carriage return in front of every newline. -/
def crlf (text : String) : String :=
  String.ofList (text.toList.flatMap fun c => if c = '\n' then ['\r', '\n'] else [c])

theorem trim_eq_self_of_byteLength {cs : List Char} (h : byteLength (trim cs) = byteLength cs) :
    trim cs = cs := by
  obtain ⟨before, after, hcs, -, -⟩ := exists_trim cs
  have hbytes := congrArg byteLength hcs
  simp only [byteLength_append] at hbytes
  have hbefore : before = [] := byteLength_eq_zero.mp (by omega)
  have hafter : after = [] := byteLength_eq_zero.mp (by omega)
  rw [hbefore, hafter, List.nil_append, List.append_nil] at hcs
  exact hcs.symm

end Text

namespace SourcePolicy

theorem fst_foldr_unifyStep (cs : List Char) : (cs.foldr unifyStep (none, [])).1 = cs.head? := by
  cases cs with
  | nil => rfl
  | cons c cs =>
    rw [List.foldr_cons, unifyStep]
    split <;> rfl

theorem unifyNewlines_cons (c : Char) (cs : List Char) :
    unifyNewlines (c :: cs) =
      if c = '\r' ∧ cs.head? = some '\n' then unifyNewlines cs
      else (if c = '\r' then '\n' else c) :: unifyNewlines cs := by
  rw [unifyNewlines, List.foldr_cons, unifyStep, fst_foldr_unifyStep]
  by_cases hc : c = '\r'
  · by_cases hhead : cs.head? = some '\n' <;> simp [hc, hhead, unifyNewlines]
  · simp [hc, unifyNewlines]

/-- Passing a text from the right gives what the scan from the left gives. -/
theorem unifyNewlines_eq (cs : List Char) : unifyNewlines cs = Text.breakLines cs := by
  induction cs with
  | nil => rfl
  | cons c cs ih => rw [unifyNewlines_cons, Text.breakLines_cons, ih]

theorem return_not_mem_unifyNewlines (cs : List Char) : '\r' ∉ unifyNewlines cs := by
  induction cs with
  | nil => exact List.not_mem_nil
  | cons c cs ih =>
    rw [unifyNewlines_cons]
    split
    · exact ih
    · have hc : '\r' ≠ if c = '\r' then '\n' else c := by
        split
        · decide
        · exact Ne.symm ‹_›
      exact List.not_mem_cons_of_ne_of_not_mem hc ih

theorem unifyNewlines_eq_self {cs : List Char} (h : '\r' ∉ cs) : unifyNewlines cs = cs := by
  induction cs with
  | nil => rfl
  | cons c cs ih =>
    have hc : c ≠ '\r' := Ne.symm (List.ne_of_not_mem_cons h)
    rw [unifyNewlines_cons, if_neg (fun hpair => hc hpair.1), if_neg hc,
      ih (List.not_mem_of_not_mem_cons h)]

theorem breakLines_eq_self {cs : List Char} (h : '\r' ∉ cs) : Text.breakLines cs = cs :=
  (unifyNewlines_eq cs).symm.trans (unifyNewlines_eq_self h)

/-- Two texts are passed one by one unless a line break may go on from one to the other. -/
theorem unifyNewlines_append {cs more : List Char} (h : cs.getLast? ≠ some '\r') :
    unifyNewlines (cs ++ more) = unifyNewlines cs ++ unifyNewlines more := by
  induction cs with
  | nil => rfl
  | cons c cs ih =>
    have hhead : c = '\r' → (cs ++ more).head? = cs.head? := by
      rintro rfl
      cases cs with
      | nil => simp at h
      | cons d cs => rfl
    have hlast : cs.getLast? ≠ some '\r' := by
      cases cs with
      | nil => simp
      | cons d cs => rwa [List.getLast?_cons_cons] at h
    have hsame : (c = '\r' ∧ (cs ++ more).head? = some '\n') ↔
        (c = '\r' ∧ cs.head? = some '\n') :=
      and_congr_right fun hc => by rw [hhead hc]
    rw [List.cons_append, unifyNewlines_cons, unifyNewlines_cons c cs, ih hlast]
    simp only [hsame]
    split <;> rfl

theorem getLast?_unifyNewlines (cs : List Char) :
    (unifyNewlines cs).getLast? = cs.getLast?.map fun c => if c = '\r' then '\n' else c := by
  induction cs with
  | nil => rfl
  | cons c cs ih =>
    rw [unifyNewlines_cons]
    split
    · rename_i hpair
      obtain ⟨rest, rfl⟩ := List.head?_eq_some_iff.mp hpair.2
      rw [ih, List.getLast?_cons_cons]
    · rw [List.getLast?_cons, ih, List.getLast?_cons]
      cases cs.getLast? <;> rfl

theorem isBlank_unified (c : Char) :
    Text.isBlank (if c = '\r' then '\n' else c) = Text.isBlank c := by
  split
  · rename_i hc
    rw [hc]
    decide
  · rfl

theorem trimStart_unifyNewlines (cs : List Char) :
    Text.trimStart (unifyNewlines cs) = unifyNewlines (Text.trimStart cs) := by
  simp only [Text.trimStart]
  induction cs with
  | nil => rfl
  | cons c cs ih =>
    by_cases hpair : c = '\r' ∧ cs.head? = some '\n'
    · have hblank : Text.isBlank c = true := hpair.1 ▸ by decide
      rw [unifyNewlines_cons, if_pos hpair, ih, List.dropWhile_cons_of_pos hblank]
    · rw [unifyNewlines_cons, if_neg hpair, List.dropWhile_cons, isBlank_unified,
        List.dropWhile_cons]
      split
      · exact ih
      · rw [unifyNewlines_cons, if_neg hpair]

theorem all_isBlank_unifyNewlines {cs : List Char} (h : cs.all Text.isBlank = true) :
    (unifyNewlines cs).all Text.isBlank = true := by
  have hgone : Text.trimStart cs = [] := List.dropWhile_eq_nil_iff.mpr (List.all_eq_true.mp h)
  have hempty : Text.trimStart (unifyNewlines cs) = [] := by
    rw [trimStart_unifyNewlines, hgone]
    rfl
  exact List.all_eq_true.mpr (List.dropWhile_eq_nil_iff.mp hempty)

theorem trimEnd_unifyNewlines (cs : List Char) :
    Text.trimEnd (unifyNewlines cs) = unifyNewlines (Text.trimEnd cs) := by
  obtain ⟨blanks, hsplit, hblanks⟩ := Text.exists_trimEnd cs
  have hlast := Text.any_getLast?_trimEnd cs
  have hreturn : (Text.trimEnd cs).getLast? ≠ some '\r' := by
    intro h
    rw [h] at hlast
    exact absurd hlast (by decide)
  have hunified : (unifyNewlines (Text.trimEnd cs)).getLast?.any Text.isBlank = false := by
    rw [getLast?_unifyNewlines, Option.any_map]
    simpa only [Function.comp_def, isBlank_unified] using hlast
  calc Text.trimEnd (unifyNewlines cs)
      = Text.trimEnd (unifyNewlines (Text.trimEnd cs) ++ unifyNewlines blanks) := by
        rw [← unifyNewlines_append hreturn, ← hsplit]
    _ = Text.trimEnd (unifyNewlines (Text.trimEnd cs)) :=
        Text.trimEnd_append (all_isBlank_unifyNewlines hblanks)
    _ = unifyNewlines (Text.trimEnd cs) := by
        rw [← List.head?_reverse] at hunified
        rw [Text.trimEnd, dropWhile_eq_self hunified, List.reverse_reverse]

/-- Line breaks are blanks, so they may be made one kind before the ends are trimmed or after. -/
theorem trim_unifyNewlines (cs : List Char) :
    Text.trim (unifyNewlines cs) = unifyNewlines (Text.trim cs) := by
  rw [Text.trim, trimStart_unifyNewlines, trimEnd_unifyNewlines, Text.trim]

/-- The carriage returns that were put in front of newlines are taken out again. -/
theorem unifyNewlines_crlf {text : String} (h : '\r' ∉ text.toList) :
    unifyNewlines (Text.crlf text).toList = text.toList := by
  rw [Text.crlf, String.toList_ofList]
  generalize text.toList = cs at h
  induction cs with
  | nil => rfl
  | cons c cs ih =>
    have hrest := ih (List.not_mem_of_not_mem_cons h)
    have hc : c ≠ '\r' := Ne.symm (List.ne_of_not_mem_cons h)
    rw [List.flatMap_cons]
    split
    · rename_i hnewline
      rw [List.cons_append, unifyNewlines_cons, if_pos ⟨rfl, rfl⟩, List.singleton_append,
        unifyNewlines_cons, if_neg (fun hpair => absurd hpair.1 (by decide)),
        if_neg (by decide), hrest, hnewline]
    · rw [List.singleton_append, unifyNewlines_cons, if_neg (fun hpair => hc hpair.1), if_neg hc,
        hrest]

/-- Every step in turn, also one that finds nothing to do. -/
def plain (policy : SourcePolicy) (cs : List Char) : List Char :=
  let lines := if policy.normalizeNewlines then Text.breakLines cs else cs
  if policy.trim then Text.trim lines else lines

variable {policy : SourcePolicy}

theorem trim_rewritten (cs : List Char) :
    (Prepared.rewritten cs).trim = .rewritten (Text.trim cs) := by
  rw [Prepared.trim]
  split
  · rename_i hbytes
    rw [Text.trim_eq_self_of_byteLength hbytes]
  · rfl

theorem plain_of_kept {cs : List Char}
    (h : ¬ (policy.normalizeNewlines = true ∧ '\r' ∈ cs)) :
    policy.plain cs = if policy.trim then Text.trim cs else cs := by
  have hlines : (if policy.normalizeNewlines then Text.breakLines cs else cs) = cs := by
    split
    · rename_i hnormalize
      exact breakLines_eq_self fun hreturn => h ⟨hnormalize, hreturn⟩
    · rfl
  rw [plain, hlines]

theorem prepared_eq (policy : SourcePolicy) (text : String) :
    policy.prepared text =
      if policy.normalizeNewlines = true ∧ '\r' ∈ text.toList then
        .rewritten (policy.plain text.toList)
      else .stretch (policy.plain text.toList) := by
  by_cases hrewrite : policy.normalizeNewlines = true ∧ '\r' ∈ text.toList
  · have hunify : policy.unify text.toList = .rewritten (Text.breakLines text.toList) := by
      rw [unify, if_pos (by simpa using hrewrite), unifyNewlines_eq]
    rw [if_pos hrewrite, prepared, hunify, plain, if_pos hrewrite.1, trim_rewritten]
    split <;> rfl
  · have hunify : policy.unify text.toList = .stretch text.toList := by
      rw [unify, if_neg (by simpa using hrewrite)]
    rw [if_neg hrewrite, prepared, hunify, plain_of_kept hrewrite]
    split <;> rfl

theorem infix_of_prepared {text : String} {cs : List Char}
    (h : policy.prepared text = .stretch cs) : cs <:+: text.toList := by
  rw [prepared_eq] at h
  split at h
  · cases h
  · rename_i hkept
    obtain rfl := Prepared.stretch.inj h
    rw [plain_of_kept hkept]
    split
    · obtain ⟨before, after, htext, -, -⟩ := Text.exists_trim text.toList
      exact ⟨before, after, htext.symm⟩
    · exact List.infix_rfl

theorem prepare_eq (policy : SourcePolicy) (text : String) :
    policy.prepare text = String.ofList (policy.plain text.toList) := by
  rw [prepare, prepared_eq]
  split <;> rfl

theorem return_not_mem_plain (h : policy.normalizeNewlines = true) (cs : List Char) :
    '\r' ∉ policy.plain cs := by
  have hlines : '\r' ∉ Text.breakLines cs := unifyNewlines_eq cs ▸ return_not_mem_unifyNewlines cs
  rw [plain, if_pos h]
  split
  · exact fun hreturn => hlines ((Text.trim_sublist _).subset hreturn)
  · exact hlines

theorem trim_plain (h : policy.trim = true) (cs : List Char) :
    Text.trim (policy.plain cs) = policy.plain cs := by
  rw [plain, if_pos h, Text.trim_trim]

theorem plain_plain (cs : List Char) : policy.plain (policy.plain cs) = policy.plain cs := by
  have hlines : (if policy.normalizeNewlines then Text.breakLines (policy.plain cs)
      else policy.plain cs) = policy.plain cs := by
    split
    · rename_i h
      exact breakLines_eq_self (return_not_mem_plain h cs)
    · rfl
  rw [plain, hlines]
  split
  · rename_i h
    exact trim_plain h cs
  · rfl

theorem plain_crlf (h : policy.normalizeNewlines = true) {text : String}
    (hreturn : '\r' ∉ text.toList) :
    policy.plain (Text.crlf text).toList = policy.plain text.toList := by
  have hlines : Text.breakLines (Text.crlf text).toList = Text.breakLines text.toList := by
    rw [← unifyNewlines_eq, unifyNewlines_crlf hreturn, breakLines_eq_self hreturn]
  rw [plain, plain, if_pos h, if_pos h, hlines]

theorem prepare_crlf (h : policy.normalizeNewlines = true) {text : String}
    (hreturn : '\r' ∉ text.toList) : policy.prepare (Text.crlf text) = policy.prepare text := by
  rw [prepare_eq, prepare_eq, plain_crlf h hreturn]

end SourcePolicy

/-- Texts of a size that is allowed have the same report if the same is left of them. -/
theorem Report.ofSource_congr {config : Config} {text text' : String}
    (hprepare : config.sourcePolicy.prepare text' = config.sourcePolicy.prepare text)
    (hsize : text.utf8ByteSize ≤ config.maxSourceBytes)
    (hsize' : text'.utf8ByteSize ≤ config.maxSourceBytes) (language : Language)
    (sourceName : String) :
    ofSource language sourceName text' config = ofSource language sourceName text config := by
  unfold ofSource
  rw [if_neg (Nat.not_lt.mpr hsize), if_neg (Nat.not_lt.mpr hsize'), hprepare]

namespace SourcePolicy

/-- A text is prepared by taking its steps one after the other, whether it is rewritten or a stretch
of it is handed on: line breaks are made one kind from left to right, then the ends are trimmed. It
is rewritten exactly if it has a carriage return that has to go. A prepared text is not changed when
it is prepared again, the two steps may be taken in either order, and where line breaks are made one
kind no carriage return is left and it does not matter whether a file came with carriage returns in
front of its newlines: its report is the same to the last position. -/
theorem prepare_laws (policy : SourcePolicy) (text : String) :
    (∀ cs trimmed : List Char, Text.IsTrimmed cs trimmed ↔ trimmed = Text.trim cs) ∧
    policy.prepare text = String.ofList (policy.plain text.toList) ∧
    policy.prepared text =
      (if policy.normalizeNewlines = true ∧ '\r' ∈ text.toList then
        .rewritten (policy.plain text.toList)
      else .stretch (policy.plain text.toList)) ∧
    (∀ cs, policy.prepared text = .stretch cs → cs <:+: text.toList) ∧
    policy.prepare (policy.prepare text) = policy.prepare text ∧
    (policy.normalizeNewlines = true → '\r' ∉ (policy.prepare text).toList) ∧
    prepare ⟨false, true⟩ (prepare ⟨true, false⟩ text) =
      prepare ⟨true, false⟩ (prepare ⟨false, true⟩ text) ∧
    (policy.normalizeNewlines = true → '\r' ∉ text.toList →
      policy.prepare (Text.crlf text) = policy.prepare text) ∧
    ∀ (language : Language) (sourceName : String) (config : Config), config.sourcePolicy = policy →
      policy.normalizeNewlines = true → '\r' ∉ text.toList →
      text.utf8ByteSize ≤ config.maxSourceBytes →
      (Text.crlf text).utf8ByteSize ≤ config.maxSourceBytes →
      Report.ofSource language sourceName (Text.crlf text) config =
          Report.ofSource language sourceName text config ∧
        (config.Valid →
          ∃ report, Report.ofSource language sourceName text config = .ok report) := by
  refine ⟨fun _ _ => Text.isTrimmed_iff, policy.prepare_eq text, policy.prepared_eq text,
    fun _ => infix_of_prepared, ?_, fun h => ?_, ?_, fun h => prepare_crlf h, ?_⟩
  · rw [prepare_eq, prepare_eq, String.toList_ofList, plain_plain]
  · rw [prepare_eq, String.toList_ofList]
    exact return_not_mem_plain h text.toList
  · simp only [prepare_eq, plain, String.toList_ofList, ← unifyNewlines_eq]
    exact congrArg String.ofList (trim_unifyNewlines text.toList)
  · rintro language sourceName config rfl hnormalize hreturn hsize hsize'
    have hprepare := prepare_crlf hnormalize hreturn
    refine ⟨Report.ofSource_congr hprepare hsize hsize' language sourceName, fun hvalid => ?_⟩
    exact Report.exists_ofSource (Config.fault?_eq_none_iff.mpr hvalid) hsize language sourceName

/-- Blanks of several kinds around the text, an empty line, and carriage returns of which some are a
line break of their own. -/
theorem prepare_laws_runs :
    let text := " \ta;\n\n b;\n"
    '\r' ∉ text.toList ∧ prepare {} text = "a;\n\n b;" ∧
      prepare {} "\r\r\n a;\r\r\n\rb;\r" = "a;\n\n\nb;" ∧
      prepare {} (Text.crlf text) = prepare {} text ∧ Config.Valid {} ∧
      ∃ report, Report.ofSource .c "a.c" text {} = .ok report ∧
        Report.ofSource .c "a.c" (Text.crlf text) {} = .ok report := by
  intro text
  have hreturn : '\r' ∉ text.toList := by decide
  have hvalid : Config.Valid {} := Config.fault?_eq_none_iff.mp (by decide +kernel)
  obtain ⟨-, -, -, -, -, -, -, hcrlf, hreports⟩ := prepare_laws {} text
  obtain ⟨hsame, hreport⟩ :=
    hreports .c "a.c" {} rfl rfl hreturn (by decide) (by decide +kernel)
  obtain ⟨report, hreport⟩ := hreport hvalid
  exact ⟨hreturn, by decide +kernel, by decide +kernel, hcrlf rfl hreturn, hvalid, report, hreport,
    hsame.trans hreport⟩

end SourcePolicy

end SourcePrint
