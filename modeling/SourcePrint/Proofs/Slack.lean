import SourcePrint.Proofs.Blanks
import SourcePrint.Proofs.Kinds

namespace SourcePrint.Lexeme

/-- The second text is the first with slack in its line ends: blanks behind the last of them and, if
`returns` holds, carriage returns in front of newlines. -/
inductive Slack (returns : Prop) : List Char → List Char → Prop where
  | ended {blanks : List Char} (blank : blanks.all Text.isBlank = true) : Slack returns [] blanks
  | cons (c : Char) {cs cs' : List Char} (tail : Slack returns cs cs') :
      Slack returns (c :: cs) (c :: cs')
  | broken {cs cs' : List Char} (allowed : returns) (tail : Slack returns cs cs') :
      Slack returns ('\n' :: cs) ('\r' :: '\n' :: cs')

/-- A class of characters that holds no blank. -/
def NoBlank (p : Char → Bool) : Prop := ∀ c, Text.isBlank c = true → p c = false

theorem noBlank_of_codes {p : Char → Bool}
    (hp : (Text.blankRanges.codes.all fun n => !p (Char.ofNat n)) = true) : NoBlank p :=
  fun _ hc => eq_false_of_isBlank hc hp

theorem noBlank_isNameStart : NoBlank isNameStart := fun _ => not_isNameStart_of_isBlank

theorem noBlank_isNameContinue : NoBlank isNameContinue := noBlank_of_codes (by decide +kernel)

theorem beq_or_beq_of_isBlank {c x y : Char} (hc : Text.isBlank c = true)
    (hx : Text.isBlank x = false) (hy : Text.isBlank y = false) : (c == x || c == y) = false := by
  simp [ne_of_isBlank hc hx, ne_of_isBlank hc hy]

theorem noBlank_of_number {p : Char → Bool}
    (hp : ∀ c, p c = true → c.isAlphanum = true ∨ c = '_' ∨ c = '\'') : NoBlank p := by
  intro c hc
  have halphanum : c.isAlphanum = false := eq_false_of_isBlank hc (by decide +kernel)
  rw [← Bool.not_eq_true]
  intro hpc
  rcases hp c hpc with h | h | h
  · rw [halphanum] at h
    cases h
  · exact ne_of_isBlank hc (by decide) h
  · exact ne_of_isBlank hc (by decide) h

theorem noBlank_isDigit : NoBlank Char.isDigit :=
  noBlank_of_number fun _ h => .inl (isAlphanum_of_isDigit h)

theorem noBlank_isOctalDigit : NoBlank isOctalDigit := noBlank_of_codes (by decide +kernel)

namespace Slack

variable {returns : Prop} {cs cs' : List Char}

theorem blank_of_nil {blanks : List Char} (h : Slack returns [] blanks) :
    blanks.all Text.isBlank = true := by
  cases h with
  | ended blank => exact blank

theorem of_suffix {blanks rest : List Char} (h : blanks.all Text.isBlank = true)
    (hrest : rest <:+ blanks) : Slack returns [] rest :=
  .ended (List.all_eq_true.mpr fun c hc => List.all_eq_true.mp h c (hrest.subset hc))

theorem exists_of_append {t r : List Char} (h : Slack returns (t ++ r) cs')
    (ht : returns → '\n' ∉ t) : ∃ r', cs' = t ++ r' ∧ Slack returns r r' := by
  induction t generalizing cs' with
  | nil => exact ⟨cs', rfl, h⟩
  | cons c t ih =>
    rw [List.cons_append] at h
    cases h with
    | cons _ tail =>
      obtain ⟨r', rfl, hr⟩ := ih tail fun hreturns hmem => ht hreturns (List.mem_cons_of_mem _ hmem)
      exact ⟨r', rfl, hr⟩
    | broken allowed _ => exact absurd (by simp) (ht allowed)

theorem exists_of_cons {c : Char} (h : Slack returns (c :: cs) cs') (hc : returns → c ≠ '\n') :
    ∃ r', cs' = c :: r' ∧ Slack returns cs r' :=
  exists_of_append (t := [c]) h (by simpa [eq_comm] using hc)

theorem of_append {t r r' : List Char} (h : Slack returns (t ++ r) (t ++ r')) :
    Slack returns r r' := by
  induction t with
  | nil => exact h
  | cons c t ih =>
    rw [List.cons_append, List.cons_append] at h
    cases h with
    | cons _ tail => exact ih tail

theorem apply_eq {α : Type} {f : List Char → α} (h : Slack returns cs cs') (other : α)
    (nil : f [] = other) (one : ∀ c, f [c] = other)
    (first : ∀ c r, Text.isBlank c = true → f (c :: r) = other)
    (second : ∀ c d r, Text.isBlank d = true → f (c :: d :: r) = other)
    (both : ∀ c d {r r'}, Slack returns r r' → f (c :: d :: r') = f (c :: d :: r)) :
    f cs' = f cs := by
  cases h with
  | broken _ _ => rw [first _ _ (by decide), first _ _ (by decide)]
  | ended blank =>
    cases cs' with
    | nil => rfl
    | cons c blanks => rw [nil, first c _ (Bool.and_eq_true_iff.mp blank).1]
  | @cons c r r' tail =>
    cases tail with
    | cons d tail => exact both c d tail
    | broken _ _ => rw [second _ _ _ (by decide), second _ _ _ (by decide)]
    | ended blank =>
      cases r' with
      | nil => rfl
      | cons d blanks => rw [one, second c d _ (Bool.and_eq_true_iff.mp blank).1]

theorem any_head? (h : Slack returns cs cs') {p : Char → Bool} (hp : NoBlank p) :
    cs'.head?.any p = cs.head?.any p := by
  cases h with
  | cons c _ => rfl
  | broken _ _ => simp [hp '\n' (by decide), hp '\r' (by decide)]
  | ended blank =>
    cases cs' with
    | nil => rfl
    | cons c blanks => simpa using hp c (Bool.and_eq_true_iff.mp blank).1

theorem head?_iff (h : Slack returns cs cs') {x : Char} (hx : Text.isBlank x = false) :
    cs'.head? = some x ↔ cs.head? = some x := by
  have hp : NoBlank (· == x) := fun c hc => beq_eq_false_iff_ne.mpr (ne_of_isBlank hc hx)
  have hany : ∀ o : Option Char, o = some x ↔ o.any (· == x) = true := by
    intro o
    cases o <;> simp
  rw [hany, hany, h.any_head? hp]

theorem takeWhile_eq (h : Slack returns cs cs') {p : Char → Bool} (hp : NoBlank p) :
    cs'.takeWhile p = cs.takeWhile p := by
  induction h with
  | cons c _ ih => simp only [List.takeWhile_cons, ih]
  | broken _ _ => simp [hp '\n' (by decide), hp '\r' (by decide)]
  | @ended blanks blank =>
    cases blanks with
    | nil => rfl
    | cons c blanks => simp [hp c (Bool.and_eq_true_iff.mp blank).1]

/-- What is left of the texts when a class of characters is taken off, unless the class holds only
half of a line break. -/
theorem dropWhile (h : Slack returns cs cs') {p : Char → Bool}
    (hp : p '\n' = true → p '\r' = true) : Slack returns (cs.dropWhile p) (cs'.dropWhile p) := by
  induction h with
  | ended blank => exact of_suffix blank (List.dropWhile_suffix p)
  | cons c tail ih =>
    by_cases hc : p c = true
    · rw [List.dropWhile_cons_of_pos hc, List.dropWhile_cons_of_pos hc]
      exact ih
    · rw [List.dropWhile_cons_of_neg hc, List.dropWhile_cons_of_neg hc]
      exact .cons c tail
  | broken allowed tail ih =>
    by_cases hn : p '\n' = true
    · rw [List.dropWhile_cons_of_pos hn, List.dropWhile_cons_of_pos (hp hn),
        List.dropWhile_cons_of_pos hn]
      exact ih
    · rw [List.dropWhile_cons_of_neg hn]
      by_cases hr : p '\r' = true
      · rw [List.dropWhile_cons_of_pos hr, List.dropWhile_cons_of_neg hn]
        exact .cons '\n' tail
      · rw [List.dropWhile_cons_of_neg hr]
        exact .broken allowed tail

theorem dropWhile_of_noBlank (h : Slack returns cs cs') {p : Char → Bool} (hp : NoBlank p) :
    Slack returns (cs.dropWhile p) (cs'.dropWhile p) :=
  h.dropWhile fun hn => absurd hn (by simp [hp '\n' (by decide)])

end Slack

section Numbers

variable {returns : Prop} {cs cs' : List Char}

theorem noBlank_isDigitPart (language : Language) : NoBlank (isDigitPart language) :=
  noBlank_of_number isDigitPart_cases

theorem Slack.fraction (h : Slack returns cs cs') (language : Language) :
    ∃ rest', Lexeme.fraction language cs' = ((Lexeme.fraction language cs).1, rest') ∧
      Slack returns (Lexeme.fraction language cs).2 rest' := by
  have hother : ∀ {cs : List Char}, cs.head? ≠ some '.' →
      Lexeme.fraction language cs = ([], cs) := by
    intro cs hcs
    refine fraction_of_other ?_
    rintro after rfl
    exact absurd rfl hcs
  by_cases hdot : cs.head? = some '.'
  · obtain ⟨after, rfl⟩ := List.head?_eq_some_iff.mp hdot
    obtain ⟨after', rfl, htail⟩ := h.exists_of_cons (by simp)
    have hname : NoBlank fun c => c == '.' || isNameStart c := noBlank_of_codes (by decide +kernel)
    simp only [Lexeme.fraction, htail.any_head? hname]
    split
    · exact ⟨_, rfl, h⟩
    · rw [htail.takeWhile_eq (noBlank_isDigitPart language)]
      exact ⟨_, rfl, htail.dropWhile_of_noBlank (noBlank_isDigitPart language)⟩
  · rw [hother hdot, hother (mt (h.head?_iff (by decide)).mp hdot)]
    exact ⟨_, rfl, h⟩

theorem Slack.exponentMark_eq (h : Slack returns cs cs') : exponentMark cs' = exponentMark cs := by
  apply h.apply_eq []
  case nil => rfl
  case one => exact fun _ => rfl
  case first =>
    intro e r he
    cases r with
    | nil => rfl
    | cons d r =>
      rw [exponentMark, beq_or_beq_of_isBlank he (by decide) (by decide), if_neg Bool.false_ne_true]
  case second =>
    intro e d r hd
    rw [exponentMark, noBlank_isDigit d hd, beq_or_beq_of_isBlank hd (by decide) (by decide)]
    simp
  case both =>
    intro e d r r' hr
    rw [exponentMark, exponentMark, hr.any_head? noBlank_isDigit]

theorem Slack.exponent (h : Slack returns cs cs') :
    ∃ rest', Lexeme.exponent cs' = ((Lexeme.exponent cs).1, rest') ∧
      Slack returns (Lexeme.exponent cs).2 rest' := by
  have hmark := h.exponentMark_eq
  have htail : Slack returns (cs.drop (exponentMark cs).length)
      (cs'.drop (exponentMark cs).length) := by
    have happend' := exponentMark_append cs'
    rw [hmark] at happend'
    rw [← exponentMark_append cs, ← happend'] at h
    exact h.of_append
  unfold Lexeme.exponent
  rw [hmark]
  split
  · exact ⟨_, rfl, h⟩
  · simp only [htail.takeWhile_eq noBlank_isDigit]
    exact ⟨_, rfl, htail.dropWhile_of_noBlank noBlank_isDigit⟩

theorem Slack.decimal (h : Slack returns cs cs') (language : Language) :
    ∃ rest', Lexeme.decimal language cs' = { Lexeme.decimal language cs with rest := rest' } ∧
      Slack returns (Lexeme.decimal language cs).rest rest' := by
  have hwhole := h.takeWhile_eq (noBlank_isDigitPart language)
  obtain ⟨point, hpoint, hbehind⟩ :=
    (h.dropWhile_of_noBlank (noBlank_isDigitPart language)).fraction language
  obtain ⟨power, hpower, hrest⟩ := hbehind.exponent
  refine ⟨power, ?_, hrest⟩
  simp only [Lexeme.decimal, hwhole, hpoint, hpower]

theorem Slack.baseMark_eq {test : Char → List Char → Bool} (h : Slack returns cs cs')
    (hletter : ∀ base after, Text.isBlank base = true → test base after = false)
    (hafter : ∀ base {r r'}, Slack returns r r' → test base r' = test base r) :
    baseMark test cs' = baseMark test cs := by
  apply h.apply_eq false
  case nil => rfl
  case one => exact fun _ => rfl
  case first =>
    intro zero r hzero
    cases r with
    | nil => rfl
    | cons base r => simp [baseMark, ne_of_isBlank hzero (show Text.isBlank '0' = false by decide)]
  case second =>
    intro zero base r hbase
    simp [baseMark, hletter base r hbase]
  case both =>
    intro zero base r r' hr
    simp [baseMark, hafter base hr]

theorem Slack.markedNumeral {test : Char → List Char → Bool} (h : Slack returns cs cs')
    (hletter : ∀ base after, Text.isBlank base = true → test base after = false)
    (htest : baseMark test cs = true) (kind : NumberKind) {p : Char → Bool} (hp : NoBlank p) :
    ∃ rest', Lexeme.markedNumeral kind p cs' =
        { Lexeme.markedNumeral kind p cs with rest := rest' } ∧
      Slack returns (Lexeme.markedNumeral kind p cs).rest rest' := by
  unfold baseMark at htest
  split at htest
  · rename_i zero base after
    obtain ⟨hzero, hbase⟩ := Bool.and_eq_true_iff.mp htest
    obtain rfl := beq_iff_eq.mp hzero
    have hbreak : base ≠ '\n' := by
      rintro rfl
      rw [hletter '\n' after (by decide)] at hbase
      cases hbase
    obtain ⟨after', rfl, htail⟩ := exists_of_append (t := ['0', base]) h (by simp [hbreak.symm])
    refine ⟨after'.dropWhile p, ?_, htail.dropWhile_of_noBlank hp⟩
    simp [Lexeme.markedNumeral, htail.takeWhile_eq hp]
  · cases htest

theorem Slack.numeral (h : Slack returns cs cs') (language : Language) :
    ∃ rest', Lexeme.numeral language cs' = { Lexeme.numeral language cs with rest := rest' } ∧
      Slack returns (Lexeme.numeral language cs).rest rest' := by
  have hhex : ∀ base, Text.isBlank base = true → (base == 'x' || base == 'X') = false :=
    fun base hbase => beq_or_beq_of_isBlank hbase (by decide) (by decide)
  have hbinary : ∀ base (after : List Char), Text.isBlank base = true →
      ((base == 'b' || base == 'B') && after.head?.any isBit) = false := by
    intro base after hbase
    rw [beq_or_beq_of_isBlank hbase (by decide) (by decide), Bool.false_and]
  have hbit : NoBlank isBit := noBlank_of_codes (by decide +kernel)
  rw [numeral_eq, numeral_eq,
    show hexMark cs' = hexMark cs from h.baseMark_eq (fun base _ => hhex base) fun _ _ _ _ => rfl,
    show binaryMark cs' = binaryMark cs from h.baseMark_eq hbinary fun _ _ _ hr => by
      rw [hr.any_head? hbit]]
  split
  · rename_i hmark
    exact h.markedNumeral (fun base _ => hhex base) hmark .hex
      (noBlank_of_number (digit_or_separator fun _ => isAlphanum_of_isHexDigit))
  · split
    · rename_i hmark
      exact h.markedNumeral hbinary hmark .binary (noBlank_of_number
        (digit_or_separator fun _ hbit => isAlphanum_of_isDigit (isDigit_of_isBit hbit)))
    · exact h.decimal language

end Numbers

/-- The same lexemes, and slack in the text behind them. -/
structure Kept (returns : Prop) (reading reading' : Reading) : Prop where
  lexemes : reading'.lexemes = reading.lexemes
  rest : Slack returns reading.rest reading'.rest

section Readers

variable {returns : Prop} {cs cs' : List Char}

theorem Slack.readNumber (h : Slack returns cs cs') (language : Language) :
    Kept returns (Lexeme.readNumber language cs) (Lexeme.readNumber language cs') := by
  have halphanum : NoBlank Char.isAlphanum := noBlank_of_number fun _ => .inl
  obtain ⟨rest', hnumeral, hrest⟩ := h.numeral language
  simp only [Lexeme.readNumber, hnumeral, hrest.takeWhile_eq halphanum]
  exact ⟨rfl, hrest.dropWhile_of_noBlank halphanum⟩

theorem Slack.readDecorator (h : Slack returns cs cs') :
    Kept returns (Lexeme.readDecorator cs) (Lexeme.readDecorator cs') := by
  have hname : NoBlank fun c => isNameContinue c || c == '.' := noBlank_of_codes (by decide +kernel)
  simp only [Lexeme.readDecorator, h.takeWhile_eq hname]
  exact ⟨rfl, h.dropWhile_of_noBlank hname⟩

theorem Slack.prefix_iff (h : Slack returns cs cs') {sign : List Char}
    (hsign : ∀ c ∈ sign, Text.isBlank c = false) : sign <+: cs' ↔ sign <+: cs := by
  induction sign generalizing cs cs' with
  | nil => simp
  | cons x sign ih =>
    have hx : Text.isBlank x = false := hsign x (by simp)
    by_cases hhead : cs.head? = some x
    · obtain ⟨r, rfl⟩ := List.head?_eq_some_iff.mp hhead
      obtain ⟨r', rfl, htail⟩ := h.exists_of_cons fun _ => (ne_of_isBlank rfl hx).symm
      rw [List.cons_prefix_cons, List.cons_prefix_cons,
        ih htail fun c hc => hsign c (List.mem_cons_of_mem _ hc)]
    · have hno : ∀ {cs : List Char}, cs.head? ≠ some x → ¬ x :: sign <+: cs := by
        rintro _ hcs ⟨r, rfl⟩
        exact hcs rfl
      exact iff_of_false (hno (mt (h.head?_iff hx).mp hhead)) (hno hhead)

theorem Slack.longestMatch?_eq (h : Slack returns cs cs') (table : List String)
    (htable : (table.all fun sign => sign.toList.all (!Text.isBlank ·)) = true) :
    longestMatch? table cs' = longestMatch? table cs := by
  have hfilter : (table.map String.toList).filter (·.isPrefixOf cs') =
      (table.map String.toList).filter (·.isPrefixOf cs) := by
    refine List.filter_congr fun sign hmem => ?_
    obtain ⟨entry, hentry, rfl⟩ := List.mem_map.mp hmem
    rw [Bool.eq_iff_iff, List.isPrefixOf_iff_prefix, List.isPrefixOf_iff_prefix]
    refine h.prefix_iff fun c hc => ?_
    simpa using List.all_eq_true.mp (List.all_eq_true.mp htable entry hentry) c hc
  rw [longestMatch?, hfilter, longestMatch?]

theorem Slack.drop_longestMatch? (h : Slack returns cs cs') {table : List String} {sign : List Char}
    (hsign : longestMatch? table cs = some sign) (hsign' : longestMatch? table cs' = some sign) :
    Slack returns (cs.drop sign.length) (cs'.drop sign.length) := by
  obtain ⟨r, rfl⟩ := (longestMatch?_mem hsign).2
  obtain ⟨r', rfl⟩ := (longestMatch?_mem hsign').2
  rw [List.drop_left, List.drop_left]
  exact h.of_append

theorem Slack.readSign (h : Slack returns cs cs') (c : Char) :
    Kept returns (Lexeme.readSign c cs) (Lexeme.readSign c cs') := by
  have hcons : Slack returns (c :: cs) (c :: cs') := .cons c h
  have hmark := hcons.longestMatch?_eq punctuationMarks (by decide +kernel)
  have hsign := hcons.longestMatch?_eq operatorSigns (by decide +kernel)
  unfold Lexeme.readSign
  rw [hmark, hsign]
  split
  · rename_i mark hfound
    exact ⟨rfl, hcons.drop_longestMatch? hfound (hmark.trans hfound)⟩
  · split
    · rename_i sign hfound
      exact ⟨rfl, hcons.drop_longestMatch? hfound (hsign.trans hfound)⟩
    · exact ⟨rfl, h⟩

end Readers

end SourcePrint.Lexeme
