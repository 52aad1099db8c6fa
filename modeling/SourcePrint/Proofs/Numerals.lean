import SourcePrint.Proofs.Lookahead

namespace SourcePrint.Lexeme

/-- Texts alike at which a number also goes on or ends alike. A number goes on at any letter or digit
of ASCII, so no such character begins them unless both have it. -/
inductive NumberAlike : List Char → List Char → Prop where
  | nil : NumberAlike [] []
  | stop {c d : Char} (r r' : List Char) (twin : Twin c d)
      (alphanum : c.isAlphanum = false ∧ d.isAlphanum = false)
      (underscore : c = '_' ↔ d = '_') : NumberAlike (c :: r) (d :: r')
  | ended {c : Char} {mark back : List Char} (dot : c = '.' → mark ≠ []) (cuts : Cuts back) :
      NumberAlike (c :: mark) (c :: (mark ++ back))
  | cons (c : Char) {r r' : List Char} (tail : Alike r r') : NumberAlike (c :: r) (c :: r')

namespace NumberAlike

variable {r r' : List Char}

theorem alike (h : NumberAlike r r') : Alike r r' := by
  cases h with
  | nil => exact .nil
  | stop r r' twin _ _ => exact .stop r r' twin
  | ended dot cuts => exact .ended dot cuts
  | cons c tail => exact .cons c tail

theorem append (h : NumberAlike r r') (t : List Char) : NumberAlike (t ++ r) (t ++ r') := by
  cases t with
  | nil => exact h
  | cons c t => exact .cons c (h.alike.append t)

theorem any_head? (h : NumberAlike r r') {p : Char → Bool}
    (hp : ∀ c, p c = true → c.isAlphanum = true ∨ c = '_' ∨ c = '\'') :
    r.head?.any p = r'.head?.any p := by
  cases h with
  | nil => rfl
  | ended _ _ => rfl
  | cons c _ => rfl
  | @stop c d r r' twin alphanum underscore =>
    simp only [List.head?_cons, Option.any_some]
    have hsame : ∀ x y, x.isAlphanum = false → (x = '_' → y = '_') → (x = '\'' → y = '\'') →
        p x = true → p y = true := by
      intro x y hx hunderscore hapostrophe hpx
      rcases hp x hpx with h | h | h
      · rw [hx] at h
        cases h
      · rwa [hunderscore h, ← h]
      · rwa [hapostrophe h, ← h]
    rw [Bool.eq_iff_iff]
    exact ⟨hsame c d alphanum.1 underscore.mp twin.apostrophe.mp,
      hsame d c alphanum.2 underscore.mpr twin.apostrophe.mpr⟩

end NumberAlike

theorem isSeparator_cases {language : Language} {c : Char} (h : isSeparator language c = true) :
    c = '_' ∨ c = '\'' := by
  simp only [isSeparator, Bool.or_eq_true, Bool.and_eq_true, beq_iff_eq] at h
  exact h.imp_right And.right

theorem isAlphanum_of_isDigit {c : Char} (h : c.isDigit = true) : c.isAlphanum = true := by
  simp [Char.isAlphanum, h]

theorem isAlphanum_of_isHexDigit {c : Char} (h : isHexDigit c = true) : c.isAlphanum = true := by
  simp only [isHexDigit, Bool.or_eq_true, Bool.and_eq_true, decide_eq_true_eq, Char.le_def,
    UInt32.le_iff_toNat_le] at h
  rcases h with (h | ⟨hlow, hhigh⟩) | ⟨hlow, hhigh⟩
  · exact isAlphanum_of_isDigit h
  · have hletter := isAlpha_iff.mpr (.inr ⟨hlow, Nat.le_trans hhigh (by decide)⟩)
    exact Bool.or_eq_true_iff.mpr (.inl hletter)
  · have hletter := isAlpha_iff.mpr (.inl ⟨hlow, Nat.le_trans hhigh (by decide)⟩)
    exact Bool.or_eq_true_iff.mpr (.inl hletter)

theorem isDigit_of_isBit {c : Char} (h : isBit c = true) : c.isDigit = true := by
  simp only [isBit, Bool.or_eq_true, beq_iff_eq] at h
  rcases h with rfl | rfl <;> rfl

theorem digit_or_separator {language : Language} {p : Char → Bool}
    (hp : ∀ c, p c = true → c.isAlphanum = true) (c : Char)
    (h : (p c || isSeparator language c) = true) :
    c.isAlphanum = true ∨ c = '_' ∨ c = '\'' := by
  rcases Bool.or_eq_true_iff.mp h with h | h
  · exact .inl (hp c h)
  · exact .inr (isSeparator_cases h)

theorem isDigitPart_cases {language : Language} (c : Char) (h : isDigitPart language c = true) :
    c.isAlphanum = true ∨ c = '_' ∨ c = '\'' :=
  digit_or_separator (fun _ => isAlphanum_of_isDigit) c h

section Exchange

variable {language : Language} {t r r' : List Char}

theorem fraction_of_digits {after : List Char}
    (h : (after.head?.any fun c => c == '.' || isNameStart c) = false) :
    fraction language ('.' :: after) =
      ('.' :: after.takeWhile (isDigitPart language), after.dropWhile (isDigitPart language)) := by
  simp [fraction, h]

theorem fraction_of_other {cs : List Char}
    (h : ∀ after, cs = '.' :: after →
      (after.head?.any fun c => c == '.' || isNameStart c) = true) :
    fraction language cs = ([], cs) := by
  unfold fraction
  split
  · rename_i after
    rw [if_pos (h after rfl)]
  · rfl

theorem Alike.pointed_eq (h : Alike r r') :
    (r.head?.any fun c => c == '.' || isNameStart c) =
      (r'.head?.any fun c => c == '.' || isNameStart c) := by
  apply h.any_head?
  intro c d twin
  rw [twin.nameStart, twin.beq_eq (by decide)]

/-- A dot that begins one of two alike texts begins the other, and what follows the dots decides
alike whether a number takes them. -/
theorem Alike.exists_of_dot {s : List Char} (h : Alike r ('.' :: s)) :
    ∃ s', r = '.' :: s' ∧ (s'.head?.any fun c => c == '.' || isNameStart c) =
      (s.head?.any fun c => c == '.' || isNameStart c) := by
  cases h with
  | cons _ tail => exact ⟨_, rfl, tail.pointed_eq⟩
  | stop _ _ twin => exact absurd twin.sign.2 (by decide)
  | @ended _ mark back dot _ =>
    obtain ⟨c, mark, rfl⟩ := List.exists_cons_of_ne_nil (dot rfl)
    exact ⟨_, rfl, rfl⟩

theorem fraction_exchange (hr : NumberAlike r r') (h : fraction language (t ++ r) = (t, r)) :
    fraction language (t ++ r') = (t, r') := by
  cases t with
  | nil =>
    apply fraction_of_other
    rintro after' rfl
    obtain ⟨after, rfl, hafter⟩ := hr.alike.exists_of_dot
    rw [← hafter]
    cases hpointed : after.head?.any fun c => c == '.' || isNameStart c with
    | true => rfl
    | false =>
      rw [List.nil_append, fraction_of_digits hpointed] at h
      cases h
  | cons c t =>
    rw [List.cons_append] at h ⊢
    obtain ⟨rfl, hpointed⟩ : c = '.' ∧
        ((t ++ r).head?.any fun c => c == '.' || isNameStart c) = false := by
      unfold fraction at h
      split at h
      · rename_i after hcs
        obtain ⟨rfl, rfl⟩ := List.cons.inj hcs
        split at h
        · cases h
        · rename_i hpointed
          exact ⟨rfl, by simpa using hpointed⟩
      · cases h
    rw [fraction_of_digits hpointed] at h
    obtain ⟨htake, hdrop⟩ :=
      takeWhile_exchange (congrArg Prod.snd h) (hr.any_head? isDigitPart_cases)
    rw [(hr.alike.append t).pointed_eq] at hpointed
    rw [fraction_of_digits hpointed, htake, hdrop]

theorem NumberAlike.exponentMark_eq (h : NumberAlike r r') : exponentMark r = exponentMark r' := by
  have hother : ∀ {e : Char} (s : List Char), e.isAlphanum = false → exponentMark (e :: s) = [] := by
    intro e s he
    have hmark : (e == 'e' || e == 'E') = false := by
      simp only [Bool.or_eq_false_iff, beq_eq_false_iff_ne]
      constructor <;> rintro rfl <;> cases he
    cases s with
    | nil => rfl
    | cons d s => simp [exponentMark, hmark]
  have hsign : ∀ {e d : Char} (s : List Char), d.isDigit = false → isSignCharacter d = false →
      exponentMark (e :: d :: s) = [] := by
    intro e d s hdigit hsign
    have hmark : (d == '+' || d == '-') = false := by
      simp only [Bool.or_eq_false_iff, beq_eq_false_iff_ne]
      constructor <;> rintro rfl <;> revert hsign <;> decide
    simp [exponentMark, hdigit, hmark]
  cases h with
  | nil => rfl
  | stop r r' twin alphanum _ => rw [hother r alphanum.1, hother r' alphanum.2]
  | @ended e mark back _ cuts =>
    cases mark with
    | nil =>
      cases back with
      | nil => rfl
      | cons d back => exact (hsign back (cuts d rfl).1 (cuts d rfl).2).symm
    | cons d mark =>
      simp only [List.cons_append, exponentMark, cuts.any_head?_append fun _ => Or.inl]
  | cons e tail =>
    cases tail with
    | nil => rfl
    | stop r r' twin =>
      rw [hsign r twin.digit.1 twin.sign.1, hsign r' twin.digit.2 twin.sign.2]
    | ended _ cuts => simp only [exponentMark, cuts.any_head?_append fun _ => Or.inl]
    | cons d tail =>
      simp only [exponentMark, tail.any_head? fun c d twin => twin.isDigit_eq]

theorem exponent_exchange (hr : NumberAlike r r') (h : exponent (t ++ r) = (t, r)) :
    exponent (t ++ r') = (t, r') := by
  have hmark := (hr.append t).exponentMark_eq
  have happend := exponentMark_append (t ++ r)
  unfold exponent at h ⊢
  rw [← hmark]
  cases hm : exponentMark (t ++ r) with
  | nil =>
    rw [hm] at h
    obtain rfl : [] = t := congrArg Prod.fst h
    rfl
  | cons e mark =>
    rw [hm] at h
    obtain ⟨ht, hrest⟩ := Prod.mk.inj h
    generalize ((t ++ r).drop (e :: mark).length).takeWhile Char.isDigit = digits at ht
    subst ht
    simp only [List.append_assoc, List.drop_left] at hrest ⊢
    obtain ⟨htake, hdrop⟩ := takeWhile_exchange hrest
      (hr.any_head? fun c hc => .inl (isAlphanum_of_isDigit hc))
    rw [htake, hdrop]

theorem decimal_exchange {kind : NumberKind} (hr : NumberAlike r r')
    (h : decimal language (t ++ r) = ⟨kind, t, r⟩) :
    decimal language (t ++ r') = ⟨kind, t, r'⟩ := by
  have happend : (t ++ r).takeWhile (isDigitPart language) ++
      (t ++ r).dropWhile (isDigitPart language) = t ++ r := List.takeWhile_append_dropWhile
  unfold decimal at h
  generalize (t ++ r).takeWhile (isDigitPart language) = whole at h happend
  generalize hbehind : (t ++ r).dropWhile (isDigitPart language) = behind at h happend
  have hbehindAppend := fraction_append language behind
  rcases hpart : fraction language behind with ⟨point, rest⟩
  have hrestAppend := exponent_append rest
  rcases hpower : exponent rest with ⟨power, last⟩
  simp only [hpart, hpower, Numeral.mk.injEq] at h hbehindAppend hrestAppend
  obtain ⟨hkind, rfl, rfl⟩ := h
  subst hrestAppend hbehindAppend
  have hpower' := exponent_exchange hr hpower
  have hpart' := fraction_exchange (hr.append power) hpart
  simp only [List.append_assoc] at hbehind hpart' ⊢
  obtain ⟨htake, hdrop⟩ := takeWhile_exchange hbehind
    (((hr.append power).append point).any_head? isDigitPart_cases)
  unfold decimal
  simp only [htake, hdrop, hpart', hpower', hkind, List.append_assoc]

/-- A zero and the letter of a base behind it. -/
def baseMark (test : Char → List Char → Bool) : List Char → Bool
  | zero :: base :: after => zero == '0' && test base after
  | _ => false

def hexMark : List Char → Bool := baseMark fun base _ => base == 'x' || base == 'X'

def binaryMark : List Char → Bool :=
  baseMark fun base after => (base == 'b' || base == 'B') && after.head?.any isBit

/-- A mark of two characters and the digits behind it. -/
def markedNumeral (kind : NumberKind) (p : Char → Bool) (cs : List Char) : Numeral :=
  ⟨kind, cs.take 2 ++ (cs.drop 2).takeWhile p, (cs.drop 2).dropWhile p⟩

theorem numeral_eq (language : Language) (cs : List Char) :
    numeral language cs =
      if hexMark cs then markedNumeral .hex (fun c => isHexDigit c || isSeparator language c) cs
      else if binaryMark cs then
        markedNumeral .binary (fun c => isBit c || isSeparator language c) cs
      else decimal language cs := by
  unfold numeral hexMark binaryMark
  split
  · simp [baseMark, markedNumeral]
  · rename_i hcs
    have hno : ∀ test, baseMark test cs = false := by
      intro test
      unfold baseMark
      split
      · rename_i zero base after
        have hzero : zero ≠ '0' := fun h => hcs base after (h ▸ rfl)
        simp [hzero]
      · rfl
    rw [hno, hno]
    rfl

theorem baseMark_eq {test : Char → List Char → Bool} {zero : Char} (h : NumberAlike r r')
    (hletter : ∀ base after, test base after = true → base.isAlphanum = true)
    (hafter : ∀ base after after', after.head?.any isBit = after'.head?.any isBit →
      test base after = test base after') :
    baseMark test (zero :: r) = baseMark test (zero :: r') := by
  cases h with
  | nil => rfl
  | stop r r' _ alphanum _ =>
    have hno : ∀ {base : Char} (after : List Char), base.isAlphanum = false →
        test base after = false := by
      intro base after hbase
      rw [← Bool.not_eq_true]
      intro htest
      rw [hletter base after htest] at hbase
      cases hbase
    simp [baseMark, hno r alphanum.1, hno r' alphanum.2]
  | @ended base mark back _ cuts =>
    have hbits := cuts.any_head?_append (fun _ hd => .inl (isDigit_of_isBit hd)) mark
    simp only [baseMark, hafter base _ _ hbits]
  | cons base tail =>
    have hbit : ∀ c, c.isDigit = false → isBit c = false := by
      intro c hc
      rw [← Bool.not_eq_true] at hc ⊢
      exact fun h => hc (isDigit_of_isBit h)
    have hbits := tail.any_head? fun c d twin =>
      (hbit c twin.digit.1).trans (hbit d twin.digit.2).symm
    simp only [baseMark, hafter base _ _ hbits]

theorem hexMark_eq {zero : Char} (h : NumberAlike r r') :
    hexMark (zero :: r) = hexMark (zero :: r') := by
  refine baseMark_eq h ?_ fun _ _ _ _ => rfl
  intro base after htest
  simp only [Bool.or_eq_true, beq_iff_eq] at htest
  rcases htest with rfl | rfl <;> rfl

theorem binaryMark_eq {zero : Char} (h : NumberAlike r r') :
    binaryMark (zero :: r) = binaryMark (zero :: r') := by
  refine baseMark_eq h ?_ ?_
  · intro base after htest
    simp only [Bool.and_eq_true, Bool.or_eq_true, beq_iff_eq] at htest
    rcases htest.1 with rfl | rfl <;> rfl
  · intro base after after' hbits
    rw [hbits]

theorem two_le_length_of_baseMark {test : Char → List Char → Bool} {cs : List Char}
    (h : baseMark test cs = true) : 2 ≤ cs.length := by
  unfold baseMark at h
  split at h
  · simp
  · cases h

theorem markedNumeral_exchange {kind kind' : NumberKind} {p : Char → Bool} (hr : NumberAlike r r')
    (hp : ∀ c, p c = true → c.isAlphanum = true ∨ c = '_' ∨ c = '\'')
    (hlength : 2 ≤ (t ++ r).length) (h : markedNumeral kind p (t ++ r) = ⟨kind', t, r⟩) :
    markedNumeral kind p (t ++ r') = ⟨kind', t, r'⟩ := by
  obtain ⟨hkind, htext, hrest⟩ := Numeral.mk.inj h
  have hmark : 2 ≤ t.length := by
    have := congrArg List.length htext
    simp only [List.length_append, List.length_take] at this hlength
    omega
  match t, hmark with
  | a :: b :: t, _ =>
    obtain ⟨htake, hdrop⟩ := takeWhile_exchange hrest (hr.any_head? hp)
    simp [markedNumeral, hkind, htake, hdrop]

theorem numeral_exchange {c : Char} {kind : NumberKind} (hr : NumberAlike r r')
    (h : numeral language (c :: t ++ r) = ⟨kind, c :: t, r⟩) :
    numeral language (c :: t ++ r') = ⟨kind, c :: t, r'⟩ := by
  have hhex : hexMark (c :: t ++ r) = hexMark (c :: t ++ r') := hexMark_eq (hr.append t)
  have hbinary : binaryMark (c :: t ++ r) = binaryMark (c :: t ++ r') :=
    binaryMark_eq (hr.append t)
  rw [numeral_eq] at h ⊢
  rw [← hhex, ← hbinary]
  by_cases hx : hexMark (c :: t ++ r) = true
  · rw [if_pos hx] at h ⊢
    exact markedNumeral_exchange hr (digit_or_separator fun _ => isAlphanum_of_isHexDigit)
      (two_le_length_of_baseMark hx) h
  rw [if_neg hx] at h ⊢
  by_cases hb : binaryMark (c :: t ++ r) = true
  · rw [if_pos hb] at h ⊢
    exact markedNumeral_exchange hr
      (digit_or_separator fun _ hd => isAlphanum_of_isDigit (isDigit_of_isBit hd))
      (two_le_length_of_baseMark hb) h
  · rw [if_neg hb] at h ⊢
    exact decimal_exchange hr h

/-- The text behind a number can be exchanged for one at which a number ends too. -/
theorem readNumber_exchange {c : Char} {lexemes : List Lexeme} (hr : NumberAlike r r')
    (hc : startsNumber c (t ++ r) = true)
    (h : readNumber language (c :: t ++ r) = ⟨lexemes, r⟩) :
    readNumber language (c :: t ++ r') = ⟨lexemes, r'⟩ := by
  have hne := text_numeral_ne_nil language hc
  have happend := numeral_append language (c :: (t ++ r))
  rw [List.cons_append] at h
  unfold readNumber at h
  rcases hn : numeral language (c :: (t ++ r)) with ⟨kind, text, rest⟩
  rw [hn] at h hne happend
  obtain ⟨hlexemes, hrest⟩ := Reading.mk.inj h
  simp only at hlexemes hrest hne happend
  have hsuffix : rest.takeWhile Char.isAlphanum ++ rest.dropWhile Char.isAlphanum = rest :=
    List.takeWhile_append_dropWhile
  rw [hrest] at hsuffix
  generalize rest.takeWhile Char.isAlphanum = suffix at hlexemes hsuffix
  subst hsuffix
  cases text with
  | nil => exact absurd rfl hne
  | cons d text =>
    rw [List.cons_append] at happend
    obtain ⟨rfl, htail⟩ := List.cons.inj happend
    obtain rfl : text ++ suffix = t :=
      List.append_cancel_right ((List.append_assoc ..).trans htail)
    have hn' : numeral language (d :: text ++ (suffix ++ r')) =
        ⟨kind, d :: text, suffix ++ r'⟩ := by
      apply numeral_exchange (hr.append suffix)
      rw [List.cons_append, htail, hn]
    obtain ⟨htake, hdrop⟩ := takeWhile_exchange hrest (hr.any_head? fun c hc => .inl hc)
    unfold readNumber
    simp only [List.cons_append, List.append_assoc] at hn' ⊢
    simp only [hn', htake, hdrop, ← hlexemes]
    rfl

end Exchange

end SourcePrint.Lexeme
