import SourcePrint.Proofs.Margins
import SourcePrint.Proofs.Tiling

namespace SourcePrint

namespace Lexeme

/-- The characters that occur in punctuation marks and operators. -/
def isSignCharacter (c : Char) : Bool :=
  (punctuationMarks ++ operatorSigns).any fun sign => sign.toList.contains c

/-- Two characters at which every reading, a number's apart, goes on or ends alike. No sign and no
number goes past either of them, so what follows them is not looked at. -/
structure Twin (c d : Char) : Prop where
  newline : c = '\n' ↔ d = '\n'
  carriageReturn : c = '\r' ↔ d = '\r'
  quote : c = '"' ↔ d = '"'
  apostrophe : c = '\'' ↔ d = '\''
  backslash : c = '\\' ↔ d = '\\'
  blank : Text.isBlank c = Text.isBlank d
  nameStart : isNameStart c = isNameStart d
  nameContinue : isNameContinue c = isNameContinue d
  digit : c.isDigit = false ∧ d.isDigit = false
  sign : isSignCharacter c = false ∧ isSignCharacter d = false

/-- A text that neither a sign nor a number in front of it goes on with. -/
def Cuts (back : List Char) : Prop :=
  ∀ d ∈ back.head?, d.isDigit = false ∧ isSignCharacter d = false

/-- Two texts that agree up to a pair of twins, whatever follows these, or up to the end of the first
where the second goes on with what is cut off. A dot looks at the character behind it, so it is not
the last that they share. -/
inductive Alike : List Char → List Char → Prop where
  | nil : Alike [] []
  | stop {c d : Char} (r r' : List Char) (twin : Twin c d) : Alike (c :: r) (d :: r')
  | ended {c : Char} {mark back : List Char} (dot : c = '.' → mark ≠ []) (cuts : Cuts back) :
      Alike (c :: mark) (c :: (mark ++ back))
  | cons (c : Char) {r r' : List Char} (tail : Alike r r') : Alike (c :: r) (c :: r')

namespace Alike

theorem append {r r' : List Char} (h : Alike r r') (t : List Char) : Alike (t ++ r) (t ++ r') := by
  induction t with
  | nil => exact h
  | cons c t ih => exact .cons c ih

theorem nil_iff {r r' : List Char} (h : Alike r r') : r = [] ↔ r' = [] := by
  cases h <;> simp

theorem any_head? {r r' : List Char} (h : Alike r r') {p : Char → Bool}
    (hp : ∀ c d, Twin c d → p c = p d) : r.head?.any p = r'.head?.any p := by
  cases h with
  | nil => rfl
  | stop r r' twin => simpa using hp _ _ twin
  | ended _ _ => rfl
  | cons c _ => rfl

theorem head?_iff {r r' : List Char} (h : Alike r r') {x : Char}
    (hx : ∀ c d, Twin c d → (c = x ↔ d = x)) : r.head? = some x ↔ r'.head? = some x := by
  cases h with
  | nil => rfl
  | stop r r' twin => simpa using hx _ _ twin
  | ended _ _ => rfl
  | cons c _ => rfl

end Alike

namespace Twin

theorem eq_iff {c d x : Char} (h : Twin c d) (hx : isSignCharacter x = true) :
    c = x ↔ d = x := by
  have hne : ∀ e, isSignCharacter e = false → e ≠ x := by
    rintro e he rfl
    rw [hx] at he
    cases he
  simp [hne c h.sign.1, hne d h.sign.2]

theorem beq_eq {c d x : Char} (h : Twin c d) (hx : isSignCharacter x = true) :
    (c == x) = (d == x) := by
  rw [Bool.eq_iff_iff, beq_iff_eq, beq_iff_eq, h.eq_iff hx]

theorem isDigit_eq {c d : Char} (h : Twin c d) : c.isDigit = d.isDigit :=
  h.digit.1.trans h.digit.2.symm

/-- A character at which no sign and no digit can go on is its own twin. -/
theorem refl {c : Char} (hdigit : c.isDigit = false) (hsign : isSignCharacter c = false) :
    Twin c c :=
  ⟨.rfl, .rfl, .rfl, .rfl, .rfl, rfl, rfl, rfl, ⟨hdigit, hdigit⟩, ⟨hsign, hsign⟩⟩

end Twin

theorem isSignCharacter_of_mem {sign : String} {c : Char}
    (h : sign ∈ punctuationMarks ++ operatorSigns) (hc : c ∈ sign.toList) :
    isSignCharacter c = true :=
  List.any_eq_true.mpr ⟨sign, h, List.contains_iff_mem.mpr hc⟩

theorem Cuts.any_head?_append {back : List Char} (h : Cuts back) {p : Char → Bool}
    (hp : ∀ d, p d = true → d.isDigit = true ∨ isSignCharacter d = true) (mark : List Char) :
    (mark ++ back).head?.any p = mark.head?.any p := by
  cases mark with
  | cons c mark => rfl
  | nil =>
    cases back with
    | nil => rfl
    | cons d back =>
      obtain ⟨hdigit, hsign⟩ := h d rfl
      have hd : p d = false := by
        rw [← Bool.not_eq_true]
        intro htrue
        rcases hp d htrue with h | h
        · rw [hdigit] at h
          cases h
        · rw [hsign] at h
          cases h
      simpa using hd

theorem Cuts.prefix_iff {back sign : List Char} (h : Cuts back)
    (hsign : ∀ c ∈ sign, isSignCharacter c = true) (mark : List Char) :
    sign <+: mark ++ back ↔ sign <+: mark := by
  induction mark generalizing sign with
  | nil =>
    cases sign with
    | nil => simp
    | cons x sign =>
      have hx := h.any_head?_append (p := (· == x)) (by
        intro d hd
        rw [beq_iff_eq] at hd
        exact .inr (hd ▸ hsign x (by simp))) []
      cases back with
      | nil => rfl
      | cons d back =>
        have hne : d ≠ x := by simpa using hx
        simp [List.cons_prefix_cons, hne.symm]
  | cons c mark ih =>
    cases sign with
    | nil => simp
    | cons x sign =>
      rw [List.cons_append, List.cons_prefix_cons, List.cons_prefix_cons,
        ih fun y hy => hsign y (List.mem_cons_of_mem _ hy)]

/-- Which signs begin a text is decided before the first twin. -/
theorem Alike.prefix_iff {r r' sign : List Char} (h : Alike r r')
    (hsign : ∀ c ∈ sign, isSignCharacter c = true) : sign <+: r ↔ sign <+: r' := by
  induction h generalizing sign with
  | nil => rfl
  | stop r r' twin =>
    cases sign with
    | nil => simp
    | cons x sign =>
      have hx := hsign x (by simp)
      simp only [List.cons_prefix_cons]
      constructor
      · rintro ⟨rfl, _⟩
        rw [twin.sign.1] at hx
        cases hx
      · rintro ⟨rfl, _⟩
        rw [twin.sign.2] at hx
        cases hx
  | @ended c mark back _ cuts => exact (cuts.prefix_iff hsign (c :: mark)).symm
  | cons c _ ih =>
    cases sign with
    | nil => simp
    | cons x sign =>
      rw [List.cons_prefix_cons, List.cons_prefix_cons,
        ih fun y hy => hsign y (List.mem_cons_of_mem _ hy)]

theorem Alike.longestMatch?_eq {r r' : List Char} (h : Alike r r') {table : List String}
    (htable : ∀ sign ∈ table, sign ∈ punctuationMarks ++ operatorSigns) :
    longestMatch? table r = longestMatch? table r' := by
  unfold longestMatch?
  congr 1
  apply List.filter_congr
  intro entry hentry
  obtain ⟨sign, hsign, rfl⟩ := List.mem_map.mp hentry
  have hiff := h.prefix_iff fun c hc => isSignCharacter_of_mem (htable sign hsign) hc
  rw [Bool.eq_iff_iff, List.isPrefixOf_iff_prefix, List.isPrefixOf_iff_prefix]
  exact hiff

end Lexeme

/-! The text behind a run can be exchanged for one at which the run would have ended too. -/

theorem takeWhile_exchange {p : Char → Bool} {t r r' : List Char} (h : (t ++ r).dropWhile p = r)
    (hr : r.head?.any p = r'.head?.any p) :
    (t ++ r').takeWhile p = t ∧ (t ++ r').dropWhile p = r' := by
  induction t with
  | nil =>
    have hstop : r.head?.any p = false := by
      cases r with
      | nil => rfl
      | cons c r =>
        by_cases hc : p c = true
        · rw [List.nil_append, List.dropWhile_cons_of_pos hc] at h
          have hlength := length_dropWhile_le p r
          rw [h, List.length_cons] at hlength
          omega
        · simpa using hc
    rw [hstop] at hr
    cases r' with
    | nil => simp
    | cons d r' =>
      have hd : p d = false := by simpa using hr.symm
      simp [hd]
  | cons c t ih =>
    by_cases hc : p c = true
    · rw [List.cons_append, List.dropWhile_cons_of_pos hc] at h
      obtain ⟨htake, hdrop⟩ := ih h
      simp [hc, htake, hdrop]
    · rw [List.cons_append, List.dropWhile_cons_of_neg hc] at h
      have hlength := congrArg List.length h
      simp only [List.length_cons, List.length_append] at hlength
      omega

theorem takeWhile_of_all {p : Char → Bool} {t r : List Char} (ht : t.all p = true)
    (hr : r.head?.any p = false) : (t ++ r).takeWhile p = t ∧ (t ++ r).dropWhile p = r := by
  have hdrop : (t ++ []).dropWhile p = [] := by
    rw [List.dropWhile_append_of_pos (List.all_eq_true.mp ht), List.dropWhile_nil]
  exact takeWhile_exchange hdrop hr.symm

theorem takeWhile_take_exchange {p : Char → Bool} {n : Nat} {t r r' : List Char}
    (h : ((t ++ r).take n).takeWhile p = t) (hr : r.head?.any p = r'.head?.any p) :
    ((t ++ r').take n).takeWhile p = t := by
  have hle : t.length ≤ n := by
    rw [← h]
    exact Nat.le_trans (List.takeWhile_prefix _).length_le (List.length_take_le n _)
  have hfill : ∀ s : List Char, (t ++ s).take n = t ++ s.take (n - t.length) := by
    intro s
    rw [List.take_append, List.take_of_length_le hle]
  have hheads : (r.take (n - t.length)).head?.any p = (r'.take (n - t.length)).head?.any p := by
    rw [List.head?_take, List.head?_take]
    split
    · rfl
    · exact hr
  rw [hfill r] at h
  have hdrop : (t ++ r.take (n - t.length)).dropWhile p = r.take (n - t.length) := by
    have happend : (t ++ r.take (n - t.length)).takeWhile p ++
        (t ++ r.take (n - t.length)).dropWhile p = t ++ r.take (n - t.length) :=
      List.takeWhile_append_dropWhile
    rw [h] at happend
    exact List.append_cancel_left happend
  rw [hfill r']
  exact (takeWhile_exchange hdrop hheads).1

theorem Reading.while_exchange {category : Category} {p : Char → Bool} {t r r' : List Char}
    {lexemes : List Lexeme} (h : Reading.while category p (t ++ r) = ⟨lexemes, r⟩)
    (hr : r.head?.any p = r'.head?.any p) :
    Reading.while category p (t ++ r') = ⟨lexemes, r'⟩ := by
  obtain ⟨hlexemes, hrest⟩ := Reading.mk.injEq .. ▸ h
  obtain ⟨htake, hdrop⟩ := takeWhile_exchange hrest hr
  have hself := (takeWhile_exchange hrest rfl).1
  rw [Reading.while, Reading.one, htake, hdrop, ← hlexemes, hself]

namespace Run

variable {σ : Type} {move : σ → Char → Move σ}

/-- A run ends in front of this text. -/
def StopsAt (move : σ → Char → Move σ) (state : σ) : List Char → Prop
  | [] => True
  | c :: _ => move state c = .stop

theorem resume_of_stopsAt {taken r : List Char} {state : σ} (h : StopsAt move state r) :
    resume move taken state r = ⟨taken.reverse, r, false⟩ := by
  cases r with
  | nil => rfl
  | cons c r => rw [resume, show move state c = .stop from h]

theorem resume_of_take {state : σ} {plain : List Char}
    (h : ∀ c ∈ plain, move state c = .take state) (taken rest : List Char) :
    resume move taken state (plain ++ rest) = resume move (plain.reverse ++ taken) state rest := by
  induction plain generalizing taken with
  | nil => rfl
  | cons c plain ih =>
    rw [List.cons_append, resume, h c (by simp)]
    simp only
    rw [ih fun d hd => h d (List.mem_cons_of_mem _ hd)]
    simp

theorem length_resume_rest_le (move : σ → Char → Move σ) (taken cs : List Char) (state : σ) :
    (resume move taken state cs).rest.length ≤ cs.length := by
  induction cs generalizing taken state with
  | nil => simp [resume]
  | cons c cs ih =>
    simp only [resume]
    split
    · exact Nat.le_succ_of_le (ih _ _)
    · simp
    · simp

theorem stopsAt_of_rest_eq {taken r : List Char} {state : σ}
    (h : (resume move taken state r).rest = r) : StopsAt move state r := by
  cases r with
  | nil => trivial
  | cons c r =>
    have hlength := congrArg List.length h
    rw [resume] at hlength
    cases hmove : move state c with
    | stop => exact hmove
    | close =>
      rw [hmove] at hlength
      simp at hlength
    | take next =>
      rw [hmove] at hlength
      have hle := length_resume_rest_le move (c :: taken) r next
      simp only [List.length_cons] at hlength
      omega

theorem resume_exchange {t r r' taken run : List Char} {state : σ} {closed : Bool}
    (h : resume move taken state (t ++ r) = ⟨run, r, closed⟩)
    (hr : ∀ state, StopsAt move state r ↔ StopsAt move state r') :
    resume move taken state (t ++ r') = ⟨run, r', closed⟩ := by
  induction t generalizing taken state with
  | nil =>
    rw [List.nil_append] at h ⊢
    have hstop : StopsAt move state r := stopsAt_of_rest_eq (congrArg Run.rest h)
    rw [resume_of_stopsAt hstop] at h
    rw [resume_of_stopsAt ((hr state).mp hstop)]
    cases h
    rfl
  | cons c t ih =>
    rw [List.cons_append, resume] at h ⊢
    cases hmove : move state c with
    | take next =>
      rw [hmove] at h
      exact ih h
    | close =>
      rw [hmove] at h
      simp only [Run.mk.injEq] at h
      obtain ⟨rfl, hrest, rfl⟩ := h
      have ht : t = [] := by simpa using hrest
      rw [ht]
      rfl
    | stop =>
      rw [hmove] at h
      have hlength := congrArg (fun run : Run => run.rest.length) h
      simp only [List.length_cons, List.length_append] at hlength
      omega

/-- The text behind a run can be exchanged for one in front of which the run ends too. -/
theorem read_exchange {t r r' : List Char} {state : σ} {closed : Bool}
    (h : read move state (t ++ r) = ⟨t, r, closed⟩)
    (hr : ∀ state, StopsAt move state r ↔ StopsAt move state r') :
    read move state (t ++ r') = ⟨t, r', closed⟩ :=
  resume_exchange h hr

theorem read_eq_of_rest {t r : List Char} {state : σ} (h : (read move state (t ++ r)).rest = r) :
    read move state (t ++ r) = ⟨t, r, (read move state (t ++ r)).closed⟩ := by
  have happend := read_append move state (t ++ r)
  rw [h] at happend
  have htaken := List.append_cancel_right happend
  generalize read move state (t ++ r) = run at h htaken
  subst h htaken
  rfl

end Run

namespace Lexeme

theorem Alike.stopsAt_iff {σ : Type} {move : σ → Char → Move σ} {r r' : List Char}
    (h : Alike r r') (hmove : ∀ state c d, Twin c d → (move state c = .stop ↔ move state d = .stop))
    (state : σ) : Run.StopsAt move state r ↔ Run.StopsAt move state r' := by
  cases h with
  | nil => rfl
  | stop r r' twin => exact hmove state _ _ twin
  | ended _ _ => rfl
  | cons c _ => rfl

/-- The text behind a run can be exchanged for one like it. -/
theorem Alike.read_exchange {σ : Type} {move : σ → Char → Move σ} {t r r' : List Char} {state : σ}
    (hr : Alike r r') (hmove : ∀ state c d, Twin c d → (move state c = .stop ↔ move state d = .stop))
    (h : (Run.read move state (t ++ r)).rest = r) :
    Run.read move state (t ++ r) = ⟨t, r, (Run.read move state (t ++ r)).closed⟩ ∧
      Run.read move state (t ++ r') = ⟨t, r', (Run.read move state (t ++ r)).closed⟩ := by
  have hrun := Run.read_eq_of_rest h
  exact ⟨hrun, Run.read_exchange hrun (hr.stopsAt_iff hmove)⟩

theorem blockMove_stop_iff (star : Bool) (c d : Char) (_ : Twin c d) :
    blockMove star c = .stop ↔ blockMove star d = .stop := by
  have hne : ∀ e, blockMove star e ≠ .stop := by
    intro e
    unfold blockMove
    split <;> simp
  simp [hne]

theorem directiveMove_stop_iff (escaped : Bool) (c d : Char) (twin : Twin c d) :
    directiveMove escaped c = .stop ↔ directiveMove escaped d = .stop := by
  have heq : ∀ e, directiveMove escaped e = .stop ↔ e = '\n' ∧ escaped = false := by
    intro e
    unfold directiveMove
    by_cases he : e = '\n'
    · cases escaped <;> simp [he]
    · simp only [he, if_false, false_and, iff_false]
      repeat' split
      all_goals simp
  rw [heq, heq, twin.newline]

theorem stringMove_eq_stop (state : Unit) (c : Char) :
    stringMove state c = .stop ↔ c = '\n' ∨ c = '\\' := by
  unfold stringMove
  by_cases hc : c = '"'
  · subst hc
    simp
  · simp only [hc, if_false]
    split <;> simp_all

theorem stringMove_stop_iff (state : Unit) (c d : Char) (twin : Twin c d) :
    stringMove state c = .stop ↔ stringMove state d = .stop := by
  rw [stringMove_eq_stop, stringMove_eq_stop, twin.newline, twin.backslash]

theorem characterMove_stop_iff (escaped : Bool) (c d : Char) (twin : Twin c d) :
    characterMove escaped c = .stop ↔ characterMove escaped d = .stop := by
  have heq : ∀ e, characterMove escaped e = .stop ↔ e = '\n' ∧ escaped = false := by
    intro e
    unfold characterMove
    cases escaped with
    | true => simp
    | false =>
      by_cases he : e = '\n'
      · simp [he]
      · simp only [he, Bool.false_eq_true, if_false, false_and, iff_false]
        split <;> simp
  rw [heq, heq, twin.newline]

theorem characterLiteral_exchange {opening t r r' : List Char} {lexemes : List Lexeme}
    (hr : Alike r r') (h : characterLiteral opening (t ++ r) = ⟨lexemes, r⟩) :
    characterLiteral opening (t ++ r') = ⟨lexemes, r'⟩ := by
  obtain ⟨hrun, hrun'⟩ := hr.read_exchange characterMove_stop_iff (congrArg Reading.rest h)
  rw [characterLiteral, hrun] at h
  rw [characterLiteral, hrun']
  cases h
  rfl

theorem escapeTail_exchange {t r r' : List Char} (h : escapeTail (t ++ r) = (t, r))
    (hnil : r = [] ↔ r' = []) (hhex : r.head?.any isHexDigit = r'.head?.any isHexDigit)
    (hoctal : r.head?.any isOctalDigit = r'.head?.any isOctalDigit) :
    escapeTail (t ++ r') = (t, r') := by
  cases t with
  | nil =>
    have hr : r = [] := by
      cases r with
      | nil => rfl
      | cons c r =>
        have hlength := congrArg (fun parts : List Char × List Char => parts.1.length) h
        simp only [List.nil_append, escapeTail] at hlength
        repeat' split at hlength
        all_goals simp at hlength
    rw [hnil.mp hr]
    rfl
  | cons c t =>
    simp only [List.cons_append, escapeTail] at h ⊢
    split at h
    · rename_i hc
      obtain ⟨_, hrest⟩ := Prod.mk.inj h
      obtain ⟨htake, hdrop⟩ := takeWhile_exchange hrest hhex
      rw [if_pos hc, htake, hdrop]
    · rename_i hc
      rw [if_neg hc]
      split at h
      · rename_i hdigit
        rw [if_pos hdigit]
        have hdigits : ((t ++ r).take 2).takeWhile isOctalDigit = t := by
          simpa using congrArg Prod.fst h
        rw [takeWhile_take_exchange hdigits hoctal, List.drop_left]
      · rename_i hdigit
        rw [if_neg hdigit]
        obtain ⟨ht, hrest⟩ := Prod.mk.inj h
        obtain rfl : t = [] := by simpa using ht.symm
        rfl

theorem stringParts_of_closed {opening cs taken rest : List Char}
    (h : Run.read stringMove () cs = ⟨taken, rest, true⟩) :
    stringParts opening cs = ⟨stretch (opening ++ taken), rest⟩ := by
  unfold stringParts
  simp [h]

theorem stringParts_of_escape {opening cs taken after : List Char}
    (h : Run.read stringMove () cs = ⟨taken, '\\' :: after, false⟩) :
    stringParts opening cs =
      ⟨stretch (opening ++ taken) ++ ⟨.string .escape, '\\' :: (escapeTail after).1⟩ ::
          (stringParts [] (escapeTail after).2).lexemes,
        (stringParts [] (escapeTail after).2).rest⟩ := by
  rw [stringParts]
  simp only [h, Bool.false_eq_true, if_false]
  split
  · rename_i after' hafter
    rw [h] at hafter
    cases hafter
    rfl
  · rename_i hno
    exact absurd (congrArg Run.rest h) (hno after)

theorem stringParts_of_stop {opening cs taken rest : List Char}
    (h : Run.read stringMove () cs = ⟨taken, rest, false⟩) (hrest : rest.head? ≠ some '\\') :
    stringParts opening cs = ⟨stretch (opening ++ taken), rest⟩ := by
  rw [stringParts]
  simp only [h, Bool.false_eq_true, if_false]
  split
  · rename_i after hafter
    rw [h] at hafter
    exact absurd (congrArg List.head? hafter) hrest
  · rw [h]

theorem stringParts_stops {opening cs : List Char} (h : (stringParts opening cs).rest = cs) :
    cs = [] ∨ cs.head? = some '\n' := by
  have hle := Run.length_read_rest_le stringMove () cs
  rcases hrun : Run.read stringMove () cs with ⟨taken, rest, closed⟩
  rw [hrun] at hle
  cases closed with
  | true =>
    rw [stringParts_of_closed hrun] at h
    have hstop : Run.StopsAt stringMove () cs :=
      Run.stopsAt_of_rest_eq ((congrArg Run.rest hrun).trans h)
    have hclosed := (Run.resume_of_stopsAt hstop).symm.trans hrun
    simp at hclosed
  | false =>
    by_cases hback : rest.head? = some '\\'
    · obtain ⟨after, rfl⟩ := List.head?_eq_some_iff.mp hback
      rw [stringParts_of_escape hrun] at h
      have hmore := length_stringParts_le [] (escapeTail after).2
      have htail := length_escapeTail_le after
      rw [h] at hmore
      simp only [List.length_cons] at hle
      omega
    · rw [stringParts_of_stop hrun hback] at h
      obtain rfl : rest = cs := h
      cases rest with
      | nil => exact .inl rfl
      | cons c cs =>
        have hstop : Run.StopsAt stringMove () (c :: cs) :=
          Run.stopsAt_of_rest_eq (congrArg Run.rest hrun)
        rcases (stringMove_eq_stop () c).mp hstop with rfl | rfl
        · exact .inr rfl
        · exact absurd rfl hback

theorem Alike.head?_eq_of_stringParts {opening t r r' : List Char} (hr : Alike r r')
    (h : (stringParts opening (t ++ r)).rest = r) : (t ++ r).head? = (t ++ r').head? := by
  cases t with
  | cons c t => rfl
  | nil =>
    rcases stringParts_stops h with hend | hend
    · rw [List.nil_append] at hend ⊢
      rw [List.nil_append, hend, hr.nil_iff.mp hend]
    · exact hend.trans ((hr.head?_iff fun c d twin => twin.newline).mp hend).symm

theorem stringParts_exchange {opening t r r' : List Char} (hr : Alike r r')
    (h : (stringParts opening (t ++ r)).rest = r) :
    stringParts opening (t ++ r') = ⟨(stringParts opening (t ++ r)).lexemes, r'⟩ := by
  induction hlength : t.length using Nat.strongRecOn generalizing opening t with
  | ind n ih =>
  have happend := Run.read_append stringMove () (t ++ r)
  rcases hrun : Run.read stringMove () (t ++ r) with ⟨taken, rest, closed⟩
  rw [hrun] at happend
  cases closed with
  | true =>
    rw [stringParts_of_closed hrun] at h ⊢
    obtain ⟨hsame, hrun'⟩ :=
      hr.read_exchange stringMove_stop_iff ((congrArg Run.rest hrun).trans h)
    rw [hrun] at hsame hrun'
    cases hsame
    exact stringParts_of_closed hrun'
  | false =>
    by_cases hback : rest.head? = some '\\'
    · obtain ⟨after, rfl⟩ := List.head?_eq_some_iff.mp hback
      rw [stringParts_of_escape hrun] at h ⊢
      obtain ⟨digits, behind, htail⟩ : ∃ digits behind, escapeTail after = (digits, behind) :=
        ⟨_, _, rfl⟩
      have hafter := escapeTail_append after
      have hbehind := (covers_stringParts [] behind).text
      rw [htail] at h hafter ⊢
      rw [h, List.nil_append] at hbehind
      generalize hmore : textOf (stringParts [] behind).lexemes = more at hbehind
      subst hbehind
      obtain rfl : t = taken ++ '\\' :: (digits ++ more) := by
        apply List.append_cancel_right
        rw [← happend, ← hafter]
        simp
      have hrun' : Run.read stringMove () (taken ++ '\\' :: (digits ++ (more ++ r'))) =
          ⟨taken, '\\' :: (digits ++ (more ++ r')), false⟩ := by
        rw [← hafter] at hrun happend
        rw [← happend] at hrun
        exact Run.read_exchange hrun fun _ => Iff.rfl
      have htail' : escapeTail (digits ++ (more ++ r')) = (digits, more ++ r') := by
        have hhead := hr.head?_eq_of_stringParts h
        rw [← hafter] at htail
        exact escapeTail_exchange htail (hr.append more).nil_iff (by rw [hhead]) (by rw [hhead])
      have hmore' := ih more.length (by simp at hlength; omega) h rfl
      simp only [List.append_assoc, List.cons_append]
      rw [stringParts_of_escape hrun', htail', hmore']
    · rw [stringParts_of_stop hrun hback] at h ⊢
      obtain ⟨hsame, hrun'⟩ :=
        hr.read_exchange stringMove_stop_iff ((congrArg Run.rest hrun).trans h)
      rw [hrun] at hsame hrun'
      cases hsame
      refine stringParts_of_stop hrun' ?_
      rwa [ne_eq, ← hr.head?_iff fun c d twin => twin.backslash]

end Lexeme

end SourcePrint
