import SourcePrint.Json.Printer
import SourcePrint.Json.Reader

namespace SourcePrint.Json

/-- Values that come back from their text as they were: all numbers in them are integers. -/
inductive Plain : Json → Prop
  | null : Plain .null
  | bool (value : Bool) : Plain (.bool value)
  | int (value : Int) : Plain (.int value)
  | str (value : String) : Plain (.str value)
  | arr {items : List Json} (all : ∀ item ∈ items, Plain item) : Plain (.arr items)
  | obj {members : List (String × Json)} (all : ∀ m ∈ members, Plain m.2) : Plain (.obj members)

/-- What may stand behind a value: nothing, a comma, or the bracket that closes a list of values. -/
def Ends (rest : List Char) : Prop := ∀ c ∈ rest.head?, c = ',' ∨ c = ']' ∨ c = '\x7d'

theorem skipSpace_cons {c : Char} (h : isSpace c = false) (cs : List Char) :
    skipSpace (c :: cs) = c :: cs := List.dropWhile_cons_of_neg (by simp [h])

theorem unit?_hexDigit : ∀ n < 0x20,
    unit? '0' '0' (Text.hexDigit (n / 16)) (Text.hexDigit (n % 16)) = some n := by
  decide

theorem readString_unit {a b c d : Char} {n : Nat} (h : unit? a b c d = some n)
    (hhigh : isHighHalf n = false) (hlow : isLowHalf n = false) (done rest : List Char) :
    readString done ('\\' :: 'u' :: a :: b :: c :: d :: rest) =
      readString (Char.ofNat n :: done) rest := by
  by_cases hnext : ∃ e f g h more, rest = '\\' :: 'u' :: e :: f :: g :: h :: more
  · obtain ⟨e, f, g, i, more, rfl⟩ := hnext
    simp only [readString, h, hhigh, hlow, Bool.false_eq_true, if_false]
  · rw [readString]
    · simp only [h, hhigh, hlow, Bool.or_self, Bool.false_eq_true, if_false]
    · intro e f g i more hrest
      exact hnext ⟨e, f, g, i, more, hrest⟩

theorem escapeChar_cases (c : Char) :
    (∃ letter, letter ≠ 'u' ∧ shortEscape? letter = some c ∧ escapeChar c = ['\\', letter]) ∨
    (c.toNat < 0x20 ∧ escapeChar c =
      ['\\', 'u', '0', '0', Text.hexDigit (c.toNat / 16), Text.hexDigit (c.toNat % 16)]) ∨
    (c ≠ '"' ∧ c ≠ '\\' ∧ 0x20 ≤ c.toNat ∧ escapeChar c = [c]) := by
  by_cases hshort : c ∈ ['"', '\\', '\x08', '\x0c', '\n', '\r', '\t']
  · left
    simp only [List.mem_cons, List.not_mem_nil, or_false] at hshort
    rcases hshort with rfl | rfl | rfl | rfl | rfl | rfl | rfl
    all_goals exact ⟨_, by decide, by decide, rfl⟩
  · right
    simp only [List.mem_cons, List.not_mem_nil, or_false, not_or] at hshort
    by_cases hcontrol : c.toNat < 0x20
    · exact .inl ⟨hcontrol, by simp [escapeChar, hshort, hcontrol]⟩
    · exact .inr ⟨hshort.1, hshort.2.1, by omega, by simp [escapeChar, hshort, hcontrol]⟩

/-- The reader takes up one character where the printer has written one. -/
theorem readString_escapeChar (c : Char) (done rest : List Char) :
    readString done (escapeChar c ++ rest) = readString (c :: done) rest := by
  obtain ⟨letter, hletter, hread, h⟩ | ⟨hcontrol, h⟩ | ⟨hquote, hslash, hlarge, h⟩ :=
    escapeChar_cases c
  · simp [h, readString, hletter, hread]
  · have hhigh : isHighHalf c.toNat = false := by simp [isHighHalf]; omega
    have hlow : isLowHalf c.toNat = false := by simp [isLowHalf]; omega
    rw [h]
    exact (readString_unit (unit?_hexDigit _ hcontrol) hhigh hlow done rest).trans (by simp)
  · rw [h, List.singleton_append, readString]
    · simp [hslash, Nat.not_lt.mpr hlarge]
    all_goals simp_all

theorem readString_quoted (cs done rest : List Char) :
    readString done (cs.flatMap escapeChar ++ '"' :: rest) =
      some (String.ofList (done.reverse ++ cs), rest) := by
  induction cs generalizing done with
  | nil => simp [readString]
  | cons c cs ih =>
    rw [List.flatMap_cons, List.append_assoc, readString_escapeChar, ih]
    simp

theorem natOfDigits_toDigits (n : Nat) : natOfDigits (Nat.toDigits 10 n) = n := by
  calc natOfDigits (Nat.toDigits 10 n)
      = Nat.ofDigitChars 10 (Nat.toDigits 10 n) 0 := by
        simp only [natOfDigits, Nat.ofDigitChars_eq_foldl, Nat.mul_comm]
    _ = n := Nat.ofDigitChars_ten_toDigits

theorem exists_toDigits (n : Nat) :
    ∃ d ds, Nat.toDigits 10 n = d :: ds ∧ d.isDigit = true ∧ (0 < n → d ≠ '0') := by
  induction n using Nat.strongRecOn with
  | _ n ih =>
    rw [Nat.toDigits_eq_if (by decide)]
    split
    · rename_i hsmall
      refine ⟨n.digitChar, [], rfl, by simpa using hsmall, fun hpos => ?_⟩
      rw [ne_eq, Nat.digitChar_eq_zero]
      omega
    · obtain ⟨d, ds, hdigits, hd, hzero⟩ := ih (n / 10) (by omega)
      exact ⟨d, ds ++ [_], by rw [hdigits, List.cons_append], hd, fun _ => hzero (by omega)⟩

theorem takeWhile_toDigits {rest : List Char} (h : Ends rest) (n : Nat) :
    (Nat.toDigits 10 n ++ rest).takeWhile Char.isDigit = Nat.toDigits 10 n ∧
      (Nat.toDigits 10 n ++ rest).dropWhile Char.isDigit = rest := by
  have hdigits : ∀ c ∈ Nat.toDigits 10 n, c.isDigit = true := fun c hc =>
    Nat.isDigit_of_mem_toDigits (by decide) (by decide) hc
  rw [List.takeWhile_append_of_pos hdigits, List.dropWhile_append_of_pos hdigits]
  cases rest with
  | nil => simp
  | cons c rest =>
    have hc : c.isDigit = false := by
      rcases h c rfl with rfl | rfl | rfl <;> rfl
    simp [hc]

theorem whole?_toDigits {rest : List Char} (h : Ends rest) (n : Nat) :
    whole? (Nat.toDigits 10 n ++ rest) = some (Nat.toDigits 10 n, rest) := by
  obtain ⟨htake, hdrop⟩ := takeWhile_toDigits h n
  obtain ⟨d, ds, hdigits, -, hzero⟩ := exists_toDigits n
  obtain rfl | hpos := Nat.eq_zero_or_pos n
  · rw [Nat.toDigits_zero]
    rfl
  · have hwhole : whole? (Nat.toDigits 10 n ++ rest) = digits? (Nat.toDigits 10 n ++ rest) := by
      simp [hdigits, whole?, hzero hpos]
    rw [hwhole, digits?, htake, hdrop, hdigits]

theorem fraction?_of_ends {rest : List Char} (h : Ends rest) :
    fraction? rest = some ([], rest) := by
  cases rest with
  | nil => rfl
  | cons c rest => rcases h c rfl with rfl | rfl | rfl <;> rfl

theorem exponent?_of_ends {rest : List Char} (h : Ends rest) :
    exponent? rest = some ([], rest) := by
  cases rest with
  | nil => rfl
  | cons c rest => rcases h c rfl with rfl | rfl | rfl <;> rfl

theorem readNumber_toDigits {rest : List Char} (h : Ends rest) (n : Nat) :
    readNumber (Nat.toDigits 10 n ++ rest) = some (.int n, rest) := by
  have hsign : (Nat.toDigits 10 n).head? ≠ some '-' := by
    obtain ⟨d, ds, hdigits, hd, -⟩ := exists_toDigits n
    rw [hdigits]
    rintro ⟨⟩
    cases hd
  simp [readNumber, hsign, whole?_toDigits h, fraction?_of_ends h, exponent?_of_ends h,
    natOfDigits_toDigits]

theorem readNumber_minus {rest : List Char} (h : Ends rest) {n : Nat} (hpos : 0 < n) :
    readNumber ('-' :: (Nat.toDigits 10 n ++ rest)) = some (.int (-n), rest) := by
  simp [readNumber, whole?_toDigits h, fraction?_of_ends h, exponent?_of_ends h,
    natOfDigits_toDigits, Nat.ne_of_gt hpos]

theorem render_int (value : Int) :
    (∃ n : Nat, value = n ∧ (render (.int value)).toList = Nat.toDigits 10 n) ∨
    ∃ n : Nat, 0 < n ∧ value = -n ∧ (render (.int value)).toList = '-' :: Nat.toDigits 10 n := by
  rw [render, Int.toString_eq_repr, Int.repr_eq_if]
  split
  · exact .inl ⟨value.toNat, by omega, Nat.toList_repr⟩
  · exact .inr ⟨(-value).toNat, by omega, by omega, by simp⟩

theorem isSpace_of_isDigit {c : Char} (h : c.isDigit = true) : isSpace c = false := by
  rw [Bool.eq_false_iff]
  intro hspace
  simp only [isSpace, Bool.or_eq_true, beq_iff_eq] at hspace
  rcases hspace with ((rfl | rfl) | rfl) | rfl <;> cases h

theorem readValue_int {rest : List Char} (h : Ends rest) (value : Int) (fuel : Nat) :
    readValue (fuel + 1) ((render (.int value)).toList ++ rest) = some (.int value, rest) := by
  obtain ⟨n, rfl, hrender⟩ | ⟨n, hpos, rfl, hrender⟩ := render_int value
  · rw [hrender, ← readNumber_toDigits h n]
    obtain ⟨d, ds, hdigits, hd, -⟩ := exists_toDigits n
    rw [hdigits, List.cons_append, readValue, skipSpace_cons (isSpace_of_isDigit hd)]
    split <;> simp_all
  · rw [hrender, ← readNumber_minus h hpos]
    rfl

theorem toList_quoted (s : String) :
    (quoted s).toList = '"' :: (s.toList.flatMap escapeChar ++ ['"']) := by
  simp [quoted]

def itemsText (items : List Json) : List Char :=
  [','].intercalate (items.map fun item => item.render.toList)

theorem render_arr (items : List Json) :
    (render (.arr items)).toList = '[' :: (itemsText items ++ [']']) := by
  simp [render, itemsText, Function.comp_def]

def memberText (m : String × Json) : List Char :=
  (quoted m.1).toList ++ ':' :: m.2.render.toList

def membersText (members : List (String × Json)) : List Char :=
  [','].intercalate (members.map memberText)

theorem render_obj (members : List (String × Json)) :
    (render (.obj members)).toList = '\x7b' :: (membersText members ++ ['\x7d']) := by
  have htext : String.toList ∘ (fun m : String × Json => quoted m.1 ++ ":" ++ render m.2) =
      memberText := by
    funext m
    simp [memberText]
  simp [render, membersText, htext]

theorem exists_render {value : Json} (h : Plain value) :
    ∃ c cs, value.render.toList = c :: cs ∧ isSpace c = false ∧ c ≠ ']' := by
  cases h with
  | null => exact ⟨'n', ['u', 'l', 'l'], by simp [render], by decide, by decide⟩
  | bool value =>
    cases value with
    | true => exact ⟨'t', ['r', 'u', 'e'], by simp [render], by decide, by decide⟩
    | false => exact ⟨'f', ['a', 'l', 's', 'e'], by simp [render], by decide, by decide⟩
  | int value =>
    obtain ⟨n, rfl, hrender⟩ | ⟨n, hpos, rfl, hrender⟩ := render_int value
    · obtain ⟨d, ds, hdigits, hd, -⟩ := exists_toDigits n
      refine ⟨d, ds, hrender.trans hdigits, isSpace_of_isDigit hd, ?_⟩
      rintro rfl
      cases hd
    · exact ⟨'-', _, hrender, by decide, by decide⟩
  | str value => exact ⟨'"', _, by rw [render, toList_quoted], by decide, by decide⟩
  | arr => exact ⟨'[', _, render_arr _, by decide, by decide⟩
  | obj => exact ⟨'\x7b', _, render_obj _, by decide, by decide⟩

/-- The value is read off the front of a text by a reader with twice its length for fuel. -/
def ReadsBack (value : Json) : Prop :=
  ∀ fuel rest, Ends rest → 2 * value.render.toList.length ≤ fuel →
    readValue fuel (value.render.toList ++ rest) = some (value, rest)

theorem readItems_itemsText {items : List Json} (hne : items ≠ [])
    (hread : ∀ item ∈ items, ReadsBack item) {fuel : Nat}
    (hfuel : 2 * (itemsText items).length + 2 ≤ fuel) (done : List Json) (rest : List Char) :
    readItems fuel done (itemsText items ++ ']' :: rest) =
      some (.arr (done.reverse ++ items), rest) := by
  induction items generalizing fuel done with
  | nil => exact absurd rfl hne
  | cons item items ih =>
    obtain ⟨fuel, rfl⟩ : ∃ less, fuel = less + 1 := ⟨fuel - 1, by omega⟩
    obtain ⟨hitem, hitems⟩ := List.forall_mem_cons.mp hread
    cases items with
    | nil =>
      have htext : itemsText [item] = item.render.toList := by simp [itemsText]
      rw [htext] at hfuel ⊢
      rw [readItems, hitem fuel _ (by simp [Ends]) (by omega)]
      simp only [skipSpace_cons (show isSpace ']' = false by decide), List.reverse_cons]
    | cons next items =>
      have htext : itemsText (item :: next :: items) =
          item.render.toList ++ ',' :: itemsText (next :: items) := by simp [itemsText]
      rw [htext, List.length_append, List.length_cons] at hfuel
      rw [htext, List.append_assoc, List.cons_append, readItems,
        hitem fuel _ (by simp [Ends]) (by omega)]
      simp only [skipSpace_cons (show isSpace ',' = false by decide)]
      rw [ih (by simp) hitems (by omega), List.reverse_cons, List.append_assoc,
        List.singleton_append]

/-- What is left to read once a name and its value have been. -/
def membersAfter (fuel : Nat) (done : List (String × Json)) : List Char → Option (Json × List Char)
  | ',' :: rest => readMembers fuel done rest
  | '\x7d' :: rest => some (.obj done.reverse, rest)
  | _ => none

theorem readMembers_memberText {m : String × Json} (hm : ReadsBack m.2) {fuel : Nat}
    (hfuel : 2 * (memberText m).length ≤ fuel) (done : List (String × Json)) {rest : List Char}
    (hrest : Ends rest) :
    readMembers (fuel + 1) done (memberText m ++ rest) =
      membersAfter fuel (m :: done) (skipSpace rest) := by
  have hvalue := hm fuel rest hrest (by simp [memberText] at hfuel; omega)
  have hname := readString_quoted m.1.toList [] (':' :: (m.2.render.toList ++ rest))
  rw [readMembers, memberText, toList_quoted]
  simp only [List.cons_append, List.append_assoc, List.nil_append, hname, hvalue,
    skipSpace_cons (show isSpace '"' = false by decide),
    skipSpace_cons (show isSpace ':' = false by decide), List.reverse_nil, String.ofList_toList]
  rfl

theorem readMembers_membersText {members : List (String × Json)} (hne : members ≠ [])
    (hread : ∀ m ∈ members, ReadsBack m.2) {fuel : Nat}
    (hfuel : 2 * (membersText members).length + 2 ≤ fuel) (done : List (String × Json))
    (rest : List Char) :
    readMembers fuel done (membersText members ++ '\x7d' :: rest) =
      some (.obj (done.reverse ++ members), rest) := by
  induction members generalizing fuel done with
  | nil => exact absurd rfl hne
  | cons m members ih =>
    obtain ⟨fuel, rfl⟩ : ∃ less, fuel = less + 1 := ⟨fuel - 1, by omega⟩
    obtain ⟨hm, hmembers⟩ := List.forall_mem_cons.mp hread
    cases members with
    | nil =>
      have htext : membersText [m] = memberText m := by simp [membersText]
      rw [htext] at hfuel ⊢
      rw [readMembers_memberText hm (by omega) done (by simp [Ends]), skipSpace_cons (by decide),
        membersAfter, List.reverse_cons]
    | cons next members =>
      have htext : membersText (m :: next :: members) =
          memberText m ++ ',' :: membersText (next :: members) := by simp [membersText]
      rw [htext, List.length_append, List.length_cons] at hfuel
      rw [htext, List.append_assoc, List.cons_append,
        readMembers_memberText hm (by omega) done (by simp [Ends]), skipSpace_cons (by decide),
        membersAfter, ih (by simp) hmembers (by omega), List.reverse_cons, List.append_assoc,
        List.singleton_append]

theorem readsBack_of_succ {value : Json} (hne : value.render.toList ≠ [])
    (h : ∀ fuel rest, Ends rest → 2 * value.render.toList.length ≤ fuel + 1 →
      readValue (fuel + 1) (value.render.toList ++ rest) = some (value, rest)) :
    ReadsBack value := by
  intro fuel rest hrest hfuel
  have hpos := List.length_pos_iff.mpr hne
  obtain ⟨fuel, rfl⟩ : ∃ less, fuel = less + 1 := ⟨fuel - 1, by omega⟩
  exact h fuel rest hrest hfuel

theorem readsBack_str (value : String) : ReadsBack (.str value) := by
  refine readsBack_of_succ (by simp [render, toList_quoted]) fun fuel rest _ _ => ?_
  rw [render, toList_quoted, List.cons_append, List.append_assoc, readValue,
    skipSpace_cons (by decide)]
  simp [readString_quoted]

theorem readsBack_arr {items : List Json} (hplain : ∀ item ∈ items, Plain item)
    (hread : ∀ item ∈ items, ReadsBack item) : ReadsBack (.arr items) := by
  refine readsBack_of_succ (by simp [render_arr]) fun fuel rest _ hfuel => ?_
  rw [render_arr] at hfuel ⊢
  rw [List.cons_append, List.append_assoc, List.singleton_append, readValue,
    skipSpace_cons (by decide)]
  cases items with
  | nil => rfl
  | cons item items =>
    have henough : 2 * (itemsText (item :: items)).length + 2 ≤ fuel := by
      rw [List.length_cons, List.length_append, List.length_singleton] at hfuel
      omega
    have hitems := readItems_itemsText (by simp) hread henough [] rest
    obtain ⟨c, cs, hrender, hspace, hclose⟩ := exists_render (hplain item (by simp))
    have hfirst : ∃ more, itemsText (item :: items) = c :: more := by
      cases items <;> simp [itemsText, hrender]
    obtain ⟨more, hmore⟩ := hfirst
    rw [hmore, List.cons_append] at hitems ⊢
    simp only [skipSpace_cons hspace]
    split
    · simp_all
    · exact hitems

theorem readsBack_obj {members : List (String × Json)}
    (hread : ∀ m ∈ members, ReadsBack m.2) : ReadsBack (.obj members) := by
  refine readsBack_of_succ (by simp [render_obj]) fun fuel rest _ hfuel => ?_
  rw [render_obj] at hfuel ⊢
  rw [List.cons_append, List.append_assoc, List.singleton_append, readValue,
    skipSpace_cons (by decide)]
  cases members with
  | nil => rfl
  | cons m members =>
    have henough : 2 * (membersText (m :: members)).length + 2 ≤ fuel := by
      rw [List.length_cons, List.length_append, List.length_singleton] at hfuel
      omega
    have hmembers := readMembers_membersText (by simp) hread henough [] rest
    have hfirst : ∃ more, membersText (m :: members) = '"' :: more := by
      cases members <;> simp [membersText, memberText, toList_quoted]
    obtain ⟨more, hmore⟩ := hfirst
    rw [hmore, List.cons_append] at hmembers ⊢
    exact hmembers

theorem Plain.readsBack {value : Json} (h : Plain value) : ReadsBack value := by
  induction h with
  | null =>
    refine readsBack_of_succ (by simp [render]) fun fuel rest _ _ => ?_
    simp [render, readValue, skipSpace_cons (show isSpace 'n' = false by decide)]
  | bool value =>
    cases value with
    | true =>
      refine readsBack_of_succ (by simp [render]) fun fuel rest _ _ => ?_
      simp [render, readValue, skipSpace_cons (show isSpace 't' = false by decide)]
    | false =>
      refine readsBack_of_succ (by simp [render]) fun fuel rest _ _ => ?_
      simp [render, readValue, skipSpace_cons (show isSpace 'f' = false by decide)]
  | int value =>
    obtain ⟨c, cs, hrender, -⟩ := exists_render (.int value)
    exact readsBack_of_succ (by simp [hrender]) fun fuel rest hrest _ =>
      readValue_int hrest value fuel
  | str value => exact readsBack_str value
  | arr all ih => exact readsBack_arr all ih
  | obj all ih => exact readsBack_obj ih

/-- Reading undoes writing. -/
theorem parse?_render {value : Json} (h : Plain value) : parse? value.render = some value := by
  have hfuel : 2 * value.render.toList.length ≤ 2 * value.render.length + 2 := by
    rw [String.length_toList]
    omega
  have hread := h.readsBack _ [] (by simp [Ends]) hfuel
  rw [List.append_nil] at hread
  rw [parse?, hread]
  rfl

end SourcePrint.Json
