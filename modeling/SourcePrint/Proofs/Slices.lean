import SourcePrint.Lexer

namespace SourcePrint

namespace Text

theorem byteLength_eq_zero {cs : List Char} : byteLength cs = 0 ↔ cs = [] := by
  constructor
  · intro h
    cases cs with
    | nil => rfl
    | cons c cs =>
      have hc := c.utf8Size_pos
      simp only [byteLength_cons] at h
      omega
  · rintro rfl
    rfl

theorem byteLength_pos {cs : List Char} (h : cs ≠ []) : 0 < byteLength cs :=
  Nat.pos_of_ne_zero fun hz => h (byteLength_eq_zero.mp hz)

theorem byteLength_toList (s : String) : byteLength s.toList = s.utf8ByteSize := by
  have hofList (cs : List Char) : byteLength cs = (String.ofList cs).utf8ByteSize := by
    induction cs with
    | nil => rfl
    | cons c cs ih =>
      rw [byteLength_cons, ih, String.ofList_cons, String.utf8ByteSize_append,
        String.utf8ByteSize_singleton]
  simpa using hofList s.toList

theorem eq_of_byteLength_eq {a a' b b' : List Char} (h : a ++ b = a' ++ b')
    (hlength : byteLength a = byteLength a') : a = a' ∧ b = b' := by
  rcases List.append_eq_append_iff.mp h with ⟨middle, rfl, rfl⟩ | ⟨middle, rfl, rfl⟩
  all_goals
    rw [byteLength_append] at hlength
    have hmiddle : middle = [] := byteLength_eq_zero.mp (by omega)
    subst hmiddle
    simp

theorem append_of_byteLength_le {a a' b b' : List Char} (h : a ++ b = a' ++ b')
    (hlength : byteLength a ≤ byteLength a') :
    ∃ middle, a' = a ++ middle ∧ b = middle ++ b' := by
  rcases List.append_eq_append_iff.mp h with ⟨middle, rfl, rfl⟩ | ⟨middle, rfl, rfl⟩
  · exact ⟨middle, rfl, rfl⟩
  · rw [byteLength_append] at hlength
    obtain rfl : middle = [] := byteLength_eq_zero.mp (by omega)
    exact ⟨[], by simp, rfl⟩

/-- A character boundary of the encoded string is where the text comes apart in two. -/
theorem isValid_iff {text : String} {offset : Nat} :
    (String.Pos.Raw.mk offset).IsValid text ↔
      ∃ front back, text.toList = front ++ back ∧ byteLength front = offset := by
  rw [String.Pos.Raw.isValid_iff_exists_append]
  constructor
  · rintro ⟨front, back, rfl, hoffset⟩
    refine ⟨front.toList, back.toList, String.toList_append, ?_⟩
    rw [byteLength_toList]
    exact (congrArg String.Pos.Raw.byteIdx hoffset).symm
  · rintro ⟨front, back, htext, hoffset⟩
    refine ⟨String.ofList front, String.ofList back, ?_, ?_⟩
    · apply String.toList_injective
      simp [htext]
    · apply String.Pos.Raw.ext
      change offset = (String.ofList front).utf8ByteSize
      rw [← byteLength_toList, String.toList_ofList, hoffset]

theorem exists_byteLength_cons (c : Char) (cs : List Char) :
    ∃ n, byteLength (c :: cs) = n + 1 ∧ c.utf8Size ≤ n + 1 ∧
      n + 1 - c.utf8Size = byteLength cs := by
  have hc := c.utf8Size_pos
  refine ⟨byteLength (c :: cs) - 1, ?_, ?_, ?_⟩ <;> rw [byteLength_cons] <;> omega

theorem dropBytes?_byteLength (front rest : List Char) :
    dropBytes? (byteLength front) (front ++ rest) = some rest := by
  induction front with
  | nil => cases rest <;> rfl
  | cons c front ih =>
    obtain ⟨n, hn, hfits, hleft⟩ := exists_byteLength_cons c front
    rw [hn, List.cons_append, dropBytes?, if_pos hfits, hleft]
    exact ih

theorem append_of_dropBytes? {n : Nat} {cs rest : List Char} (h : dropBytes? n cs = some rest) :
    ∃ front, cs = front ++ rest ∧ byteLength front = n := by
  induction cs generalizing n with
  | nil =>
    cases n with
    | zero => exact ⟨[], by simpa [dropBytes?] using h, rfl⟩
    | succ n => simp [dropBytes?] at h
  | cons c cs ih =>
    cases n with
    | zero => exact ⟨[], by simpa [dropBytes?] using h, rfl⟩
    | succ n =>
      rw [dropBytes?] at h
      split at h
      · rename_i hfits
        obtain ⟨front, rfl, hfront⟩ := ih h
        exact ⟨c :: front, rfl, by rw [byteLength_cons]; omega⟩
      · simp at h

theorem takeBytes?_byteLength (front rest : List Char) :
    takeBytes? (byteLength front) (front ++ rest) = some front := by
  induction front with
  | nil => cases rest <;> rfl
  | cons c front ih =>
    obtain ⟨n, hn, hfits, hleft⟩ := exists_byteLength_cons c front
    rw [hn, List.cons_append, takeBytes?, takeBytesAfter?, if_pos hfits, hleft,
      takeBytesAfter?_eq, ih]
    rfl

theorem append_of_takeBytes? {n : Nat} {cs front : List Char} (h : takeBytes? n cs = some front) :
    ∃ rest, cs = front ++ rest ∧ byteLength front = n := by
  induction cs generalizing n front with
  | nil =>
    cases n with
    | zero =>
      obtain rfl : [] = front := by simpa [takeBytes?, takeBytesAfter?] using h
      exact ⟨[], rfl, rfl⟩
    | succ n => simp [takeBytes?, takeBytesAfter?] at h
  | cons c cs ih =>
    cases n with
    | zero =>
      obtain rfl : [] = front := by simpa [takeBytes?, takeBytesAfter?] using h
      exact ⟨c :: cs, rfl, rfl⟩
    | succ n =>
      rw [takeBytes?, takeBytesAfter?] at h
      split at h
      · rename_i hfits
        rw [takeBytesAfter?_eq] at h
        obtain ⟨more, hmore, rfl⟩ := Option.map_eq_some_iff.mp h
        obtain ⟨rest, rfl, hlength⟩ := ih hmore
        refine ⟨rest, rfl, ?_⟩
        rw [byteLength_append, hlength, List.reverse_singleton, byteLength_cons, byteLength_nil]
        omega
      · simp at h

/-- A slice is a middle part between two character boundaries. -/
theorem slice?_eq_some {start stop : Nat} {cs middle : List Char} :
    slice? start stop cs = some middle ↔
      ∃ front back, cs = front ++ middle ++ back ∧ byteLength front = start ∧
        start + byteLength middle = stop := by
  unfold slice?
  constructor
  · intro h
    split at h
    · simp at h
    · obtain ⟨rest, hdrop, htake⟩ := Option.bind_eq_some_iff.mp h
      obtain ⟨front, rfl, hfront⟩ := append_of_dropBytes? hdrop
      obtain ⟨back, rfl, hmiddle⟩ := append_of_takeBytes? htake
      exact ⟨front, back, by rw [List.append_assoc], hfront, by omega⟩
  · rintro ⟨front, back, rfl, rfl, rfl⟩
    rw [if_neg (by omega), List.append_assoc, dropBytes?_byteLength, Option.bind_some,
      Nat.add_sub_cancel_left]
    exact takeBytes?_byteLength middle back

end Text

namespace Span

theorem text?_eq_some {span : Span} {text slice : String} :
    span.text? text = some slice ↔
      ∃ front back, text.toList = front ++ slice.toList ++ back ∧
        Text.byteLength front = span.start ∧
        span.start + Text.byteLength slice.toList = span.stop := by
  unfold text?
  rw [Option.map_eq_some_iff]
  constructor
  · rintro ⟨middle, hmiddle, rfl⟩
    simpa using Text.slice?_eq_some.mp hmiddle
  · intro h
    exact ⟨slice.toList, Text.slice?_eq_some.mpr h, by simp⟩

theorem isValid_of_text? {span : Span} {text slice : String} (h : span.text? text = some slice) :
    (String.Pos.Raw.mk span.start).IsValid text ∧ (String.Pos.Raw.mk span.stop).IsValid text := by
  obtain ⟨front, back, htext, hstart, hstop⟩ := text?_eq_some.mp h
  rw [List.append_assoc] at htext
  refine ⟨Text.isValid_iff.mpr ⟨front, _, htext, hstart⟩, Text.isValid_iff.mpr
    ⟨front ++ slice.toList, back, by rw [htext, List.append_assoc], ?_⟩⟩
  rw [Text.byteLength_append, hstart, hstop]

/-- A span has a text exactly when its ends are character boundaries in order. -/
theorem exists_text?_iff {span : Span} {text : String} :
    (∃ slice, span.text? text = some slice) ↔ span.start ≤ span.stop ∧
      (String.Pos.Raw.mk span.start).IsValid text ∧ (String.Pos.Raw.mk span.stop).IsValid text := by
  constructor
  · rintro ⟨slice, hslice⟩
    obtain ⟨_, _, _, _, hstop⟩ := text?_eq_some.mp hslice
    exact ⟨by omega, isValid_of_text? hslice⟩
  · rintro ⟨horder, hstart, hstop⟩
    obtain ⟨front, rest, hfront, hstart⟩ := Text.isValid_iff.mp hstart
    obtain ⟨front', back, hfront', hstop⟩ := Text.isValid_iff.mp hstop
    obtain ⟨middle, rfl, rfl⟩ :=
      Text.append_of_byteLength_le (hfront.symm.trans hfront') (by omega)
    rw [Text.byteLength_append] at hstop
    exact ⟨String.ofList middle, text?_eq_some.mpr
      ⟨front, back, by simp [hfront'], hstart, by simp; omega⟩⟩

end Span

end SourcePrint
