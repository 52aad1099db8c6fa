import SourcePrint.Proofs.Positions
import SourcePrint.Proofs.Tags

namespace SourcePrint

namespace SpanFault

/-- The faults in the order in which they are looked for. -/
def all : List SpanFault := [backward, reversed, pastEnd, splitsCharacter]

/-- One check on the ends of a span behind one that starts at byte `previous`, whatever the others
find. -/
def Fails (text : String) (previous start stop : Nat) : SpanFault → Prop
  | backward => start < previous
  | reversed => stop < start
  | pastEnd => text.utf8ByteSize < stop
  | splitsCharacter =>
    ¬ ((String.Pos.Raw.mk start).IsValid text ∧ (String.Pos.Raw.mk stop).IsValid text)

instance (text : String) (previous start stop : Nat) :
    DecidablePred (Fails text previous start stop)
  | backward => inferInstanceAs (Decidable (_ < _))
  | reversed => inferInstanceAs (Decidable (_ < _))
  | pastEnd => inferInstanceAs (Decidable (_ < _))
  | splitsCharacter => inferInstanceAs (Decidable (¬ _))

/-- The first check that fails, if one does. -/
def first? (text : String) (previous start stop : Nat) : Option SpanFault :=
  all.find? fun fault => decide (Fails text previous start stop fault)

/-- The first of some spans, given by their ends, that fails a check, with its first fault. Each is
measured from the start of the one in front of it and the first of them from `previous`. -/
def firstOf? (text : String) (previous : Nat) (ends : List (Nat × Nat)) :
    Option (Nat × Nat × SpanFault) :=
  ((previous :: ends.map (·.1)).zip ends).findSome? fun (previous, start, stop) =>
    (first? text previous start stop).map fun fault => (start, stop, fault)

theorem first?_eq (text : String) (previous start stop : Nat) :
    first? text previous start stop =
      if start < previous then some backward
      else if stop < start then some reversed
      else if text.utf8ByteSize < stop then some pastEnd
      else if (String.Pos.Raw.mk start).IsValid text ∧ (String.Pos.Raw.mk stop).IsValid text then
        none
      else some splitsCharacter := by
  simp only [first?, all, List.find?_cons, List.find?_nil, Fails]
  repeat' split
  all_goals simp_all

theorem firstOf?_cons (text : String) (previous start stop : Nat) (ends : List (Nat × Nat)) :
    firstOf? text previous ((start, stop) :: ends) =
      ((first? text previous start stop).map fun fault => (start, stop, fault)).or
        (firstOf? text start ends) := by
  simp only [firstOf?, List.map_cons, List.zip_cons_cons, List.findSome?_cons]
  cases first? text previous start stop <;> rfl

theorem firstOf?_append {text : String} {previous : Nat} {ends : List (Nat × Nat)}
    {found : Nat × Nat × SpanFault} (h : firstOf? text previous ends = some found)
    (more : List (Nat × Nat)) : firstOf? text previous (ends ++ more) = some found := by
  induction ends generalizing previous with
  | nil => cases h
  | cons pair ends ih =>
    obtain ⟨start, stop⟩ := pair
    rw [firstOf?_cons] at h
    rw [List.cons_append, firstOf?_cons]
    cases hfirst : first? text previous start stop with
    | some fault => rwa [hfirst] at h
    | none =>
      rw [hfirst] at h
      exact ih h

end SpanFault

namespace Piece

variable {text : String} {front rest : List Char}

/-- One span: its first fault is the error, or it is cut out and the walk goes on from its start. -/
theorem cutFrom_cases (htext : text.toList = front ++ rest) (done : List Piece) (span : Span)
    (spans : List Span) :
    (∃ fault, SpanFault.first? text (Text.byteLength front) span.start span.stop = some fault ∧
      cutFrom (Text.byteLength text.toList) done (Text.byteLength front) rest (span :: spans) =
        .error (.invalidSpan span.start span.stop fault)) ∨
    SpanFault.first? text (Text.byteLength front) span.start span.stop = none ∧
      ∃ piece here there, text.toList = here ++ there ∧ Text.byteLength here = span.start ∧
        cutFrom (Text.byteLength text.toList) done (Text.byteLength front) rest (span :: spans) =
          cutFrom (Text.byteLength text.toList) (piece :: done) (Text.byteLength here) there
            spans := by
  rw [SpanFault.first?_eq, ← Text.byteLength_toList]
  simp only [cutFrom]
  by_cases hreached : span.start < Text.byteLength front
  · exact .inl ⟨.backward, if_pos hreached, if_pos hreached⟩
  rw [if_neg hreached, if_neg hreached]
  by_cases horder : span.stop < span.start
  · exact .inl ⟨.reversed, if_pos horder, if_pos horder⟩
  rw [if_neg horder, if_neg horder]
  by_cases hend : Text.byteLength text.toList < span.stop
  · exact .inl ⟨.pastEnd, if_pos hend, if_pos hend⟩
  rw [if_neg hend, if_neg hend]
  have hwalk := text?_eq_walk htext (Nat.not_lt.mp hreached) (Nat.not_lt.mp horder)
  have hslice := (@Span.exists_text?_iff span text).trans (and_iff_right (Nat.not_lt.mp horder))
  rw [hwalk] at hslice
  cases hdrop : Text.dropBytes? (span.start - Text.byteLength front) rest with
  | none =>
    rw [hdrop] at hslice
    exact .inl ⟨.splitsCharacter, if_neg (by simp [← hslice]), rfl⟩
  | some there =>
    rw [hdrop, Option.bind_some] at hslice
    cases htake : Text.takeBytes? (span.stop - span.start) there with
    | none =>
      rw [htake] at hslice
      exact .inl ⟨.splitsCharacter, if_neg (by simp [← hslice]), by simp only [htake]⟩
    | some slice =>
      rw [htake] at hslice
      obtain ⟨skipped, rfl, hskipped⟩ := Text.append_of_dropBytes? hdrop
      have hhere : Text.byteLength (front ++ skipped) = span.start := by
        rw [Text.byteLength_append]
        omega
      refine .inr ⟨if_pos (hslice.mp ⟨_, rfl⟩), ⟨span.category, slice, span.start⟩,
        front ++ skipped, there, by rw [htext, List.append_assoc], hhere, ?_⟩
      simp only [htake, hhere]

/-- Cutting fails with the first fault there is, and only then. -/
theorem cutFrom_outcome (htext : text.toList = front ++ rest) (done : List Piece)
    (spans : List Span) :
    (cutFrom (Text.byteLength text.toList) done (Text.byteLength front) rest spans).map
        (fun _ => ()) =
      match SpanFault.firstOf? text (Text.byteLength front)
          (spans.map fun span => (span.start, span.stop)) with
      | some (start, stop, fault) => .error (.invalidSpan start stop fault)
      | none => .ok () := by
  induction spans generalizing front rest done with
  | nil => rfl
  | cons span spans ih =>
    rw [List.map_cons, SpanFault.firstOf?_cons]
    obtain ⟨fault, hfault, hcut⟩ | ⟨hsound, piece, here, there, htext', hhere, hcut⟩ :=
      cutFrom_cases htext done span spans
    · rw [hfault, hcut]
      rfl
    · rw [hsound, hcut, ih htext', hhere]
      rfl

end Piece

namespace TaggedSpan

def ends (span : TaggedSpan) : Nat × Nat := (span.start, span.stop)

/-- The tag of the span stands for a category. -/
def isKnown (span : TaggedSpan) : Bool := (Category.ofTag span.tag).isOk

end TaggedSpan

namespace Recording

/-- The first tag that stands for no category, as it was given. -/
def firstUnknown? (recording : Recording) : Option String :=
  (recording.spans.find? fun span => !span.isKnown).map (·.tag)

/-- The ends of the first span that fails a check on a text, and the first check that it fails. -/
def firstFault? (recording : Recording) (text : String) : Option (Nat × Nat × SpanFault) :=
  SpanFault.firstOf? text 0 (recording.spans.map (·.ends))

/-- Whether a recording leaves tokens on a text, and else why not: its tags are all looked at before
the ends of any span. -/
def outcome (recording : Recording) (text : String) : Except CanonicalError Unit :=
  match recording.firstUnknown?, recording.firstFault? text with
  | some tag, _ => .error (.unknownCategory tag)
  | none, some (start, stop, fault) => .error (.invalidSpan start stop fault)
  | none, none => .ok ()

theorem decode_of_isKnown {span : TaggedSpan} (h : span.isKnown = true) :
    ∃ decoded, decode span = .ok decoded ∧ (decoded.start, decoded.stop) = span.ends := by
  unfold TaggedSpan.isKnown at h
  unfold decode
  cases hcategory : Category.ofTag span.tag with
  | error error =>
    rw [hcategory] at h
    cases h
  | ok category => exact ⟨_, rfl, rfl⟩

theorem decode_of_not_isKnown {span : TaggedSpan} (h : span.isKnown = false) :
    decode span = .error (.unknownCategory span.tag) := by
  unfold TaggedSpan.isKnown at h
  unfold decode
  cases hcategory : Category.ofTag span.tag with
  | error error =>
    rw [Category.eq_unknownCategory_of_ofTag hcategory]
    rfl
  | ok category =>
    rw [hcategory] at h
    cases h

/-- Decoding fails with the first tag that is unknown, and else keeps the ends of all spans. -/
theorem mapM_decode_cases (spans : List TaggedSpan) :
    (∃ span, spans.find? (fun span => !span.isKnown) = some span ∧
      spans.mapM decode = .error (.unknownCategory span.tag)) ∨
    spans.find? (fun span => !span.isKnown) = none ∧
      ∃ decoded, spans.mapM decode = .ok decoded ∧
        decoded.map (fun span => (span.start, span.stop)) = spans.map (·.ends) := by
  induction spans with
  | nil => exact .inr ⟨rfl, [], rfl, rfl⟩
  | cons span spans ih =>
    rw [List.mapM_cons, List.find?_cons]
    cases hknown : span.isKnown with
    | false =>
      refine .inl ⟨span, rfl, ?_⟩
      rw [decode_of_not_isKnown hknown]
      rfl
    | true =>
      obtain ⟨decoded, hdecode, hends⟩ := decode_of_isKnown hknown
      rw [hdecode]
      obtain ⟨unknown, hunknown, hmore⟩ | ⟨hknown, more, hmore, hsame⟩ := ih
      · refine .inl ⟨unknown, hunknown, ?_⟩
        rw [hmore]
        rfl
      · refine .inr ⟨hknown, decoded :: more, ?_, ?_⟩
        · rw [hmore]
          rfl
        · rw [List.map_cons, List.map_cons, hends, hsame]

end Recording

theorem map_unit_eq_error {ε α : Type} {x : Except ε α} {error : ε} :
    x.map (fun _ => ()) = .error error ↔ x = .error error := by
  cases x <;> simp [Except.map]

theorem map_unit_eq_ok {ε α : Type} {x : Except ε α} :
    x.map (fun _ => ()) = .ok () ↔ ∃ a, x = .ok a := by
  cases x <;> simp [Except.map]

namespace Token

variable {recording : Recording} {text : String}

/-- Neither the classifier nor any category decides whether there are tokens. -/
theorem normalize_outcome (sourceName : String) (classifier : Classifier) :
    (normalize recording.lexer text sourceName classifier).map (fun _ => ()) =
      recording.outcome text := by
  unfold normalize Recording.outcome Recording.firstUnknown? Recording.firstFault?
  obtain ⟨span, hspan, hscan⟩ | ⟨hknown, decoded, hscan, hends⟩ :=
    Recording.mapM_decode_cases recording.spans
  · simp only [Recording.lexer, hscan, hspan]
    rfl
  · have hcut : (Piece.cut text.toList decoded).map (fun _ => ()) = _ :=
      Piece.cutFrom_outcome (List.nil_append text.toList).symm [] decoded
    rw [hends, Text.byteLength_nil] at hcut
    simp only [Recording.lexer, hscan, hknown]
    cases hfault : SpanFault.firstOf? text 0 (recording.spans.map (·.ends)) with
    | some found =>
      rw [hfault] at hcut
      rw [map_unit_eq_error.mp hcut]
      rfl
    | none =>
      rw [hfault] at hcut
      obtain ⟨pieces, hpieces⟩ := map_unit_eq_ok.mp hcut
      rw [hpieces]
      rfl

theorem normalize_eq_error_iff {sourceName : String} {classifier : Classifier}
    {error : CanonicalError} :
    normalize recording.lexer text sourceName classifier = .error error ↔
      recording.outcome text = .error error := by
  rw [← normalize_outcome sourceName classifier, map_unit_eq_error]

end Token

namespace Recording

variable {recording other : Recording} {text : String}

/-- Other known tags in the place of known ones change no error. -/
theorem outcome_congr (h : List.Forall₂ (fun s t : TaggedSpan => s.ends = t.ends ∧
      (s.tag = t.tag ∨ s.isKnown = true ∧ t.isKnown = true)) other.spans recording.spans) :
    other.outcome text = recording.outcome text := by
  have hsame : other.spans.map (·.ends) = recording.spans.map (·.ends) ∧
      other.firstUnknown? = recording.firstUnknown? := by
    obtain ⟨_, spans⟩ := other
    obtain ⟨_, spans'⟩ := recording
    simp only [firstUnknown?] at h ⊢
    induction h with
    | nil => exact ⟨rfl, rfl⟩
    | @cons s t ss ts hfirst _ ih =>
      obtain ⟨hends, htag⟩ := hfirst
      have hknown : s.isKnown = t.isKnown := by
        rcases htag with htag | ⟨hs, ht⟩
        · rw [TaggedSpan.isKnown, htag, TaggedSpan.isKnown]
        · rw [hs, ht]
      refine ⟨by rw [List.map_cons, List.map_cons, hends, ih.1], ?_⟩
      rw [List.find?_cons, List.find?_cons, hknown]
      cases ht : t.isKnown with
      | true => exact ih.2
      | false =>
        rcases htag with htag | ⟨-, hknown⟩
        · simp [htag]
        · rw [ht] at hknown
          cases hknown
  rw [outcome, outcome, firstFault?, firstFault?, hsame.1, hsame.2]

/-- An error stays the same whatever spans come behind, but that the first unknown tag goes before
every other error. -/
theorem outcome_append {error : CanonicalError} {behind : List TaggedSpan}
    (h : recording.outcome text = .error error)
    (hbehind : (∃ tag, error = .unknownCategory tag) ∨ ∀ span ∈ behind, span.isKnown = true)
    (name : String) :
    (Recording.mk name (recording.spans ++ behind)).outcome text = .error error := by
  unfold outcome firstUnknown? firstFault? at *
  rw [List.find?_append, List.map_append]
  cases hunknown : recording.spans.find? fun span => !span.isKnown with
  | some span =>
    rw [hunknown] at h
    exact h
  | none =>
    rw [hunknown] at h
    cases hfault : SpanFault.firstOf? text 0 (recording.spans.map (·.ends)) with
    | none =>
      rw [hfault] at h
      cases h
    | some found =>
      rw [hfault] at h
      cases h
      have hknown : behind.find? (fun span => !span.isKnown) = none := by
        rcases hbehind with ⟨tag, htag⟩ | hbehind
        · cases htag
        · simpa using hbehind
      rw [hknown, SpanFault.firstOf?_append hfault]
      rfl

end Recording

namespace Token

/-- What comes of a recording on a text. If a tag is unknown, the first such is the error as it was
given, whatever the ends of the spans are. Else the first span to fail a check is the error, with
the first check that it fails. Else there are tokens. The classifier, the categories that tags stand
for and the spans behind the one at fault do not matter to this. -/
theorem normalize_recorded (recording : Recording) (text sourceName : String)
    (classifier : Classifier) :
    (∀ tag, normalize recording.lexer text sourceName classifier = .error (.unknownCategory tag) ↔
      recording.firstUnknown? = some tag) ∧
    (∀ start stop fault, normalize recording.lexer text sourceName classifier =
        .error (.invalidSpan start stop fault) ↔
      recording.firstUnknown? = none ∧ recording.firstFault? text = some (start, stop, fault)) ∧
    ((∃ tokens, normalize recording.lexer text sourceName classifier = .ok tokens) ↔
      recording.firstUnknown? = none ∧ recording.firstFault? text = none) ∧
    (∀ (other : Recording) sourceName' classifier',
      List.Forall₂ (fun s t : TaggedSpan => s.ends = t.ends ∧
        (s.tag = t.tag ∨ s.isKnown = true ∧ t.isKnown = true)) other.spans recording.spans →
      (normalize other.lexer text sourceName' classifier').map (fun _ => ()) =
        (normalize recording.lexer text sourceName classifier).map fun _ => ()) ∧
    ∀ error name behind, normalize recording.lexer text sourceName classifier = .error error →
      ((∃ tag, error = .unknownCategory tag) ∨ ∀ span ∈ behind, span.isKnown = true) →
      normalize (Recording.mk name (recording.spans ++ behind)).lexer text sourceName classifier =
        .error error := by
  have hok := @map_unit_eq_ok _ _ (normalize recording.lexer text sourceName classifier)
  rw [normalize_outcome, Recording.outcome] at hok
  simp only [normalize_eq_error_iff, normalize_outcome]
  refine ⟨?_, ?_, ?_, ?_, ?_⟩
  · intro tag
    unfold Recording.outcome
    split <;> simp_all
  · intro start stop fault
    unfold Recording.outcome
    split <;> simp_all
  · rw [← hok]
    split <;> simp_all
  · intro other _ _ hsame
    exact Recording.outcome_congr hsame
  · intro error name behind herror hbehind
    exact Recording.outcome_append herror hbehind name

/-- An unknown tag behind a span that ends before it starts; and a span that runs past the end
inside a character, in front of one that goes backward. -/
theorem normalize_recorded_defects :
    normalize (Recording.mk "rec" [⟨5, 2, "Name"⟩, ⟨1, 9, " Nme"⟩]).lexer "é;" "a.c" ⟨[]⟩ =
      .error (.unknownCategory " Nme") ∧
    normalize (Recording.mk "rec" ([⟨0, 3, "Name"⟩, ⟨1, 9, "Text"⟩] ++ [⟨0, 1, "Text"⟩])).lexer "é;"
      "a.c" ⟨[]⟩ = .error (.invalidSpan 1 9 .pastEnd) := by
  have hunknown := (normalize_recorded ⟨"rec", [⟨5, 2, "Name"⟩, ⟨1, 9, " Nme"⟩]⟩ "é;" "a.c" ⟨[]⟩).1
  obtain ⟨-, hinvalid, -, -, hbehind⟩ :=
    normalize_recorded ⟨"rec", [⟨0, 3, "Name"⟩, ⟨1, 9, "Text"⟩]⟩ "é;" "a.c" ⟨[]⟩
  refine ⟨(hunknown _).mpr (by decide +kernel), hbehind _ _ _ ((hinvalid 1 9 .pastEnd).mpr ?_) ?_⟩
  · decide +kernel
  · exact .inr (by decide +kernel)

end Token

end SourcePrint
