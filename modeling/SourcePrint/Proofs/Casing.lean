import SourcePrint.Text.Blank
import SourcePrint.Text.Lowercase

namespace SourcePrint.Text

theorem CodeRanges.has_eq_false {ranges : CodeRanges} {n : Nat}
    (h : ∀ range ∈ ranges, n < range.1 ∨ range.2 < n) : ranges.has n = false := by
  induction ranges with
  | nil => rfl
  | cons range ranges ih =>
    obtain ⟨hrange, hranges⟩ := List.forall_mem_cons.mp h
    rw [has, ih hranges, Bool.or_false, Bool.and_eq_false_iff, decide_eq_false_iff_not,
      decide_eq_false_iff_not]
    omega

namespace CaseRun

/-- The lower case of the first and of the last code point of a run. -/
def image (run : CaseRun) : Nat × Nat :=
  ((run.first + run.shift).toNat, (run.last + run.shift).toNat)

/-- Only every second code point from the first on has a lower case in this run. -/
def alternates (run : CaseRun) : Bool := run.stride.beq 2 || run.first.beq run.last

/-- Nothing from `low` to `high` is a capital of the run, or where it could be one, small letters
and capitals take turns. Numbers are compared as Booleans, which is quick to evaluate. -/
def misses (low high : Nat) (alternating : Bool) (run : CaseRun) : Bool :=
  high.blt run.first || run.last.blt low ||
    (alternating && run.stride.beq 2 && ((low + run.first) % 2).beq 1)

/-- Neither a blank nor a dot lies between two code points. -/
def isSolid (low high : Nat) : Bool :=
  (('.'.toNat, '.'.toNat) :: blankRanges).all fun range => high.blt range.1 || range.2.blt low

/-- What all runs of the table have in common: their capitals and small letters are characters, no
small letter is a capital, and none of them is a blank or a dot. -/
def isSound (run : CaseRun) : Bool :=
  (decide (0 ≤ run.first + run.shift) && decide (run.image.2 < 0x110000) &&
    (run.image.2.blt 0xD800 || Nat.blt 0xDFFF run.image.1)) &&
  (run.image.2.blt 0x130 || Nat.blt 0x130 run.image.1) &&
  (isSolid run.first run.last && isSolid run.image.1 run.image.2) &&
  caseRuns.all (misses run.image.1 run.image.2 run.alternates)

theorem isSound_of_mem {run : CaseRun} (h : run ∈ caseRuns) : run.isSound = true := by
  have htable : caseRuns.all isSound = true := by decide +kernel
  exact List.all_eq_true.mp htable run h

variable {run : CaseRun} {n m : Nat}

theorem lower?_eq_some_iff : run.lower? n = some m ↔
    (run.first ≤ n ∧ n ≤ run.last ∧ (n - run.first) % run.stride = 0) ∧
      (n + run.shift).toNat = m := by
  rw [lower?, Option.ite_none_right_eq_some, Option.some.injEq]

theorem lower?_of_misses {low high : Nat} {alternating : Bool}
    (h : run.misses low high alternating = true) (hlow : low ≤ m) (hhigh : m ≤ high)
    (halternating : alternating = true → m % 2 = low % 2) : run.lower? m = none := by
  rw [Option.eq_none_iff_forall_ne_some]
  intro k hk
  obtain ⟨⟨hfirst, hlast, hstride⟩, -⟩ := lower?_eq_some_iff.mp hk
  simp only [misses, Bool.or_eq_true, Bool.and_eq_true, Nat.blt_eq, Nat.beq_eq] at h
  rcases h with (h | h) | ⟨⟨halt, htwo⟩, hodd⟩
  · omega
  · omega
  · have hparity := halternating halt
    rw [htwo] at hstride
    omega

theorem image_of_lower? (hpos : 0 ≤ run.first + run.shift) (h : run.lower? n = some m) :
    run.image.1 ≤ m ∧ m ≤ run.image.2 ∧ (run.alternates = true → m % 2 = run.image.1 % 2) := by
  obtain ⟨⟨hfirst, hlast, hstride⟩, rfl⟩ := lower?_eq_some_iff.mp h
  refine ⟨by simp only [image]; omega, by simp only [image]; omega, fun halternates => ?_⟩
  simp only [alternates, Bool.or_eq_true, Nat.beq_eq] at halternates
  rcases halternates with htwo | hone
  · rw [htwo] at hstride
    simp only [image]
    omega
  · obtain rfl : n = run.first := by omega
    rfl

theorem of_isSolid {low high : Nat} (h : isSolid low high = true) (hlow : low ≤ n)
    (hhigh : n ≤ high) : n ≠ '.'.toNat ∧ blankRanges.has n = false := by
  simp only [isSolid, List.all_cons, Bool.and_eq_true, Bool.or_eq_true, Nat.blt_eq,
    List.all_eq_true] at h
  obtain ⟨hdot, hblank⟩ := h
  exact ⟨by omega, CodeRanges.has_eq_false fun range hrange => by
    have := hblank range hrange
    omega⟩

theorem small_of_lower? (hrun : run ∈ caseRuns) (h : run.lower? n = some m) :
    m.isValidChar ∧ m ≠ 0x130 ∧ ∀ other ∈ caseRuns, other.lower? m = none := by
  have hsound := isSound_of_mem hrun
  simp only [isSound, Bool.and_eq_true, Bool.or_eq_true, decide_eq_true_eq, Nat.blt_eq,
    List.all_eq_true] at hsound
  obtain ⟨⟨⟨⟨⟨hpos, hlimit⟩, hvalid⟩, hdotted⟩, -⟩, hmisses⟩ := hsound
  obtain ⟨hlow, hhigh, halternates⟩ := image_of_lower? hpos h
  refine ⟨by simp only [Nat.isValidChar]; omega, by omega, fun other hother => ?_⟩
  exact lower?_of_misses (hmisses other hother) hlow hhigh halternates

theorem solid_of_lower? (hrun : run ∈ caseRuns) (h : run.lower? n = some m) :
    (n ≠ '.'.toNat ∧ blankRanges.has n = false) ∧ m ≠ '.'.toNat ∧ blankRanges.has m = false := by
  have hsound := isSound_of_mem hrun
  simp only [isSound, Bool.and_eq_true, decide_eq_true_eq] at hsound
  obtain ⟨⟨⟨⟨⟨hpos, -⟩, -⟩, -⟩, hcapital, hsmall⟩, -⟩ := hsound
  obtain ⟨⟨hfirst, hlast, -⟩, -⟩ := lower?_eq_some_iff.mp h
  obtain ⟨hlow, hhigh, -⟩ := image_of_lower? hpos h
  exact ⟨of_isSolid hcapital hfirst hlast, of_isSolid hsmall hlow hhigh⟩

/-- Beyond ASCII, lower case stays beyond ASCII, but for the Kelvin sign. -/
theorem lower?_above (hrun : run ∈ caseRuns) (h : run.lower? n = some m) :
    0x80 ≤ m ∨ m = 'k'.toNat := by
  have htable : (caseRuns.all fun run => decide (0x80 ≤ run.first + run.shift) ||
      decide (run.first = run.last ∧ run.first + run.shift = ('k'.toNat : Int))) = true := by
    decide +kernel
  have hfacts := List.all_eq_true.mp htable run hrun
  simp only [Bool.or_eq_true, decide_eq_true_eq] at hfacts
  obtain ⟨⟨hfirst, hlast, -⟩, hm⟩ := lower?_eq_some_iff.mp h
  omega

end CaseRun

theorem toNat_ofNat {n : Nat} (h : n.isValidChar) : (Char.ofNat n).toNat = n := by
  rw [Char.ofNat, dif_pos h]
  rfl

theorem lowerChar_cases (c : Char) :
    (c.toNat < 0x80 ∧ lowerChar c = [c.toLower]) ∨
    (c = '\u0130' ∧ lowerChar c = ['i', '\u0307']) ∨
    (∃ run ∈ caseRuns, ∃ m, run.lower? c.toNat = some m ∧ lowerChar c = [Char.ofNat m]) ∨
    (0x80 ≤ c.toNat ∧ c ≠ '\u0130' ∧ (∀ run ∈ caseRuns, run.lower? c.toNat = none) ∧
      lowerChar c = [c]) := by
  unfold lowerChar
  split
  · exact .inl ⟨by assumption, rfl⟩
  · split
    · exact .inr (.inl ⟨by assumption, rfl⟩)
    · split
      · rename_i m hm
        obtain ⟨run, hrun, hlower⟩ := List.exists_of_findSome?_eq_some hm
        exact .inr (.inr (.inl ⟨run, hrun, m, hlower, rfl⟩))
      · rename_i hascii hdotted _ hnone
        exact .inr (.inr (.inr ⟨by omega, hdotted, List.findSome?_eq_none_iff.mp hnone, rfl⟩))

theorem lowerSigma_cases (before after : List Char) :
    lowerSigma before after = '\u03C2' ∨ lowerSigma before after = '\u03C3' := by
  unfold lowerSigma
  split
  · exact .inl rfl
  · exact .inr rfl

/-- A character that nothing but ASCII has for its lower case. -/
def isAsciiOnly (c : Char) : Bool :=
  decide (0 < c.toNat) && decide (c.toNat < 0x80) && c != 'i' && c != 'k'

/-- The ASCII texts with a given lower case. -/
def asciiSpellings : List Char → List (List Char)
  | [] => [[]]
  | c :: cs => (((List.range 0x80).map Char.ofNat).filter (·.toLower == c)).flatMap fun d =>
      (asciiSpellings cs).map (d :: ·)

theorem lowerChar_eq_cons {c d : Char} {ds : List Char} (h : lowerChar c = d :: ds)
    (hd : isAsciiOnly d = true) : c.toNat < 0x80 ∧ c.toLower = d ∧ ds = [] := by
  simp only [isAsciiOnly, Bool.and_eq_true, decide_eq_true_eq, bne_iff_ne, ne_eq] at hd
  obtain ⟨⟨⟨-, hascii⟩, hi⟩, hk⟩ := hd
  obtain ⟨hsmall, hc⟩ | ⟨-, hc⟩ | ⟨run, hrun, m, hm, hc⟩ | ⟨hlarge, -, -, hc⟩ := lowerChar_cases c
  all_goals
    rw [hc] at h
    obtain ⟨rfl, rfl⟩ := List.cons.inj h
  · exact ⟨hsmall, rfl, rfl⟩
  · exact absurd rfl hi
  · have hcode := toNat_ofNat (CaseRun.small_of_lower? hrun hm).1
    rcases CaseRun.lower?_above hrun hm with hlarge | hkelvin
    · omega
    · exact absurd (Char.toNat_inj.mp (hcode.trans hkelvin)) hk
  · omega

theorem lowerChar_ne_nil (c : Char) : lowerChar c ≠ [] := by
  obtain ⟨-, hc⟩ | ⟨-, hc⟩ | ⟨_, -, _, -, hc⟩ | ⟨-, -, -, hc⟩ := lowerChar_cases c
  all_goals simp [hc]

theorem lowercaseAfter_eq_cons {before cs ds : List Char} {d : Char}
    (h : lowercaseAfter before cs = d :: ds) (hd : isAsciiOnly d = true) :
    ∃ c rest, cs = c :: rest ∧ c.toNat < 0x80 ∧ c.toLower = d ∧
      lowercaseAfter (c :: before) rest = ds := by
  cases cs with
  | nil => cases h
  | cons c rest =>
    rw [lowercaseAfter] at h
    split at h
    · obtain ⟨rfl, -⟩ := List.cons.inj h
      rcases lowerSigma_cases before rest with hsigma | hsigma <;> rw [hsigma] at hd <;>
        exact absurd hd (by decide)
    · obtain ⟨e, es, hc⟩ := List.exists_cons_of_ne_nil (lowerChar_ne_nil c)
      rw [hc, List.cons_append] at h
      obtain ⟨rfl, htail⟩ := List.cons.inj h
      obtain ⟨hascii, hlower, rfl⟩ := lowerChar_eq_cons hc hd
      exact ⟨c, rest, rfl, hascii, hlower, htail⟩

theorem lowercaseAfter_eq_append {before cs ds more : List Char}
    (h : lowercaseAfter before cs = ds ++ more) (hds : ds.all isAsciiOnly = true) :
    ∃ front back before', cs = front ++ back ∧ front ∈ asciiSpellings ds ∧
      lowercaseAfter before' back = more := by
  induction ds generalizing before cs with
  | nil => exact ⟨[], cs, before, rfl, List.mem_singleton.mpr rfl, h⟩
  | cons d ds ih =>
    obtain ⟨hd, hds⟩ := Bool.and_eq_true_iff.mp hds
    obtain ⟨c, rest, rfl, hascii, hlower, htail⟩ := lowercaseAfter_eq_cons h hd
    obtain ⟨front, back, before', rfl, hfront, hback⟩ := ih htail hds
    refine ⟨c :: front, back, before', rfl, ?_, hback⟩
    refine List.mem_flatMap.mpr ⟨c, List.mem_filter.mpr ⟨?_, by simp [hlower]⟩,
      List.mem_map.mpr ⟨front, hfront, rfl⟩⟩
    exact List.mem_map.mpr ⟨c.toNat, List.mem_range.mpr hascii, Char.ofNat_toNat c⟩

theorem eq_nil_of_lowercaseAfter {before cs : List Char} (h : lowercaseAfter before cs = []) :
    cs = [] := by
  cases cs with
  | nil => rfl
  | cons c rest =>
    have hfirst := (List.append_eq_nil_iff.mp h).1
    split at hfirst
    · cases hfirst
    · exact absurd hfirst (lowerChar_ne_nil c)

/-- A character that is its own lower case. -/
def IsLower (c : Char) : Prop := lowercase [c] = [c]

instance (c : Char) : Decidable (IsLower c) := inferInstanceAs (Decidable (lowercase [c] = [c]))

theorem isLower_iff {c : Char} : IsLower c ↔ c ≠ '\u03A3' ∧ lowerChar c = [c] := by
  by_cases h : c = '\u03A3'
  · subst h
    simp [IsLower, lowercase, lowercaseAfter, lowerSigma, reachesCased]
  · simp [IsLower, lowercase, lowercaseAfter, h]

theorem isLower_of_runs {c : Char} (hascii : 0x80 ≤ c.toNat) (hdotted : c ≠ '\u0130')
    (hruns : ∀ run ∈ caseRuns, run.lower? c.toNat = none) : IsLower c := by
  refine isLower_iff.mpr ⟨?_, ?_⟩
  · rintro rfl
    have hsigma : (caseRuns.all fun run => (run.lower? '\u03A3'.toNat).isNone) = false := by
      decide +kernel
    rw [List.all_eq_false] at hsigma
    obtain ⟨run, hrun, hsome⟩ := hsigma
    exact hsome (by rw [hruns run hrun]; rfl)
  · rw [lowerChar, if_neg (by omega), if_neg hdotted, List.findSome?_eq_none_iff.mpr hruns]

/-- Whether a character is a blank, and whether it is a dot. Lower case changes neither. -/
def gapKind (c : Char) : Bool × Bool := (isBlank c, c == '.')

/-- Both cases of an ASCII letter are alike for all that is looked at here, but that the capital is
not its own lower case. -/
theorem ascii_toLower : ∀ n < 0x80,
    (IsLower (Char.ofNat n).toLower ∧ (65 ≤ n ∧ n ≤ 90 → ¬ IsLower (Char.ofNat n))) ∧
    gapKind (Char.ofNat n).toLower = gapKind (Char.ofNat n) ∧
    isCased (Char.ofNat n).toLower = isCased (Char.ofNat n) ∧
    isCaseIgnorable (Char.ofNat n).toLower = isCaseIgnorable (Char.ofNat n) ∧
    lowerChar (Char.ofNat n).toLower = lowerChar (Char.ofNat n) ∧
    ((Char.ofNat n).toLower == '\u03A3') = (Char.ofNat n == '\u03A3') := by
  decide +kernel

theorem isLower_of_ascii {c : Char} (h : c.toNat < 0x80) : IsLower c.toLower := by
  obtain ⟨⟨hlower, -⟩, -⟩ := ascii_toLower c.toNat h
  rwa [Char.ofNat_toNat] at hlower

theorem isLower_of_mem_lowerChar {c d : Char} (h : d ∈ lowerChar c) : IsLower d := by
  obtain ⟨hascii, hc⟩ | ⟨-, hc⟩ | ⟨run, hrun, m, hm, hc⟩ | ⟨hascii, hdotted, hruns, hc⟩ :=
    lowerChar_cases c
  · rw [hc, List.mem_singleton] at h
    rw [h]
    exact isLower_of_ascii hascii
  · rw [hc] at h
    simp only [List.mem_cons, List.not_mem_nil, or_false] at h
    rcases h with rfl | rfl <;> decide
  · rw [hc, List.mem_singleton] at h
    obtain ⟨hvalid, hdotted, hruns⟩ := CaseRun.small_of_lower? hrun hm
    have hcode : d.toNat = m := by rw [h, toNat_ofNat hvalid]
    rcases CaseRun.lower?_above hrun hm with habove | hkelvin
    · refine isLower_of_runs (by omega) ?_ (by rwa [hcode])
      rintro rfl
      exact hdotted hcode.symm
    · obtain rfl : d = 'k' := Char.toNat_inj.mp (hcode.trans hkelvin)
      decide
  · rw [hc, List.mem_singleton] at h
    rw [h]
    exact isLower_of_runs hascii hdotted hruns

theorem isLower_of_mem_lowercaseAfter {before cs : List Char} {d : Char}
    (h : d ∈ lowercaseAfter before cs) : IsLower d := by
  induction cs generalizing before with
  | nil => cases h
  | cons c rest ih =>
    rw [lowercaseAfter, List.mem_append] at h
    rcases h with h | h
    · split at h
      · rw [List.mem_singleton] at h
        rcases lowerSigma_cases before rest with hsigma | hsigma <;> rw [h, hsigma] <;>
          decide
      · exact isLower_of_mem_lowerChar h
    · exact ih h

theorem lowercaseAfter_eq_self {cs : List Char} (h : ∀ c ∈ cs, IsLower c) (before : List Char) :
    lowercaseAfter before cs = cs := by
  induction cs generalizing before with
  | nil => rfl
  | cons c rest ih =>
    obtain ⟨hc, hrest⟩ := List.forall_mem_cons.mp h
    obtain ⟨hsigma, hlower⟩ := isLower_iff.mp hc
    rw [lowercaseAfter, if_neg hsigma, hlower, ih hrest, List.singleton_append]

theorem gapKind_of_lower? {run : CaseRun} (hrun : run ∈ caseRuns) {c : Char} {m : Nat}
    (h : run.lower? c.toNat = some m) : gapKind (Char.ofNat m) = gapKind c := by
  obtain ⟨⟨hdot, hblank⟩, hdot', hblank'⟩ := CaseRun.solid_of_lower? hrun h
  obtain ⟨hvalid, -⟩ := CaseRun.small_of_lower? hrun h
  have hcode := toNat_ofNat hvalid
  have hne {d : Char} (hd : d.toNat ≠ '.'.toNat) : (d == '.') = false :=
    beq_eq_false_iff_ne.mpr fun heq => hd (congrArg Char.toNat heq)
  simp [gapKind, isBlank, hcode, hblank, hblank', hne hdot, hne (hcode ▸ hdot')]

theorem gapKind_of_mem_lowerChar {c d : Char} (h : d ∈ lowerChar c) : gapKind d = gapKind c := by
  obtain ⟨hascii, hc⟩ | ⟨rfl, hc⟩ | ⟨run, hrun, m, hm, hc⟩ | ⟨-, -, -, hc⟩ := lowerChar_cases c
  · obtain ⟨-, hkind, -⟩ := ascii_toLower c.toNat hascii
    rw [Char.ofNat_toNat] at hkind
    rw [hc, List.mem_singleton] at h
    rw [h, hkind]
  · rw [hc] at h
    simp only [List.mem_cons, List.not_mem_nil, or_false] at h
    rcases h with rfl | rfl <;> decide
  · rw [hc, List.mem_singleton] at h
    rw [h, gapKind_of_lower? hrun hm]
  · rw [hc, List.mem_singleton] at h
    rw [h]

/-- Every character leaves something, and what it leaves is a blank or a dot where it was one. -/
theorem lowercaseAfter_cons (before : List Char) (c : Char) (rest : List Char) :
    ∃ ds, ds ≠ [] ∧ (∀ d ∈ ds, gapKind d = gapKind c) ∧
      lowercaseAfter before (c :: rest) = ds ++ lowercaseAfter (c :: before) rest := by
  by_cases h : c = '\u03A3'
  · refine ⟨[lowerSigma before rest], by simp, ?_, by rw [lowercaseAfter, if_pos h]⟩
    intro d hd
    rw [List.mem_singleton] at hd
    rcases lowerSigma_cases before rest with hsigma | hsigma <;> rw [hd, hsigma, h] <;>
      decide
  · exact ⟨lowerChar c, lowerChar_ne_nil c, fun d => gapKind_of_mem_lowerChar,
      by rw [lowercaseAfter, if_neg h]⟩

theorem gapKind_head?_lowercaseAfter (before cs : List Char) :
    (lowercaseAfter before cs).head?.map gapKind = cs.head?.map gapKind := by
  cases cs with
  | nil => rfl
  | cons c rest =>
    obtain ⟨ds, hne, hds, heq⟩ := lowercaseAfter_cons before c rest
    obtain ⟨d, ds, rfl⟩ := List.exists_cons_of_ne_nil hne
    simp [heq, hds d (by simp)]

theorem gapKind_getLast?_lowercaseAfter (before cs : List Char) :
    (lowercaseAfter before cs).getLast?.map gapKind = cs.getLast?.map gapKind := by
  induction cs generalizing before with
  | nil => rfl
  | cons c rest ih =>
    obtain ⟨ds, hne, hds, heq⟩ := lowercaseAfter_cons before c rest
    cases rest with
    | nil =>
      rw [heq, show lowercaseAfter (c :: before) [] = [] from rfl, List.append_nil,
        List.getLast?_eq_some_getLast hne, Option.map_some, hds _ (List.getLast_mem hne)]
      rfl
    | cons c' rest =>
      have hrest : lowercaseAfter (c :: before) (c' :: rest) ≠ [] := by
        intro hnil
        cases eq_nil_of_lowercaseAfter hnil
      rw [heq, List.getLast?_append, List.getLast?_cons_cons, ← ih (c :: before),
        List.getLast?_eq_some_getLast hrest, Option.some_or]

theorem isUpper_iff {c : Char} : c.isUpper = true ↔ 65 ≤ c.toNat ∧ c.toNat ≤ 90 :=
  decide_eq_true_iff.trans (and_congr UInt32.le_iff_toNat_le UInt32.le_iff_toNat_le)

theorem toLower_eq_self {c : Char} (h : c.isUpper = false) : c.toLower = c := by
  have hrange : ¬ (c.val ≥ 'A'.val ∧ c.val ≤ 'Z'.val) := of_decide_eq_false h
  exact dif_neg hrange

theorem isUpper_of_isLower {c : Char} (h : IsLower c) : c.isUpper = false := by
  rw [Bool.eq_false_iff]
  intro hupper
  have hrange := isUpper_iff.mp hupper
  obtain ⟨⟨-, hcapital⟩, -⟩ := ascii_toLower c.toNat (by omega)
  apply hcapital hrange
  rwa [Char.ofNat_toNat]

/-- All that does not see the ASCII case of a character. -/
structure CaseBlind (c : Char) : Prop where
  gap : gapKind c.toLower = gapKind c
  cased : isCased c.toLower = isCased c
  ignorable : isCaseIgnorable c.toLower = isCaseIgnorable c
  lower : lowerChar c.toLower = lowerChar c
  sigma : (c.toLower == '\u03A3') = (c == '\u03A3')

theorem caseBlind (c : Char) : CaseBlind c := by
  cases hupper : c.isUpper with
  | false => constructor <;> rw [toLower_eq_self hupper]
  | true =>
    have hrange := isUpper_iff.mp hupper
    obtain ⟨-, hgap, hcased, hignorable, hlower, hsigma⟩ := ascii_toLower c.toNat (by omega)
    rw [Char.ofNat_toNat] at hgap hcased hignorable hlower hsigma
    exact ⟨hgap, hcased, hignorable, hlower, hsigma⟩

theorem isBlank_toLower : isBlank ∘ Char.toLower = isBlank :=
  funext fun c => congrArg Prod.fst (caseBlind c).gap

theorem isCaseIgnorable_toLower : isCaseIgnorable ∘ Char.toLower = isCaseIgnorable :=
  funext fun c => (caseBlind c).ignorable

theorem reachesCased_map_toLower (cs : List Char) :
    reachesCased (cs.map Char.toLower) = reachesCased cs := by
  rw [reachesCased, List.dropWhile_map, isCaseIgnorable_toLower, List.head?_map, Option.any_map]
  simp only [(caseBlind _).cased, reachesCased]

/-- Where a sigma stands in the middle of a text, the ASCII letters around it count as letters in
either case. -/
theorem lowerSigma_map_toLower (before after : List Char) :
    lowerSigma (before.map Char.toLower) (after.map Char.toLower) = lowerSigma before after := by
  rw [lowerSigma, reachesCased_map_toLower, reachesCased_map_toLower, lowerSigma]

theorem lowercaseAfter_map_toLower (before cs : List Char) :
    lowercaseAfter (before.map Char.toLower) (cs.map Char.toLower) = lowercaseAfter before cs := by
  induction cs generalizing before with
  | nil => rfl
  | cons c rest ih =>
    have hsigma : c.toLower = '\u03A3' ↔ c = '\u03A3' := by
      rw [← beq_iff_eq, (caseBlind c).sigma, beq_iff_eq]
    rw [List.map_cons, lowercaseAfter, lowercaseAfter, ← List.map_cons, ih, lowerSigma_map_toLower,
      (caseBlind c).lower]
    simp only [hsigma]

theorem trim_map_toLower (cs : List Char) : trim (cs.map Char.toLower) = (trim cs).map Char.toLower := by
  rw [trim, trimStart, List.dropWhile_map, isBlank_toLower, trimEnd, ← List.map_reverse,
    List.dropWhile_map, isBlank_toLower, ← List.map_reverse]
  rfl

/-- The folding of a text without its blanks does not see the ASCII case of the text. -/
theorem lowercase_trim_congr {cs ds : List Char} (h : cs.map Char.toLower = ds.map Char.toLower) :
    lowercase (trim cs) = lowercase (trim ds) := by
  have hfold (cs : List Char) :
      lowercase (trim cs) = lowercase (trim (cs.map Char.toLower)) := by
    rw [trim_map_toLower]
    exact (lowercaseAfter_map_toLower [] (trim cs)).symm
  rw [hfold cs, h, ← hfold ds]

end SourcePrint.Text
