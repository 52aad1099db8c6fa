import Mathlib.InformationTheory.Coding.UniquelyDecodable
import SourcePrint.Proofs.Casing
import SourcePrint.Proofs.Spelling
import SourcePrint.Proofs.Tags

namespace SourcePrint

open InformationTheory

/-- The first text begins the second. Code points are compared, which is quick to evaluate. -/
def begins : List Char → List Char → Bool
  | [], _ => true
  | _ :: _, [] => false
  | c :: a, d :: b => c.toNat.beq d.toNat && begins a b

theorem begins_append (a t : List Char) : begins a (a ++ t) = true := by
  induction a with
  | nil => rfl
  | cons c a ih => simp [begins, ih]

/-- Where `a` begins `b`, what is left of `b` is a residue. -/
def leaves (residues : List (List Char)) (a b : List Char) : Bool :=
  !begins a b || residues.contains (b.drop a.length)

/-- The residues hold all that can be left over when words are read off one text in two ways. Only a
word that begins itself leaves nothing over, so no residue is a word. -/
structure Residues (words residues : List (List Char)) : Prop where
  nonempty : [] ∉ words
  proper : [] ∉ residues
  start : ∀ a ∈ words, ∀ b ∈ words, leaves ([] :: residues) a b = true
  word : ∀ r ∈ residues, ∀ w ∈ words, leaves residues r w = true
  residue : ∀ r ∈ residues, ∀ w ∈ words, leaves residues w r = true

/-- The same as a test. -/
def hasResidues (words residues : List (List Char)) : Bool :=
  (!words.contains [] && !residues.contains []) &&
  (words.all fun a => words.all fun b => leaves ([] :: residues) a b) &&
  residues.all fun r => words.all fun w => leaves residues r w && leaves residues w r

namespace Residues

variable {words residues : List (List Char)}

theorem of_test (h : hasResidues words residues = true) : Residues words residues := by
  simp only [hasResidues, Bool.and_eq_true, Bool.not_eq_eq_eq_not, Bool.not_true, List.all_eq_true,
    List.contains_eq_mem, decide_eq_false_iff_not] at h
  obtain ⟨⟨⟨hwords, hresidues⟩, hstart⟩, hstep⟩ := h
  exact {
    nonempty := hwords
    proper := hresidues
    start := hstart
    word := fun r hr w hw => (hstep r hr w hw).1
    residue := fun r hr w hw => (hstep r hr w hw).2 }

theorem mem_of_leaves {a t : List Char} (h : leaves residues a (a ++ t) = true) :
    t ∈ residues := by
  simpa [leaves, begins_append] using h

theorem not_flatten (h : Residues words residues) {r : List Char} (hr : r ∈ residues)
    {xs ys : List (List Char)} (hxs : ∀ x ∈ xs, x ∈ words) (hys : ∀ y ∈ ys, y ∈ words) :
    r ++ xs.flatten ≠ ys.flatten := by
  induction hn : xs.length + ys.length using Nat.strong_induction_on generalizing r xs ys with
  | _ n ih =>
    intro heq
    cases ys with
    | nil =>
      have hnil := (List.append_eq_nil_iff.mp heq).1
      exact h.proper (hnil ▸ hr)
    | cons y ys =>
      obtain ⟨hy, hrest⟩ := List.forall_mem_cons.mp hys
      rw [List.length_cons] at hn
      rw [List.flatten_cons, List.append_eq_append_iff] at heq
      obtain ⟨t, rfl, ht⟩ | ⟨t, rfl, ht⟩ := heq
      · have hmem := mem_of_leaves (h.word r hr _ hy)
        exact ih _ (by omega) hmem hrest hxs rfl ht.symm
      · have hmem := mem_of_leaves (h.residue _ hr y hy)
        exact ih _ (by omega) hmem hxs hrest rfl ht.symm

theorem uniquelyDecodable (h : Residues words residues) : UniquelyDecodable {w | w ∈ words} := by
  intro xs ys hxs hys heq
  induction xs generalizing ys with
  | nil =>
    cases ys with
    | nil => rfl
    | cons y ys =>
      have hnil := (List.append_eq_nil_iff.mp heq.symm).1
      exact absurd (hnil ▸ hys y (by simp)) h.nonempty
  | cons x xs ih =>
    obtain ⟨hx, hrest⟩ := List.forall_mem_cons.mp hxs
    cases ys with
    | nil =>
      have hnil := (List.append_eq_nil_iff.mp heq).1
      exact absurd (hnil ▸ hx) h.nonempty
    | cons y ys =>
      obtain ⟨hy, hrest'⟩ := List.forall_mem_cons.mp hys
      rw [List.flatten_cons, List.flatten_cons, List.append_eq_append_iff] at heq
      obtain ⟨t, rfl, ht⟩ | ⟨t, rfl, ht⟩ := heq
      · rcases List.mem_cons.mp (mem_of_leaves (h.start x hx _ hy)) with rfl | hmem
        · rw [List.append_nil, ih ys hrest hrest' ht]
        · exact absurd ht.symm (h.not_flatten hmem hrest' hrest)
      · rcases List.mem_cons.mp (mem_of_leaves (h.start y hy _ hx)) with rfl | hmem
        · rw [List.append_nil, ih ys hrest hrest' ht.symm]
        · exact absurd ht.symm (h.not_flatten hmem hrest hrest')

end Residues

namespace Language

/-- What a stream of a language can hold besides signs: the marker, the words that keep their
spelling, and the names that the classifier takes for types. -/
def vocabulary (language : Language) (classifier : Classifier) : Set (List Char) :=
  {word | word ∈ "$".toList :: language.spelledWords ∨
    Lexeme.isName word = true ∧ language.wordCategory? (String.ofList word) = none ∧
      classifier.isBuiltinType word = true}

/-- The names that the default settings take for types. Entries with a capital letter match none. -/
def defaultNames : List (List Char) := ["u8", "U8", "u32", "U32"].map String.toList

/-- What is left over among the words of a language and the default type names. -/
def residues : Language → List (List Char)
  | c => ["16_t", "32_t", "64_t", "8_t", "ptr_t", "uble"].map String.toList
  | cpp => ["16_t", "32_t", "64_t", "8_t", "_assert", "_cast", "_eq", "eval", "expr", "init",
      "uble"].map String.toList
  | java => ["erface", "hort", "ly", "s", "tatic", "trictfp", "uble", "uper", "witch",
      "ynchronized"].map String.toList

/-- Letters and digits, and what else the marker and the spelled words are made of. -/
def isWordCharacter (c : Char) : Bool := c.isAlphanum || ['_', '$', '@'].contains c

theorem words_tested (language : Language) :
    (hasResidues ("$".toList :: language.spelledWords ++ defaultNames) language.residues &&
      ("$".toList :: language.spelledWords ++ defaultNames).all (·.all isWordCharacter)) = true := by
  cases language with
  | c => decide +kernel
  | cpp => decide +kernel
  | java => decide +kernel

theorem residues_spelled (language : Language) :
    Residues ("$".toList :: language.spelledWords ++ defaultNames) language.residues :=
  Residues.of_test (Bool.and_eq_true_iff.mp language.words_tested).1

end Language

theorem Lexeme.isNameContinue_of_isName {word : List Char} (h : isName word = true) :
    ∀ c ∈ word, isNameContinue c = true := by
  cases word with
  | nil => cases h
  | cons c cs =>
    simp only [isName, Bool.and_eq_true, List.all_eq_true] at h
    intro d hd
    rcases List.mem_cons.mp hd with rfl | hd
    · exact isNameContinue_of_isNameStart h.1
    · exact h.2 d hd

theorem Lexeme.trim_of_isName {word : List Char} (h : isName word = true) :
    Text.trim word = word := by
  apply Text.trim_eq_self
  intro c hc
  by_contra hblank
  have hcontinue : isNameContinue c = false :=
    eq_false_of_isBlank (by simpa using hblank) (by decide +kernel)
  rw [isNameContinue_of_isName h c hc] at hcontinue
  cases hcontinue

/-- The classifier of the default settings. -/
def Classifier.standard : Classifier := ⟨["CString", "UINT32", "u8", "u32"]⟩

theorem Classifier.ofConfig_default : ofConfig {} = .ok standard := by
  decide +kernel

theorem Classifier.mem_defaultNames {word : List Char} (hname : Lexeme.isName word = true)
    (h : standard.isBuiltinType word = true) : word ∈ Language.defaultNames := by
  rw [isBuiltinType, Lexeme.trim_of_isName hname, List.contains_iff_mem] at h
  have hentries : ["CString", "UINT32", "u8", "u32"].map String.toList =
      [['C'] ++ ['S', 't', 'r', 'i', 'n', 'g'], ['U'] ++ ['I', 'N', 'T', '3', '2'],
        ['u', '8'] ++ [], ['u', '3', '2'] ++ []] := by
    decide
  have hlower : Text.lowercase word ∈ ["CString", "UINT32", "u8", "u32"].map String.toList :=
    List.mem_map.mpr ⟨_, h, String.toList_ofList⟩
  simp only [hentries, List.mem_cons, List.not_mem_nil, or_false] at hlower
  have hcapital : Text.asciiSpellings ['C'] = [] ∧ Text.asciiSpellings ['U'] = [] := by decide
  have hnames : (Text.asciiSpellings ['u', '8'] ++ Text.asciiSpellings ['u', '3', '2']).all
      (Language.defaultNames.contains ·) = true := by
    decide
  rcases hlower with hlower | hlower | hlower | hlower
  all_goals
    obtain ⟨front, back, _, rfl, hfront, hback⟩ := Text.lowercaseAfter_eq_append hlower (by decide)
  · rw [hcapital.1] at hfront
    cases hfront
  · rw [hcapital.2] at hfront
    cases hfront
  all_goals
    obtain rfl := Text.eq_nil_of_lowercaseAfter hback
    rw [List.append_nil]
    refine List.contains_iff_mem.mp (List.all_eq_true.mp hnames front ?_)
    simp [hfront]

namespace Language

theorem not_isSignCharacter_of_vocabulary {language : Language} {classifier : Classifier}
    {word : List Char} (h : word ∈ language.vocabulary classifier) :
    ∀ c ∈ word, Lexeme.isSignCharacter c = false := by
  have hspelled := (Bool.and_eq_true_iff.mp language.words_tested).2
  intro c hc
  by_contra hsign
  rw [Bool.not_eq_false] at hsign
  rcases h with h | ⟨hname, -, -⟩
  · have hmem := List.mem_append_left defaultNames h
    have hword := List.all_eq_true.mp (List.all_eq_true.mp hspelled word hmem) c hc
    rw [Lexeme.eq_false_of_isSignCharacter (p := isWordCharacter) (by decide) hsign] at hword
    cases hword
  · have hcontinue := Lexeme.isNameContinue_of_isName hname c hc
    rw [Lexeme.eq_false_of_isSignCharacter (p := Lexeme.isNameContinue) (by decide) hsign]
      at hcontinue
    cases hcontinue

theorem ne_nil_of_vocabulary {language : Language} {classifier : Classifier} {word : List Char}
    (h : word ∈ language.vocabulary classifier) : word ≠ [] := by
  intro hnil
  rcases h with h | ⟨hname, -, -⟩
  · exact language.residues_spelled.nonempty (List.mem_append_left _ (hnil ▸ h))
  · rw [hnil] at hname
    cases hname

theorem decodable_of_names {language : Language} {classifier : Classifier}
    (h : ∀ word, Lexeme.isName word = true → classifier.isBuiltinType word = true →
      word ∈ defaultNames) : UniquelyDecodable (language.vocabulary classifier) := by
  have hmem : ∀ word ∈ language.vocabulary classifier,
      word ∈ "$".toList :: language.spelledWords ++ defaultNames := by
    intro word hword
    rcases hword with hword | ⟨hname, -, hbuiltin⟩
    · exact List.mem_append_left _ hword
    · exact List.mem_append_right _ (h word hname hbuiltin)
  intro xs ys hxs hys heq
  exact language.residues_spelled.uniquelyDecodable xs ys (fun x hx => hmem x (hxs x hx))
    (fun y hy => hmem y (hys y hy)) heq

/-- Under the default settings, and where no name is taken for a type, the words of a stream can be
told apart without blanks between them. -/
theorem decodable_of_ofConfig (language : Language) {classifier : Classifier}
    (h : Classifier.ofConfig {} = .ok classifier ∨
      Classifier.ofConfig .noBuiltinTypes = .ok classifier) :
    UniquelyDecodable (language.vocabulary classifier) := by
  apply decodable_of_names
  intro word hname hbuiltin
  have hempty : Classifier.ofConfig .noBuiltinTypes = .ok ⟨[]⟩ := rfl
  rcases h with h | h
  · obtain rfl := Except.ok.inj (Classifier.ofConfig_default.symm.trans h)
    exact Classifier.mem_defaultNames hname hbuiltin
  · obtain rfl := Except.ok.inj (hempty.symm.trans h)
    cases hbuiltin

end Language

end SourcePrint
