import Mathlib.Data.List.Forall2
import Mathlib.Logic.Relation
import SourcePrint.Proofs.Casing
import SourcePrint.Proofs.Grouping
import SourcePrint.Proofs.Margins

namespace SourcePrint

theorem Text.isUpper_of_isBlank {c : Char} (h : isBlank c = true) : c.isUpper = false := by
  rw [Bool.eq_false_iff]
  intro hupper
  have hrange := isUpper_iff.mp hupper
  have hcapitals : ∀ n < 0x80, 65 ≤ n ∧ n ≤ 90 → blankRanges.has n = false := by decide
  rw [isBlank, hcapitals c.toNat (by omega) hrange] at h
  cases h

theorem Text.any_isUpper_trim (cs : List Char) :
    (trim cs).any Char.isUpper = cs.any Char.isUpper := by
  obtain ⟨before, after, hcs, hbefore, hafter⟩ := exists_trim cs
  have hblanks {blanks : List Char} (h : blanks.all isBlank = true) :
      blanks.any Char.isUpper = false := by
    rw [List.any_eq_false]
    intro c hc
    simp [isUpper_of_isBlank (List.all_eq_true.mp h c hc)]
  have hany := congrArg (List.any · Char.isUpper) hcs
  simp only [List.any_append, hblanks hbefore, hblanks hafter, Bool.false_or, Bool.or_false] at hany
  exact hany.symm

theorem Text.any_isUpper_lowercase (cs : List Char) : (lowercase cs).any Char.isUpper = false := by
  rw [List.any_eq_false]
  intro c hc
  simp [isUpper_of_isLower (isLower_of_mem_lowercaseAfter hc)]

/-- Names that stand for something of the program, not for markup. -/
def Category.isIdentifier (category : Category) : Bool :=
  category.family == .name &&
    !([.name .attributeName, .name .entityName, .name .tagName, .name .decorator].contains category)

namespace ClassifierConfig

/-- Some entry, without its blanks, is the lower case of the text without the text's blanks. -/
def Allows (config : ClassifierConfig) (text : String) : Prop :=
  ∃ entry ∈ config.builtinTypeNames,
    Text.trim entry.toList = Text.lowercase (Text.trim text.toList)

def Padded (entry padded : String) : Prop :=
  ∃ before after, padded = before ++ entry ++ after ∧ Text.isBlankText before = true ∧
    Text.isBlankText after = true

/-- Ways to edit a list of type names. -/
inductive Edit : List String → List String → Prop
  | dropCapitals (names : List String) : Edit names (names.filter (!·.toList.any Char.isUpper))
  | duplicate {front back : List String} {name : String} (h : name ∈ front ++ back) :
      Edit (front ++ back) (front ++ name :: back)
  | reorder {names names' : List String} (h : names.Perm names') : Edit names names'
  | pad {names names' : List String} (h : List.Forall₂ Padded names names') : Edit names names'

/-- Two lists with the same entries, blanks around them and entries with a capital left aside. -/
def Alike (names names' : List String) : Prop :=
  ∀ cs : List Char, cs.any Char.isUpper = false →
    ((∃ name ∈ names, Text.trim name.toList = cs) ↔ ∃ name ∈ names', Text.trim name.toList = cs)

theorem Padded.trim_eq {entry padded : String} (h : Padded entry padded) :
    Text.trim padded.toList = Text.trim entry.toList := by
  obtain ⟨before, after, rfl, hbefore, hafter⟩ := h
  rw [String.toList_append, String.toList_append, Text.trim_padded hbefore hafter]

theorem Edit.alike {names names' : List String} (h : Edit names names') : Alike names names' := by
  intro cs hcs
  cases h with
  | dropCapitals =>
    constructor
    · rintro ⟨name, hname, rfl⟩
      rw [Text.any_isUpper_trim] at hcs
      exact ⟨name, List.mem_filter.mpr ⟨hname, by simp only [hcs, Bool.not_false]⟩, rfl⟩
    · rintro ⟨name, hname, rfl⟩
      exact ⟨name, (List.mem_filter.mp hname).1, rfl⟩
  | @duplicate front back name hmem =>
    have hsame (entry : String) : entry ∈ front ++ back ↔ entry ∈ front ++ name :: back := by
      have hentry : entry = name → entry ∈ front ++ back := fun heq => heq ▸ hmem
      simp only [List.mem_append, List.mem_cons] at hentry ⊢
      tauto
    simp only [hsame]
  | reorder hperm => simp only [hperm.mem_iff]
  | pad hpadded =>
    induction hpadded with
    | nil => rfl
    | cons hfirst _ ih => simp only [List.exists_mem_cons_iff, hfirst.trim_eq, ih]

theorem alike_of_edits {names names' : List String} (h : Relation.EqvGen Edit names names') :
    Alike names names' := by
  induction h with
  | rel _ _ hedit => exact hedit.alike
  | refl _ => exact fun _ _ => Iff.rfl
  | symm _ _ _ ih => exact fun cs hcs => (ih cs hcs).symm
  | trans _ _ _ _ _ ih ih' => exact fun cs hcs => (ih cs hcs).trans (ih' cs hcs)

theorem fault?_eq_none_iff_trim {config : ClassifierConfig} :
    config.fault? = none ↔
      ¬ ∃ name ∈ config.builtinTypeNames, Text.trim name.toList = [] := by
  rw [fault?, Option.map_eq_none_iff, List.findIdx?_eq_none_iff]
  simp only [Text.trim_eq_nil_iff, Text.isBlankText, not_exists, not_and, Bool.not_eq_true]

theorem exists_ofConfig {config : ClassifierConfig} (h : config.fault? = none) :
    ∃ classifier, Classifier.ofConfig config = .ok classifier := by
  rw [Classifier.ofConfig, h]
  exact ⟨_, rfl⟩

variable {config config' : ClassifierConfig} {classifier classifier' : Classifier}

theorem isBuiltinType_iff (h : Classifier.ofConfig config = .ok classifier) (text : String) :
    classifier.isBuiltinType text.toList = true ↔ config.Allows text := by
  have hnames : classifier.typeNames =
      config.builtinTypeNames.map fun name => String.ofList (Text.trim name.toList) := by
    unfold Classifier.ofConfig at h
    split at h
    · cases h
    · rw [← Except.ok.inj h]
  rw [Classifier.isBuiltinType, hnames, List.contains_iff_mem, List.mem_map]
  simp only [String.ofList_inj, Allows]

theorem Alike.allows_iff (h : Alike config.builtinTypeNames config'.builtinTypeNames)
    (text : String) : config'.Allows text ↔ config.Allows text :=
  (h _ (Text.any_isUpper_lowercase _)).symm

theorem Alike.fault?_eq_none (h : Alike config.builtinTypeNames config'.builtinTypeNames)
    (hvalid : config.fault? = none) : config'.fault? = none := by
  rw [fault?_eq_none_iff_trim] at hvalid ⊢
  rwa [← h [] rfl]

theorem allows_congr (config : ClassifierConfig) {text text' : String}
    (h : text'.toList.map Char.toLower = text.toList.map Char.toLower) :
    config.Allows text' ↔ config.Allows text := by
  rw [Allows, Text.lowercase_trim_congr h, Allows]

end ClassifierConfig

namespace Classifier

variable {config : ClassifierConfig} {classifier classifier' : Classifier}

theorem classify_of_isIdentifier (classifier : Classifier) {category : Category}
    (h : category.isIdentifier = true) (text : String) :
    classifier.classify category text.toList =
      some (if classifier.isBuiltinType text.toList then .verbatim text else .identifier) := by
  cases category with
  | name kind =>
    have hname : classifier.classify (.name kind) text.toList =
        some (if classifier.isBuiltinType text.toList then .verbatim (String.ofList text.toList)
          else .identifier) := by
      cases kind with
      | attributeName | entityName | tagName | decorator => exact absurd h (by decide)
      | _ => rfl
    rw [hname, String.ofList_toList]
  | _ => cases h

/-- Only names of types are looked up, so nothing else of a classifier matters. -/
theorem classify_congr (h : ∀ text, classifier'.isBuiltinType text = classifier.isBuiltinType text)
    (category : Category) (text : List Char) :
    classifier'.classify category text = classifier.classify category text := by
  cases category with
  | keyword kind => cases kind <;> rfl
  | name kind => cases kind <;> simp only [classify, h]
  | _ => rfl

/-- A name keeps its spelling if an entry allows it, and is an identifier if none does. -/
theorem classify_eq_iff (hconfig : ofConfig config = .ok classifier) {category : Category}
    (h : category.isIdentifier = true) (text : String) :
    (classifier.classify category text.toList = some (.verbatim text) ↔ config.Allows text) ∧
      (classifier.classify category text.toList = some .identifier ↔ ¬ config.Allows text) := by
  rw [classifier.classify_of_isIdentifier h, ← ClassifierConfig.isBuiltinType_iff hconfig]
  cases classifier.isBuiltinType text.toList <;> simp

end Classifier

namespace Token

theorem mem_mergeLiterals {tokens : List Token} {token : Token} (h : token ∈ tokens)
    (hkind : token.kind ≠ .literal) : token ∈ mergeLiterals tokens := by
  induction tokens with
  | nil => cases h
  | cons first tokens ih =>
    change token ∈ absorb first (mergeLiterals tokens)
    have hrest (hmem : token ∈ tokens) := ih hmem
    generalize mergeLiterals tokens = joined at hrest
    cases joined with
    | nil =>
      rcases List.mem_cons.mp h with rfl | hmem
      · exact List.mem_singleton_self token
      · cases hrest hmem
    | cons next rest =>
      simp only [absorb]
      split
      · rename_i hliteral
        simp only [Symbol.isLiteral, Bool.and_eq_true, beq_iff_eq] at hliteral
        rcases List.mem_cons.mp h with rfl | hmem
        · exact absurd hliteral.1 hkind
        · rcases List.mem_cons.mp (hrest hmem) with rfl | hlater
          · exact absurd hliteral.2 hkind
          · exact List.mem_cons_of_mem _ hlater
      · rcases List.mem_cons.mp h with rfl | hmem
        · exact List.mem_cons_self
        · exact List.mem_cons_of_mem _ (hrest hmem)

variable {classifier classifier' : Classifier} {lexer : Lexer} {text sourceName : String}

theorem normalize_congr_classifier
    (h : ∀ text, classifier'.isBuiltinType text = classifier.isBuiltinType text) :
    normalize lexer text sourceName classifier' = normalize lexer text sourceName classifier := by
  have hpiece : ofPiece? classifier' sourceName = ofPiece? classifier sourceName := by
    funext located
    rw [ofPiece?, Classifier.classify_congr h, ofPiece?]
  have hpieces : ofPieces classifier' sourceName = ofPieces classifier sourceName := by
    funext pieces
    rw [ofPieces, hpiece, ofPieces]
  simp only [normalize, collect_eq_ofPieces, hpieces]

/-- Every span of a name has a token of its own, with the text under the span. -/
theorem exists_token_of_isIdentifier {spans : List Span} {tokens : List Token} {span : Span}
    (hscan : lexer.scan text = .ok spans)
    (hnormalize : normalize lexer text sourceName classifier = .ok tokens) (hspan : span ∈ spans)
    (hcategory : span.category.isIdentifier = true) :
    ∃ slice, span.text? text = some slice ∧
      ∃ token ∈ tokens, token.text = slice ∧ token.startOffset = span.start ∧
        classifier.classify span.category slice.toList = some token.kind := by
  obtain ⟨spans', pieces, hscan', hcut, rfl⟩ := normalize_eq_ok_iff.mp hnormalize
  obtain rfl : spans = spans' := Except.ok.inj (hscan.symm.trans hscan')
  obtain ⟨hunder, -⟩ := Piece.cut_eq_ok_iff.mp hcut
  obtain ⟨slice, hslice⟩ := Piece.exists_text? hunder hspan
  have hsymbol := classifier.classify_of_isIdentifier hcategory slice
  generalize hkept : (if classifier.isBuiltinType slice.toList then Symbol.verbatim slice
    else .identifier) = symbol at hsymbol
  have hmem : ⟨symbol, slice, span.start⟩ ∈ spans.filterMap (Span.kept? classifier text) := by
    refine List.mem_filterMap.mpr ⟨span, hspan, ?_⟩
    rw [Span.kept?, hslice, Option.bind_some, hsymbol, Option.map_some]
  rw [← @slices_ofPieces classifier text sourceName spans pieces hunder .start] at hmem
  obtain ⟨token, htoken, htokenSlice⟩ := List.mem_map.mp hmem
  obtain rfl : token.kind = symbol := congrArg KeptSlice.symbol htokenSlice
  refine ⟨slice, hslice, token, mem_mergeLiterals htoken ?_, congrArg KeptSlice.text htokenSlice,
    congrArg KeptSlice.start htokenSlice, hsymbol⟩
  rw [← hkept]
  split <;> simp

/-- What a list of type names that passes its check means. Entries with a capital, duplicates, the
order and blanks around entries make no difference to what comes of any text under any lexer, errors
included. A span of a name has a token with the text under it, which keeps its spelling if an entry,
without blanks, is the text's lower case without blanks, and is an identifier if none is. So the
ASCII case of a name decides nothing. -/
theorem normalize_allowList {config : ClassifierConfig} (hvalid : config.fault? = none) :
    ∃ classifier, Classifier.ofConfig config = .ok classifier ∧
      (∀ config' : ClassifierConfig,
        Relation.EqvGen ClassifierConfig.Edit config.builtinTypeNames config'.builtinTypeNames →
        ∃ classifier', Classifier.ofConfig config' = .ok classifier' ∧
          ∀ lexer text sourceName, normalize lexer text sourceName classifier' =
            normalize lexer text sourceName classifier) ∧
      (∀ lexer text sourceName spans tokens, lexer.scan text = .ok spans →
        normalize lexer text sourceName classifier = .ok tokens →
        ∀ span ∈ spans, span.category.isIdentifier = true →
          ∃ slice, span.text? text = some slice ∧
            ∃ token ∈ tokens, token.text = slice ∧ token.startOffset = span.start ∧
              (token.kind = .verbatim slice ↔ config.Allows slice) ∧
              (token.kind = .identifier ↔ ¬ config.Allows slice)) ∧
      ∀ category, category.isIdentifier = true → ∀ text : String,
        (classifier.classify category text.toList = some (.verbatim text) ↔ config.Allows text) ∧
        (classifier.classify category text.toList = some .identifier ↔ ¬ config.Allows text) ∧
        ∀ text' : String, text'.toList.map Char.toLower = text.toList.map Char.toLower →
          (classifier.classify category text'.toList = some (.verbatim text') ↔
            classifier.classify category text.toList = some (.verbatim text)) ∧
          (classifier.classify category text'.toList = some .identifier ↔
            classifier.classify category text.toList = some .identifier) := by
  obtain ⟨classifier, hconfig⟩ := ClassifierConfig.exists_ofConfig hvalid
  refine ⟨classifier, hconfig, ?_, ?_, ?_⟩
  · intro config' hedits
    have halike := ClassifierConfig.alike_of_edits hedits
    obtain ⟨classifier', hconfig'⟩ :=
      ClassifierConfig.exists_ofConfig (halike.fault?_eq_none hvalid)
    refine ⟨classifier', hconfig', fun lexer text sourceName => ?_⟩
    apply normalize_congr_classifier
    intro name
    have hallows := halike.allows_iff (String.ofList name)
    rw [← ClassifierConfig.isBuiltinType_iff hconfig, ← ClassifierConfig.isBuiltinType_iff hconfig',
      String.toList_ofList] at hallows
    exact Bool.eq_iff_iff.mpr hallows
  · intro lexer text sourceName spans tokens hscan hnormalize span hspan hcategory
    obtain ⟨slice, hslice, token, htoken, htext, hstart, hkind⟩ :=
      exists_token_of_isIdentifier hscan hnormalize hspan hcategory
    obtain ⟨hverbatim, hidentifier⟩ := Classifier.classify_eq_iff hconfig hcategory slice
    rw [hkind, Option.some.injEq] at hverbatim hidentifier
    exact ⟨slice, hslice, token, htoken, htext, hstart, hverbatim, hidentifier⟩
  · intro category hcategory text
    obtain ⟨hverbatim, hidentifier⟩ := Classifier.classify_eq_iff hconfig hcategory text
    refine ⟨hverbatim, hidentifier, fun text' hfold => ?_⟩
    obtain ⟨hverbatim', hidentifier'⟩ := Classifier.classify_eq_iff hconfig hcategory text'
    have hallows := config.allows_congr hfold
    exact ⟨by rw [hverbatim, hverbatim', hallows], by rw [hidentifier, hidentifier', hallows]⟩

/-- An entry with a capital goes, another one is doubled and put between blanks, and the order is
changed. A capital in front of a final sigma makes no difference. -/
theorem normalize_allowList_sigma :
    let config : ClassifierConfig := ⟨["Vec", "xς", "u8"]⟩
    let config' : ClassifierConfig := ⟨["u8", " xς\u3000", "xς"]⟩
    let lexer : Lexer := ⟨"rec", fun _ => .ok [⟨0, 3, .name .className⟩, ⟨3, 6, .name .plain⟩]⟩
    Relation.EqvGen ClassifierConfig.Edit config.builtinTypeNames config'.builtinTypeNames ∧
    ∃ classifier classifier' tokens, Classifier.ofConfig config = .ok classifier ∧
      Classifier.ofConfig config' = .ok classifier' ∧
      normalize lexer "XΣVec" "a.c" classifier = .ok tokens ∧
      normalize lexer "XΣVec" "a.c" classifier' = .ok tokens ∧
      (∃ token ∈ tokens, token.startOffset = 3 ∧ token.kind = .identifier) ∧
      classifier.classify (.name .plain) "XΣ".toList = some (.verbatim "XΣ") ∧
      classifier.classify (.name .plain) "xΣ".toList = some (.verbatim "xΣ") := by
  intro config config' lexer
  have hedits : Relation.EqvGen ClassifierConfig.Edit config.builtinTypeNames
      config'.builtinTypeNames := by
    have hdrop : ClassifierConfig.Edit config.builtinTypeNames ["xς", "u8"] := .dropCapitals _
    have hdouble : ClassifierConfig.Edit ["xς", "u8"] ["xς", "xς", "u8"] :=
      @ClassifierConfig.Edit.duplicate [] ["xς", "u8"] "xς" List.mem_cons_self
    have hpad : ClassifierConfig.Edit ["xς", "xς", "u8"] [" xς\u3000", "xς", "u8"] :=
      .pad (.cons ⟨" ", "\u3000", rfl, rfl, rfl⟩
        (.cons ⟨"", "", rfl, rfl, rfl⟩ (.cons ⟨"", "", rfl, rfl, rfl⟩ .nil)))
    have hreorder : ClassifierConfig.Edit [" xς\u3000", "xς", "u8"] config'.builtinTypeNames :=
      .reorder (@List.perm_append_comm _ [" xς\u3000", "xς"] ["u8"])
    exact (Relation.EqvGen.rel _ _ hdrop).trans _ _ _ ((Relation.EqvGen.rel _ _ hdouble).trans _ _ _
      ((Relation.EqvGen.rel _ _ hpad).trans _ _ _ (.rel _ _ hreorder)))
  obtain ⟨classifier, hconfig, hsame, hspans, hnames⟩ :=
    normalize_allowList (show config.fault? = none by decide)
  obtain ⟨classifier', hconfig', hequal⟩ := hsame config' hedits
  obtain ⟨tokens, htokens⟩ : ∃ tokens, normalize lexer "XΣVec" "a.c" classifier = .ok tokens := by
    obtain rfl := Except.ok.inj hconfig
    exact ⟨_, rfl⟩
  have hallowed : config.Allows "XΣ" := ⟨"xς", by simp [config], by decide +kernel⟩
  have hbarred : ¬ config.Allows "Vec" := by
    rintro ⟨entry, hentry, hequal⟩
    simp only [config, List.mem_cons, List.not_mem_nil, or_false] at hentry
    rcases hentry with rfl | rfl | rfl <;> revert hequal <;> decide +kernel
  obtain ⟨hverbatim, -, hcase⟩ := hnames (.name .plain) rfl "XΣ"
  have hcapital := hverbatim.mpr hallowed
  refine ⟨hedits, classifier, classifier', tokens, hconfig, hconfig', htokens,
    (hequal _ _ _).trans htokens, ?_, hcapital, (hcase "xΣ" (by decide)).1.mpr hcapital⟩
  obtain ⟨slice, hslice, token, htoken, -, hstart, -, hkind⟩ :=
    hspans lexer "XΣVec" "a.c" _ tokens rfl htokens ⟨3, 6, .name .plain⟩ (by simp) rfl
  obtain rfl : "Vec" = slice := Option.some.inj hslice
  exact ⟨token, htoken, hstart, hkind.mpr hbarred⟩

end Token

end SourcePrint
