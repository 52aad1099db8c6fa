import SourcePrint.Category.Tag
import SourcePrint.Proofs.Margins

namespace SourcePrint

namespace Category

/-- The table says of every entry what the category's own tag says, and finds it. -/
theorem tagTable_sound {entry : String × Category} (h : entry ∈ tagTable) :
    entry.1 = entry.2.tag ∧ withTag? entry.1 = some entry.2 := by
  have hall : (tagTable.all fun entry =>
      entry.1 == entry.2.tag && withTag? entry.1 == some entry.2) = true := by
    decide +kernel
  simpa using List.all_eq_true.mp hall entry h

theorem tagTable_complete (category : Category) : ∃ tag, (tag, category) ∈ tagTable := by
  have hmem : category ∈ tagTable.map Prod.snd := by
    cases category with
    | keyword kind => cases kind <;> decide
    | name kind => cases kind <;> decide
    | string kind => cases kind <;> decide
    | number kind => cases kind <;> decide
    | comment kind => cases kind <;> decide
    | _ => decide
  obtain ⟨entry, hentry, rfl⟩ := List.mem_map.mp hmem
  exact ⟨entry.1, hentry⟩

theorem withTag?_tag (category : Category) : withTag? category.tag = some category := by
  obtain ⟨tag, hentry⟩ := tagTable_complete category
  obtain ⟨htag, hfound⟩ := tagTable_sound hentry
  rwa [htag] at hfound

/-- The table of tags and the tags of the categories agree. -/
theorem withTag?_eq_some_iff {tag : String} {category : Category} :
    withTag? tag = some category ↔ tag = category.tag := by
  constructor
  · intro h
    obtain ⟨before, after, htable, -⟩ := List.lookup_eq_some_iff.mp h
    have hentry : (tag, category) ∈ tagTable := by simp [htable]
    exact (tagTable_sound hentry).1
  · rintro rfl
    exact withTag?_tag category

/-- Characters of a tag: none is blank, and they begin like neither `Token.` nor a shorthand. -/
def isTagText (cs : List Char) : Bool :=
  cs.all (!Text.isBlank ·) && !([['T', 'o'], ['S', 't'], ['N', 'u']].contains (cs.take 2))

theorem isTagText_literal {tag : String} {cs : List Char} (htag : tag = String.ofList cs)
    (h : isTagText cs = true) : isTagText tag.toList = true := by
  rwa [htag, String.toList_ofList]

theorem isTagText_tag (category : Category) : isTagText category.tag.toList = true := by
  cases category with
  | keyword kind => cases kind <;> refine isTagText_literal rfl ?_ <;> decide
  | name kind => cases kind <;> refine isTagText_literal rfl ?_ <;> decide
  | string kind => cases kind <;> refine isTagText_literal rfl ?_ <;> decide
  | number kind => cases kind <;> refine isTagText_literal rfl ?_ <;> decide
  | comment kind => cases kind <;> refine isTagText_literal rfl ?_ <;> decide
  | _ => refine isTagText_literal rfl ?_; decide

theorem not_isBlank_of_isTagText {cs : List Char} (h : isTagText cs = true) :
    ∀ c ∈ cs, Text.isBlank c = false := by
  obtain ⟨hall, -⟩ := Bool.and_eq_true_iff.mp h
  simpa using hall

theorem not_prefix_of_isTagText {cs word : List Char} (h : isTagText cs = true)
    (hword : word.take 2 ∈ [['T', 'o'], ['S', 't'], ['N', 'u']]) : word.isPrefixOf cs = false := by
  obtain ⟨-, hbegin⟩ := Bool.and_eq_true_iff.mp h
  rw [Bool.eq_false_iff]
  intro hprefix
  obtain ⟨rest, rfl⟩ := List.isPrefixOf_iff_prefix.mp hprefix
  have htwo : (word ++ rest).take 2 = word.take 2 := by
    have hlength : (word.take 2).length = 2 := by
      simp only [List.mem_cons, List.not_mem_nil, or_false] at hword
      rcases hword with hword | hword | hword <;> rw [hword] <;> rfl
    rw [List.length_take] at hlength
    exact List.take_append_of_le_length (by omega)
  rw [htwo] at hbegin
  simp [hword] at hbegin

theorem isShorthand_tag (category : Category) : isShorthand category.tag = false := by
  have htag := isTagText_tag category
  rw [isShorthand, not_prefix_of_isTagText htag (by decide),
    not_prefix_of_isTagText htag (by decide)]
  rfl

/-- What stands for a category without blanks and `Token.`: its tag, or that without `Literal.` for
strings and numbers. -/
def IsBare (category : Category) (bare : String) : Prop :=
  bare = category.tag ∨ isShorthand bare = true ∧ "Literal." ++ bare = category.tag

theorem ofTag_eq_ok_iff {tag : String} {category : Category} :
    ofTag tag = .ok category ↔ category.IsBare (bareTag tag) := by
  simp only [ofTag, IsBare, ← withTag?_eq_some_iff]
  generalize bareTag tag = bare
  cases hfull : withTag? bare with
  | some found =>
    have hshort : isShorthand bare = false := by
      rw [withTag?_eq_some_iff.mp hfull, isShorthand_tag]
    simp [hshort]
  | none =>
    by_cases hshort : isShorthand bare = true
    · cases withTag? ("Literal." ++ bare) <;> simp [hshort]
    · simp [hshort]

/-- The spellings of a category's tag: blanks around it and a leading `Token.` make no
difference. -/
def Spells (category : Category) (tag : String) : Prop :=
  ∃ before lead bare after, tag = before ++ (lead ++ bare) ++ after ∧
    Text.isBlankText before = true ∧ Text.isBlankText after = true ∧
    (lead = "" ∨ lead = "Token.") ∧ category.IsBare bare

theorem not_isBlank_of_isBare {category : Category} {bare : String} (h : category.IsBare bare) :
    ∀ c ∈ bare.toList, Text.isBlank c = false := by
  have htag := not_isBlank_of_isTagText (isTagText_tag category)
  rcases h with rfl | ⟨-, hlonger⟩
  · exact htag
  · intro c hc
    apply htag c
    rw [← hlonger, String.toList_append]
    exact List.mem_append_right _ hc

theorem not_prefix_of_isBare {category : Category} {bare : String} (h : category.IsBare bare) :
    "Token.".toList.isPrefixOf bare.toList = false := by
  rcases h with rfl | ⟨hshort, -⟩
  · exact not_prefix_of_isTagText (isTagText_tag category) (by decide)
  · rw [isShorthand, Bool.or_eq_true, List.isPrefixOf_iff_prefix,
      List.isPrefixOf_iff_prefix] at hshort
    rcases hshort with ⟨rest, hrest⟩ | ⟨rest, hrest⟩ <;> rw [← hrest] <;> rfl

theorem bareTag_spelled {category : Category} {before lead bare after : String}
    (hbefore : Text.isBlankText before = true) (hafter : Text.isBlankText after = true)
    (hlead : lead = "" ∨ lead = "Token.") (hbare : category.IsBare bare) :
    bareTag (before ++ (lead ++ bare) ++ after) = bare := by
  have hblank : ∀ c ∈ lead.toList ++ bare.toList, Text.isBlank c = false := by
    intro c hc
    rcases List.mem_append.mp hc with hc | hc
    · rcases hlead with rfl | rfl
      · simp at hc
      · have htoken : ("Token.".toList.all fun c => !Text.isBlank c) = true := by decide
        simpa using List.all_eq_true.mp htoken c hc
    · exact not_isBlank_of_isBare hbare c hc
  have htrim : Text.trim (before ++ (lead ++ bare) ++ after).toList =
      lead.toList ++ bare.toList := by
    rw [String.toList_append, String.toList_append, String.toList_append,
      Text.trim_padded hbefore hafter, Text.trim_eq_self hblank]
  have hdrop : dropStart "Token.".toList (lead.toList ++ bare.toList) = bare.toList := by
    rcases hlead with rfl | rfl
    · rw [String.toList_empty, List.nil_append, dropStart, not_prefix_of_isBare hbare]
      rfl
    · rw [dropStart, if_pos (List.isPrefixOf_iff_prefix.mpr (List.prefix_append _ _)),
        List.drop_left]
  rw [bareTag, htrim, hdrop, String.ofList_toList]

theorem ofTag_of_spells {category : Category} {tag : String} (h : category.Spells tag) :
    ofTag tag = .ok category := by
  obtain ⟨before, lead, bare, after, rfl, hbefore, hafter, hlead, hbare⟩ := h
  rw [ofTag_eq_ok_iff, bareTag_spelled hbefore hafter hlead hbare]
  exact hbare

theorem spells_tag (category : Category) : category.Spells category.tag :=
  ⟨"", "", category.tag, "", by simp, rfl, rfl, .inl rfl, .inl rfl⟩

/-- The only error of a tag is that it is unknown, and it is reported as it was given. -/
theorem eq_unknownCategory_of_ofTag {tag : String} {error : LexicalError}
    (h : ofTag tag = .error error) : error = .unknownCategory tag := by
  simp only [ofTag] at h
  split at h
  · cases h
  · split at h
    · split at h
      · cases h
      · exact (Except.error.inj h).symm
    · exact (Except.error.inj h).symm

/-- What is left of a tag between the blanks around it, without one `Token.` in front. -/
def Leaves (tag bare : String) : Prop :=
  ∃ inner, Text.IsTrimmed tag.toList inner ∧
    (inner = "Token.".toList ++ bare.toList ∨ ¬ "Token.".toList <+: inner ∧ inner = bare.toList)

/-- The short form of a string's or a number's tag, which leaves out `Literal.`. -/
def IsShort (category : Category) (bare : String) : Prop :=
  "Literal." ++ bare = category.tag ∧
    ("String".toList <+: bare.toList ∨ "Number".toList <+: bare.toList)

/-- A tag names a category by the category's own tag or by the short form of that. -/
def Names (tag : String) (category : Category) : Prop :=
  ∃ bare, Leaves tag bare ∧ (bare = category.tag ∨ category.IsShort bare)

theorem dropStart_eq_iff {start cs rest : List Char} :
    dropStart start cs = rest ↔ cs = start ++ rest ∨ ¬ start <+: cs ∧ cs = rest := by
  unfold dropStart
  split
  · rename_i hstarts
    obtain ⟨more, rfl⟩ := List.isPrefixOf_iff_prefix.mp hstarts
    simp
  · rename_i hstarts
    rw [List.isPrefixOf_iff_prefix] at hstarts
    constructor
    · intro hrest
      exact .inr ⟨hstarts, hrest⟩
    · rintro (rfl | ⟨-, hrest⟩)
      · exact absurd (List.prefix_append start rest) hstarts
      · exact hrest

theorem leaves_iff {tag bare : String} : Leaves tag bare ↔ bare = bareTag tag := by
  have hbare : bare = bareTag tag ↔
      dropStart "Token.".toList (Text.trim tag.toList) = bare.toList := by
    rw [bareTag, ← String.toList_inj, String.toList_ofList, eq_comm]
  rw [hbare, dropStart_eq_iff]
  unfold Leaves
  constructor
  · rintro ⟨inner, htrim, hinner⟩
    rwa [Text.isTrimmed_iff.mp htrim] at hinner
  · intro hinner
    exact ⟨_, Text.isTrimmed_iff.mpr rfl, hinner⟩

theorem isBare_iff {category : Category} {bare : String} :
    category.IsBare bare ↔ bare = category.tag ∨ category.IsShort bare := by
  rw [IsBare, IsShort, isShorthand, Bool.or_eq_true, List.isPrefixOf_iff_prefix,
    List.isPrefixOf_iff_prefix, and_comm]

theorem names_iff {tag : String} {category : Category} :
    Names tag category ↔ ofTag tag = .ok category := by
  rw [ofTag_eq_ok_iff, isBare_iff, Names]
  constructor
  · rintro ⟨bare, hleaves, hbare⟩
    rwa [leaves_iff.mp hleaves] at hbare
  · intro hbare
    exact ⟨_, leaves_iff.mpr rfl, hbare⟩

theorem ofTag_eq_error_iff {tag : String} {error : LexicalError} :
    ofTag tag = .error error ↔
      error = .unknownCategory tag ∧ ∀ category, ¬ Names tag category := by
  simp only [names_iff]
  cases htag : ofTag tag with
  | ok category => simp
  | error found => simp [eq_unknownCategory_of_ofTag htag, eq_comm]

/-- Tags are decoded exactly. The table of tags holds those of the categories and no others. Blanks
around a tag and one `Token.` in front leave a text, and there is only one such text; a tag stands
for a category if that text is the category's own tag or the short form of a string's or a number's.
Every other tag is unknown and is reported as it was given. So no tag stands for two categories, and
every category's own tag stands for it. -/
theorem ofTag_exact :
    (∀ tag category, withTag? tag = some category ↔ tag = category.tag) ∧
    (∀ tag, ∃! bare, Leaves tag bare) ∧
    (∀ tag category, ofTag tag = .ok category ↔ Names tag category) ∧
    (∀ tag error, ofTag tag = .error error ↔
      error = .unknownCategory tag ∧ ∀ category, ¬ Names tag category) ∧
    (∀ a b : Category, a ≠ b → ∀ tag, ¬ (Names tag a ∧ Names tag b)) ∧
    ∀ category, ofTag (tag category) = .ok category := by
  refine ⟨fun _ _ => withTag?_eq_some_iff, ?_, fun _ _ => names_iff.symm,
    fun _ _ => ofTag_eq_error_iff, ?_, ?_⟩
  · intro tag
    refine ⟨bareTag tag, leaves_iff.mpr rfl, ?_⟩
    intro other hother
    exact leaves_iff.mp hother
  · rintro a b hne tag ⟨ha, hb⟩
    rw [names_iff] at ha hb
    exact hne (Except.ok.inj (ha.symm.trans hb))
  · intro category
    exact ofTag_of_spells (spells_tag category)

/-- A short form between two kinds of blanks, one `Token.` too many, and a short form that only
strings and numbers have. -/
theorem ofTag_exact_spellings :
    ofTag "\u3000Token.String.Escape\n" = .ok (.string .escape) ∧
    Names "\u3000Token.String.Escape\n" (.string .escape) ∧
    ¬ Names "\u3000Token.String.Escape\n" (.string .plain) ∧
    (∀ category, ¬ Names " Token.Token.Name" category) ∧ ∀ category, ¬ Names "Date" category := by
  obtain ⟨-, -, hok, herror, hdisjoint, -⟩ := ofTag_exact
  have hdecoded : ofTag "\u3000Token.String.Escape\n" = .ok (.string .escape) := by decide +kernel
  have hnames := (hok _ _).mp hdecoded
  refine ⟨hdecoded, hnames, fun hplain => ?_, ?_, ?_⟩
  · exact hdisjoint (.string .escape) (.string .plain) (by decide) _ ⟨hnames, hplain⟩
  · exact ((herror _ (.unknownCategory " Token.Token.Name")).mp (by decide +kernel)).2
  · exact ((herror _ (.unknownCategory "Date")).mp (by decide +kernel)).2

end Category

end SourcePrint
